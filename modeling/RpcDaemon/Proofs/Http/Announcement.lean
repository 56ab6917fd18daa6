import RpcDaemon.Http.Reply

/-!
# What a reply announces

A reply announces in one line of its head whether the connection stays open. The challenge has no
such line.
-/

namespace RpcDaemon

namespace Http

namespace Reply

/-- The line that announces that the connection stays open. -/
def keepAliveLine : List Char := "Connection: ".toList ++ "keep-alive".toList

/-- The line that announces that the connection is closed. -/
def closeLine : List Char := "Connection: ".toList ++ "close".toList

/-- The reply says, whenever it is written, that the connection stays open. -/
def SaysKeepAlive (r : Reply) : Prop := ∀ secs, keepAliveLine ∈ r.headLines secs

/-- The reply says, whenever it is written, that the connection is closed. -/
def SaysClose (r : Reply) : Prop := ∀ secs, closeLine ∈ r.headLines secs

/-- A line of the head is the announcement or begins in another way. -/
theorem eq_of_mem_headLines {status : Nat} {body : String} {keepAlive : Bool} {secs : Nat}
    (tail : List Char)
    (h : "Connection: ".toList ++ tail ∈ headLines secs (.json status body keepAlive)) :
    tail = if keepAlive then "keep-alive".toList else "close".toList := by
  simp only [headLines, List.mem_cons, List.not_mem_nil, or_false] at h
  rcases h with h | h | h | h | h | h
  · exact absurd h (by simp)
  · exact absurd h (by simp)
  · exact List.append_cancel_left h
  · exact absurd h (by simp)
  · exact absurd h (by simp)
  · exact absurd h (by simp)

/-- The challenge has no such line. -/
theorem not_mem_headLines_challenge (secs : Nat) (tail : List Char) :
    "Connection: ".toList ++ tail ∉ headLines secs .challenge := by
  intro h
  simp only [headLines, List.mem_cons, List.not_mem_nil, or_false] at h
  rcases h with h | h | h | h | h | h
  · exact absurd h (by simp)
  · exact absurd h (by simp)
  · exact absurd h (by simp)
  · exact absurd h (by simp)
  · exact absurd h (by simp)
  · exact absurd h (by simp)

/-- What a reply says of the connection is what it is built with. -/
theorem saysKeepAlive_iff (r : Reply) : r.SaysKeepAlive ↔ r.keepAlive = true := by
  cases r with
  | json status body keepAlive =>
    constructor
    · intro h
      have hk := eq_of_mem_headLines "keep-alive".toList (h 0)
      cases keepAlive with
      | true => rfl
      | false => exact absurd hk (by decide)
    · intro h secs
      rw [show keepAlive = true from h]
      exact List.mem_cons_of_mem _ (List.mem_cons_of_mem _ List.mem_cons_self)
  | challenge =>
    constructor
    · intro h
      exact absurd (h 0) (not_mem_headLines_challenge 0 _)
    · intro h
      cases h

/-- A reply that says that the connection is closed does not say that it stays open. -/
theorem not_saysKeepAlive_of_saysClose {r : Reply} (h : r.SaysClose) : ¬ r.SaysKeepAlive := by
  rw [saysKeepAlive_iff]
  cases r with
  | json status body keepAlive =>
    have hk := eq_of_mem_headLines "close".toList (h 0)
    cases keepAlive with
    | true => exact absurd hk (by decide)
    | false => exact Bool.false_ne_true
  | challenge => exact Bool.false_ne_true

end Reply

end Http

end RpcDaemon
