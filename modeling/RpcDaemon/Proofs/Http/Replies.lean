import RpcDaemon.Proofs.Http.Calendar
import RpcDaemon.Proofs.Http.Receiving

/-!
# Replies on a stream

A client reads the replies of a stream one after the other, each from where the one before it ended.
It gets the statuses and bodies that the server was asked to send, whatever stands in the bodies and
whenever they are sent, and nothing is left over. Main statement: `replies_read_back`.
-/

namespace RpcDaemon

namespace Http

/-! ## Reading to the end -/

namespace Received

/-- The body as a text. -/
def text (x : Received) : String :=
  String.ofList (Utf8.decodeLossy x.body)

theorem length_cut_le (s : List UInt8) : (cut s).2.length ≤ s.length := by
  have happend := congrArg List.length (cutLine_append s.length s)
  rw [List.length_append] at happend
  show (cutLine s.length s).2.length ≤ s.length
  omega

/-- A line takes at least one byte. -/
theorem length_cut_lt (b : UInt8) (s : List UInt8) : (cut (b :: s)).2.length < (b :: s).length := by
  have happend := congrArg List.length (cutLine_append (b :: s).length (b :: s))
  have hline : 0 < (cutLine (b :: s).length (b :: s)).1.length := by
    simp only [List.length_cons, cutLine]
    split
    · simp
    · simp
  rw [List.length_append] at happend
  show (cutLine (b :: s).length (b :: s)).2.length < (b :: s).length
  omega

theorem length_readHeaders_le (fuel : Nat) (s : List UInt8) :
    (readHeaders fuel s).2.length ≤ s.length := by
  induction fuel generalizing s with
  | zero => exact Nat.le_refl _
  | succ fuel ih =>
    have hcut := length_cut_le s
    have hrest := ih (cut s).2
    unfold readHeaders
    dsimp only
    split
    · exact hcut
    · split
      · exact Nat.le_trans hrest hcut
      · exact Nat.le_trans hrest hcut

/-- At the end of a stream there is no reply. -/
theorem read?_nil : read? [] = none := by
  have hdecode : Utf8.decodeLossy [] = [] := Utf8.decodeLossy_encode []
  have hcut : cut [] = ([], []) := by
    unfold cut
    show (Utf8.decodeLossy [], []) = _
    rw [hdecode]
  rw [read?, hcut]
  rfl

/-- A reply that is read has at least one byte. -/
theorem length_lt_of_read? {s rest : List UInt8} {x : Received} (h : read? s = some (x, rest)) :
    rest.length < s.length := by
  cases s with
  | nil =>
    rw [read?_nil] at h
    cases h
  | cons b s =>
    have hcut := length_cut_lt b s
    have hheaders := length_readHeaders_le ((cut (b :: s)).2.length + 1) (cut (b :: s)).2
    unfold read? at h
    dsimp only at h
    split at h
    · split at h
      · cases h
      · split at h
        · cases h
        · obtain ⟨-, rfl⟩ := Prod.mk.inj (Option.some.inj h)
          rw [List.length_drop]
          omega
    · cases h

/-- Reads replies until there is none, and says what is left. -/
def readAll (s : List UInt8) : List Received × List UInt8 :=
  match h : read? s with
  | none => ([], s)
  | some (x, rest) =>
      have : rest.length < s.length := length_lt_of_read? h
      let (xs, rest) := readAll rest
      (x :: xs, rest)
termination_by s.length

/-- A stream that does not start with a reply is left as it is. -/
theorem readAll_of_none {s : List UInt8} (h : read? s = none) : readAll s = ([], s) := by
  rw [readAll]
  split
  · rfl
  · rename_i hsome
    rw [h] at hsome
    cases hsome

/-- The first reply of a stream stands before those of what follows it. -/
theorem readAll_of_some {s rest : List UInt8} {x : Received} (h : read? s = some (x, rest)) :
    readAll s = (x :: (readAll rest).1, (readAll rest).2) := by
  rw [readAll]
  split
  · rename_i hnone
    rw [h] at hnone
    cases hnone
  · rename_i hsome
    rw [h] at hsome
    cases hsome
    rfl

end Received

/-! ## Moments -/

/-- The months of the calendar have names. -/
theorem CivilDate.month_bounds (days : Nat) :
    0 < (CivilDate.ofDays days).month ∧ (CivilDate.ofDays days).month ≤ months.length :=
  ⟨(CivilDate.valid_ofDays days).month_pos, (CivilDate.valid_ofDays days).month_le⟩

/-! ## What the server sends -/

/-- A status code. -/
structure StatusCode where
  /-- The number. -/
  val : Nat
  /-- It has three digits. -/
  valid : isStatus val = true

/-- What the server is asked to send. -/
inductive Sending where
  /-- A status with a body. -/
  | reply (status : StatusCode) (body : String) (keepAlive : Bool)
  /-- The challenge for credentials. -/
  | challenge

namespace Sending

/-- The status that the client has to see. -/
def status : Sending → Nat
  | .reply status _ _ => status.val
  | .challenge => 401

/-- The body that the client has to see: with status 401 the page of the challenge. -/
def body : Sending → String
  | .reply status body _ => if status.val = 401 then challengePage else body
  | .challenge => challengePage

/-- The reply that is sent. -/
def toReply : Sending → Reply
  | .reply status body keepAlive => .of status.val body keepAlive
  | .challenge => .challenge

/-- The bytes that are sent at a moment, in seconds after the start of 1970; a moment before that
counts as the start of 1970. -/
def bytes (secs : Int) (q : Sending) : List UInt8 :=
  q.toReply.render secs.toNat

/-- The reply has the status and the body that were asked for, but for the challenge. -/
theorem toReply_spec (q : Sending) : q.toReply.status = q.status ∧ q.toReply.body = q.body := by
  cases q with
  | challenge => exact ⟨rfl, rfl⟩
  | reply status body keepAlive =>
    show (Reply.of status.val body keepAlive).status = status.val ∧
      (Reply.of status.val body keepAlive).body = if status.val = 401 then challengePage else body
    unfold Reply.of
    by_cases h : status.val = 401
    · rw [if_pos h, if_pos h, h]
      exact ⟨rfl, rfl⟩
    · rw [if_neg h, if_neg h]
      exact ⟨rfl, rfl⟩

theorem status_lt (q : Sending) : q.status < 65536 := by
  cases q with
  | challenge => decide
  | reply status body keepAlive =>
    have hvalid := status.valid
    simp only [isStatus, Bool.and_eq_true, decide_eq_true_eq] at hvalid
    show status.val < 65536
    omega

/-- **A reply is read off the front of a stream** with its status and its body. -/
theorem read?_bytes (secs : Int) (q : Sending) (rest : List UInt8) :
    ∃ x, Received.read? (q.bytes secs ++ rest) = some (x, rest) ∧ x.status = q.status ∧
      x.text = q.body := by
  obtain ⟨hstatus, hbody⟩ := q.toReply_spec
  have hlt := q.status_lt
  rw [← hstatus] at hlt
  refine ⟨q.toReply.received secs.toNat, Reply.read?_render secs.toNat hlt rest, hstatus, ?_⟩
  show String.ofList (Utf8.decodeLossy (Utf8.encode q.toReply.body.toList)) = q.body
  rw [Utf8.decodeLossy_encode, String.ofList_toList, hbody]

/-- The bytes of replies that are sent one after the other, each at its moment. -/
def stream (sent : List (Int × Sending)) : List UInt8 :=
  sent.flatMap fun p => p.2.bytes p.1

/-- The replies of a stream come before those of what follows them. -/
theorem readAll_stream_append (sent : List (Int × Sending)) (rest : List UInt8) :
    ∃ xs, Received.readAll (stream sent ++ rest) =
        (xs ++ (Received.readAll rest).1, (Received.readAll rest).2) ∧
      xs.map (fun x => (x.status, x.text)) = sent.map fun p => (p.2.status, p.2.body) := by
  induction sent with
  | nil => exact ⟨[], rfl, rfl⟩
  | cons p sent ih =>
    obtain ⟨xs, hread, hmap⟩ := ih
    obtain ⟨x, hx, hstatus, hbody⟩ := p.2.read?_bytes p.1 (stream sent ++ rest)
    refine ⟨x :: xs, ?_, ?_⟩
    · rw [stream, List.flatMap_cons, List.append_assoc, ← stream, Received.readAll_of_some hx, hread]
      rfl
    · rw [List.map_cons, List.map_cons, hmap, hstatus, hbody]

end Sending

/-- **Replies delimit themselves.** From the replies that a server sends one after the other, each at
some moment, a client reads exactly the statuses and the bodies that were asked for, and no byte is
left. No reply fails for its date, since every moment lies in a month that has a name. -/
theorem replies_read_back (sent : List (Int × Sending)) :
    (Received.readAll (Sending.stream sent)).1.map (fun x => (x.status, x.text)) =
        sent.map (fun p => (p.2.status, p.2.body)) ∧
      (Received.readAll (Sending.stream sent)).2 = [] ∧
      ∀ p ∈ sent, 0 < (CivilDate.ofDays (p.1.toNat / daySeconds)).month ∧
        (CivilDate.ofDays (p.1.toNat / daySeconds)).month ≤ months.length := by
  obtain ⟨xs, hread, hmap⟩ := Sending.readAll_stream_append sent []
  rw [List.append_nil, Received.readAll_of_none Received.read?_nil, List.append_nil] at hread
  refine ⟨?_, ?_, fun p _ => CivilDate.month_bounds _⟩
  · rw [hread]
    exact hmap
  · rw [hread]

end Http

end RpcDaemon
