import RpcDaemon.Proofs.Http.Framing

/-!
# Requests on a stream

The requests of a stream are read one after the other, each from where the one before it ended. If
clients composed them from clean headers within the limits, then they come out as they were,
whatever their bodies look like and whatever follows. Main statement: `requests_read_back`.
-/

namespace RpcDaemon

namespace Http

/-- The requests that stand one after the other at the front of a stream, and what follows them. -/
inductive Reads (maxBody : Nat) : List UInt8 → List Request → List UInt8 → Prop where
  /-- No request is read. -/
  | nil (s : List UInt8) : Reads maxBody s [] s
  /-- A request is read, and then others. -/
  | cons {s mid rest : List UInt8} {r : Request} {rs : List Request} :
      readRequest maxBody s = .ok (r, mid) → Reads maxBody mid rs rest →
        Reads maxBody s (r :: rs) rest

variable {maxBody : Nat} {s rest : List UInt8} {r : Request} {e : FramingError}

/-- A stream whose first request cannot be read holds no request. -/
theorem readAll_of_error (h : readRequest maxBody s = .error e) : readAll maxBody s = ([], e) := by
  rw [readAll]
  split
  · rename_i e' he
    rw [h] at he
    cases he
    rfl
  · rename_i hr
    rw [h] at hr
    cases hr

/-- The first request of a stream stands before those of what follows it. -/
theorem readAll_of_ok (h : readRequest maxBody s = .ok (r, rest)) :
    readAll maxBody s = (r :: (readAll maxBody rest).1, (readAll maxBody rest).2) := by
  rw [readAll]
  split
  · rename_i he
    rw [h] at he
    cases he
  · rename_i r' rest' hr
    rw [h] at hr
    cases hr
    rfl

/-! ## Composed requests -/

/-- Messages that come one after the other are read before what follows them. -/
theorem readAll_flatten_render (hmax : maxBody < 18446744073709551616) {ms : List Message}
    (hms : ∀ m ∈ ms, m.Framed maxBody) (rest : List UInt8) :
    readAll maxBody ((ms.map Message.render).flatten ++ rest) =
      (ms.map Message.request ++ (readAll maxBody rest).1, (readAll maxBody rest).2) := by
  induction ms with
  | nil => rfl
  | cons m ms ih =>
    have hread := (hms m List.mem_cons_self).readRequest_render hmax
      ((ms.map Message.render).flatten ++ rest)
    rw [List.map_cons, List.flatten_cons, List.append_assoc, readAll_of_ok hread,
      ih fun m' hm' => hms m' (List.mem_cons_of_mem m hm'), List.map_cons, List.cons_append]

/-- **Requests are read back off a stream.** A message with a known method, a target that is one
word, clean headers of which no two have one name, and an announced body, all within the limits, is
read off the front of any stream with exactly its method, its target, its version, its headers,
their names in lower case, and its body, and exactly what follows it is left. Each header is found
under its name in any case of the letters. So from messages that come one after the other every one
is read, and then what follows them is read as if it stood alone. -/
theorem requests_read_back (hmax : maxBody < 18446744073709551616) {m : Message}
    (hm : m.Framed maxBody) :
    (∀ rest, readRequest maxBody (m.render ++ rest) =
      .ok (⟨m.method, m.uri, m.minorVersion, m.headers.map fun h => (lowered h.1, h.2), m.body⟩,
        rest)) ∧
    (∀ h ∈ m.headers, ∀ name, lowered name = lowered h.1 →
      m.request.header? name = some h.2) ∧
    ∀ ms : List Message, (∀ m' ∈ ms, m'.Framed maxBody) → ∀ rest,
      readAll maxBody (((m :: ms).map Message.render).flatten ++ rest) =
        ((m :: ms).map Message.request ++ (readAll maxBody rest).1, (readAll maxBody rest).2) := by
  refine ⟨fun rest => hm.readRequest_render hmax rest, ?_, ?_⟩
  · intro h hh name hname
    show m.readHeaders.lookup (lowered name) = some h.2
    rw [hname]
    exact Message.lookup_readHeaders hm.nodup hh
  · intro ms hms rest
    refine readAll_flatten_render hmax ?_ rest
    intro m' hm'
    rcases List.mem_cons.mp hm' with rfl | hm'
    · exact hm
    · exact hms m' hm'

/-- A message whose body is a request itself is read as one request. -/
theorem requests_read_back_of_nested :
    let inner : Message := ⟨"GET", "/x", 0, [("content-length", "0")], []⟩
    let m : Message :=
      ⟨"POST", "/", 1, [("X-Note", "a: b"), ("Content-LENGTH", "038")], inner.render⟩
    m.Framed 38 ∧
      readRequest 38 (m.render ++ inner.render) =
        .ok (⟨"POST", "/", 1, [("x-note", "a: b"), ("content-length", "038")], inner.render⟩,
          inner.render) := by
  intro inner m
  have hm : m.Framed 38 :=
    { method := Or.inr rfl
      uri_head := by decide
      uri_word := by decide
      minorVersion := by decide
      request_short := by decide +kernel
      count := by decide
      clean := by
        intro h hh
        rcases List.mem_cons.mp hh with rfl | hh
        · exact ⟨by decide, by decide, by decide, by decide, by decide⟩
        · rcases List.mem_singleton.mp hh with rfl
          exact ⟨by decide, by decide, by decide, by decide, by decide⟩
      headers_short := by decide +kernel
      nodup := by decide
      announced := ⟨("Content-LENGTH", "038"), by decide, by decide, by decide +kernel⟩
      fits := by decide +kernel }
  exact ⟨hm, (requests_read_back (by decide) hm).1 inner.render⟩

end Http

end RpcDaemon
