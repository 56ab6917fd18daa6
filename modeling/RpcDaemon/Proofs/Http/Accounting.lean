import RpcDaemon.Proofs.Http.Head

/-!
# Every byte of a request is accounted for

A request that is read is a head of short lines, a body of the announced length, and nothing of what
follows. What the request holds is what the lines of the head say. The number of names in a head is
limited, the number of its lines is not. Main statements: `requests_accounted_for` and
`names_limited`.
-/

namespace RpcDaemon

namespace Http

variable {head : Head} {rest s : List UInt8} {maxBody n : Nat} {r : Request}

/-! ## Requests with a head -/

/-- An acceptable head with an announced body announces a request. -/
theorem Head.Acceptable.exists_presents {body : List UInt8} (h : head.Acceptable (body ++ rest))
    (hannounced : Announces head.lines body.length) (hword : body.length < 18446744073709551616)
    (hfits : body.length ≤ maxBody) :
    ∃ r : Request, r.body = body ∧ head.Presents maxBody r rest := by
  obtain ⟨⟨method, uri, version⟩, hline⟩ := Head.callable_iff.mp h.callable
  exact ⟨⟨method, uri, version, headersOf head.lines, body⟩, rfl,
    { h with
      requestLine := hline
      headers := rfl
      announced := hannounced
      word := hword
      fits := hfits }⟩

/-- An acceptable head at the end of a stream is read if it announces no body. -/
theorem Head.Acceptable.readRequest_bytes (h : head.Acceptable [])
    (hannounced : Announces head.lines 0) (maxBody : Nat) :
    ∃ r, readRequest maxBody head.bytes = .ok (r, []) := by
  have hbare : head.Acceptable ([] ++ []) := h
  obtain ⟨r, hbody, hr⟩ := hbare.exists_presents hannounced (by decide) (Nat.zero_le maxBody)
  refine ⟨r, readRequest_eq_ok_iff.mpr ⟨head, ?_, hr⟩⟩
  rw [hbody, List.append_nil, List.append_nil]

/-- The lines of a head that is read are within the limit. -/
theorem Head.Opens.short (h : head.Opens rest) :
    ∀ line ∈ head.request :: (head.lines ++ [head.blank]), line.length ≤ maxLine := by
  rw [List.forall_mem_cons, List.forall_mem_append, List.forall_mem_singleton]
  exact ⟨h.request_short, fun line hline => (h.lines line hline).2.1, h.blank.length_le⟩

/-- The lines give one name more at most than the lines before the last one. -/
theorem card_headerNames_le_dropLast (lines : List (List UInt8)) :
    (headerNames lines).card ≤ (headerNames lines.dropLast).card + 1 := by
  rcases List.eq_nil_or_concat lines with rfl | ⟨lines, line, rfl⟩
  · exact Nat.zero_le _
  · rw [List.concat_eq_append, List.dropLast_concat]
    exact card_headerNames_concat_le lines line

/-- A request has no more headers than the limit. -/
theorem Head.Presents.length_headers_le (h : head.Presents maxBody r rest) :
    r.headers.length ≤ maxHeaders := by
  have hroom := h.room
  have hlast := card_headerNames_le_dropLast head.lines
  rw [h.headers, length_headersOf]
  omega

/-- A head that announces more than the limit is refused with the length that it announces. -/
theorem Head.Acceptable.readRequest_of_lt (h : head.Acceptable rest)
    (hannounced : Announces head.lines n) (hword : n < 18446744073709551616)
    (hlarge : maxBody < n) :
    readRequest maxBody (head.bytes ++ rest) = .error (.bodyTooLarge n) := by
  obtain ⟨⟨method, uri, version⟩, hline⟩ := Head.callable_iff.mp h.callable
  rw [h.toOpens.readRequest_append hline, if_neg (Nat.not_le.mpr h.room),
    bodyLength_headersOf_eq_ok_iff.mpr ⟨hannounced, hword⟩]
  dsimp only
  rw [readBody, if_pos hlarge]

/-- **Requests are accounted for.** A stream that a request is read off is a head, the body and what
is left. The lines of the head are within the limit; the request line gives the method, which is
known, and the target, which starts with a slash. No name of a header comes twice, there are at most
256, the names are trimmed and in lower case, the values trimmed. A header is found under a name as
the last line of that name gives it, and is not found exactly if no line gives it. The body has the
length that the lines announce, which is within the limit. Every such stream is read, and an
acceptable head that announces more than the limit is refused with that length. -/
theorem requests_accounted_for (maxBody : Nat) (s : List UInt8) :
    (∀ r rest, readRequest maxBody s = .ok (r, rest) →
      ∃ head : Head, s = head.bytes ++ (r.body ++ rest) ∧ head.Opens (r.body ++ rest) ∧
        (∀ line ∈ head.request :: (head.lines ++ [head.blank]), line.length ≤ 16384) ∧
        (∃ more, Chars.words (lineText head.request) = r.method.toList :: r.uri.toList :: more) ∧
        (r.method = "GET" ∨ r.method = "POST") ∧ r.uri.toList.head? = some '/' ∧
        (r.headers.map Prod.fst).Nodup ∧ r.headers.length ≤ 256 ∧
        (∀ name value, (name, value) ∈ r.headers →
          lowered (trimmed name) = name ∧ trimmed value = value) ∧
        (∀ name value, r.header? name = some value ↔ LastGives head.lines name value) ∧
        (∀ name, r.header? name = none ↔ ∀ line ∈ head.lines, ∀ value, ¬ Gives line name value) ∧
        Announces head.lines r.body.length ∧ r.body.length ≤ maxBody) ∧
    (∀ (head : Head) (body rest : List UInt8), s = head.bytes ++ (body ++ rest) →
      head.Acceptable (body ++ rest) → Announces head.lines body.length →
      body.length < 18446744073709551616 → body.length ≤ maxBody →
      ∃ r, r.body = body ∧ readRequest maxBody s = .ok (r, rest)) ∧
    ∀ (head : Head) (rest : List UInt8) (n : Nat), s = head.bytes ++ rest →
      head.Acceptable rest → Announces head.lines n → n < 18446744073709551616 → maxBody < n →
      readRequest maxBody s = .error (.bodyTooLarge n) := by
  refine ⟨?_, ?_, ?_⟩
  · intro r rest h
    obtain ⟨head, hs, hr⟩ := readRequest_eq_ok_iff.mp h
    obtain ⟨more, hwords, hmethod, huri, -⟩ := requestLine?_eq_some_iff.mp hr.requestLine
    have hnames := (names_headersOf head.lines).1
    rw [← hr.headers] at hnames
    refine ⟨head, hs, hr.toOpens, hr.toOpens.short, ⟨more, hwords⟩, ?_, huri, hnames,
      hr.length_headers_le, ?_, ?_, ?_, hr.announced, hr.fits⟩
    · exact hmethod.imp String.toList_injective String.toList_injective
    · intro name value hm
      rw [hr.headers] at hm
      obtain ⟨line, -, hline⟩ := exists_of_mem_headersOf hm
      exact trimmed_of_headerOf? hline
    · intro name value
      rw [Request.header?, hr.headers, lookup_headersOf_eq_some_iff]
    · intro name
      rw [Request.header?, hr.headers, lookup_headersOf_eq_none_iff]
  · rintro head body rest rfl h hannounced hword hfits
    obtain ⟨r, rfl, hr⟩ := h.exists_presents hannounced hword hfits
    exact ⟨r, rfl, readRequest_eq_ok_iff.mpr ⟨head, rfl, hr⟩⟩
  · rintro head rest n rfl h hannounced hword hlarge
    exact h.readRequest_of_lt hannounced hword hlarge

/-! ## The limit on headers -/

/-- A head with its line feeds is read with some body exactly if it is acceptable and announces a
body that stands there. -/
theorem Head.Whole.readRequest_iff (h : head.Whole) :
    (∃ r rest', readRequest maxBody (head.bytes ++ rest) = .ok (r, rest')) ↔
      head.Acceptable rest ∧ ∃ n, Announces head.lines n ∧ n < 18446744073709551616 ∧
        n ≤ maxBody ∧ n ≤ rest.length := by
  constructor
  · rintro ⟨r, rest', hread⟩
    obtain ⟨head', heq, hr⟩ := readRequest_eq_ok_iff.mp hread
    obtain ⟨rfl, rfl⟩ := h.eq_of_opens hr.toOpens heq
    exact ⟨hr.toAcceptable, r.body.length, hr.announced, hr.word, hr.fits, by simp⟩
  · rintro ⟨haccept, n, hannounced, hword, hfits, hthere⟩
    have hlength : (rest.take n).length = n := by
      rw [List.length_take]
      omega
    rw [← List.take_append_drop n rest] at haccept
    rw [← hlength] at hannounced hword hfits
    obtain ⟨r, hbody, hr⟩ := haccept.exists_presents hannounced hword hfits
    refine ⟨r, rest.drop n, readRequest_eq_ok_iff.mpr ⟨head, ?_, hr⟩⟩
    rw [hbody, List.take_append_drop]

/-- The announced length is never refused for the number of headers. -/
theorem bodyLength_ne_tooManyHeaders (headers : List (String × String)) :
    bodyLength headers ≠ .error .tooManyHeaders := by
  unfold bodyLength
  split
  · split <;> exact fun h => by cases h
  · exact fun h => by cases h

/-- The body is never refused for the number of headers. -/
theorem readBody_ne_tooManyHeaders : readBody maxBody n s ≠ .error .tooManyHeaders := by
  unfold readBody
  split
  · exact fun h => by cases h
  · split <;> exact fun h => by cases h

/-- Where only the names are too many, that is the error. -/
theorem Head.Opens.readRequest_eq_tooManyHeaders_iff (h : head.Opens rest) (hcall : head.Callable) :
    readRequest maxBody (head.bytes ++ rest) = .error .tooManyHeaders ↔
      maxHeaders ≤ (headerNames head.lines.dropLast).card := by
  obtain ⟨⟨method, uri, version⟩, hline⟩ := Head.callable_iff.mp hcall
  rw [h.readRequest_append hline]
  constructor
  · intro herror
    split at herror
    · assumption
    · split at herror
      · rename_i e he
        cases herror
        exact absurd he (bodyLength_ne_tooManyHeaders _)
      · split at herror
        · rename_i e he
          cases herror
          exact absurd he readBody_ne_tooManyHeaders
        · cases herror
  · intro hfull
    exact if_pos hfull

/-- A head with its line feeds is accepted exactly if its lines are within the limit, it calls for
something and there is room for its headers. -/
theorem Head.Whole.acceptable_iff (h : head.Whole) :
    head.Acceptable rest ↔
      (∀ line ∈ head.request :: (head.lines ++ [head.blank]), line.length ≤ maxLine) ∧
        head.Callable ∧ (headerNames head.lines.dropLast).card < maxHeaders := by
  constructor
  · intro haccept
    exact ⟨haccept.toOpens.short, haccept.callable, haccept.room⟩
  · rintro ⟨hshort, hcall, hroom⟩
    rw [List.forall_mem_cons, List.forall_mem_append, List.forall_mem_singleton] at hshort
    exact
      { request := h.request
        request_short := hshort.1
        lines := fun line hline =>
          ⟨(h.lines line hline).1, hshort.2.1 line hline, (h.lines line hline).2⟩
        blank := .whole h.blank hshort.2.2
        isBlank := h.isBlank
        callable := hcall
        room := hroom }

/-- **The names of headers are limited, the lines are not.** A head whose lines all have their line
feeds is read with some body exactly if its lines are within the limit for lines, its request line is
one, the lines before the last one give fewer than 256 names, and a body that is announced within the
limits stands there, however many lines there are. Where only the names are too many, that is the
error. More than 256 names are refused in any case. -/
theorem names_limited (maxBody : Nat) (head : Head) (rest : List UInt8) :
    (head.Whole →
      ((∃ r rest', readRequest maxBody (head.bytes ++ rest) = .ok (r, rest')) ↔
        (∀ line ∈ head.request :: (head.lines ++ [head.blank]), line.length ≤ 16384) ∧
          head.Callable ∧ (headerNames head.lines.dropLast).card < 256 ∧
          ∃ n, Announces head.lines n ∧ n < 18446744073709551616 ∧ n ≤ maxBody ∧
            n ≤ rest.length)) ∧
    (head.Opens rest → head.Callable →
      (readRequest maxBody (head.bytes ++ rest) = .error .tooManyHeaders ↔
        256 ≤ (headerNames head.lines.dropLast).card)) ∧
    (head.Whole → 256 < (headerNames head.lines).card →
      ∃ e, readRequest maxBody (head.bytes ++ rest) = .error e) := by
  refine ⟨fun h => ?_, fun h hcall => h.readRequest_eq_tooManyHeaders_iff hcall, fun h hmany => ?_⟩
  · rw [h.readRequest_iff, h.acceptable_iff, and_assoc, and_assoc]
    rfl
  · cases hread : readRequest maxBody (head.bytes ++ rest) with
    | error e => exact ⟨e, rfl⟩
    | ok found =>
      have hroom := (h.readRequest_iff.mp ⟨found.1, found.2, hread⟩).1.room
      have hlast := card_headerNames_le_dropLast head.lines
      unfold maxHeaders at hroom
      omega

/-- Lines that all give one header give its name only. -/
theorem headerNames_subset_singleton {lines : List (List UInt8)} {h : String × String}
    (hlines : ∀ line ∈ lines, headerOf? line = some h) : headerNames lines ⊆ {h.1} := by
  intro name hname
  obtain ⟨line, hline, hgives⟩ := List.mem_filterMap.mp (List.mem_toFinset.mp hname)
  rw [hlines line hline] at hgives
  exact Finset.mem_singleton.mpr (Option.some.inj hgives).symm

/-- A head with one header line repeated. -/
def repeatedHead (n : Nat) : Head :=
  ⟨Utf8.ofString "POST / HTTP/1.1\r\n", List.replicate n (Utf8.ofString "a: b\r\n"),
    Utf8.ofString "\r\n"⟩

/-- The lines of a repeated head are whole ones within the limit. -/
theorem repeatedHead_opens (n : Nat) (rest : List UInt8) : (repeatedHead n).Opens rest := by
  have hrequest : IsLine (Utf8.ofString "POST / HTTP/1.1\r\n") :=
    ⟨Utf8.ofString "POST / HTTP/1.1\r", by decide, by decide⟩
  have hline : IsLine (Utf8.ofString "a: b\r\n") :=
    ⟨Utf8.ofString "a: b\r", by decide, by decide⟩
  have hblank : IsLine (Utf8.ofString "\r\n") := ⟨Utf8.ofString "\r", by decide, by decide⟩
  have hgiven : ¬ IsBlankLine (Utf8.ofString "a: b\r\n") := by decide +kernel
  have hempty : IsBlankLine (Utf8.ofString "\r\n") := by decide +kernel
  exact
    { request := hrequest
      request_short := show (Utf8.ofString "POST / HTTP/1.1\r\n").length ≤ maxLine by decide
      lines := fun line hm => by
        rw [List.eq_of_mem_replicate hm]
        exact ⟨hline, by decide, hgiven⟩
      blank := .whole hblank (show (Utf8.ofString "\r\n").length ≤ maxLine by decide)
      isBlank := hempty }

/-- A repeated head is accepted however often its line is repeated. -/
theorem repeatedHead_acceptable (n : Nat) (rest : List UInt8) :
    (repeatedHead n).Acceptable rest ∧ Announces (repeatedHead n).lines 0 := by
  have hgives : headerOf? (Utf8.ofString "a: b\r\n") = some ("a", "b") := by decide +kernel
  have hcall : requestLine? (lineText (Utf8.ofString "POST / HTTP/1.1\r\n")) =
      some ("POST", "/", 1) := by decide +kernel
  have hlines : ∀ line ∈ (repeatedHead n).lines, headerOf? line = some ("a", "b") := by
    intro line hm
    rw [List.eq_of_mem_replicate hm, hgives]
  -- One name stands in all the lines, and it is not that of the length.
  have hnames := Finset.card_le_card (headerNames_subset_singleton fun line hm =>
    hlines line (List.mem_of_mem_dropLast hm))
  rw [Finset.card_singleton] at hnames
  refine ⟨⟨repeatedHead_opens n rest, Head.callable_iff.mpr ⟨_, hcall⟩,
    Nat.lt_of_le_of_lt hnames (by decide)⟩, Or.inr ⟨?_, rfl⟩⟩
  intro line hm value hlength
  have hheader := headerOf?_eq_some_iff.mpr hlength
  rw [hlines line hm] at hheader
  exact absurd (Prod.mk.inj (Option.some.inj hheader)).1 (by decide)

/-- A head with 257 lines that repeat one name is read. -/
theorem repeated_name_escapes_limit :
    (repeatedHead 257).Whole ∧ 256 < (repeatedHead 257).lines.length ∧
      ∃ r, readRequest 0 (repeatedHead 257).bytes = .ok (r, []) := by
  obtain ⟨haccept, hannounced⟩ := repeatedHead_acceptable 257 []
  refine ⟨haccept.whole_iff.mpr ⟨Utf8.ofString "\r", by decide, by decide⟩, ?_,
    haccept.readRequest_bytes hannounced 0⟩
  rw [repeatedHead, List.length_replicate]
  decide

end Http

end RpcDaemon
