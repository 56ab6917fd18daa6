import RpcDaemon.Proofs.Http.HeaderLines

/-!
# Heads of requests

A head is a request line, header lines and a blank line, as they stand in a stream. Where one stands
at the front of a stream, what is read off the stream is known from it: the request is what the
lines give, and it is refused if too many names come before the last of them. So a request that is
read is exactly a head, its body and what is left. Main statements: `Head.Opens.readRequest_append`
and `readRequest_eq_ok_iff`.
-/

namespace RpcDaemon

namespace Http

/-- A request line, header lines and a blank line, each with its end. -/
structure Head where
  /-- The request line. -/
  request : List UInt8
  /-- The header lines. -/
  lines : List (List UInt8)
  /-- The blank line. -/
  blank : List UInt8

variable {head head' : Head} {line blank blank' rest rest' s : List UInt8} {maxBody n : Nat}
  {before lines lines' : List (List UInt8)} {r : Request}

namespace Head

/-- The head as it stands in a stream. -/
def bytes (head : Head) : List UInt8 :=
  head.request ++ (head.lines.flatten ++ head.blank)

/-- Every line of the head has its line feed, and the blank line is the first after the request line
that is blank. -/
structure Whole (head : Head) : Prop where
  /-- The request line is a whole one. -/
  request : IsLine head.request
  /-- The header lines are whole ones, and not blank. -/
  lines : ∀ line ∈ head.lines, IsLine line ∧ ¬ IsBlankLine line
  /-- The blank line is a whole one. -/
  blank : IsLine head.blank
  /-- The blank line is blank. -/
  isBlank : IsBlankLine head.blank

/-- The head stands at the front of a stream that goes on with the other bytes: its lines are read
one after the other, up to the first that is blank. -/
structure Opens (head : Head) (rest : List UInt8) : Prop where
  /-- The request line is a whole one. -/
  request : IsLine head.request
  /-- The request line is within the limit. -/
  request_short : head.request.length ≤ maxLine
  /-- The header lines are whole ones within the limit, and not blank. -/
  lines : ∀ line ∈ head.lines, IsLine line ∧ line.length ≤ maxLine ∧ ¬ IsBlankLine line
  /-- The blank line is a line of what is left. -/
  blank : IsFirstLine head.blank rest
  /-- The blank line is blank. -/
  isBlank : IsBlankLine head.blank

/-- The request line calls for a method that is known, of a target that starts with a slash. -/
def Callable (head : Head) : Prop :=
  ∃ method uri more, Chars.words (lineText head.request) = method :: uri :: more ∧
    (method = "GET".toList ∨ method = "POST".toList) ∧ uri.head? = some '/'

/-- The head is one that the reader accepts: it is read, it calls for something, and the lines
before the last one give fewer names than the limit. -/
structure Acceptable (head : Head) (rest : List UInt8) : Prop extends head.Opens rest where
  /-- The request line can be answered. -/
  callable : head.Callable
  /-- There is room for the header of every line. -/
  room : (headerNames head.lines.dropLast).card < maxHeaders

/-- The head announces the request, whose body follows it before the rest. -/
structure Presents (head : Head) (maxBody : Nat) (r : Request) (rest : List UInt8) : Prop
    extends head.Acceptable (r.body ++ rest) where
  /-- The request line gives method, target and version. -/
  requestLine : requestLine? (lineText head.request) = some (r.method, r.uri, r.minorVersion)
  /-- The header lines give the headers. -/
  headers : r.headers = headersOf head.lines
  /-- The header lines announce the length of the body. -/
  announced : Announces head.lines r.body.length
  /-- The length fits a word. -/
  word : r.body.length < 18446744073709551616
  /-- The body is within the limit. -/
  fits : r.body.length ≤ maxBody

end Head

/-! ## Where a head ends -/

/-- Header lines and a blank line stand in a stream in one way only, even if the stream ends with
the second blank line. -/
theorem lines_unique (h : ∀ line ∈ lines, IsLine line ∧ ¬ IsBlankLine line)
    (hb : IsLine blank ∧ IsBlankLine blank)
    (h' : ∀ line ∈ lines', IsLine line ∧ ¬ IsBlankLine line)
    (hb' : IsFirstLine blank' rest' ∧ IsBlankLine blank')
    (heq : lines.flatten ++ (blank ++ rest) = lines'.flatten ++ (blank' ++ rest')) :
    lines = lines' ∧ blank = blank' ∧ rest = rest' := by
  -- What starts with a whole line has a line feed, so the other blank line is a whole one too.
  have hwhole : ∀ {a t : List UInt8}, IsLine a → a ++ t = blank' ++ rest' → IsLine blank' := by
    intro a t ha hat
    obtain ⟨hfirst, -⟩ := hb'
    cases hfirst with
    | whole hline hlimit => exact hline
    | cut hne hnone hlimit =>
      rw [List.append_nil] at hat
      exact absurd (hat ▸ List.mem_append_left t ha.lineFeed_mem) hnone
  induction lines generalizing lines' with
  | nil =>
    cases lines' with
    | nil =>
      obtain ⟨hblank, hrest⟩ := hb.1.append_inj (hwhole hb.1 heq) heq
      exact ⟨rfl, hblank, hrest⟩
    | cons line' lines' =>
      obtain ⟨hline, hblank⟩ := h' line' List.mem_cons_self
      rw [List.flatten_cons, List.append_assoc] at heq
      obtain ⟨rfl, -⟩ := hb.1.append_inj hline heq
      exact absurd hb.2 hblank
  | cons line lines ih =>
    obtain ⟨hline, hblank⟩ := h line List.mem_cons_self
    rw [List.flatten_cons, List.append_assoc] at heq
    cases lines' with
    | nil =>
      obtain ⟨rfl, -⟩ := hline.append_inj (hwhole hline heq) heq
      exact absurd hb'.2 hblank
    | cons line' lines' =>
      rw [List.flatten_cons, List.append_assoc] at heq
      obtain ⟨rfl, htail⟩ := hline.append_inj (h' line' List.mem_cons_self).1 heq
      obtain ⟨rfl, hrest⟩ := ih (fun l hl => h l (List.mem_cons_of_mem line hl))
        (fun l hl => h' l (List.mem_cons_of_mem line hl)) htail
      exact ⟨rfl, hrest⟩

/-- The bytes of a head before what follows them. -/
theorem Head.bytes_append (head : Head) (rest : List UInt8) :
    head.bytes ++ rest = head.request ++ (head.lines.flatten ++ (head.blank ++ rest)) := by
  rw [bytes, List.append_assoc, List.append_assoc]

/-- **A whole head at the front of a stream is the one that is read.** -/
theorem Head.Whole.eq_of_opens (h : head.Whole) (h' : head'.Opens rest')
    (heq : head.bytes ++ rest = head'.bytes ++ rest') : head = head' ∧ rest = rest' := by
  rw [Head.bytes_append, Head.bytes_append] at heq
  obtain ⟨hrequest, htail⟩ := h.request.append_inj h'.request heq
  obtain ⟨hlines, hblank, hrest⟩ := lines_unique h.lines ⟨h.blank, h.isBlank⟩
    (fun line hline => ⟨(h'.lines line hline).1, (h'.lines line hline).2.2⟩)
    ⟨h'.blank, h'.isBlank⟩ htail
  obtain ⟨request, lines, blank⟩ := head
  obtain rfl : request = head'.request := hrequest
  obtain rfl : lines = head'.lines := hlines
  obtain rfl : blank = head'.blank := hblank
  exact ⟨rfl, hrest⟩

/-- A head that is read is a whole one exactly if its blank line has its line feed. -/
theorem Head.Opens.whole_iff (h : head.Opens rest) : head.Whole ↔ IsLine head.blank :=
  ⟨fun hw => hw.blank, fun hblank =>
    { request := h.request
      lines := fun line hline => ⟨(h.lines line hline).1, (h.lines line hline).2.2⟩
      blank := hblank
      isBlank := h.isBlank }⟩

/-- What follows a whole head does not matter to its being read. -/
theorem Head.Opens.of_isLine (h : head.Opens rest) (hblank : IsLine head.blank)
    (rest' : List UInt8) : head.Opens rest' :=
  { h with blank := h.blank.of_isLine hblank rest' }

/-! ## Header lines -/

/-- Where there is no room for one more header, a line that is not blank is refused. -/
theorem readHeaders_of_full {headers : List (String × String)} {text : List Char}
    (hl : readLine s = .ok (text, rest)) (hb : (Chars.trim text).isEmpty = false)
    (hfull : maxHeaders ≤ headers.length) : readHeaders headers s = .error .tooManyHeaders := by
  rw [readHeaders]
  split
  · rename_i e he
    rw [hl] at he
    cases he
  · rename_i text' rest' hl'
    rw [hl] at hl'
    cases hl'
    rw [if_neg (by simp [hb]), if_pos hfull]

/-- **Header lines are read up to the blank line**, after those read before. They are refused if the
lines before the last one give too many names. -/
theorem readHeaders_lines (before : List (List UInt8))
    (hlines : ∀ line ∈ lines, IsLine line ∧ line.length ≤ maxLine ∧ ¬ IsBlankLine line)
    (hblank : IsFirstLine blank rest ∧ IsBlankLine blank) :
    readHeaders (headersOf before) (lines.flatten ++ (blank ++ rest)) =
      if lines ≠ [] ∧ maxHeaders ≤ (headerNames (before ++ lines.dropLast)).card then
        .error .tooManyHeaders
      else .ok (headersOf (before ++ lines), rest) := by
  induction lines generalizing before with
  | nil =>
    rw [if_neg fun h => h.1 rfl, List.append_nil]
    exact readHeaders_of_blank hblank.1.readLine_append (isEmpty_trim_lineText_iff.mpr hblank.2)
  | cons line lines ih =>
    obtain ⟨hline, hlimit, hfilled⟩ := hlines line List.mem_cons_self
    have hread : readLine (line ++ (lines.flatten ++ (blank ++ rest))) =
        .ok (lineText line, lines.flatten ++ (blank ++ rest)) :=
      (IsFirstLine.whole hline hlimit).readLine_append
    have hfilled : (Chars.trim (lineText line)).isEmpty = false :=
      Bool.eq_false_iff.mpr fun h => hfilled (isEmpty_trim_lineText_iff.mp h)
    rw [List.flatten_cons, List.append_assoc]
    by_cases hfull : maxHeaders ≤ (headerNames before).card
    · -- The names that are there already are among those of all lines but the last.
      have hmono := Finset.card_le_card
        (headerNames_mono (List.prefix_append before (line :: lines).dropLast))
      rw [readHeaders_of_full hread hfilled (by rw [length_headersOf]; exact hfull),
        if_pos ⟨List.cons_ne_nil line lines, hfull.trans hmono⟩]
    · rw [readHeaders_of_line hread hfilled (by rw [length_headersOf]; omega), ← headersOf_concat,
        ih (before ++ [line]) fun l hl => hlines l (List.mem_cons_of_mem line hl)]
      cases lines with
      | nil =>
        rw [if_neg fun h => h.1 rfl, List.append_nil]
        exact (if_neg fun h => hfull (by simpa using h.2)).symm
      | cons next lines =>
        rw [List.dropLast_cons_of_ne_nil (List.cons_ne_nil next lines), List.append_assoc,
          List.append_assoc, List.singleton_append, List.singleton_append]
        simp only [ne_eq, reduceCtorEq, not_false_eq_true, true_and]

/-- What is read as headers are lines up to a blank one. -/
theorem exists_lines_of_readHeaders {headers headers' : List (String × String)}
    (h : readHeaders headers s = .ok (headers', rest)) :
    ∃ (lines : List (List UInt8)) (blank : List UInt8), s = lines.flatten ++ (blank ++ rest) ∧
      (∀ line ∈ lines, IsLine line ∧ line.length ≤ maxLine ∧ ¬ IsBlankLine line) ∧
      IsFirstLine blank rest ∧ IsBlankLine blank := by
  fun_induction readHeaders headers s with
  | case1 headers s e he => cases h
  | case2 headers s text rest' hl hb =>
    obtain ⟨line, rfl, hline, rfl⟩ := readLine_eq_ok_iff.mp hl
    cases h
    exact ⟨[], line, rfl, List.forall_mem_nil _, hline, isEmpty_trim_lineText_iff.mp hb⟩
  | case3 headers s text rest' hl hb hm => cases h
  | case4 headers s text rest' hl hb hm hlt ih =>
    obtain ⟨line, rfl, hline, rfl⟩ := readLine_eq_ok_iff.mp hl
    obtain ⟨lines, blank, rfl, hlines, hfirst, hblank⟩ := ih h
    -- Something follows the line, so it has its line feed.
    have hwhole : IsLine line := hline.isLine (by simp [hfirst.ne_nil])
    refine ⟨line :: lines, blank, by rw [List.flatten_cons, List.append_assoc], ?_, hfirst, hblank⟩
    rw [List.forall_mem_cons]
    exact ⟨⟨hwhole, hline.length_le, fun hblank => hb (isEmpty_trim_lineText_iff.mpr hblank)⟩,
      hlines⟩

/-- The header lines of a head are read, if the lines before the last one leave room for it. -/
theorem Head.Opens.readHeaders_append (h : head.Opens rest) :
    readHeaders [] (head.lines.flatten ++ (head.blank ++ rest)) =
      if maxHeaders ≤ (headerNames head.lines.dropLast).card then .error .tooManyHeaders
      else .ok (headersOf head.lines, rest) := by
  refine (readHeaders_lines [] h.lines ⟨h.blank, h.isBlank⟩).trans
    (if_congr (and_iff_right_of_imp ?_) rfl rfl)
  -- Without lines there are no names.
  intro hfull hnil
  rw [List.nil_append, hnil] at hfull
  exact absurd hfull (by decide)

/-! ## Requests -/

/-- What a request line gives: its first two words are a known method and a target that starts with
a slash, the third one may give the version. -/
theorem requestLine?_eq_some_iff {line : List Char} {method uri : String} {version : Nat} :
    requestLine? line = some (method, uri, version) ↔
      ∃ more, Chars.words line = method.toList :: uri.toList :: more ∧
        (method.toList = "GET".toList ∨ method.toList = "POST".toList) ∧
        uri.toList.head? = some '/' ∧ version = (more.head?.map minorVersion).getD 0 := by
  unfold requestLine?
  constructor
  · intro h
    split at h
    · rename_i method' uri' more hwords
      split at h
      · rename_i hmethod
        split at h
        · rename_i huri
          simp only [Option.some.injEq, Prod.mk.injEq] at h
          obtain ⟨rfl, rfl, rfl⟩ := h
          rw [String.toList_ofList, String.toList_ofList]
          exact ⟨more, hwords, hmethod, huri, by cases more <;> rfl⟩
        · cases h
      · cases h
    · cases h
  · rintro ⟨more, hwords, hmethod, huri, rfl⟩
    rw [hwords]
    dsimp only
    rw [if_pos hmethod, if_pos huri, String.ofList_toList, String.ofList_toList]
    cases more <;> rfl

/-- A head calls for something exactly if its request line gives a method and a target. -/
theorem Head.callable_iff :
    head.Callable ↔ ∃ call, requestLine? (lineText head.request) = some call := by
  constructor
  · rintro ⟨method, uri, more, hwords, hmethod, huri⟩
    refine ⟨(String.ofList method, String.ofList uri, _), requestLine?_eq_some_iff.mpr
      ⟨more, ?_, ?_, ?_, rfl⟩⟩
    · rw [String.toList_ofList, String.toList_ofList, hwords]
    · rw [String.toList_ofList]
      exact hmethod
    · rw [String.toList_ofList]
      exact huri
  · rintro ⟨⟨method, uri, version⟩, h⟩
    obtain ⟨more, hwords, hmethod, huri, -⟩ := requestLine?_eq_some_iff.mp h
    exact ⟨_, _, more, hwords, hmethod, huri⟩

/-- What is read off a stream that starts with a head, but for the body. -/
theorem Head.Opens.readRequest_append (h : head.Opens rest) {method uri : String} {version : Nat}
    (hline : requestLine? (lineText head.request) = some (method, uri, version)) (maxBody : Nat) :
    readRequest maxBody (head.bytes ++ rest) =
      if maxHeaders ≤ (headerNames head.lines.dropLast).card then .error .tooManyHeaders
      else
        match bodyLength (headersOf head.lines) with
        | .error e => .error e
        | .ok length =>
            match readBody maxBody length rest with
            | .error e => .error e
            | .ok (body, rest) =>
                .ok (⟨method, uri, version, headersOf head.lines, body⟩, rest) := by
  have hread : readLine (head.request ++ (head.lines.flatten ++ (head.blank ++ rest))) =
      .ok (lineText head.request, head.lines.flatten ++ (head.blank ++ rest)) :=
    (IsFirstLine.whole h.request h.request_short).readLine_append
  rw [Head.bytes_append, readRequest, hread]
  dsimp only
  rw [hline]
  dsimp only
  rw [h.readHeaders_append]
  by_cases hfull : maxHeaders ≤ (headerNames head.lines.dropLast).card
  · rw [if_pos hfull]
    exact (if_pos hfull).symm
  · rw [if_neg hfull]
    exact (if_neg hfull).symm

/-- A body is taken off a stream exactly if it is within the limit and stands there. -/
theorem readBody_eq_ok_iff {body : List UInt8} :
    readBody maxBody n s = .ok (body, rest) ↔
      n ≤ maxBody ∧ body.length = n ∧ s = body ++ rest := by
  constructor
  · intro h
    unfold readBody at h
    split at h
    · cases h
    · split at h
      · cases h
      · cases h
        exact ⟨by omega, by rw [List.length_take]; omega, (List.take_append_drop n s).symm⟩
  · rintro ⟨hfits, rfl, rfl⟩
    exact Message.readBody_append hfits rest

/-- A stream that a request is read off starts with a head. -/
theorem exists_head_of_readRequest (h : readRequest maxBody s = .ok (r, rest)) :
    ∃ (head : Head) (after : List UInt8), s = head.bytes ++ after ∧ head.Opens after ∧
      ∃ call, requestLine? (lineText head.request) = some call := by
  unfold readRequest at h
  split at h
  · cases h
  · rename_i text after hl
    obtain ⟨request, rfl, hfirst, rfl⟩ := readLine_eq_ok_iff.mp hl
    split at h
    · cases h
    · rename_i method uri version hline
      split at h
      · cases h
      · rename_i headers after' hh
        obtain ⟨lines, blank, rfl, hlines, hblank, hisBlank⟩ := exists_lines_of_readHeaders hh
        refine ⟨⟨request, lines, blank⟩, after', ?_, ?_, _, hline⟩
        · rw [Head.bytes_append]
        exact
          { request := hfirst.isLine (by simp [hblank.ne_nil])
            request_short := hfirst.length_le
            lines := hlines
            blank := hblank
            isBlank := hisBlank }

/-- **A request that is read is a head, its body and what is left.** -/
theorem readRequest_eq_ok_iff :
    readRequest maxBody s = .ok (r, rest) ↔
      ∃ head : Head, s = head.bytes ++ (r.body ++ rest) ∧ head.Presents maxBody r rest := by
  constructor
  · intro h
    obtain ⟨head, after, rfl, hopens, ⟨method, uri, version⟩, hline⟩ := exists_head_of_readRequest h
    rw [hopens.readRequest_append hline] at h
    split at h
    · cases h
    · rename_i hroom
      split at h
      · cases h
      · rename_i length hlength
        split at h
        · cases h
        · rename_i body rest' hbody
          cases h
          obtain ⟨hfits, rfl, rfl⟩ := readBody_eq_ok_iff.mp hbody
          obtain ⟨hannounced, hword⟩ := bodyLength_headersOf_eq_ok_iff.mp hlength
          exact ⟨head, rfl,
            { hopens with
              callable := Head.callable_iff.mpr ⟨_, hline⟩
              room := Nat.not_le.mp hroom
              requestLine := hline
              headers := rfl
              announced := hannounced
              word := hword
              fits := hfits }⟩
  · rintro ⟨head, rfl, h⟩
    rw [h.toOpens.readRequest_append h.requestLine, if_neg (Nat.not_le.mpr h.room),
      bodyLength_headersOf_eq_ok_iff.mpr ⟨h.announced, h.word⟩]
    dsimp only
    rw [readBody_eq_ok_iff.mpr ⟨h.fits, rfl, rfl⟩, ← h.headers]

end Http

end RpcDaemon
