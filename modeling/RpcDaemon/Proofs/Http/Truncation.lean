import RpcDaemon.Proofs.Http.Accounting

/-!
# Streams that end within a head

What a stream goes on with does not change the request that is read off it, once its head has ended.
A stream that ends within a head is refused, with one exception: white space at its end is taken for
the blank line, though its line feed may be still to come. Main statement: `truncated_heads`.
-/

namespace RpcDaemon

namespace Http

variable {head : Head} {rest s : List UInt8} {maxBody : Nat} {r : Request}

/-- A head with all its line feeds stands at the front of the stream. -/
def HeadEnds (s : List UInt8) : Prop :=
  ∃ (head : Head) (rest : List UInt8), head.Whole ∧ s = head.bytes ++ rest

/-- The stream ends with a line that is not finished and blank so far. -/
def EndsInBlanks (s : List UInt8) : Prop :=
  ∃ front stump, s = front ++ stump ∧ front.getLast? = some lineFeed ∧ stump ≠ [] ∧
    lineFeed ∉ stump ∧ IsBlankLine stump

/-- The head that is read has ended if its blank line has its line feed. -/
theorem Head.Opens.headEnds_iff (h : head.Opens rest) :
    HeadEnds (head.bytes ++ rest) ↔ IsLine head.blank := by
  constructor
  · rintro ⟨head', rest', hwhole, heq⟩
    obtain ⟨rfl, -⟩ := hwhole.eq_of_opens h heq.symm
    exact hwhole.blank
  · intro hblank
    exact ⟨head, rest, h.whole_iff.mpr hblank, rfl⟩

/-- Nothing follows a head that has not ended. -/
theorem Head.Opens.eq_nil_of_not_isLine (h : head.Opens rest) (hblank : ¬ IsLine head.blank) :
    rest = [] ∧ lineFeed ∉ head.blank := by
  obtain ⟨-, -, -, hfirst, -⟩ := h
  cases hfirst with
  | whole hline hlimit => exact absurd hline hblank
  | cut hne hnone hlimit => exact ⟨rfl, hnone⟩

/-- Whole lines one after the other end with a line feed. -/
theorem getLast?_append_flatten {line : List UInt8} {lines : List (List UInt8)} (h : IsLine line)
    (hlines : ∀ l ∈ lines, IsLine l) : (line ++ lines.flatten).getLast? = some lineFeed := by
  rcases List.eq_nil_or_concat lines with rfl | ⟨before, last, rfl⟩
  · rw [List.flatten_nil, List.append_nil]
    exact h.getLast?
  · rw [List.concat_eq_append] at hlines ⊢
    rw [List.flatten_concat, ← List.append_assoc, List.getLast?_append,
      (hlines last (by simp)).getLast?]
    rfl

/-- A head that is read and has not ended ends in blanks. -/
theorem Head.Opens.endsInBlanks (h : head.Opens rest) (hnone : lineFeed ∉ head.blank) :
    EndsInBlanks head.bytes := by
  refine ⟨head.request ++ head.lines.flatten, head.blank, ?_,
    getLast?_append_flatten h.request fun line hline => (h.lines line hline).1,
    h.blank.ne_nil, hnone, h.isBlank⟩
  rw [Head.bytes, List.append_assoc]

/-- A request with a head that has ended is announced whatever follows it. -/
theorem Head.Presents.of_isLine (h : head.Presents maxBody r rest) (hblank : IsLine head.blank)
    (rest' : List UInt8) : head.Presents maxBody r rest' :=
  { h with toOpens := h.toOpens.of_isLine hblank (r.body ++ rest') }

/-- What is read off a stream without a whole head is the stream itself, a head without body. -/
theorem exists_head_of_not_headEnds (hends : ¬ HeadEnds s)
    (hread : readRequest maxBody s = .ok (r, rest)) :
    ∃ head : Head, s = head.bytes ∧ lineFeed ∉ head.blank ∧ head.Acceptable [] ∧
      Announces head.lines 0 := by
  obtain ⟨head, rfl, hr⟩ := readRequest_eq_ok_iff.mp hread
  rw [hr.toOpens.headEnds_iff] at hends
  obtain ⟨hnil, hnone⟩ := hr.toOpens.eq_nil_of_not_isLine hends
  have haccept := hr.toAcceptable
  have hannounced := hr.announced
  rw [hnil] at haccept ⊢
  rw [(List.append_eq_nil_iff.mp hnil).1] at hannounced
  exact ⟨head, List.append_nil head.bytes, hnone, haccept, hannounced⟩

/-- **A request that is read is stable** under what follows exactly if its head has ended. -/
theorem readRequest_append_iff (hread : readRequest maxBody s = .ok (r, rest)) :
    (∀ t, readRequest maxBody (s ++ t) = .ok (r, rest ++ t)) ↔ HeadEnds s := by
  constructor
  · intro hstable
    -- One more byte follows the head, so its blank line has its line feed.
    obtain ⟨head, hbytes, hr⟩ := readRequest_eq_ok_iff.mp (hstable [lineFeed])
    have hblank : IsLine head.blank := hr.blank.isLine (by simp)
    rw [← List.append_assoc, ← List.append_assoc, List.append_cancel_right_eq] at hbytes
    exact ⟨head, r.body ++ rest, hr.toOpens.whole_iff.mpr hblank,
      by rw [hbytes, List.append_assoc]⟩
  · intro hends t
    obtain ⟨head, rfl, hr⟩ := readRequest_eq_ok_iff.mp hread
    have hblank := hr.toOpens.headEnds_iff.mp hends
    refine readRequest_eq_ok_iff.mpr ⟨head, ?_, hr.of_isLine hblank (rest ++ t)⟩
    rw [List.append_assoc, List.append_assoc]

/-- **Truncated heads.** A stream without a whole head is refused unless it ends in blanks. If it
ends in blanks it is read exactly if these, taken for the blank line, leave an acceptable head
without body. A request that is read stays the same, and leaves what follows, for every continuation
of the stream exactly if its head is a whole one. -/
theorem truncated_heads (maxBody : Nat) (s : List UInt8) :
    (¬ HeadEnds s → ¬ EndsInBlanks s → ∃ e, readRequest maxBody s = .error e) ∧
    (¬ HeadEnds s → ((∃ r rest, readRequest maxBody s = .ok (r, rest)) ↔
      ∃ head : Head, s = head.bytes ∧ lineFeed ∉ head.blank ∧ head.Acceptable [] ∧
        Announces head.lines 0)) ∧
    ∀ r rest, readRequest maxBody s = .ok (r, rest) →
      ((∀ t, readRequest maxBody (s ++ t) = .ok (r, rest ++ t)) ↔ HeadEnds s) := by
  refine ⟨fun hends hblanks => ?_, fun hends => ⟨?_, ?_⟩, fun r rest => readRequest_append_iff⟩
  · cases hread : readRequest maxBody s with
    | error e => exact ⟨e, rfl⟩
    | ok found =>
      obtain ⟨head, rfl, hnone, haccept, -⟩ := exists_head_of_not_headEnds hends hread
      exact absurd (haccept.toOpens.endsInBlanks hnone) hblanks
  · rintro ⟨r, rest, hread⟩
    exact exists_head_of_not_headEnds hends hread
  · rintro ⟨head, rfl, -, haccept, hannounced⟩
    obtain ⟨r, hread⟩ := haccept.readRequest_bytes hannounced maxBody
    exact ⟨r, [], hread⟩

/-- A head whose blank line has only its carriage return so far. -/
def unfinishedHead : Head :=
  ⟨Utf8.ofString "GET / HTTP/1.1\r\n", [], Utf8.ofString "\r"⟩

/-- The carriage return is taken for the blank line. -/
theorem unfinishedHead_opens : unfinishedHead.Opens [] where
  request := ⟨Utf8.ofString "GET / HTTP/1.1\r", by decide, by decide⟩
  request_short := by decide
  lines := List.forall_mem_nil _
  blank := .cut (by decide) (by decide) (by decide)
  isBlank := by decide +kernel

/-- A stream that ends within the blank line is read as a request, without the header that comes
with the rest of that line. -/
theorem unfinished_blank_line_accepted :
    ¬ HeadEnds unfinishedHead.bytes ∧
      readRequest 0 unfinishedHead.bytes = .ok (⟨"GET", "/", 1, [], []⟩, []) ∧
      readRequest 0 (unfinishedHead.bytes ++ Utf8.ofString "a: b\r\n\r\n") =
        .ok (⟨"GET", "/", 1, [("a", "b")], []⟩, []) := by
  refine ⟨?_, by decide +kernel, by decide +kernel⟩
  intro hends
  rw [← List.append_nil unfinishedHead.bytes, unfinishedHead_opens.headEnds_iff] at hends
  exact absurd hends.lineFeed_mem (by decide)

end Http

end RpcDaemon
