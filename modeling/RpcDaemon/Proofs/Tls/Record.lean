import RpcDaemon.Http.Request
import RpcDaemon.Proofs.Text.Blank
import RpcDaemon.Proofs.Text.Utf8
import RpcDaemon.Tls.Record

/-!
# Plain requests are no records

The first byte of a request is a blank or the first letter of a method, and no kind of record. So a
plain request on a listener for TLS is always refused.
-/

namespace RpcDaemon

namespace Http

/-- The kinds of records are neither blank, nor the end of a line, nor the first letter of a
method. -/
theorem record_kind_char : ∀ n, n < 25 → 20 ≤ n →
    isBlank (Char.ofNat n) = false ∧ (Char.ofNat n == '\r' || Char.ofNat n == '\n') = false ∧
      Char.ofNat n ≠ 'G' ∧ Char.ofNat n ≠ 'P' := by
  decide

/-- A line that starts with a kind of record is no request line. -/
theorem requestLine?_of_record_kind {n : Nat} (hlow : 20 ≤ n) (hhigh : n ≤ 24) (cs : List Char) :
    requestLine? (Char.ofNat n :: cs) = none := by
  obtain ⟨hblank, -, hG, hP⟩ := record_kind_char n (by omega) hlow
  obtain ⟨w, ws, hw⟩ := Chars.words_cons hblank cs
  unfold requestLine?
  rw [hw]
  cases ws with
  | nil => rfl
  | cons uri more =>
    dsimp only
    rw [if_neg]
    rintro (hm | hm)
    · rw [show "GET".toList = ['G', 'E', 'T'] from rfl] at hm
      exact hG (List.cons.inj hm).1
    · rw [show "POST".toList = ['P', 'O', 'S', 'T'] from rfl] at hm
      exact hP (List.cons.inj hm).1

/-- A stream that starts with a kind of record starts with no request. -/
theorem readRequest_ne_ok_of_record_kind {maxBody : Nat} {b : UInt8} {s rest : List UInt8}
    {r : Request} (hlow : 20 ≤ b.toNat) (hhigh : b.toNat ≤ 24) :
    readRequest maxBody (b :: s) ≠ .ok (r, rest) := by
  intro h
  have hne : b ≠ lineFeed := by
    rintro rfl
    exact absurd hlow (by decide)
  have hcut : cutLine maxLine (b :: s) = (b :: (cutLine 16383 s).1, (cutLine 16383 s).2) := by
    show cutLine (16383 + 1) (b :: s) = _
    rw [cutLine, if_neg hne]
  -- The first character stays at the front of the line that is read.
  have hline : ∃ cs, lineText (cutLine maxLine (b :: s)).1 = Char.ofNat b.toNat :: cs := by
    rw [hcut]
    unfold lineText Utf8.decodeLossy
    rw [Utf8.pieces_cons]
    unfold Utf8.piece
    rw [if_pos (by omega)]
    exact Chars.trimEndWhile_cons _ (record_kind_char b.toNat (by omega) hlow).2.1 _
  obtain ⟨cs, hcs⟩ := hline
  unfold readRequest readLine at h
  dsimp only at h
  split at h
  · cases h
  · rename_i line rest' hl
    split at hl
    · cases hl
    · simp only [Except.ok.injEq, Prod.mk.injEq] at hl
      rw [← hl.1, hcs, requestLine?_of_record_kind hlow hhigh] at h
      cases h

/-- What starts with a request is refused as a handshake. -/
theorem refuses_of_readRequest {maxBody : Nat} {s rest : List UInt8} {r : Request}
    (h : readRequest maxBody s = .ok (r, rest)) : Tls.refuses s = true := by
  cases s with
  | nil => cases h
  | cons b s =>
    have hkind : Tls.isRecordKind b = false := by
      unfold Tls.isRecordKind
      rw [Bool.and_eq_false_iff, decide_eq_false_iff_not, decide_eq_false_iff_not]
      by_cases hlow : (20 : UInt8) ≤ b
      · by_cases hhigh : b ≤ (24 : UInt8)
        · exact absurd h (readRequest_ne_ok_of_record_kind hlow hhigh)
        · exact Or.inr hhigh
      · exact Or.inl hlow
    unfold Tls.refuses
    split <;> simp_all

end Http

end RpcDaemon
