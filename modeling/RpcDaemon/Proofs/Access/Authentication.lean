import RpcDaemon.Proofs.Access.Credentials
import RpcDaemon.Proofs.Text.Canonical

/-!
# Which header values are accepted

Credentials accept one text only, with any blanks around it: behind `Basic ` there has to be the
canonical Base64 text of user, colon and password. Main statement: `accepts_one_text`.
-/

namespace RpcDaemon

namespace Credentials

/-- The secret is the user and the password with a colon between them. -/
theorem secret_eq (c : Credentials) :
    c.secret = Utf8.ofString (c.user ++ ":" ++ c.password) := by
  rw [Utf8.ofString, String.toList_append, String.toList_append, List.append_assoc]
  rfl

/-- A value is accepted if what follows `Basic ` is the text of the secret, up to blanks. -/
theorem accepts_iff (c : Credentials) (header : String) :
    c.accepts header = true ↔ ∃ rest, header.toList = "Basic ".toList ++ rest ∧
      Base64.Canonical c.secret (Chars.trim rest) := by
  unfold accepts
  constructor
  · intro h
    split at h
    · rename_i rest hrest
      refine ⟨rest, Chars.dropHead?_eq_some_iff.mp hrest, ?_⟩
      split at h
      · rename_i bytes hbytes
        rw [← eq_of_beq h]
        exact Base64.decode?_eq_some_iff.mp hbytes
      · cases h
    · cases h
  · rintro ⟨rest, hrest, htext⟩
    rw [Chars.dropHead?_eq_some_iff.mpr hrest]
    dsimp only
    rw [Base64.decode?_eq_some_iff.mpr htext]
    exact beq_self_eq_true c.secret

/-- Blanks around a canonical text are trimmed, and nothing else is. -/
theorem trim_blanks_canonical {bytes : List UInt8} {before text after : List Char}
    (hbefore : ∀ ch ∈ before, isBlank ch = true) (hafter : ∀ ch ∈ after, isBlank ch = true)
    (htext : Base64.Canonical bytes text) : Chars.trim (before ++ (text ++ after)) = text := by
  rw [Chars.trim_append_blanks hbefore hafter]
  refine Chars.trim_of_unbroken fun ch hch => ?_
  rw [Base64.canonical_iff.mp htext] at hch
  exact Base64.isBlank_of_mem_encode hch

/-- **Credentials accept one text only.** A value is accepted exactly if it starts with `Basic ` and
the rest, trimmed, is the canonical text of the UTF-8 bytes of user, colon and password; that is, if
blanks and that text follow `Basic `. There is exactly one such text. Its letters are of the standard
alphabet, as many as the bits need, and the padding makes it up to a multiple of four characters.
The text of any other bytes is refused. -/
theorem accepts_one_text (c : Credentials) :
    let secret := Utf8.ofString (c.user ++ ":" ++ c.password)
    (∀ header : String, c.accepts header = true ↔
      ∃ rest, header.toList = "Basic ".toList ++ rest ∧
        Base64.Canonical secret (Chars.trim rest)) ∧
    (∀ header : String, c.accepts header = true ↔
      ∃ before text after, header.toList = "Basic ".toList ++ (before ++ (text ++ after)) ∧
        (∀ ch ∈ before, isBlank ch = true) ∧ (∀ ch ∈ after, isBlank ch = true) ∧
        Base64.Canonical secret text) ∧
    (∃ text, ∀ text', Base64.Canonical secret text' ↔ text' = text) ∧
    (∀ text, Base64.Canonical secret text → ∃ letters,
      text = letters ++ List.replicate ((3 - secret.length % 3) % 3) '=' ∧
        (∀ ch ∈ letters, ch ∈ Base64.alphabet) ∧ letters.length = (secret.length * 8 + 5) / 6) ∧
    ∀ (bytes : List UInt8) (before text after : List Char), Base64.Canonical bytes text →
      (∀ ch ∈ before, isBlank ch = true) → (∀ ch ∈ after, isBlank ch = true) →
        (c.accepts (String.ofList ("Basic ".toList ++ (before ++ (text ++ after)))) = true ↔
          bytes = secret) := by
  intro secret
  have hsecret : secret = c.secret := c.secret_eq.symm
  rw [hsecret]
  refine ⟨c.accepts_iff, ?_, ⟨_, fun _ => Base64.canonical_iff⟩, fun _ => (·.letters), ?_⟩
  · intro header
    rw [c.accepts_iff]
    constructor
    · rintro ⟨rest, hrest, htext⟩
      obtain ⟨before, after, hbefore, hafter, hsplit⟩ := Chars.exists_blanks_of_trim rest
      exact ⟨before, _, after, hsplit ▸ hrest, hbefore, hafter, htext⟩
    · rintro ⟨before, text, after, hheader, hbefore, hafter, htext⟩
      refine ⟨_, hheader, ?_⟩
      rwa [trim_blanks_canonical hbefore hafter htext]
  · intro bytes before text after htext hbefore hafter
    rw [c.accepts_iff, String.toList_ofList]
    constructor
    · rintro ⟨rest, hrest, hcanonical⟩
      rw [← List.append_cancel_left hrest, trim_blanks_canonical hbefore hafter htext,
        Base64.canonical_iff] at hcanonical
      exact Base64.encode_injective ((Base64.canonical_iff.mp htext).symm.trans hcanonical)
    · rintro rfl
      refine ⟨_, rfl, ?_⟩
      rwa [trim_blanks_canonical hbefore hafter htext]

/-- Blanks around the text, and spellings that are not canonical: a bit set in the last letter, no
padding, a blank inside, and another case of the scheme. -/
example :
    let c : Credentials := ⟨"u", "p"⟩
    c.accepts "Basic  dTpw\t" = true ∧ Credentials.accepts ⟨"u", ""⟩ "Basic dTo=" = true ∧
      Credentials.accepts ⟨"u", ""⟩ "Basic dTp=" = false ∧
      Credentials.accepts ⟨"u", ""⟩ "Basic dTo" = false ∧ c.accepts "Basic dT pw" = false ∧
      c.accepts "basic dTpw" = false := by
  decide

end Credentials

end RpcDaemon
