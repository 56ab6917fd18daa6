import RpcDaemon.Access.Credentials
import RpcDaemon.Proofs.Http.Framing
import RpcDaemon.Proofs.Text.Base64

/-!
# Presenting credentials

The header value that presents credentials is accepted by them. A request is admitted if it asks
for the root and brings an `Authorization` value of its own that is accepted.
-/

namespace RpcDaemon

namespace Credentials

/-- The text that the header value ends with is not empty. -/
theorem encode_secret_ne_nil (c : Credentials) : Base64.encode c.secret ≠ [] := by
  intro h
  have hs : c.secret = [] := Base64.encode_eq_nil_iff.mp h
  unfold secret Utf8.encode at hs
  rw [List.flatMap_append, List.flatMap_cons] at hs
  have hcolon := (List.append_eq_nil_iff.mp (List.append_eq_nil_iff.mp hs).2).1
  exact absurd hcolon (by decide)

/-- **Credentials accept the header value that presents them.** -/
theorem accepts_header (c : Credentials) : c.accepts c.header = true := by
  unfold accepts header
  rw [String.toList_ofList, String.toList_ofList, Chars.dropHead?_append]
  dsimp only
  rw [Chars.trim_of_unbroken fun _ h => Base64.isBlank_of_mem_encode h, Base64.decode?_encode]
  exact beq_self_eq_true _

/-- The header that presents credentials is read as it was written. -/
theorem clean_header (c : Credentials) : Http.Clean ("Authorization", c.header) := by
  refine Http.clean_of_word (by decide) ?_ ?_ <;> unfold header <;> rw [String.toList_ofList]
  · exact Http.InLine.append (by decide)
      (Http.inLine_of_unbroken fun _ h => Base64.isBlank_of_mem_encode h)
  · refine Chars.trim_of_ends ?_ ?_
    · intro d hd
      rw [List.head?_append] at hd
      have hB : 'B' = d := Option.some.inj hd
      rw [← hB]
      rfl
    · -- The value ends with the encoded secret, which is not empty.
      intro d hd
      rw [List.getLast?_append, List.getLast?_eq_some_getLast c.encode_secret_ne_nil] at hd
      have hlast := Option.some.inj hd
      exact Base64.isBlank_of_mem_encode (hlast ▸ List.getLast_mem c.encode_secret_ne_nil)

/-- The request asks for the root, and its own `Authorization` value is accepted. -/
def Admits (c : Credentials) (r : Http.Request) : Prop :=
  r.uri = "/" ∧ ∃ value, r.header? "authorization" = some value ∧ c.accepts value = true

end Credentials

end RpcDaemon
