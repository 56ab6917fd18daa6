import RpcDaemon.Access.AllowList
import RpcDaemon.Proofs.Net.Address
import RpcDaemon.Proofs.Text.Glob
import RpcDaemon.Proofs.Text.Utf8

/-!
# Whom the client filter lets in

An address is let in if in its normal form it is the machine itself or has a text that one of the
patterns covers. No star stands in the text of an address, so the search for a pattern misses
nothing. Main statement: `allows_iff_loopback_or_covered`.
-/

namespace RpcDaemon

/-- The address is that of the machine itself: of the network 127.0.0.0/8, or `::1`. -/
def Net.Address.Loopback (ip : Net.Address) : Prop :=
  (∃ b c d, ip = .v4 ⟨127, b, c, d⟩) ∨ ip = .v6 ⟨0, 0, 0, 0, 0, 0, 0, 1⟩

theorem Net.Address.isLoopback_iff (ip : Net.Address) : ip.isLoopback = true ↔ ip.Loopback := by
  cases ip with
  | v4 ip =>
    obtain ⟨a, b, c, d⟩ := ip
    simp [isLoopback, V4.isLoopback, Loopback]
  | v6 ip => simp [isLoopback, Loopback, V6.localhost]

/-- The bytes of the text of an address. -/
theorem Net.Address.ofString_text (ip : Net.Address) :
    Utf8.ofString ip.text = Utf8.encode ip.chars := by
  rw [Utf8.ofString, Net.Address.text, String.toList_ofList]

/-- No byte of the text of an address is special in a pattern. -/
theorem Net.Address.literal_text (ip : Net.Address) : Glob.Literal (Utf8.ofString ip.text) := by
  rw [ofString_text]
  constructor
  · intro h
    have hmem : Char.ofNat Glob.star.toNat ∈ ip.chars := Utf8.mem_of_mem_encode (by decide) h
    exact absurd (isTextual_of_mem_chars hmem) (by decide)
  · intro h
    have hmem : Char.ofNat Glob.question.toNat ∈ ip.chars := Utf8.mem_of_mem_encode (by decide) h
    exact absurd (isTextual_of_mem_chars hmem) (by decide)

theorem Net.Address.star_notMem_text (ip : Net.Address) :
    Glob.star ∉ Utf8.ofString ip.text :=
  ip.literal_text.1

namespace AllowList

/-- **The client filter lets in the machine itself and whom a pattern covers**, for every list of
patterns and every address. -/
theorem allows_iff_loopback_or_covered (l : AllowList) (ip : Net.Address) :
    l.allows ip = true ↔
      ip.normalize.Loopback ∨
        ∃ p ∈ l.patterns,
          Glob.Covers (Utf8.ofString p) (Utf8.ofString ip.normalize.text) := by
  unfold allows Glob.covers
  rw [Bool.or_eq_true, Net.Address.isLoopback_iff, List.any_eq_true]
  have hcovers := fun p => Glob.matchBytes_iff ip.normalize.star_notMem_text (Utf8.ofString p)
  simp only [hcovers]

end AllowList

end RpcDaemon
