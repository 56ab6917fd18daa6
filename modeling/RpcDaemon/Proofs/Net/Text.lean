import RpcDaemon.Proofs.Net.Address
import RpcDaemon.Proofs.Text.Separator

/-!
# Addresses and their texts

No two addresses have one text. Octets and groups are written without superfluous zeros, so each is
known from its digits; points tell the octets apart and colons the groups; and where groups are left
out, their number is known from that of the others. Main statement: `Address.chars_injective`.
-/

namespace RpcDaemon

/-! ## Numbers -/

namespace Hex

theorem digit_injective : ∀ m < 16, ∀ n < 16, digit m = digit n → m = n := by
  decide

/-- A number has at least one digit. -/
theorem natRev_ne_nil {fuel n : Nat} (h : n < fuel) : natRev fuel n ≠ [] := by
  obtain ⟨k, rfl⟩ := Nat.exists_eq_succ_of_ne_zero (Nat.ne_of_gt (Nat.zero_lt_of_lt h))
  exact List.cons_ne_nil _ _

theorem natRev_injective {fuel fuel' m n : Nat} (hm : m < fuel) (hn : n < fuel')
    (h : natRev fuel m = natRev fuel' n) : m = n := by
  induction fuel generalizing fuel' m n with
  | zero => omega
  | succ fuel ih =>
    obtain ⟨fuel', rfl⟩ := Nat.exists_eq_succ_of_ne_zero (Nat.ne_of_gt (Nat.zero_lt_of_lt hn))
    rw [natRev, natRev] at h
    -- The last digits agree, and so do the numbers that the other digits write.
    obtain ⟨hdigit, hrest⟩ := List.cons.inj h
    have hlast : m % 16 = n % 16 :=
      digit_injective _ (Nat.mod_lt m (by decide)) _ (Nat.mod_lt n (by decide)) hdigit
    by_cases hm16 : m < 16
    · by_cases hn16 : n < 16
      · omega
      · rw [if_pos hm16, if_neg hn16] at hrest
        exact absurd hrest.symm (natRev_ne_nil (by omega))
    · by_cases hn16 : n < 16
      · rw [if_neg hm16, if_pos hn16] at hrest
        exact absurd hrest (natRev_ne_nil (by omega))
      · rw [if_neg hm16, if_neg hn16] at hrest
        have hfirst := ih (by omega) (by omega) hrest
        omega

theorem ofNat_injective {m n : Nat} (h : ofNat m = ofNat n) : m = n :=
  natRev_injective (Nat.lt_succ_self m) (Nat.lt_succ_self n) (List.reverse_inj.mp h)

theorem ofNat_ne_nil (n : Nat) : ofNat n ≠ [] := by
  rw [ofNat, ne_eq, List.reverse_eq_nil_iff]
  exact natRev_ne_nil (Nat.lt_succ_self n)

/-- Only digits stand in a hexadecimal number. -/
theorem notMem_ofNat {c : Char} (hc : ∀ d < 16, digit d ≠ c) (n : Nat) : c ∉ ofNat n := by
  intro h
  obtain ⟨d, hd, rfl⟩ := exists_digit_of_mem_ofNat h
  exact hc d hd rfl

end Hex

namespace Net

/-! ## Version 4 -/

/-- Octets, each with a point behind it. -/
def dotted (octets : List UInt8) : List Char :=
  octets.flatMap fun o => Numeral.ofNat o.toNat ++ ['.']

theorem dotted_cons (o : UInt8) (octets : List UInt8) :
    dotted (o :: octets) = Numeral.ofNat o.toNat ++ '.' :: dotted octets := by
  rw [dotted, List.flatMap_cons, List.append_assoc]
  rfl

/-- The text of an address is that of its first three octets, each with a point, and of the last. -/
theorem V4.chars_eq_dotted (ip : V4) :
    ip.chars = dotted [ip.a, ip.b, ip.c] ++ Numeral.ofNat ip.d.toNat := by
  simp [V4.chars, dotted]

/-- **Octets with points start a text** if they are its first ones. -/
theorem dotted_prefix_iff {os octets : List UInt8} {tail : List Char} (htail : '.' ∉ tail) :
    dotted os <+: dotted octets ++ tail ↔ os <+: octets := by
  -- One octet after the other, each up to its point; the tail has no point to end an octet with.
  induction os generalizing octets with
  | nil => exact iff_of_true List.nil_prefix List.nil_prefix
  | cons o os ih =>
    have hpoint : ∀ n, '.' ∉ Numeral.ofNat n := Numeral.notMem_ofNat (by decide)
    cases octets with
    | nil =>
      refine iff_of_false (fun h => htail (h.subset ?_)) (by simp)
      rw [dotted_cons]
      exact List.mem_append_right _ List.mem_cons_self
    | cons a octets =>
      rw [dotted_cons, dotted_cons, List.append_assoc, List.cons_append,
        append_cons_prefix_iff_of_notMem (hpoint _) (hpoint _), ih, List.cons_prefix_cons]
      refine and_congr_left fun _ => ⟨fun h => ?_, fun h => by rw [h]⟩
      exact UInt8.toNat_inj.mp (Numeral.ofNat_injective h)

theorem V4.chars_injective {ip ip' : V4} (h : ip.chars = ip'.chars) : ip = ip' := by
  obtain ⟨a, b, c, d⟩ := ip
  obtain ⟨a', b', c', d'⟩ := ip'
  rw [chars_eq_dotted, chars_eq_dotted] at h
  have hfirst : [a, b, c] <+: [a', b', c'] :=
    (dotted_prefix_iff (Numeral.notMem_ofNat (by decide) _)).mp ⟨_, h⟩
  have heq : [a, b, c] = [a', b', c'] := hfirst.eq_of_length rfl
  cases heq
  have hlast := UInt8.toNat_inj.mp (Numeral.ofNat_injective (List.append_cancel_left h))
  dsimp only at hlast
  rw [hlast]

theorem V4.colon_notMem_chars (ip : V4) : ':' ∉ ip.chars := by
  have hcolon : ∀ n, ':' ∉ Numeral.ofNat n := Numeral.notMem_ofNat (by decide)
  simp [V4.chars, hcolon]

theorem V4.point_mem_chars (ip : V4) : '.' ∈ ip.chars := by
  simp [V4.chars]

/-! ## Runs of zero groups -/

namespace V6

/-- The run is one of the groups, and all of them are zero. -/
def Run.IsIn (r : Run) (gs : List UInt16) : Prop :=
  ∃ before after, gs = before ++ List.replicate r.length 0 ++ after ∧ before.length = r.start

/-- The run ends with the groups, if it is not empty, and all of its groups are zero. -/
def Run.Ends (r : Run) (gs : List UInt16) : Prop :=
  ∃ before, gs = before ++ List.replicate r.length 0 ∧ (0 < r.length → before.length = r.start)

theorem Run.IsIn.append {r : Run} {gs : List UInt16} (h : r.IsIn gs) (more : List UInt16) :
    r.IsIn (gs ++ more) := by
  obtain ⟨before, after, rfl, hstart⟩ := h
  exact ⟨before, after ++ more, by simp only [List.append_assoc], hstart⟩

/-- A run that is not empty and ends with the groups is one of them. -/
theorem Run.Ends.isIn {r : Run} {gs : List UInt16} (h : r.Ends gs) (hr : 0 < r.length) :
    r.IsIn gs := by
  obtain ⟨before, rfl, hstart⟩ := h
  exact ⟨before, [], by rw [List.append_nil], hstart hr⟩

/-- A zero makes the run at the end longer by one. -/
theorem Run.Ends.zero {r : Run} {gs : List UInt16} (h : r.Ends gs) :
    Run.Ends (if r.length = 0 then ⟨gs.length, 1⟩ else ⟨r.start, r.length + 1⟩) (gs ++ [0]) := by
  by_cases hr : r.length = 0
  · rw [if_pos hr]
    exact ⟨gs, rfl, fun _ => rfl⟩
  · rw [if_neg hr]
    obtain ⟨before, rfl, hstart⟩ := h
    refine ⟨before, ?_, fun _ => hstart (Nat.pos_of_ne_zero hr)⟩
    rw [List.replicate_succ', List.append_assoc]

/-- **The run that is found is one of the groups**, and all of them are zero. -/
theorem longestRun_isIn {best current : Run} {seen : List UInt16} (hbest : best.IsIn seen)
    (hcurrent : current.Ends seen) (gs : List UInt16) :
    (longestRun best current seen.length gs).IsIn (seen ++ gs) := by
  induction gs generalizing best current seen with
  | nil => rwa [List.append_nil]
  | cons g gs ih =>
    -- The next group is seen as well, and both runs have to be among those that are seen then.
    have hstep := fun {best current : Run} => @ih best current (seen ++ [g])
    rw [List.length_append, List.length_singleton, List.append_assoc, List.singleton_append]
      at hstep
    rw [longestRun]
    by_cases hg : g = 0
    · subst hg
      rw [if_pos rfl]
      have hends := hcurrent.zero
      dsimp only
      generalize (if current.length = 0 then (⟨seen.length, 1⟩ : Run)
        else ⟨current.start, current.length + 1⟩) = run at hends ⊢
      refine hstep ?_ hends
      split
      · exact hends.isIn (by omega)
      · exact hbest.append [0]
    · rw [if_neg hg]
      exact hstep (hbest.append [g]) ⟨seen ++ [g], by simp, fun h => absurd h (by decide)⟩

theorem isIn_longestRun (gs : List UInt16) : (longestRun ⟨0, 0⟩ ⟨0, 0⟩ 0 gs).IsIn gs := by
  have hnone : Run.IsIn ⟨0, 0⟩ [] := ⟨[], [], rfl, rfl⟩
  have hends : Run.Ends ⟨0, 0⟩ [] := ⟨[], rfl, fun _ => rfl⟩
  exact longestRun_isIn hnone hends gs

/-- A run that is one of the groups can be left out of them. -/
theorem Run.IsIn.cut {r : Run} {gs : List UInt16} (h : r.IsIn gs) :
    gs = gs.take r.start ++ List.replicate r.length 0 ++ gs.drop (r.start + r.length) := by
  obtain ⟨before, after, rfl, hstart⟩ := h
  have hlength : (before ++ List.replicate r.length 0).length = r.start + r.length := by
    rw [List.length_append, List.length_replicate, hstart]
  rw [← hlength, List.drop_left, ← hstart, List.append_assoc, List.take_left, List.append_assoc]

/-! ## Groups with colons -/

/-- The texts of groups; where there is none there is one text, and it is empty. -/
def pieces : List UInt16 → List (List Char)
  | [] => [[]]
  | gs => gs.map fun g => Hex.ofNat g.toNat

theorem colon_notMem_hex : ∀ n, ':' ∉ Hex.ofNat n :=
  Hex.notMem_ofNat (by decide)

/-- The colons tell the groups apart. -/
theorem splitOn_joinGroups (gs : List UInt16) : Chars.splitOn ':' (joinGroups gs) = pieces gs := by
  induction gs with
  | nil => rfl
  | cons g gs ih =>
    cases gs with
    | nil => exact Chars.splitOn_of_notMem (colon_notMem_hex _)
    | cons g' gs =>
      rw [joinGroups, Chars.splitOn_append_cons, ih,
        Chars.splitOn_of_notMem (colon_notMem_hex _)]
      · rfl
      · exact List.cons_ne_nil g' gs

theorem nil_notMem_map_hex (gs : List UInt16) : [] ∉ gs.map fun g => Hex.ofNat g.toNat := by
  intro h
  obtain ⟨g, -, hg⟩ := List.mem_map.mp h
  exact Hex.ofNat_ne_nil _ hg

theorem map_hex_injective {gs gs' : List UInt16}
    (h : (gs.map fun g => Hex.ofNat g.toNat) = gs'.map fun g => Hex.ofNat g.toNat) : gs = gs' :=
  List.map_inj_right (fun _ _ heq => UInt16.toNat_inj.mp (Hex.ofNat_injective heq)) |>.mp h

theorem pieces_injective {gs gs' : List UInt16} (h : pieces gs = pieces gs') : gs = gs' := by
  have hempty : [] ∈ pieces [] := List.mem_cons_self
  cases gs with
  | nil => cases gs' with
    | nil => rfl
    | cons g' gs' =>
      rw [h] at hempty
      exact absurd hempty (nil_notMem_map_hex (g' :: gs'))
  | cons g gs => cases gs' with
    | nil =>
      rw [← h] at hempty
      exact absurd hempty (nil_notMem_map_hex (g :: gs))
    | cons g' gs' => exact map_hex_injective h

/-- What stands before an empty piece and what stands behind it. -/
theorem pieces_append_nil_injective {before before' after after' : List UInt16}
    (h : pieces before ++ [] :: pieces after = pieces before' ++ [] :: pieces after') :
    before = before' ∧ after = after' := by
  have hnone : ∀ g gs, [] ∉ pieces (g :: gs) := fun g gs => nil_notMem_map_hex (g :: gs)
  cases before with
  | nil => cases before' with
    | nil => exact ⟨rfl, pieces_injective (List.cons.inj (List.cons.inj h).2).2⟩
    | cons g' before' => exact absurd (List.cons.inj h).1.symm (Hex.ofNat_ne_nil _)
  | cons g before => cases before' with
    | nil => exact absurd (List.cons.inj h).1 (Hex.ofNat_ne_nil _)
    | cons g' before' =>
      obtain ⟨hbefore, hafter⟩ := (append_cons_inj_of_notMem (hnone _ _) (hnone _ _)).mp h
      exact ⟨pieces_injective hbefore, pieces_injective hafter⟩

/-- Groups of which a run is left out. -/
def abridged (before after : List UInt16) : List Char :=
  joinGroups before ++ "::".toList ++ joinGroups after

/-- The two colons leave an empty piece. -/
theorem splitOn_abridged (before after : List UInt16) :
    Chars.splitOn ':' (abridged before after) = pieces before ++ [] :: pieces after := by
  have hcolons : abridged before after =
      joinGroups before ++ ':' :: ([] ++ ':' :: joinGroups after) :=
    List.append_assoc _ _ _
  rw [hcolons, Chars.splitOn_append_cons, Chars.splitOn_append_cons, splitOn_joinGroups,
    splitOn_joinGroups]
  rfl

theorem joinGroups_injective {gs gs' : List UInt16} (h : joinGroups gs = joinGroups gs') :
    gs = gs' := by
  have hpieces := congrArg (Chars.splitOn ':') h
  rw [splitOn_joinGroups, splitOn_joinGroups] at hpieces
  exact pieces_injective hpieces

theorem abridged_injective {before before' after after' : List UInt16}
    (h : abridged before after = abridged before' after') : before = before' ∧ after = after' := by
  have hpieces := congrArg (Chars.splitOn ':') h
  rw [splitOn_abridged, splitOn_abridged] at hpieces
  exact pieces_append_nil_injective hpieces

/-! ## Version 6 -/

theorem groups_injective {ip ip' : V6} (h : ip.groups = ip'.groups) : ip = ip' := by
  obtain ⟨g0, g1, g2, g3, g4, g5, g6, g7⟩ := ip
  simp only [groups, List.cons.injEq, and_true] at h
  obtain ⟨rfl, rfl, rfl, rfl, rfl, rfl, rfl, rfl⟩ := h
  rfl

/-- The text of all groups is not one of which a run is left out. -/
theorem joinGroups_ne_abridged (ip : V6) (before after : List UInt16) :
    joinGroups ip.groups ≠ abridged before after := by
  intro h
  have hpieces := congrArg (Chars.splitOn ':') h
  rw [splitOn_joinGroups, splitOn_abridged] at hpieces
  have hempty : [] ∈ pieces ip.groups := hpieces ▸ List.mem_append_right _ List.mem_cons_self
  exact nil_notMem_map_hex ip.groups hempty

/-- Mapped addresses are told by their last two groups. -/
theorem isMapped_iff (ip : V6) :
    ip.isMapped = true ↔ ip = ⟨0, 0, 0, 0, 0, 0xFFFF, ip.g6, ip.g7⟩ := by
  obtain ⟨g0, g1, g2, g3, g4, g5, g6, g7⟩ := ip
  simp [isMapped, and_assoc]

/-- The last two groups are known from their octets. -/
theorem tail_injective {ip ip' : V6} (h : ip.tail = ip'.tail) :
    ip.g6 = ip'.g6 ∧ ip.g7 = ip'.g7 := by
  have hoctets : ∀ {g g' : UInt16}, UInt8.ofNat (g.toNat / 256) = UInt8.ofNat (g'.toNat / 256) →
      UInt8.ofNat (g.toNat % 256) = UInt8.ofNat (g'.toNat % 256) → g = g' := by
    intro g g' hhigh hlow
    have hg := g.toNat_lt
    have hg' := g'.toNat_lt
    have hhigh' := congrArg UInt8.toNat hhigh
    have hlow' := congrArg UInt8.toNat hlow
    simp only [UInt8.toNat_ofNat'] at hhigh' hlow'
    exact UInt16.toNat_inj.mp (by omega)
  simp only [tail, V4.mk.injEq] at h
  exact ⟨hoctets h.1 h.2.1, hoctets h.2.2.1 h.2.2.2⟩

/-- A mapped address is written with a dotted tail. -/
theorem chars_of_isMapped {ip : V6} (h : ip.isMapped = true) :
    ip.chars = "::ffff:".toList ++ ip.tail.chars :=
  if_pos h

/-- **Any other address is written by its groups**, of which a run of zeros may be left out. -/
theorem chars_cases {ip : V6} (h : ip.isMapped = false) :
    ip.chars = joinGroups ip.groups ∨
      ∃ before n after, ip.groups = before ++ List.replicate n 0 ++ after ∧
        ip.chars = abridged before after := by
  unfold chars
  rw [if_neg (by rw [h]; exact Bool.false_ne_true)]
  dsimp only
  split
  · exact Or.inr ⟨_, _, _, (isIn_longestRun ip.groups).cut, rfl⟩
  · exact Or.inl rfl

/-- Only a mapped address has a dotted tail. -/
theorem point_mem_chars_iff (ip : V6) : '.' ∈ ip.chars ↔ ip.isMapped = true := by
  have hgroups : ∀ gs, '.' ∉ joinGroups gs := by
    intro gs h
    rcases colon_or_digit_of_mem_joinGroups h with h | ⟨d, hd, h⟩
    · exact absurd h (by decide)
    · exact (by decide : ∀ d < 16, '.' ≠ Hex.digit d) d hd h
  cases hm : ip.isMapped with
  | true =>
    rw [chars_of_isMapped hm]
    exact iff_of_true (List.mem_append_right _ (V4.point_mem_chars ip.tail)) rfl
  | false =>
    refine iff_of_false ?_ Bool.false_ne_true
    rcases chars_cases hm with hc | ⟨before, n, after, -, hc⟩
    · rw [hc]
      exact hgroups _
    · rw [hc]
      simp [abridged, hgroups]

theorem colon_mem_chars (ip : V6) : ':' ∈ ip.chars := by
  cases hm : ip.isMapped with
  | true =>
    rw [chars_of_isMapped hm]
    exact List.mem_append_left _ (by decide)
  | false =>
    rcases chars_cases hm with hc | ⟨before, n, after, -, hc⟩
    · rw [hc]
      simp [groups, joinGroups]
    · rw [hc]
      simp [abridged]

/-- **No two addresses of version 6 have one text.** -/
theorem chars_injective {ip ip' : V6} (h : ip.chars = ip'.chars) : ip = ip' := by
  -- The points tell whether both are mapped.
  have hpoint : ip.isMapped = true ↔ ip'.isMapped = true := by
    rw [← point_mem_chars_iff, ← point_mem_chars_iff, h]
  cases hm : ip.isMapped with
  | true =>
    have hm' := hpoint.mp hm
    rw [chars_of_isMapped hm, chars_of_isMapped hm'] at h
    obtain ⟨h6, h7⟩ := tail_injective (V4.chars_injective (List.append_cancel_left h))
    rw [(isMapped_iff ip).mp hm, (isMapped_iff ip').mp hm', h6, h7]
  | false =>
    have hm' : ip'.isMapped = false := by
      rw [← Bool.not_eq_true, ← hpoint, hm]
      exact Bool.false_ne_true
    rcases chars_cases hm with hc | ⟨before, n, after, hgroups, hc⟩
    · rcases chars_cases hm' with hc' | ⟨before', n', after', -, hc'⟩
      · exact groups_injective (joinGroups_injective (hc.symm.trans (h.trans hc')))
      · exact absurd (hc.symm.trans (h.trans hc')) (joinGroups_ne_abridged ip before' after')
    · rcases chars_cases hm' with hc' | ⟨before', n', after', hgroups', hc'⟩
      · exact absurd (hc'.symm.trans (h.symm.trans hc)) (joinGroups_ne_abridged ip' before after)
      · obtain ⟨rfl, rfl⟩ := abridged_injective (hc.symm.trans (h.trans hc'))
        -- All addresses have as many groups, so as many zeros are left out.
        have hlength : ip.groups.length = ip'.groups.length := rfl
        rw [hgroups, hgroups'] at hlength
        simp only [List.length_append, List.length_replicate] at hlength
        have hn : n = n' := by omega
        exact groups_injective (by rw [hgroups, hgroups', hn])

end V6

/-! ## Both versions -/

namespace Address

/-- **No two addresses have one text.** -/
theorem chars_injective {ip ip' : Address} (h : ip.chars = ip'.chars) : ip = ip' := by
  cases ip with
  | v4 ip => cases ip' with
    | v4 ip' => rw [V4.chars_injective h]
    | v6 ip' =>
      have hcolon : ':' ∈ (Address.v4 ip).chars := h ▸ ip'.colon_mem_chars
      exact absurd hcolon ip.colon_notMem_chars
  | v6 ip => cases ip' with
    | v4 ip' =>
      have hcolon : ':' ∈ (Address.v4 ip').chars := h ▸ ip.colon_mem_chars
      exact absurd hcolon ip'.colon_notMem_chars
    | v6 ip' => rw [V6.chars_injective h]

end Address

end Net

end RpcDaemon
