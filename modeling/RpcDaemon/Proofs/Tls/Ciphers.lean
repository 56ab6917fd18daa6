import Mathlib.Data.List.Induction
import Mathlib.Data.List.Nodup
import Mathlib.Logic.Relation
import RpcDaemon.Proofs.Text.Blank
import RpcDaemon.Proofs.Text.Separator
import RpcDaemon.Tls.Ciphers

/-!
# What a list of cipher suites names

`Resolves` says which suites a list stands for and in which order, and `Edit` which changes of a
list make no difference. Main statement: `ofList_law`.
-/

namespace RpcDaemon

namespace Tls

namespace CipherSuite

/-! ## Names -/

theorem mem_all (c : CipherSuite) : c ∈ all := by
  cases c <;> decide

/-- No two suites have one name, whatever the case of the letters. -/
theorem nodup_lower_names : (all.map fun c => Chars.lower c.name.toList).Nodup := by
  decide +kernel

theorem eq_of_lower_name {c d : CipherSuite}
    (h : Chars.lower c.name.toList = Chars.lower d.name.toList) : c = d :=
  List.inj_on_of_nodup_map nodup_lower_names (mem_all c) (mem_all d) h

/-- A name holds neither a blank nor the separator of a list. -/
theorem name_unbroken (c : CipherSuite) :
    Chars.Unbroken c.name.toList ∧ ':' ∉ c.name.toList ∧ c.name.toList ≠ [] := by
  cases c <;> decide +kernel

/-- **A piece of a list names a suite** if it is the name in any case, with blanks around it. -/
def Names (piece : List Char) (c : CipherSuite) : Prop :=
  Chars.trim piece ≠ [] ∧ sameIgnoringCase c.name (String.ofList (Chars.trim piece)) = true

instance (piece : List Char) (c : CipherSuite) : Decidable (Names piece c) :=
  inferInstanceAs (Decidable (_ ∧ _))

theorem sameIgnoringCase_iff {s t : String} :
    sameIgnoringCase s t = true ↔ Chars.lower s.toList = Chars.lower t.toList :=
  beq_iff_eq

/-- A piece names one suite. -/
theorem Names.unique {piece : List Char} {c d : CipherSuite} (h : Names piece c)
    (h' : Names piece d) : c = d :=
  eq_of_lower_name ((sameIgnoringCase_iff.mp h.2).trans (sameIgnoringCase_iff.mp h'.2).symm)

theorem sameIgnoringCase_of_ofName? {s : String} {c : CipherSuite} (h : ofName? s = some c) :
    sameIgnoringCase c.name s = true := by
  have hsame := List.find?_some h
  exact hsame

/-- **A suite is found by the pieces that name it**; an empty piece finds none. -/
theorem ofName?_trim_eq_some_iff {piece : List Char} {c : CipherSuite} :
    ofName? (String.ofList (Chars.trim piece)) = some c ↔ Names piece c := by
  constructor
  · intro h
    have hsame := sameIgnoringCase_of_ofName? h
    refine ⟨fun hnil => ?_, hsame⟩
    rw [hnil, sameIgnoringCase_iff] at hsame
    exact c.name_unbroken.2.2 (List.map_eq_nil_iff.mp hsame)
  · intro h
    obtain ⟨d, hd⟩ : ∃ d, ofName? (String.ofList (Chars.trim piece)) = some d :=
      Option.isSome_iff_exists.mp (List.find?_isSome.mpr ⟨c, mem_all c, h.2⟩)
    have hsame : Names piece d := ⟨h.1, sameIgnoringCase_of_ofName? hd⟩
    rw [h.unique hsame]
    exact hd

theorem ofName?_trim_eq_none_iff {piece : List Char} :
    ofName? (String.ofList (Chars.trim piece)) = none ↔ ∀ c, ¬Names piece c := by
  rw [Option.eq_none_iff_forall_ne_some]
  exact forall_congr' fun c => not_congr ofName?_trim_eq_some_iff

theorem names_name (c : CipherSuite) : Names c.name.toList c := by
  obtain ⟨hunbroken, -, hne⟩ := c.name_unbroken
  rw [Names, Chars.trim_of_unbroken hunbroken, String.ofList_toList]
  exact ⟨hne, sameIgnoringCase_iff.mpr rfl⟩

/-! ## Going through the pieces -/

section Collect

variable {suites more : List CipherSuite} {pieces : List (List Char)} {piece : List Char}
  {c d : CipherSuite}

theorem collect_append (suites : List CipherSuite) (front back : List (List Char)) :
    collect suites (front ++ back) = collect (collect suites front) back := by
  induction front generalizing suites with
  | nil => rfl
  | cons piece front ih =>
    rw [List.cons_append, collect, collect]
    split
    · exact ih _
    · exact ih _

/-- A piece that names no suite is passed over. -/
theorem collect_cons_of_unknown (h : ∀ c, ¬Names piece c) :
    collect suites (piece :: pieces) = collect suites pieces := by
  rw [collect, ofName?_trim_eq_none_iff.mpr h]

/-- A suite is taken up where it is named first. -/
theorem collect_cons_of_names (h : Names piece c) :
    collect suites (piece :: pieces) =
      collect (if c ∈ suites then suites else suites ++ [c]) pieces := by
  rw [collect, ofName?_trim_eq_some_iff.mpr h]

/-- **What is collected** was there before or is named. -/
theorem mem_collect :
    c ∈ collect suites pieces ↔ c ∈ suites ∨ ∃ piece ∈ pieces, Names piece c := by
  induction pieces generalizing suites with
  | nil => simp [collect]
  | cons piece pieces ih =>
    by_cases h : ∃ d, Names piece d
    · obtain ⟨d, hd⟩ := h
      have hc : Names piece c ↔ c = d := ⟨fun h => h.unique hd, fun h => h ▸ hd⟩
      have htaken :
          c ∈ (if d ∈ suites then suites else suites ++ [d]) ↔ c ∈ suites ∨ c = d := by
        split
        · rename_i hmem
          exact ⟨Or.inl, fun h => h.elim id fun heq => heq ▸ hmem⟩
        · rw [List.mem_append, List.mem_singleton]
      rw [collect_cons_of_names hd, ih, List.exists_mem_cons_iff, hc, ← or_assoc, htaken]
    · have hnone : ∀ d, ¬Names piece d := fun d hd => h ⟨d, hd⟩
      rw [collect_cons_of_unknown hnone, ih, List.exists_mem_cons_iff, or_iff_right (hnone c)]

/-- Suites that are new and different are collected as they are named. -/
theorem collect_names (h : (suites ++ more).Nodup) :
    collect suites (more.map fun c => c.name.toList) = suites ++ more := by
  induction more generalizing suites with
  | nil => exact (List.append_nil suites).symm
  | cons c more ih =>
    have hnew : c ∉ suites := fun hmem =>
      (List.nodup_append.mp h).2.2 c hmem c List.mem_cons_self rfl
    rw [List.append_cons] at h
    rw [List.map_cons, collect_cons_of_names c.names_name, if_neg hnew, ih h, ← List.append_cons]

/-! ## The order of the suites -/

/-- The place of the first piece that names a suite. -/
def firstPlace (pieces : List (List Char)) (c : CipherSuite) : Nat :=
  pieces.findIdx fun piece => decide (Names piece c)

theorem firstPlace_lt_iff :
    firstPlace pieces c < pieces.length ↔ ∃ piece ∈ pieces, Names piece c := by
  rw [firstPlace, List.findIdx_lt_length]
  simp only [decide_eq_true_eq]

theorem firstPlace_append (pieces more : List (List Char)) (c : CipherSuite) :
    firstPlace (pieces ++ more) c =
      if firstPlace pieces c < pieces.length then firstPlace pieces c
      else firstPlace more c + pieces.length :=
  List.findIdx_append

/-- Pieces that follow do not change the first place. -/
theorem firstPlace_append_of_named (h : ∃ piece ∈ pieces, Names piece c)
    (more : List (List Char)) :
    firstPlace (pieces ++ more) c = firstPlace pieces c := by
  rw [firstPlace_append, if_pos (firstPlace_lt_iff.mpr h)]

/-- **The suites stand in the order in which they are named first.** -/
theorem pairwise_collect (pieces : List (List Char)) :
    (collect [] pieces).Pairwise fun c d => firstPlace pieces c < firstPlace pieces d := by
  induction pieces using List.reverseRecOn with
  | nil => exact .nil
  | append_singleton pieces piece ih =>
    have hnamed : ∀ {c}, c ∈ collect [] pieces → ∃ piece ∈ pieces, Names piece c :=
      fun hc => (mem_collect.mp hc).resolve_left List.not_mem_nil
    have hkept : (collect [] pieces).Pairwise fun c d =>
        firstPlace (pieces ++ [piece]) c < firstPlace (pieces ++ [piece]) d := by
      refine ih.imp_of_mem fun hc hd hlt => ?_
      rwa [firstPlace_append_of_named (hnamed hc), firstPlace_append_of_named (hnamed hd)]
    rw [collect_append]
    by_cases h : ∃ c, Names piece c
    · obtain ⟨c, hc⟩ := h
      rw [collect_cons_of_names hc, collect]
      split
      · exact hkept
      · rename_i hnew
        -- The suite is named by the last piece for the first time.
        refine List.pairwise_append.mpr ⟨hkept, List.pairwise_singleton _ c, ?_⟩
        intro d hd e he
        rw [List.mem_singleton.mp he, firstPlace_append_of_named (hnamed hd)]
        have hlast : pieces.length ≤ firstPlace (pieces ++ [piece]) c := by
          rw [firstPlace_append, if_neg fun hlt =>
            hnew (mem_collect.mpr (Or.inr (firstPlace_lt_iff.mp hlt)))]
          exact Nat.le_add_left _ _
        exact Nat.lt_of_lt_of_le (firstPlace_lt_iff.mpr (hnamed hd)) hlast
    · rw [collect_cons_of_unknown fun d hd => h ⟨d, hd⟩]
      exact hkept

end Collect

/-! ## Lists as texts -/

/-- The pieces of a list, between its colons. -/
def pieces (list : String) : List (List Char) :=
  Chars.splitOn ':' list.toList

/-- The list with the given pieces. -/
def joined (pieces : List (List Char)) : String :=
  String.ofList ([':'].intercalate pieces)

/-- A list that is put together from pieces names what the pieces name. -/
theorem ofList_joined {ps : List (List Char)} (h : ∀ piece ∈ ps, ':' ∉ piece) :
    ofList (joined ps) = collect [] ps := by
  rw [ofList, joined, String.toList_ofList, Chars.splitOn_eq]
  cases ps with
  | nil =>
    -- The empty text is one empty piece, which names nothing.
    have hempty : ∀ c, ¬Names [] c := fun c hc => hc.1 rfl
    rw [List.intercalate_nil, List.splitOn_nil, collect_cons_of_unknown hempty]
  | cons piece ps => rw [List.splitOn_intercalate ':' h (List.cons_ne_nil piece ps)]

/-- **The suites that a list stands for.** -/
structure Resolves (list : String) (suites : List CipherSuite) : Prop where
  /-- No suite stands there twice. -/
  nodup : suites.Nodup
  /-- They are the supported suites that some piece names. -/
  mem_iff : ∀ c, c ∈ suites ↔ c ∈ all ∧ ∃ piece ∈ pieces list, Names piece c
  /-- They stand in the order of the first pieces that name them. -/
  ordered : suites.Pairwise fun c d => firstPlace (pieces list) c < firstPlace (pieces list) d

theorem resolves_ofList (list : String) : Resolves list (ofList list) where
  nodup := (pairwise_collect (pieces list)).imp fun hlt heq => by
    rw [heq] at hlt
    exact Nat.lt_irrefl _ hlt
  mem_iff := by
    intro c
    rw [and_iff_right (mem_all c)]
    exact mem_collect.trans (or_iff_right List.not_mem_nil)
  ordered := pairwise_collect (pieces list)

/-- A list stands for nothing else. -/
theorem Resolves.unique {list : String} {suites suites' : List CipherSuite}
    (h : Resolves list suites) (h' : Resolves list suites') : suites = suites' := by
  have hperm : suites.Perm suites' :=
    (List.perm_ext_iff_of_nodup h.nodup h'.nodup).mpr fun c =>
      (h.mem_iff c).trans (h'.mem_iff c).symm
  exact hperm.eq_of_pairwise (fun c d _ _ hlt hgt => absurd hlt (Nat.lt_asymm hgt)) h.ordered
    h'.ordered

/-! ## Changes that make no difference -/

/-- **A change of a list that makes no difference.** -/
inductive Edit : List (List Char) → List (List Char) → Prop
  /-- A piece is put in that names no suite, such as an empty one. -/
  | unknown (before after : List (List Char)) {piece : List Char} (hcolon : ':' ∉ piece)
      (h : ∀ c, ¬Names piece c) : Edit (before ++ after) (before ++ piece :: after)
  /-- A piece is put in that names a suite which an earlier one names. -/
  | again (before after : List (List Char)) {piece first : List Char} {c : CipherSuite}
      (hcolon : ':' ∉ piece) (hfirst : first ∈ before) (h : Names first c)
      (h' : Names piece c) : Edit (before ++ after) (before ++ piece :: after)
  /-- Blanks are put around a piece. -/
  | blanks (before after : List (List Char)) (piece : List Char) {left right : List Char}
      (hleft : ∀ ch ∈ left, isBlank ch = true) (hright : ∀ ch ∈ right, isBlank ch = true) :
      Edit (before ++ piece :: after) (before ++ (left ++ (piece ++ right)) :: after)

/-- Blanks around a piece do not change what it names. -/
theorem collect_cons_blanks {left right : List Char} (hleft : ∀ ch ∈ left, isBlank ch = true)
    (hright : ∀ ch ∈ right, isBlank ch = true) (suites : List CipherSuite) (piece : List Char)
    (ps : List (List Char)) :
    collect suites ((left ++ (piece ++ right)) :: ps) = collect suites (piece :: ps) := by
  rw [collect, collect, Chars.trim_append_blanks hleft hright]

/-- **What is collected is the same after an edit.** -/
theorem Edit.collect_eq {ps qs : List (List Char)} (h : Edit ps qs) :
    collect [] qs = collect [] ps := by
  cases h with
  | unknown before after _ h => rw [collect_append, collect_append, collect_cons_of_unknown h]
  | again before after _ hfirst h h' =>
    rw [collect_append, collect_append, collect_cons_of_names h',
      if_pos (mem_collect.mpr (Or.inr ⟨_, hfirst, h⟩))]
  | blanks before after piece hleft hright =>
    rw [collect_append, collect_append, collect_cons_blanks hleft hright]

/-- What all pieces of a list have in common is asked of one piece and of all others. -/
theorem forall_mem_middle {p : List Char → Prop} {before after : List (List Char)}
    {piece : List Char} :
    (∀ q ∈ before ++ piece :: after, p q) ↔ p piece ∧ ∀ q ∈ before ++ after, p q := by
  simp only [List.perm_middle.mem_iff, List.forall_mem_cons]

/-- An edit puts no colon into a piece. -/
theorem Edit.notMem {ps qs : List (List Char)} (h : Edit ps qs)
    (hps : ∀ piece ∈ ps, ':' ∉ piece) : ∀ piece ∈ qs, ':' ∉ piece := by
  cases h with
  | unknown before after hcolon _ => exact forall_mem_middle.mpr ⟨hcolon, hps⟩
  | again before after hcolon _ _ _ => exact forall_mem_middle.mpr ⟨hcolon, hps⟩
  | blanks before after piece hleft hright =>
    obtain ⟨hpiece, hothers⟩ := forall_mem_middle.mp hps
    have hblank : ∀ {cs : List Char}, (∀ ch ∈ cs, isBlank ch = true) → ':' ∉ cs :=
      fun hcs hmem => Bool.false_ne_true (hcs ':' hmem)
    refine forall_mem_middle.mpr ⟨?_, hothers⟩
    rw [List.mem_append, List.mem_append]
    exact fun hmem => hmem.elim (hblank hleft) fun hmem => hmem.elim hpiece (hblank hright)

/-- **Any number of edits** leaves the suites as they are. -/
theorem ofList_of_edits {list : String} {changed : List (List Char)}
    (h : Relation.ReflTransGen Edit (pieces list) changed) :
    ofList (joined changed) = ofList list := by
  have hall : collect [] changed = collect [] (pieces list) ∧
      ∀ piece ∈ changed, ':' ∉ piece := by
    induction h with
    | refl => exact ⟨rfl, fun piece hpiece => Chars.notMem_of_mem_splitOn hpiece⟩
    | tail _ hedit ih => exact ⟨hedit.collect_eq.trans ih.1, hedit.notMem ih.2⟩
  rw [ofList_joined hall.2, hall.1]
  rfl

/-- **A list of names** in which no suite stands twice stands for these suites. -/
theorem ofList_names {suites : List CipherSuite} (h : suites.Nodup) :
    ofList (":".intercalate (suites.map name)) = suites := by
  have htext : ":".intercalate (suites.map name) =
      joined (suites.map fun c => c.name.toList) := by
    have hpieces : ":".toList.intercalate ((suites.map name).map String.toList) =
        [':'].intercalate (suites.map fun c => c.name.toList) := by
      rw [List.map_map]
      rfl
    exact String.toList_inj.mp
      (String.toList_intercalate.trans (hpieces.trans String.toList_ofList.symm))
  have hcolon : ∀ piece ∈ suites.map fun c => c.name.toList, ':' ∉ piece := by
    intro piece hpiece
    obtain ⟨c, -, rfl⟩ := List.mem_map.mp hpiece
    exact c.name_unbroken.2.1
  rw [htext, ofList_joined hcolon]
  exact collect_names h

/-- **What comes of a list of cipher suites.** The suites are pairwise distinct, the supported ones
that some piece names, in the order of the first pieces that name them, and nothing else is such a
list. Putting in pieces that are empty, name no suite or name one once more, and blanks around a
piece, make no difference, however often and wherever. The names of the suites, with colons between
them, stand for the same suites again. -/
theorem ofList_law (list : String) :
    (∀ suites, Resolves list suites ↔ suites = ofList list) ∧
      (∀ changed, Relation.ReflTransGen Edit (pieces list) changed →
        ofList (joined changed) = ofList list) ∧
      ofList (":".intercalate ((ofList list).map name)) = ofList list :=
  ⟨fun _ => ⟨fun h => h.unique (resolves_ofList list), fun h => h ▸ resolves_ofList list⟩,
    fun _ => ofList_of_edits, ofList_names (resolves_ofList list).nodup⟩

/-- What is not known is passed over, and so is what was there before. -/
example : ofList "!aNULL: tls13_aes_128_gcm_sha256::TLS13_AES_128_GCM_SHA256" = [tls13Aes128] := by
  decide +kernel

end CipherSuite

end Tls

end RpcDaemon
