import RpcDaemon.Json.Record
import RpcDaemon.Proofs.Json.RoundTrip

/-!
# Records read back

An object that has some of the fields of a record, in the order of the record, is read as these
fields, with nothing at the places of the others. Main statement: `Document.record?_ofFields`.
-/

namespace RpcDaemon

namespace Record

variable {α : Type}

/-- The fields that a record has, each under its name. -/
def fields (names : List String) (values : List (Option α)) : List (String × α) :=
  (names.zip values).filterMap fun p => p.2.map fun v => (p.1, v)

theorem fields_cons_none (n : String) (names : List String) (values : List (Option α)) :
    fields (n :: names) (none :: values) = fields names values := rfl

theorem fields_cons_some (n : String) (names : List String) (v : α) (values : List (Option α)) :
    fields (n :: names) (some v :: values) = (n, v) :: fields names values := rfl

/-- A field that is there is one of the values. -/
theorem some_mem_of_mem_fields {names : List String} {values : List (Option α)} {f : String × α}
    (hf : f ∈ fields names values) : some f.2 ∈ values := by
  obtain ⟨⟨n, v⟩, hp, hv⟩ := List.mem_filterMap.mp hf
  obtain ⟨w, rfl, rfl⟩ := Option.map_eq_some_iff.mp hv
  exact (List.of_mem_zip hp).2

/-- A value that is there is a field, if there are names enough. -/
theorem exists_mem_fields {names : List String} {values : List (Option α)}
    (hlength : names.length = values.length) {v : α} (hv : some v ∈ values) :
    ∃ n, (n, v) ∈ fields names values := by
  obtain ⟨i, hi, hget⟩ := List.getElem_of_mem hv
  have hi' : i < (names.zip values).length := by rw [List.length_zip]; omega
  have hmem : (names[i], some v) ∈ names.zip values := by
    rw [← hget, ← List.getElem_zip]
    exact List.getElem_mem hi'
  exact ⟨names[i], List.mem_filterMap.mpr ⟨_, hmem, rfl⟩⟩

/-- The names of the fields are names of the record, in their order. -/
theorem map_fst_fields_sublist (names : List String) (values : List (Option α)) :
    ((fields names values).map fun f => f.1).Sublist names := by
  induction names generalizing values with
  | nil => exact List.Sublist.slnil
  | cons n names ih =>
    match values with
    | [] => exact List.nil_sublist _
    | none :: values => exact (ih values).cons n
    | some v :: values => exact (ih values).cons_cons n

/-- Values without those of some names. -/
def blank (gone : String → Bool) (names : List String) (values : List (Option α)) :
    List (Option α) :=
  List.zipWith (fun n v => if gone n then none else v) names values

theorem length_blank (gone : String → Bool) {names : List String} {values : List (Option α)}
    (h : names.length = values.length) : names.length = (blank gone names values).length := by
  rw [blank, List.length_zipWith, ← h, Nat.min_self]

/-- Fields without those of some names are the fields of the values that are left. -/
theorem filter_fields (gone : String → Bool) (names : List String) (values : List (Option α)) :
    (fields names values).filter (fun f => !gone f.1) =
      fields names (blank gone names values) := by
  induction names generalizing values with
  | nil => rfl
  | cons n names ih =>
    cases values with
    | nil => rfl
    | cons value values =>
      have hrest := ih values
      rw [blank, List.zipWith_cons_cons]
      cases value with
      | none =>
        rw [fields_cons_none, ite_self, fields_cons_none]
        exact hrest
      | some v =>
        rw [fields_cons_some, List.filter_cons]
        cases hn : gone n with
        | true => exact hrest
        | false => exact congrArg ((n, v) :: ·) hrest

/-- A value is put at the place of its name, behind the places of the names before it. -/
theorem place?_append {before : List String} {done : List (Option α)}
    (hlength : before.length = done.length) {n : String} (hn : n ∉ before) (v : α)
    (names : List String) (slots : List (Option α)) :
    place? n v (before ++ n :: names) (done ++ none :: slots) = some (done ++ some v :: slots) := by
  induction before generalizing done with
  | nil =>
    have hdone : done = [] := List.length_eq_zero_iff.mp hlength.symm
    rw [hdone, List.nil_append, List.nil_append, place?.eq_1, if_pos rfl]
    rfl
  | cons m before ih =>
    cases done with
    | nil => cases hlength
    | cons slot done =>
      rw [List.mem_cons, not_or] at hn
      have hrest := ih (Nat.succ.inj hlength) hn.2
      have hne : m ≠ n := fun heq => hn.1 heq.symm
      simp only [List.cons_append, place?, if_neg hne, hrest, Option.map_some]

/-- A value whose name is not known is passed over. -/
theorem place?_of_notMem {n : String} {names : List String} (h : n ∉ names) (v : α)
    (slots : List (Option α)) : place? n v names slots = some slots := by
  induction names generalizing slots with
  | nil => rfl
  | cons m names ih =>
    cases slots with
    | nil => rfl
    | cons slot slots =>
      rw [List.mem_cons, not_or] at h
      have hne : m ≠ n := fun heq => h.1 heq.symm
      simp only [place?, if_neg hne, ih h.2, Option.map_some]

/-- Fields are put at their places one by one, behind the places that were dealt with before. -/
theorem ofMembers?_fields_append {names before : List String} {values done : List (Option α)}
    (hvalues : names.length = values.length) (hdone : before.length = done.length)
    (hnodup : (before ++ names).Nodup) :
    ofMembers? (before ++ names) ((fields names values).map fun m => (some m.1, m.2))
      (done ++ List.replicate names.length none) = some (done ++ values) := by
  induction names generalizing values before done with
  | nil =>
    have hnil : values = [] := List.length_eq_zero_iff.mp hvalues.symm
    rw [hnil]
    rfl
  | cons n names ih =>
    cases values with
    | nil => cases hvalues
    | cons value values =>
      -- The name that comes next is then one of those dealt with.
      have hsplit : before ++ n :: names = before ++ [n] ++ names := by simp
      have hlength : ∀ slot : Option α, (before ++ [n]).length = (done ++ [slot]).length := by
        simp [hdone]
      have hnodup' : (before ++ [n] ++ names).Nodup := hsplit ▸ hnodup
      have hrest := fun slot => ih (Nat.succ.inj hvalues) (hlength slot) hnodup'
      cases value with
      | none =>
        rw [fields_cons_none, hsplit, List.length_cons, List.replicate_succ]
        have h := hrest none
        rw [List.append_assoc done, List.append_assoc done] at h
        exact h
      | some v =>
        have hn : n ∉ before := by
          intro hmem
          exact (List.nodup_append.mp hnodup).2.2 n hmem n List.mem_cons_self rfl
        have h := hrest (some v)
        rw [List.append_assoc done, List.append_assoc done] at h
        rw [fields_cons_some, List.map_cons, ofMembers?, List.length_cons, List.replicate_succ,
          place?_append hdone hn]
        dsimp only
        rw [hsplit]
        exact h

/-- **The fields of a record are read back.** -/
theorem ofMembers?_fields {names : List String} (hnodup : names.Nodup) {values : List (Option α)}
    (hlength : names.length = values.length) :
    ofMembers? names ((fields names values).map fun m => (some m.1, m.2))
      (List.replicate names.length none) = some values :=
  @ofMembers?_fields_append α names [] values [] hlength rfl hnodup

end Record

namespace Json

/-- **An object with fields of a record is read as these fields.** -/
theorem Document.record?_ofFields (strict : Bool) {names : List String} (hnodup : names.Nodup)
    {values : List (Option Document)} (hlength : names.length = values.length) :
    Document.record? strict names (Document.ofFields (Record.fields names values)) =
      some values := by
  have hnames : ((Record.fields names values).map fun f => (pieces f.1, f.2)).map
      (fun m => (Piece.string? m.1, m.2)) =
        (Record.fields names values).map fun m => (some m.1, m.2) := by
    rw [List.map_map]
    apply List.map_congr_left
    intro m _
    simp only [Function.comp, string?_pieces]
  rw [Document.ofFields, Document.record?, hnames]
  exact Record.ofMembers?_fields hnodup hlength

/-! ## Form and depth -/

/-- An object is well-formed if its fields are. -/
theorem Document.wellFormed_ofFields {fields : List (String × Document)}
    (h : ∀ f ∈ fields, f.2.WellFormed) : (Document.ofFields fields).WellFormed := by
  show Document.WellFormedMembers (fields.map fun f => (pieces f.1, f.2))
  induction fields with
  | nil => exact trivial
  | cons f fields ih =>
    have hrest := ih fun g hg => h g (List.mem_cons_of_mem f hg)
    exact ⟨wellFormed_pieces f.1, h f List.mem_cons_self, hrest⟩

/-- A record is written as a well-formed object if its fields are well-formed. -/
theorem Document.wellFormed_record {names : List String} {values : List (Option Document)}
    (h : ∀ d, some d ∈ values → d.WellFormed) :
    (Document.ofFields (Record.fields names values)).WellFormed :=
  Document.wellFormed_ofFields fun _ hf => h _ (Record.some_mem_of_mem_fields hf)

/-- A field nests less deeply than the object. -/
theorem Document.depth_lt_ofFields {fields : List (String × Document)} {f : String × Document}
    (hf : f ∈ fields) : f.2.depth < (Document.ofFields fields).depth := by
  apply Nat.lt_succ_of_le
  show f.2.depth ≤ Document.depthMembers (fields.map fun g => (pieces g.1, g.2))
  induction fields with
  | nil => cases hf
  | cons g fields ih =>
    rw [List.map_cons, Document.depthMembers]
    rcases List.mem_cons.mp hf with rfl | hf
    · exact Nat.le_max_left _ _
    · exact Nat.le_trans (ih hf) (Nat.le_max_right _ _)

/-- A field nests less deeply than the object that its record is written as. -/
theorem Document.depth_lt_record {names : List String} {values : List (Option Document)}
    (hlength : names.length = values.length) {d : Document} (hd : some d ∈ values) :
    d.depth < (Document.ofFields (Record.fields names values)).depth := by
  obtain ⟨n, hn⟩ := Record.exists_mem_fields hlength hd
  exact Document.depth_lt_ofFields hn

end Json

end RpcDaemon
