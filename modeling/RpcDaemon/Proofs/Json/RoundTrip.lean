import RpcDaemon.Proofs.Json.Document
import RpcDaemon.Proofs.Text.Utf8

/-!
# Values read back

A value without floating point numbers is written as a well-formed document of the same depth, and
that document denotes the value again. Main statement: `readBytes?_encode`.
-/

namespace RpcDaemon

namespace Json

/-! ## Scalars -/

/-- An integer is written as a number that a text can have. -/
theorem wellFormed_ofInt (n : Int) : (Document.ofInt n).WellFormed where
  whole_ne_nil := Numeral.digits_ne_nil n.natAbs
  no_leading_zero := fun _ _ h hz => Numeral.tail_eq_nil_of_digits h hz
  fraction_ne_nil := by simp
  exponent_ne_nil := by simp

/-- The pieces of a string are characters. -/
theorem wellFormed_pieces (s : String) : ∀ p ∈ Document.pieces s, p.WellFormed := by
  intro p hp
  obtain ⟨c, -, rfl⟩ := List.mem_map.mp hp
  exact trivial

/-- The pieces of a string denote it. -/
theorem string?_pieces (s : String) : Piece.string? (Document.pieces s) = some s := by
  have hdecode : ∀ cs : List Char, Piece.decode? (cs.map Piece.char) = some cs := by
    intro cs
    induction cs with
    | nil => rfl
    | cons c cs ih => rw [List.map_cons, Piece.decode?, ih, Option.map_some]
  unfold Piece.string? Document.pieces
  rw [hdecode, Option.map_some, String.ofList_toList]

/-- The number that an integer is written as denotes it. -/
theorem value?_ofInt (n : WideInt) (limit : Nat) :
    (Document.ofInt n.val).value? limit = some (.number (.int n)) := by
  obtain ⟨v, hlower, hupper⟩ := n
  show (NumberText.value? _).map Json.number = _
  unfold NumberText.value?
  dsimp only
  have hval := Numeral.value_digits v.natAbs
  rw [if_pos ⟨rfl, rfl⟩]
  by_cases hneg : v < 0
  · rw [if_pos (decide_eq_true hneg), dif_pos (by omega)]
    simp only [Option.map_some, Option.some.injEq, Json.number.injEq, Number.int.injEq,
      WideInt.mk.injEq]
    omega
  · rw [if_neg (by simpa using hneg), dif_pos (by omega)]
    simp only [Option.map_some, Option.some.injEq, Json.number.injEq, Number.int.injEq,
      WideInt.mk.injEq]
    omega

/-! ## Members -/

/-- A member whose name comes after all others is put at the end. -/
theorem insert_of_forall_lt {name : String} (v : Json) {ms : List (String × Json)}
    (h : ∀ m ∈ ms, m.1 < name) : Members.insert name v ms = ms ++ [(name, v)] := by
  induction ms with
  | nil => rfl
  | cons m ms ih =>
    obtain ⟨k, x⟩ := m
    have hk : k < name := h (k, x) List.mem_cons_self
    rw [Members.insert, if_neg (String.ne_of_lt hk), if_neg (String.lt_asymm hk),
      ih fun m hm => h m (List.mem_cons_of_mem _ hm)]
    rfl

/-! ## Values as documents -/

mutual

/-- A value without floating point numbers is written as a well-formed document. -/
theorem wellFormed_document : ∀ v : Json, v.FloatFree → v.document.WellFormed
  | .null, _ => trivial
  | .bool _, _ => trivial
  | .number (.int n), _ => wellFormed_ofInt n.val
  | .number (.float _), h => h.elim
  | .string s, _ => wellFormed_pieces s
  | .array items, h => wellFormed_documentItems items h
  | .object members, h => wellFormed_documentMembers members h

theorem wellFormed_documentItems : ∀ items : List Json, FloatFreeItems items →
    Document.WellFormedItems (documentItems items)
  | [], _ => trivial
  | v :: rest, h => ⟨wellFormed_document v h.1, wellFormed_documentItems rest h.2⟩

theorem wellFormed_documentMembers : ∀ members : List (String × Json), FloatFreeMembers members →
    Document.WellFormedMembers (documentMembers members)
  | [], _ => trivial
  | (k, v) :: rest, h =>
    ⟨wellFormed_pieces k, wellFormed_document v h.1, wellFormed_documentMembers rest h.2⟩

end

mutual

/-- A value without floating point numbers is written as a document of the same depth. -/
theorem depth_document : ∀ v : Json, v.FloatFree → v.document.depth = v.depth
  | .null, _ => rfl
  | .bool _, _ => rfl
  | .number (.int _), _ => rfl
  | .number (.float _), h => h.elim
  | .string _, _ => rfl
  | .array items, h => congrArg (· + 1) (depth_documentItems items h)
  | .object members, h => congrArg (· + 1) (depth_documentMembers members h)

theorem depth_documentItems : ∀ items : List Json, FloatFreeItems items →
    Document.depthItems (documentItems items) = depthItems items
  | [], _ => rfl
  | v :: rest, h => by
    rw [documentItems, Document.depthItems, depthItems, depth_document v h.1,
      depth_documentItems rest h.2]

theorem depth_documentMembers : ∀ members : List (String × Json), FloatFreeMembers members →
    Document.depthMembers (documentMembers members) = depthMembers members
  | [], _ => rfl
  | (k, v) :: rest, h => by
    rw [documentMembers, Document.depthMembers, depthMembers, depth_document v h.1,
      depth_documentMembers rest h.2]

end

/-! ## Documents as values -/

mutual

/-- The document of an ordered value denotes the value. -/
theorem value?_document : ∀ (v : Json) (limit : Nat), v.FloatFree → v.Ordered → v.depth ≤ limit →
    v.document.value? limit = some v
  | .null, _, _, _, _ => rfl
  | .bool _, _, _, _, _ => rfl
  | .number (.int n), limit, _, _, _ => value?_ofInt n limit
  | .number (.float _), _, h, _, _ => h.elim
  | .string s, limit, _, _, _ => by
    show (Piece.string? (Document.pieces s)).map Json.string = _
    rw [string?_pieces, Option.map_some]
  | .array items, limit, hf, ho, hd => by
    rw [depth] at hd
    obtain ⟨limit, rfl⟩ : ∃ k, limit = k + 1 := ⟨limit - 1, by omega⟩
    show (itemValues? limit (documentItems items)).map Json.array = _
    rw [itemValues?_documentItems items limit hf ho (by omega), Option.map_some]
  | .object members, limit, hf, ho, hd => by
    rw [depth] at hd
    obtain ⟨limit, rfl⟩ : ∃ k, limit = k + 1 := ⟨limit - 1, by omega⟩
    show (memberValues? limit (documentMembers members) []).map Json.object = _
    rw [memberValues?_documentMembers members limit [] hf ho.2 (by omega) ho.1, Option.map_some,
      List.nil_append]

theorem itemValues?_documentItems : ∀ (items : List Json) (limit : Nat), FloatFreeItems items →
    OrderedItems items → depthItems items ≤ limit →
      itemValues? limit (documentItems items) = some items
  | [], _, _, _, _ => rfl
  | v :: rest, limit, hf, ho, hd => by
    rw [depthItems] at hd
    rw [documentItems, itemValues?, value?_document v limit hf.1 ho.1 (by omega),
      itemValues?_documentItems rest limit hf.2 ho.2 (by omega)]

/-- Members that come after those read before them are put behind them, one by one. -/
theorem memberValues?_documentMembers : ∀ (members : List (String × Json)) (limit : Nat)
    (acc : List (String × Json)), FloatFreeMembers members → OrderedMembers members →
      depthMembers members ≤ limit → Members.Sorted (acc ++ members) →
        memberValues? limit (documentMembers members) acc = some (acc ++ members)
  | [], _, acc, _, _, _, _ => by rw [List.append_nil]; rfl
  | (k, v) :: rest, limit, acc, hf, ho, hd, hs => by
    rw [depthMembers] at hd
    have hlast : ∀ m ∈ acc, m.1 < k := fun m hm =>
      (List.pairwise_append.mp hs).2.2 m hm (k, v) List.mem_cons_self
    have hs' : Members.Sorted (acc ++ [(k, v)] ++ rest) := by
      rw [List.append_assoc]
      exact hs
    rw [documentMembers, memberValues?, string?_pieces,
      value?_document v limit hf.1 ho.1 (by omega)]
    dsimp only
    rw [insert_of_forall_lt v hlast,
      memberValues?_documentMembers rest limit _ hf.2 ho.2 (by omega) hs', List.append_assoc]
    rfl

end

/-! ## Texts and bytes -/

/-- The compact text of a value is read as the value. -/
theorem readChars?_document {v : Json} (hf : v.FloatFree) (ho : v.Ordered)
    (hd : v.depth ≤ depthLimit) : readChars? v.document.chars = some v := by
  unfold readChars?
  rw [Document.read?_chars (wellFormed_document v hf) (by rwa [depth_document v hf]),
    Option.bind_some, value?_document v depthLimit hf ho hd]

/-- **The bytes of the compact text of a value are read as the value.** -/
theorem readBytes?_encode {v : Json} (hf : v.FloatFree) (ho : v.Ordered)
    (hd : v.depth ≤ depthLimit) : readBytes? (Utf8.encode v.document.chars) = some v := by
  unfold readBytes?
  rw [Utf8.decode?_encode, Option.bind_some, readChars?_document hf ho hd]

end Json

end RpcDaemon
