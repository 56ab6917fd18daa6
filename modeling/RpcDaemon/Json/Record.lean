import RpcDaemon.Json.Value

/-!
# Records

The fields of a record with known names, taken from the members of an object or from the items of
an array. In an object, members with other names are passed over and a known name may stand there
once. In an array the items are the fields in order, and fields may be missing at the end.
-/

namespace RpcDaemon

namespace Record

/-- Puts `value` at the place of `name`; the place has to be free. A name that is not known is
passed over. -/
def place? {α : Type} (name : String) (value : α) :
    List String → List (Option α) → Option (List (Option α))
  | n :: names, slot :: slots =>
      if n = name then
        match slot with
        | none => some (some value :: slots)
        | some _ => none
      else (place? name value names slots).map (slot :: ·)
  | _, slots => some slots

/-- The fields called `names` among members whose own names may be unreadable. -/
def ofMembers? {α : Type} (names : List String) :
    List (Option String × α) → List (Option α) → Option (List (Option α))
  | [], slots => some slots
  | (none, _) :: _, _ => none
  | (some k, v) :: rest, slots =>
      match place? k v names slots with
      | some slots => ofMembers? names rest slots
      | none => none

/-- The fields at the places of `names` among items. With `strict`, no item may be left over. -/
def ofItems? {α : Type} (strict : Bool) (names : List String) (items : List α) :
    Option (List (Option α)) :=
  if strict ∧ names.length < items.length then none
  else
    let taken := (items.take names.length).map some
    some (taken ++ List.replicate (names.length - taken.length) none)

end Record

namespace Json

/-- Whether a document is an array. -/
def Document.isArray : Document → Bool
  | .array _ => true
  | _ => false

/-- The fields called `names` of a document. -/
def Document.record? (strict : Bool) (names : List String) :
    Document → Option (List (Option Document))
  | .object members =>
      Record.ofMembers? names (members.map fun m => (Piece.string? m.1, m.2))
        (List.replicate names.length none)
  | .array items => Record.ofItems? strict names items
  | _ => none

end Json

end RpcDaemon
