import RpcDaemon.Toml.Basic

/-!
# Tables under construction

Entries are added to a table by paths of keys. Tables that a path leads through are made if they are
missing, and may be entered only if the way they came about allows it; no key is set twice.
-/

namespace RpcDaemon

namespace Toml

namespace Entries

/-- The value of a key. -/
def get? (key : String) : Entries → Option Value
  | [] => none
  | (k, v) :: rest => if k = key then some v else get? key rest

/-- Puts a value over that of a key, or after all entries. -/
def put (key : String) (value : Value) : Entries → Entries
  | [] => [(key, value)]
  | (k, v) :: rest => if k = key then (key, value) :: rest else (k, v) :: put key value rest

end Entries

/-- Who walks along a path. -/
inductive Walk where
  /-- A header. -/
  | header
  /-- A dotted key. -/
  | dotted
deriving DecidableEq

/-- How a table that a walk makes comes about. -/
def Walk.origin : Walk → Origin
  | header => .implied
  | dotted => .dotted

/-- Whether a walk may enter a table: a header every table outside braces, a dotted key only one
that no header and no braces closed. -/
def Walk.mayEnter : Walk → Origin → Bool
  | header, o => o != .inlined
  | dotted, o => o == .implied || o == .dotted

/-- Changes the table that a path leads to. `change` is given how the table came about. -/
def alterAt? (walk : Walk) (change : Origin → Entries → Option Entries) :
    List String → Origin → Entries → Option Entries
  | [], origin, entries => change origin entries
  | key :: path, _, entries =>
      match Entries.get? key entries with
      | none =>
          (alterAt? walk change path walk.origin []).map fun sub =>
            Entries.put key (.table walk.origin sub) entries
      | some (.table origin sub) =>
          if walk.mayEnter origin then
            (alterAt? walk change path origin sub).map fun sub =>
              Entries.put key (.table origin sub) entries
          else none
      | some (.tables elements) =>
          match elements.getLast? with
          | some last =>
              (alterAt? walk change path .header last).map fun last =>
                Entries.put key (.tables (elements.dropLast ++ [last])) entries
          | none => none
      | some _ => none

/-- Sets a key of the table that a dotted path leads to. A path that is not empty has to lead to a
table that dotted keys made. -/
def set? (path : List String) (key : String) (value : Value) (entries : Entries) :
    Option Entries :=
  alterAt? .dotted (fun origin entries =>
    if path ≠ [] ∧ origin ≠ .dotted then none
    else
      match Entries.get? key entries with
      | none => some (entries ++ [(key, value)])
      | some _ => none) path .header entries

/-- Opens the table of a header: it is new, or was only implied so far. -/
def open? (path : List String) (key : String) (entries : Entries) : Option Entries :=
  alterAt? .header (fun _ entries =>
    match Entries.get? key entries with
    | none => some (entries ++ [(key, .table .header [])])
    | some (.table .implied sub) => some (Entries.put key (.table .header sub) entries)
    | some _ => none) path .header entries

/-- Adds an empty table to the tables of a header in double brackets. -/
def add? (path : List String) (key : String) (entries : Entries) : Option Entries :=
  alterAt? .header (fun _ entries =>
    match Entries.get? key entries with
    | none => some (entries ++ [(key, .tables [[]])])
    | some (.tables elements) => some (Entries.put key (.tables (elements ++ [[]])) entries)
    | some _ => none) path .header entries

/-- A dotted key with its value: the keys before the last one, the last one, the value. -/
abbrev Pair := List String × String × Value

/-- The entries that dotted keys and values between braces make. -/
def ofPairs? (pairs : List Pair) : Option Entries :=
  pairs.foldlM (fun entries p => set? p.1 p.2.1 p.2.2 entries) []

/-- What a document consists of. -/
inductive Statement where
  /-- The header of a table. -/
  | header (path : List String) (key : String)
  /-- The header of one more table of an array. -/
  | element (path : List String) (key : String)
  /-- A dotted key with its value. -/
  | pair (p : Pair)

/-- A document under construction: the table that keys are added to, and all entries. -/
structure Draft where
  /-- The path of the open table. -/
  current : List String
  /-- The entries so far. -/
  entries : Entries

/-- Adds a statement to a document. -/
def Draft.step? (d : Draft) : Statement → Option Draft
  | .header path key => (open? path key d.entries).map fun e => ⟨path ++ [key], e⟩
  | .element path key => (add? path key d.entries).map fun e => ⟨path ++ [key], e⟩
  | .pair (path, key, value) =>
      (alterAt? .header (fun _ entries => set? path key value entries) d.current .header
        d.entries).map fun e => ⟨d.current, e⟩

/-- The entries of a document. -/
def ofStatements? (statements : List Statement) : Option Entries :=
  (statements.foldlM Draft.step? ⟨[], []⟩).map fun d => d.entries

end Toml

end RpcDaemon
