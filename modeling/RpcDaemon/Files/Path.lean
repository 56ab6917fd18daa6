import RpcDaemon.Text.Blank

/-!
# Paths

Paths are texts with slashes between their components. Joining keeps both texts as they are; only
the separator between them is supplied when it is missing.
-/

namespace RpcDaemon

namespace Path

/-- Whether a path starts at the root. -/
def isAbsolute (p : String) : Bool :=
  p.toList.head? == some '/'

/-- `p` below `base`; an absolute `p` stands for itself. -/
def join (base p : String) : String :=
  if isAbsolute p then p
  else
    let b := base.toList
    if b.isEmpty || b.getLast? == some '/' then base ++ p else base ++ "/" ++ p

/-- `p` below `base` unless it is absolute. -/
def resolve (base p : String) : String :=
  if isAbsolute p then p else join base p

/-- The components of a path, without empty ones and without those that stay in place. -/
def components (p : String) : List (List Char) :=
  (Chars.splitOn '/' p.toList).filter fun c => !(c.isEmpty || c == ['.'])

/-- The paths of what a path leads through, from its start down to the path itself. -/
def stages (p : String) : List String :=
  let cs := components p
  let top := if isAbsolute p then ['/'] else []
  (List.range cs.length).map fun n =>
    String.ofList (top ++ ['/'].intercalate (cs.take (n + 1)))

/-- The last component, unless it leads upwards. -/
def fileName? (p : String) : Option (List Char) :=
  match (components p).getLast? with
  | some ['.', '.'] => none
  | c => c

/-- What follows the last point of the file name, if a character stands before that point. -/
def extensionChars (name : List Char) : List Char :=
  let rev := name.reverse
  match Chars.splitFirst? '.' rev with
  | some (ext, stem) => if stem.isEmpty then [] else ext.reverse
  | none => []

/-- The extension of a path, empty if it has none. -/
def extension (p : String) : String :=
  match fileName? p with
  | some name => String.ofList (extensionChars name)
  | none => ""

end Path

end RpcDaemon
