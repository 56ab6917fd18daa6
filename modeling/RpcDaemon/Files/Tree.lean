import RpcDaemon.Files.Path
import RpcDaemon.Text.Utf8

/-!
# Files

The files that a program can read and write, as a list of paths with contents. Directories are the
paths above the files, the working directory, where relative paths start, and the root.
-/

namespace RpcDaemon

/-- Why a file could not be read or written. -/
inductive FileError where
  /-- There is no such file, or no such directory to write it in. -/
  | notFound
  /-- The path leads through a file. -/
  | notDirectory
  /-- The path is that of a directory. -/
  | isDirectory
  /-- The content is no text. -/
  | invalidText
deriving DecidableEq

/-- The wording of an error. -/
def FileError.message : FileError → String
  | notFound => "No such file or directory (os error 2)"
  | notDirectory => "Not a directory (os error 20)"
  | isDirectory => "Is a directory (os error 21)"
  | invalidText => "stream did not contain valid UTF-8"

/-- A file: the components of its path and its content. -/
structure File where
  /-- The components of the path. -/
  path : List (List Char)
  /-- The content. -/
  content : List UInt8
deriving DecidableEq

/-- The files there are. -/
structure Files where
  /-- The files, no two with one path. -/
  entries : List File

namespace Files

/-- No files. -/
def empty : Files := ⟨[]⟩

/-- The content of the file at a path. -/
def find? (fs : Files) (path : List (List Char)) : Option (List UInt8) :=
  (fs.entries.find? fun f => f.path == path).map fun f => f.content

/-- The place of the root; every other absolute path starts with it. -/
def root : List (List Char) := [['/']]

/-- Whether a path is that of a directory: the working directory, the root, or one above a file. -/
def isDirectory (fs : Files) (path : List (List Char)) : Bool :=
  path.isEmpty || path == root
    || fs.entries.any fun f => path.isPrefixOf f.path && path != f.path

/-- Whether something stands at a path. -/
def isThere (fs : Files) (path : List (List Char)) : Bool :=
  (fs.find? path).isSome || fs.isDirectory path

/-- The directory above a place; there is none above the root. -/
def above (place : List (List Char)) : List (List Char) :=
  if place = root then root else place.dropLast

/-- Where a path starts. -/
def start (path : String) : List (List Char) :=
  if Path.isAbsolute path then root else []

/-- Goes down a path component by component; two points lead up. Every component but the last has to
be that of a directory. -/
def walk (fs : Files) (here : List (List Char)) :
    List (List Char) → Except FileError (List (List Char))
  | [] => .ok here
  | c :: rest =>
      if fs.isDirectory here then
        fs.walk (if c = ['.', '.'] then above here else here ++ [c]) rest
      else if (fs.find? here).isSome then .error .notDirectory
      else .error .notFound

/-- Where a path leads. A path with a slash at its end has to lead to a directory. -/
def locate (fs : Files) (path : String) : Except FileError (List (List Char)) :=
  if path.isEmpty then .error .notFound
  else
    match fs.walk (start path) (Path.components path) with
    | .error e => .error e
    | .ok place =>
        if path.toList.getLast? = some '/' ∧ (fs.find? place).isSome then .error .notDirectory
        else .ok place

/-- Whether a path leads to something. -/
def contains (fs : Files) (path : String) : Bool :=
  match fs.locate path with
  | .ok place => fs.isThere place
  | .error _ => false

/-- The bytes of a file. -/
def read (fs : Files) (path : String) : Except FileError (List UInt8) :=
  match fs.locate path with
  | .error e => .error e
  | .ok place =>
      match fs.find? place with
      | some content => .ok content
      | none => if fs.isDirectory place then .error .isDirectory else .error .notFound

/-- The text of a file. -/
def readText (fs : Files) (path : String) : Except FileError String :=
  match fs.read path with
  | .error e => .error e
  | .ok bytes =>
      match Utf8.toString? bytes with
      | some s => .ok s
      | none => .error .invalidText

/-- Puts a file at a place, over one that stands there. -/
def putAt (fs : Files) (place : List (List Char)) (content : List UInt8) : Files :=
  ⟨(fs.entries.filter fun f => f.path != place) ++ [⟨place, content⟩]⟩

/-- Where a path leads once every component but the last is that of a directory. -/
def place (path : String) : List (List Char) :=
  (Path.components path).foldl
    (fun here c => if c = ['.', '.'] then above here else here ++ [c]) (start path)

/-- Puts a file at a path and makes the directories above it. -/
def put (fs : Files) (path : String) (content : List UInt8) : Files :=
  fs.putAt (place path) content

/-- Puts a directory at a path. It is held by a file without a name, which no path leads to. -/
def putDirectory (fs : Files) (path : String) : Files :=
  fs.putAt (place path ++ [[]]) []

/-- Writes a file; the directory has to be there. -/
def write (fs : Files) (path : String) (content : List UInt8) : Except FileError Files :=
  match fs.locate path with
  | .error e => .error e
  | .ok place =>
      if fs.isDirectory place then .error .isDirectory
      else if path.toList.getLast? = some '/' then .error .isDirectory
      else if fs.isDirectory place.dropLast then .ok (fs.putAt place content)
      else if (fs.find? place.dropLast).isSome then .error .notDirectory
      else .error .notFound

end Files

end RpcDaemon
