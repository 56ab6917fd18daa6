import RpcDaemon.Text.Blank
import RpcDaemon.Text.Numeral

/-!
# Failures of programs

A failure is a message and the messages of what caused it, the cause of the cause after the cause.
Its report shows the message first and the causes below, numbered if there are several.
-/

namespace RpcDaemon

namespace Cli

/-- A failure: a message and its causes. -/
structure Failure where
  /-- The message. -/
  message : String
  /-- The causes, each the cause of the one before. -/
  causes : List String
deriving DecidableEq

namespace Failure

/-- The failure with the given messages, the outermost first. -/
def ofChain : List String → Failure
  | [] => ⟨"", []⟩
  | m :: causes => ⟨m, causes⟩

/-- A failure that causes another one. -/
def under (context : String) (chain : List String) : Failure :=
  ⟨context, chain⟩

/-- A text whose first line stands after `first` and whose other lines stand after `other`. -/
def indented (first other : List Char) (s : String) : List Char :=
  match Chars.splitOn '\n' s.toList with
  | [] => first
  | line :: rest => first ++ line ++ rest.flatMap fun l => '\n' :: other ++ l

/-- Spaces. -/
def spaces (n : Nat) : List Char := List.replicate n ' '

/-- The number of a cause, right-aligned, and a colon. -/
def numbered (n : Nat) : List Char :=
  let ds := Numeral.ofNat n
  spaces (5 - ds.length) ++ ds ++ [':', ' ']

/-- The lines of the causes. -/
def causeChars : List String → List Char
  | [] => []
  | [c] => '\n' :: indented (spaces 4) (spaces 4) c
  | causes => causes.zipIdx.flatMap fun c => '\n' :: indented (numbered c.2) (spaces 7) c.1

/-- The report of a failure. -/
def report (f : Failure) : String :=
  "Error: " ++ f.message
    ++ (if f.causes.isEmpty then "" else "\n\nCaused by:" ++ String.ofList (causeChars f.causes))
    ++ "\n"

end Failure

end Cli

end RpcDaemon
