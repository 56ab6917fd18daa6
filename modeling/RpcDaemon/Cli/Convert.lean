import RpcDaemon.Cli.Failure
import RpcDaemon.Cli.Options
import RpcDaemon.Settings.ConfFile
import RpcDaemon.Settings.Writing

/-!
# Converting conf files

The converter reads a conf file and writes the same settings as TOML, with a heading and, at the end,
the keys that have no counterpart, all of it in comments.
-/

namespace RpcDaemon

namespace Cli

/-- What a program leaves behind. -/
structure Report where
  /-- The exit code. -/
  exit : Nat
  /-- What was printed. -/
  output : String
  /-- What was reported. -/
  errors : String
  /-- The files. -/
  files : Files

namespace ConvertOptions

/-- How the converter is used. -/
def usage : String :=
  "Convert clam.conf to clamd config.toml\n\n" ++
    "Usage: convert-clam-conf [OPTIONS] <INPUT> [OUTPUT]\n\n" ++
    "Arguments:\n" ++
    "  <INPUT>   Input clam.conf\n" ++
    "  [OUTPUT]  Output file [default: config.toml]\n\n" ++
    "Options:\n" ++
    "  -v, --verbose  \n" ++
    "  -h, --help     Print help\n"

/-- The list of the keys without a counterpart. -/
def ignoredText (keys : List String) : String :=
  if keys.isEmpty then ""
  else
    "\n# Not converted (no equivalent):\n" ++ String.join (keys.map fun k => "#   " ++ k ++ "\n")

/-- The file that is written. -/
def render (input body : String) (ignored : List String) : String :=
  "# clamd configuration\n" ++ "# Converted from: " ++ input ++ "\n\n" ++ body
    ++ ignoredText ignored

/-- Reads the input and renders the output: the file to write and the keys without counterpart. -/
def convert (o : ConvertOptions) (fs : Files) : Except Failure (String × List String) :=
  match fs.readText o.input with
  | .error e => .error (.under ("input file '" ++ o.input ++ "' not readable") [e.message])
  | .ok text =>
      match ConfFile.parse text with
      | .error e => .error (.ofChain e.chain)
      | .ok i =>
          match i.settings.toml with
          | .error e => .error (.ofChain e.chain)
          | .ok body => .ok (render o.input body i.ignored, i.ignored)

/-- Converts, and writes the output. -/
def write (o : ConvertOptions) (fs : Files) : Except Failure (Files × List String) :=
  match o.convert fs with
  | .error f => .error f
  | .ok (text, ignored) =>
      match fs.write o.output (Utf8.ofString text) with
      | .error e => .error (.under ("failed to write " ++ o.output) [e.message])
      | .ok fs => .ok (fs, ignored)

/-- What is printed after a conversion. -/
def summary (o : ConvertOptions) (ignored : List String) : String :=
  "Configuration converted\n" ++ "  Input:  " ++ o.input ++ "\n" ++ "  Output: " ++ o.output ++ "\n"
    ++ (if ignored.isEmpty then ""
        else "  Skipped " ++ decimal ignored.length
          ++ " unsupported key(s); see the end of the output\n")

/-- Runs the converter. -/
def run (args : List String) (fs : Files) : Report :=
  match ConvertOptions.read args with
  | .error e => ⟨e.code, if e = .help then usage else "", "", fs⟩
  | .ok o =>
      let opening := if o.verbose then "Reading clam.conf from: " ++ o.input ++ "\n" else ""
      match o.write fs with
      | .ok (after, ignored) => ⟨0, o.summary ignored, opening, after⟩
      | .error f => ⟨1, "", opening ++ f.report, fs⟩

end ConvertOptions

end Cli

end RpcDaemon
