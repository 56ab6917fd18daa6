import RpcDaemon.Cli.Convert
import RpcDaemon.Cli.Startup
import RpcDaemon.Settings.Password
import Std.Time

/-!
# The program

`convert` and the arguments of the converter run the converter; all other arguments are those of the
daemon. The daemon serves the connection that its standard input and output are, so that whatever
accepts connections can hand each one to a process of its own. All that is decided here is which
files to look at: the rest is decided by what this module imports.
-/

namespace RpcDaemon

namespace Program

/-! ## Files -/

/-- Adds what stands at a path, if anything does. A directory can be opened but not read, which the
error for it tells without naming a file. -/
def look (fs : Files) (path : String) : IO Files := do
  try
    return fs.put path (← IO.FS.readBinFile path).toList
  catch
    | .inappropriateType none .. => return fs.putDirectory path
    | _ => return fs

/-- Adds what stands at the given paths and on the way to them. -/
def lookAt (fs : Files) (paths : List String) : IO Files :=
  (paths.flatMap Path.stages).foldlM look fs

/-! ## The converter -/

/-- Runs the converter, and writes its output if it succeeds. -/
def convert (args : List String) : IO UInt32 := do
  match Cli.ConvertOptions.read args with
  | .error _ =>
      let r := Cli.ConvertOptions.run args .empty
      IO.print r.output
      return UInt32.ofNat r.exit
  | .ok o =>
      let r := Cli.ConvertOptions.run args (← lookAt .empty [o.input, o.output])
      IO.eprint r.errors
      if r.exit = 0 then
        match r.files.read o.output with
        | .ok content => IO.FS.writeBinFile o.output (ByteArray.mk content.toArray)
        | .error _ => pure ()
      IO.print r.output
      return UInt32.ofNat r.exit

/-! ## The daemon -/

/-- A password of random letters and digits. -/
def suggestion : IO String := do
  let bytes ← IO.getRandomBytes (USize.ofNat (2 * Password.length))
  let draws := bytes.toList.map UInt8.toNat
  return Password.ofDraws fun i => draws.getD (2 * i) 0 * 256 + draws.getD (2 * i + 1) 0

/-- Reads a stream to its end. -/
partial def readToEnd (stream : IO.FS.Stream) (sofar : ByteArray) : IO ByteArray := do
  let more ← stream.read 65536
  if more.isEmpty then return sofar
  else readToEnd stream (sofar ++ more)

/-- The seconds since 1970. -/
def now : IO Nat := do
  return (← Std.Time.Timestamp.now).toSecondsSinceUnixEpoch.val.toNat

/-- Serves the connection that standard input and output are. -/
def serve (server : Server Unit) : IO UInt32 := do
  let input ← readToEnd (← IO.getStdin) .empty
  let (served, _) := server.connect (.v4 ⟨127, 0, 0, 1⟩) (.plain input.toList)
  IO.sleep (UInt32.ofNat served.delay)
  let moment ← now
  let output ← IO.getStdout
  output.write (ByteArray.mk (served.bytes fun _ => moment).toArray)
  output.flush
  return 0

/-- The connection is there already, so that nothing has to be listened at. -/
def machine : Machine := ⟨fun _ _ => some false⟩

/-- Starts the daemon. The files of its settings tell which other files it needs. -/
def daemon (args : List String) : IO UInt32 := do
  let password ← suggestion
  let sources ← match Cli.DaemonOptions.read args with
    | .error _ => pure .empty
    | .ok o =>
        let sources ← lookAt .empty o.sources
        match o.launch sources password with
        | .error _ => pure sources
        | .ok l => lookAt sources l.tlsFiles
  match (Cli.DaemonOptions.run machine args sources password).1 with
  | .error ending =>
      IO.eprint ending.errors
      return UInt32.ofNat ending.code
  | .ok server => serve server

end Program

end RpcDaemon

/-- Runs the converter or the daemon. -/
def main (args : List String) : IO UInt32 :=
  match args with
  | "convert" :: rest => RpcDaemon.Program.convert rest
  | _ => RpcDaemon.Program.daemon args
