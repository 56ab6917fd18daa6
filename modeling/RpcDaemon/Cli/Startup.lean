import RpcDaemon.Cli.Failure
import RpcDaemon.Cli.Options
import RpcDaemon.Service.Listening
import RpcDaemon.Service.Server
import RpcDaemon.Settings.Check
import RpcDaemon.Settings.Load
import RpcDaemon.Tls.Acceptor

/-!
# Starting the daemon

From the command line and the files to a server. The settings come from one file, the command line
goes over them, the network is chosen, the settings are checked, and the server is started; the first
thing that is wrong ends the start. What was done to the host by then stays done.
-/

namespace RpcDaemon

namespace Cli

/-- Settings and the path that is shown when they lack a password. -/
structure Loaded where
  /-- The settings. -/
  settings : Settings
  /-- The path. -/
  path : String
deriving DecidableEq

/-- Settings loaded from a path, or the failure to do so. -/
def loadedFrom (path : String) (r : Except SettingsError Settings) : Except Failure Loaded :=
  match r with
  | .ok s => .ok ⟨s, path⟩
  | .error e => .error (.under ("failed to load " ++ path) e.chain)

/-- The conf file that is used unless another file is given. -/
def DaemonOptions.defaultConf (o : DaemonOptions) : String :=
  Path.join (o.overrides.dataDir.getD Settings.default.dataDir) "clam.conf"

/-- Loads the settings: from the settings file, else from the conf file, else from the default conf
file if it is there, else the defaults. -/
def DaemonOptions.load (o : DaemonOptions) (fs : Files) : Except Failure Loaded :=
  match o.config, o.conf with
  | some path, _ => loadedFrom path (Settings.load fs path)
  | none, some path => loadedFrom path (Settings.loadConf fs path)
  | none, none =>
      if fs.contains o.defaultConf then
        loadedFrom o.defaultConf (Settings.loadConf fs o.defaultConf)
      else .ok ⟨.default, o.defaultConf⟩

/-- The files that settings may come from. -/
def DaemonOptions.sources (o : DaemonOptions) : List String :=
  o.config.toList ++ o.conf.toList ++ [o.defaultConf]

/-- A daemon that may be started. -/
structure Launch where
  /-- The settings in force. -/
  settings : Settings
  /-- The choice of the network. -/
  registry : Chain.Registry
  /-- The port to listen on. -/
  port : UInt16
  /-- The TLS mode. -/
  tls : TlsMode

/-- The TLS mode that settings ask for. -/
def tlsMode (fs : Files) (s : ServerSettings) (networkDir : String) : TlsMode :=
  if s.ssl then
    let (certificate, key) := s.tlsPaths networkDir
    .load fs certificate key s.sslCiphers
  else .disabled

/-- Checks settings on the network that was chosen. -/
def prepare (fs : Files) (s : Settings) (path suggestion : String) (r : Chain.Registry) :
    Except Failure Launch :=
  match s.rpc.validate with
  | .error e => .error (.ofChain e.chain)
  | .ok () =>
      match s.rpc.checkCredentials r.profile.requiresPassword path suggestion with
      | .error e => .error (.ofChain e.chain)
      | .ok () =>
          .ok ⟨s, r, s.rpc.portFor r.profile, tlsMode fs s.rpc (r.profile.dataDirIn s.dataDir)⟩

/-- What a start works on: the choice of the network, and the places that are listened at. -/
structure Host where
  /-- The choice of the network. -/
  registry : Chain.Registry
  /-- The places that are listened at. -/
  listening : List Net.Endpoint
deriving DecidableEq

/-- Before a start the network is not chosen and nothing is listened at. -/
def Host.initial : Host := ⟨.initial, []⟩

/-- Everything before the start of the server: a daemon that may be started, or why there is none,
and the host by then. `suggestion` is the password that is suggested if one is missing. -/
def DaemonOptions.ready (o : DaemonOptions) (fs : Files) (suggestion : String) (h : Host) :
    Except Failure Launch × Host :=
  match o.load fs with
  | .error f => (.error f, h)
  | .ok loaded =>
      let s := loaded.settings.override o.overrides
      match (Chain.Choice.selectBy s.network).run h.registry with
      | (.error e, r) =>
          (.error (.under "invalid network selection" [e.message]), { h with registry := r })
      | (.ok _, r) => (prepare fs s loaded.path suggestion r, { h with registry := r })

/-- What comes of options on a host where nothing has been done. -/
def DaemonOptions.launch (o : DaemonOptions) (fs : Files) (suggestion : String) :
    Except Failure Launch :=
  (o.ready fs suggestion .initial).1

namespace Launch

/-- The node of a daemon. -/
def node (l : Launch) : Node :=
  { Node.fresh l.registry with safeModeDisabled := l.settings.rpc.disableSafeMode }

/-- What the connections of a daemon are served with: the built-in commands. -/
def service (l : Launch) : Service Unit where
  table := Table.builtins fun _ _ _ node store => (.value .null, node, store)
  credentials := ⟨l.settings.rpc.user, l.settings.rpc.password⟩
  allowList := ⟨l.settings.rpc.allowIps⟩
  tls := l.tls
  maxBody := l.settings.rpc.maxBodyBytes.toNat

/-- The certificate and the key that a daemon looks for; none unless it uses TLS. -/
def tlsFiles (l : Launch) : List String :=
  if l.settings.rpc.ssl then
    let (certificate, key) :=
      l.settings.rpc.tlsPaths (l.registry.profile.dataDirIn l.settings.dataDir)
    [certificate, key]
  else []

/-- Starts the server of a daemon. The choice of the network is closed before the machine is asked to
listen. -/
def start (m : Machine) (l : Launch) (h : Host) : Except Failure (Server Unit) × Host :=
  let failed (e : StartError) : Failure := .under "failed to start RPC server" [e.message]
  match Server.start l.service l.settings.rpc.threads.toNat ⟨l.node, (), []⟩ with
  | .error e => (.error (failed e), h)
  | .ok server =>
      let h := { h with registry := server.world.node.registry }
      match m.bind l.port l.settings.rpc.allowIps.isEmpty with
      | [] => (.error (failed (.noListener l.port)), h)
      | e :: es => (.ok server, { h with listening := h.listening ++ e :: es })

end Launch

/-- How the daemon ends without a server. -/
inductive Ending where
  /-- The command line ends it. -/
  | parsed (e : Exit)
  /-- The start fails. -/
  | failed (f : Failure)
deriving DecidableEq

namespace Ending

/-- The exit code. -/
def code : Ending → Nat
  | parsed e => e.code
  | failed _ => 1

/-- What is reported. -/
def errors : Ending → String
  | parsed _ => ""
  | failed f => f.report

end Ending

/-- Runs the daemon up to its server. -/
def DaemonOptions.run (m : Machine) (args : List String) (fs : Files) (suggestion : String) :
    Except Ending (Server Unit) × Host :=
  match DaemonOptions.read args with
  | .error e => (.error (.parsed e), .initial)
  | .ok o =>
      match o.ready fs suggestion .initial with
      | (.error f, h) => (.error (.failed f), h)
      | (.ok l, h) =>
          let (started, h) := l.start m h
          (started.mapError .failed, h)

end Cli

end RpcDaemon
