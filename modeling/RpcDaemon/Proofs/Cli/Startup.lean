import RpcDaemon.Cli.Startup
import RpcDaemon.Proofs.Chain.Selection
import RpcDaemon.Proofs.Service.Listening

/-!
# The gate before the server

The server is started exactly if the chosen file was loaded and the settings in force meet the
conditions of `Settings.Startable`, which say nothing of the order of the checks. It then listens on
its port, wherever the machine grants it, on the network that was asked for, and the choice of the
network is closed. In every other case the daemon fails, the choice is not closed, and nothing is
listened at. Main statement: `DaemonOptions.startup_gate`.
-/

namespace RpcDaemon

/-! ## The checks -/

namespace Chain

/-- Only the regression network does without a password. -/
theorem Profile.requiresPassword_of_iff {n : Network} :
    (Profile.of n).requiresPassword = true ↔ n ≠ .regtest := by
  cases n <;> decide

end Chain

namespace ServerSettings

variable {s : ServerSettings}

/-- Settings are valid if there is a worker thread and bodies may have a length. -/
theorem validate_eq_ok_iff :
    s.validate = .ok () ↔ 1 ≤ s.threads.toNat ∧ 1 ≤ s.maxBodyBytes.toNat := by
  have hzero : ∀ {n : UInt64}, n = 0 ↔ ¬1 ≤ n.toNat := by
    intro n
    rw [← UInt64.toNat_inj, UInt64.toNat_zero]
    omega
  rw [validate]
  split
  · rename_i hthreads
    constructor
    · intro h
      cases h
    · intro h
      exact absurd h.1 (hzero.mp hthreads)
  · rename_i hthreads
    split
    · rename_i hbody
      constructor
      · intro h
        cases h
      · intro h
        exact absurd h.2 (hzero.mp hbody)
    · rename_i hbody
      rw [hzero, Decidable.not_not] at hthreads hbody
      exact ⟨fun _ => ⟨hthreads, hbody⟩, fun _ => rfl⟩

/-- A password is usable if it is not empty and differs from the user. -/
theorem hasUsablePassword_iff :
    s.hasUsablePassword = true ↔ s.password ≠ "" ∧ s.password ≠ s.user := by
  rw [hasUsablePassword, Bool.and_eq_true, Bool.not_eq_true', bne_iff_ne, String.isEmpty_eq_false_iff]

/-- The credentials are in order if the password is usable where one is required. -/
theorem checkCredentials_eq_ok_iff {required : Bool} {path suggestion : String} :
    s.checkCredentials required path suggestion = .ok () ↔
      (required = true → s.password ≠ "" ∧ s.password ≠ s.user) := by
  rw [← hasUsablePassword_iff, checkCredentials]
  cases required <;> cases s.hasUsablePassword <;> simp

end ServerSettings

/-- **What settings have to be for a server on a network**: they ask for that network and no other,
there is a worker thread, bodies may have a length, and on every network but the regression network
there is a password, which is not the user. -/
structure Settings.Startable (s : Settings) (n : Chain.Network) : Prop where
  /-- The network is asked for, and no other. -/
  network : ∀ k, (Chain.Step.wish s.network).Asks k ↔ k = n
  /-- There is a worker thread. -/
  threads : 1 ≤ s.rpc.threads.toNat
  /-- Bodies may have a length. -/
  maxBodyBytes : 1 ≤ s.rpc.maxBodyBytes.toNat
  /-- The password is usable. -/
  password : n ≠ .regtest → s.rpc.password ≠ "" ∧ s.rpc.password ≠ s.rpc.user

namespace Cli

/-- Settings pass the checks exactly if they may be used for a server on the active network. -/
theorem prepare_eq_ok_iff {fs : Files} {s : Settings} {path suggestion : String} {n : Chain.Network}
    {closed : Bool} {l : Launch} (hasks : (Chain.Step.wish s.network).Asks n) :
    prepare fs s path suggestion ⟨n, closed⟩ = .ok l ↔ s.Startable n ∧
      l = ⟨s, ⟨n, closed⟩, s.rpc.portFor (.of n),
        tlsMode fs s.rpc ((Chain.Profile.of n).dataDirIn s.dataDir)⟩ := by
  have hstartable : s.Startable n ↔ s.rpc.validate = .ok () ∧
      s.rpc.checkCredentials (Chain.Profile.of n).requiresPassword path suggestion = .ok () := by
    rw [ServerSettings.validate_eq_ok_iff, ServerSettings.checkCredentials_eq_ok_iff,
      Chain.Profile.requiresPassword_of_iff]
    constructor
    · intro h
      exact ⟨⟨h.threads, h.maxBodyBytes⟩, h.password⟩
    · rintro ⟨⟨hthreads, hbody⟩, hpassword⟩
      refine ⟨fun k => ⟨fun hk => Chain.Step.asks_unique hk hasks, ?_⟩, hthreads, hbody, hpassword⟩
      rintro rfl
      exact hasks
  rw [hstartable, prepare, Chain.Registry.profile]
  dsimp only
  cases s.rpc.validate with
  | error e => simp
  | ok u =>
    dsimp only
    cases s.rpc.checkCredentials (Chain.Profile.of n).requiresPassword path suggestion with
    | error e => simp
    | ok u => simp [eq_comm]

namespace DaemonOptions

variable {o : DaemonOptions} {fs : Files}

/-! ## The chosen file -/

/-- **The settings that the chosen file gives**: the settings file by its extension, else the conf
file, else the default conf file if there is one, else the defaults. -/
inductive Gives (o : DaemonOptions) (fs : Files) : Settings → Prop
  /-- A settings file is named. -/
  | config {path : String} {s : Settings} (hconfig : o.config = some path)
      (hload : Settings.load fs path = .ok s) : o.Gives fs s
  /-- A conf file is named. -/
  | conf {path : String} {s : Settings} (hconfig : o.config = none) (hconf : o.conf = some path)
      (hload : Settings.loadConf fs path = .ok s) : o.Gives fs s
  /-- No file is named, and the default conf file is there. -/
  | found {s : Settings} (hconfig : o.config = none) (hconf : o.conf = none)
      (hthere : fs.contains o.defaultConf = true)
      (hload : Settings.loadConf fs o.defaultConf = .ok s) : o.Gives fs s
  /-- No file is named, and there is no default conf file. -/
  | absent (hconfig : o.config = none) (hconf : o.conf = none)
      (hthere : fs.contains o.defaultConf = false) : o.Gives fs .default

/-- Settings are loaded from a path if they could be read there. -/
theorem loadedFrom_eq_ok_iff {path : String} {r : Except SettingsError Settings} {loaded : Loaded} :
    loadedFrom path r = .ok loaded ↔ r = .ok loaded.settings ∧ path = loaded.path := by
  obtain ⟨s, p⟩ := loaded
  cases r with
  | error e => simp [loadedFrom]
  | ok s => simp [loadedFrom]

/-- **The settings that are loaded are those that the chosen file gives.** -/
theorem gives_iff {s : Settings} : o.Gives fs s ↔ ∃ path, o.load fs = .ok ⟨s, path⟩ := by
  unfold load
  constructor
  · intro h
    cases h with
    | config hconfig hload =>
      rw [hconfig]
      exact ⟨_, loadedFrom_eq_ok_iff.mpr ⟨hload, rfl⟩⟩
    | conf hconfig hconf hload =>
      rw [hconfig, hconf]
      exact ⟨_, loadedFrom_eq_ok_iff.mpr ⟨hload, rfl⟩⟩
    | found hconfig hconf hthere hload =>
      rw [hconfig, hconf]
      dsimp only
      rw [if_pos hthere]
      exact ⟨_, loadedFrom_eq_ok_iff.mpr ⟨hload, rfl⟩⟩
    | absent hconfig hconf hthere =>
      rw [hconfig, hconf]
      dsimp only
      rw [hthere]
      exact ⟨_, rfl⟩
  · rintro ⟨path, h⟩
    split at h
    · rename_i hconfig
      exact .config hconfig (loadedFrom_eq_ok_iff.mp h).1
    · rename_i hconfig hconf
      exact .conf hconfig hconf (loadedFrom_eq_ok_iff.mp h).1
    · rename_i hconfig hconf
      split at h
      · rename_i hthere
        exact .found hconfig hconf hthere (loadedFrom_eq_ok_iff.mp h).1
      · rename_i hthere
        cases h
        exact .absent hconfig hconf (by simpa using hthere)

end DaemonOptions

/-! ## The start of the server -/

/-- **What starting the server does** if there is a worker thread. The choice of the network is closed,
and the machine is asked to listen; if it does so anywhere there is a server, otherwise a failure. -/
theorem Launch.start_spec {l : Launch} (hthreads : 1 ≤ l.settings.rpc.threads.toNat) (m : Machine)
    (h : Host) :
    (l.start m h).2 =
        ⟨l.registry.close, h.listening ++ m.bind l.port l.settings.rpc.allowIps.isEmpty⟩ ∧
      (m.bind l.port l.settings.rpc.allowIps.isEmpty ≠ [] →
        (l.start m h).1 = .ok ⟨l.service, true, .initial, ⟨l.node.closeRegistry, (), []⟩⟩) ∧
      (m.bind l.port l.settings.rpc.allowIps.isEmpty = [] → ∃ f, (l.start m h).1 = .error f) := by
  have hne : l.settings.rpc.threads.toNat ≠ 0 := Nat.one_le_iff_ne_zero.mp hthreads
  rw [start, Server.start, if_neg hne]
  dsimp only
  cases m.bind l.port l.settings.rpc.allowIps.isEmpty with
  | nil =>
    rw [List.append_nil]
    exact ⟨rfl, fun h => absurd rfl h, fun _ => ⟨_, rfl⟩⟩
  | cons e es => exact ⟨rfl, fun _ => rfl, fun h => absurd h (List.cons_ne_nil e es)⟩

/-- The server was started with settings on a network. -/
structure Started (m : Machine) (s : Settings) (n : Chain.Network)
    (r : Except Ending (Server Unit) × Host) : Prop where
  /-- The network is active, and that is final. -/
  registry : r.2.registry = ⟨n, true⟩
  /-- The machine was asked for the configured port or else that of the network, at loopback addresses
  unless peers are named. -/
  listening : r.2.listening =
    m.bind (s.rpc.port.getD (Chain.Profile.of n).rpcPort) s.rpc.allowIps.isEmpty
  /-- It listens at each place of that port that is asked for and granted, and nowhere else. -/
  granted : ∀ e, e ∈ r.2.listening ↔
    m.Listens (s.rpc.port.getD (Chain.Profile.of n).rpcPort) s.rpc.allowIps.isEmpty e
  /-- So it listens somewhere exactly if the machine grants a place of that port, -/
  listens : r.2.listening ≠ [] ↔
    m.Grants (s.rpc.port.getD (Chain.Profile.of n).rpcPort) s.rpc.allowIps.isEmpty
  /-- and it listens on no other port. -/
  port : ∀ e ∈ r.2.listening, e.port = s.rpc.port.getD (Chain.Profile.of n).rpcPort
  /-- If it listens anywhere, the server runs on that network with the credentials of the settings. -/
  serves : r.2.listening ≠ [] → ∃ server, r.1 = .ok server ∧ server.running = true ∧
    server.world.node.registry = ⟨n, true⟩ ∧
      server.service.credentials = ⟨s.rpc.user, s.rpc.password⟩
  /-- If it listens nowhere, the start fails. -/
  fails : r.2.listening = [] → ∃ f, r.1 = .error (.failed f)

/-- Starting the server of a daemon on an open host starts it with the settings of the daemon. -/
theorem Launch.started {l : Launch} {n : Chain.Network} (hregistry : l.registry = ⟨n, false⟩)
    (hport : l.port = l.settings.rpc.portFor (.of n))
    (hthreads : 1 ≤ l.settings.rpc.threads.toNat) (m : Machine) :
    Started m l.settings n ((l.start m ⟨⟨n, false⟩, []⟩).1.mapError .failed,
      (l.start m ⟨⟨n, false⟩, []⟩).2) := by
  obtain ⟨hhost, hserver, hfailure⟩ := start_spec hthreads m ⟨⟨n, false⟩, []⟩
  have hclose : l.registry.close = ⟨n, true⟩ := by
    rw [hregistry]
    rfl
  rw [hport, ServerSettings.portFor] at hhost hserver hfailure
  have hlistening : (l.start m ⟨⟨n, false⟩, []⟩).2.listening =
      m.bind (l.settings.rpc.port.getD (Chain.Profile.of n).rpcPort)
        l.settings.rpc.allowIps.isEmpty := by
    rw [hhost, List.nil_append]
  have hgranted : ∀ e, e ∈ (l.start m ⟨⟨n, false⟩, []⟩).2.listening ↔
      m.Listens (l.settings.rpc.port.getD (Chain.Profile.of n).rpcPort)
        l.settings.rpc.allowIps.isEmpty e := by
    intro e
    rw [hlistening, Machine.mem_bind_iff]
  refine ⟨?_, hlistening, hgranted, ?_, fun e he => ((hgranted e).mp he).port_eq, fun hne => ?_,
    fun hnone => ?_⟩
  · rw [hhost, hclose]
  · rw [hlistening]
    exact Machine.bind_ne_nil_iff
  · rw [hlistening] at hne
    rw [hserver hne]
    exact ⟨_, rfl, rfl, hclose, rfl⟩
  · rw [hlistening] at hnone
    obtain ⟨f, hf⟩ := hfailure hnone
    rw [hf]
    exact ⟨f, rfl⟩

/-- The daemon failed before its server was started. -/
structure Refused (r : Except Ending (Server Unit) × Host) : Prop where
  /-- There is a failure. -/
  failed : ∃ f, r.1 = .error (.failed f)
  /-- The choice of the network is not closed. -/
  isSealed : r.2.registry.isSealed = false
  /-- Nothing is listened at. -/
  listening : r.2.listening = []

namespace DaemonOptions

variable {o : DaemonOptions} {fs : Files} {s : Settings} {n : Chain.Network}

/-! ## The gate -/

/-- Settings that ask for a network are checked on it. -/
theorem ready_of_asks {path : String} (hload : o.load fs = .ok ⟨s, path⟩)
    (hasks : (Chain.Step.wish (s.override o.overrides).network).Asks n) (suggestion : String) :
    o.ready fs suggestion .initial =
      (prepare fs (s.override o.overrides) path suggestion ⟨n, false⟩, ⟨⟨n, false⟩, []⟩) := by
  rw [ready, hload]
  dsimp only
  rw [Chain.Choice.run_selectBy_of_asks hasks]
  rfl

/-- **The start of the server is reached** with settings in force that may be used for one. -/
theorem ready_of_startable (hgives : o.Gives fs s) (h : (s.override o.overrides).Startable n)
    (suggestion : String) :
    ∃ l, o.ready fs suggestion .initial = (.ok l, ⟨⟨n, false⟩, []⟩) ∧
      l.settings = s.override o.overrides ∧ l.registry = ⟨n, false⟩ ∧
        l.port = l.settings.rpc.portFor (.of n) := by
  obtain ⟨path, hload⟩ := gives_iff.mp hgives
  have hasks := (h.network n).mpr rfl
  rw [ready_of_asks hload hasks, (prepare_eq_ok_iff hasks).mpr ⟨h, rfl⟩]
  exact ⟨_, rfl, rfl, rfl, rfl⟩

/-- **The start of the server is not reached** otherwise, and the host is then as open as before. -/
theorem ready_of_not_startable
    (h : ¬∃ s n, o.Gives fs s ∧ (s.override o.overrides).Startable n) (suggestion : String) :
    ∃ f n, o.ready fs suggestion .initial = (.error f, ⟨⟨n, false⟩, []⟩) := by
  cases hload : o.load fs with
  | error f =>
    rw [ready, hload]
    exact ⟨f, _, rfl⟩
  | ok loaded =>
    obtain ⟨s, path⟩ := loaded
    by_cases hasks : ∃ n, (Chain.Step.wish (s.override o.overrides).network).Asks n
    · obtain ⟨n, hasks⟩ := hasks
      rw [ready_of_asks hload hasks]
      cases hprepare : prepare fs (s.override o.overrides) path suggestion ⟨n, false⟩ with
      | error f => exact ⟨f, n, rfl⟩
      | ok l =>
        have hs := ((prepare_eq_ok_iff hasks).mp hprepare).1
        exact absurd ⟨s, n, gives_iff.mpr ⟨path, hload⟩, hs⟩ h
    · obtain ⟨e, he⟩ := Chain.Choice.run_selectBy_of_not_asks (r := Host.initial.registry)
        (not_exists.mp hasks)
      rw [ready, hload]
      dsimp only
      rw [he]
      exact ⟨_, .main, rfl⟩

/-- **The gate before the server.** Either the chosen file gives settings that, with the command line
over them, may be used for a server; then its start is reached, with these settings, on the network
that they ask for. Or there are no such settings; then the start is not reached, and the daemon fails
with the choice of the network open and nothing listened at. -/
theorem startup_gate {args : List String} (hread : read args = .ok o) (m : Machine) (fs : Files)
    (suggestion : String) :
    (∃ s n, o.Gives fs s ∧ (s.override o.overrides).Startable n ∧
      (∃ l, (o.ready fs suggestion .initial).1 = .ok l) ∧
        Started m (s.override o.overrides) n (run m args fs suggestion)) ∨
    ((¬∃ s n, o.Gives fs s ∧ (s.override o.overrides).Startable n) ∧
      (¬∃ l, (o.ready fs suggestion .initial).1 = .ok l) ∧
        Refused (run m args fs suggestion)) := by
  by_cases h : ∃ s n, o.Gives fs s ∧ (s.override o.overrides).Startable n
  · left
    obtain ⟨s, n, hgives, hs⟩ := h
    obtain ⟨l, hready, hsettings, hregistry, hport⟩ := ready_of_startable hgives hs suggestion
    have hrun : run m args fs suggestion = ((l.start m ⟨⟨n, false⟩, []⟩).1.mapError .failed,
        (l.start m ⟨⟨n, false⟩, []⟩).2) := by
      rw [run, hread]
      dsimp only
      rw [hready]
    have hstarted := Launch.started hregistry hport (hsettings ▸ hs.threads) m
    rw [hsettings] at hstarted
    exact ⟨s, n, hgives, hs, ⟨l, congrArg Prod.fst hready⟩, hrun ▸ hstarted⟩
  · right
    obtain ⟨f, n, hready⟩ := ready_of_not_startable h suggestion
    refine ⟨h, ?_, ?_⟩
    · rintro ⟨l, hl⟩
      rw [hready] at hl
      cases hl
    · have hrun : run m args fs suggestion = (.error (.failed f), ⟨⟨n, false⟩, []⟩) := by
        rw [run, hread]
        dsimp only
        rw [hready]
      rw [hrun]
      exact ⟨⟨f, rfl⟩, rfl, rfl⟩

/-- The regression network, asked for on the command line. -/
def regtestOptions : DaemonOptions := ⟨none, none, { Overrides.empty with regtest := true }⟩

/-- Without any file the daemon starts on the regression network, where no password is needed, and
listens on the port of that network, at the loopback addresses of both versions. -/
theorem startup_gate_regtest :
    read ["--regtest"] = .ok regtestOptions ∧
      Started ⟨fun _ _ => some false⟩ (Settings.default.override regtestOptions.overrides) .regtest
        (run ⟨fun _ _ => some false⟩ ["--regtest"] .empty "") ∧
      (run ⟨fun _ _ => some false⟩ ["--regtest"] .empty "").2.listening =
        [⟨.v6 .localhost, 35725⟩, ⟨.v4 ⟨127, 0, 0, 1⟩, 35725⟩] := by
  have hread : read ["--regtest"] = .ok regtestOptions := rfl
  have habsent : Files.empty.contains regtestOptions.defaultConf = false := rfl
  have hasks : (Chain.Step.wish
      (Settings.default.override regtestOptions.overrides).network).Asks .regtest :=
    .unnamed rfl rfl
  refine ⟨hread, ?_⟩
  rcases startup_gate hread ⟨fun _ _ => some false⟩ .empty "" with
    ⟨s, n, hgives, hs, -, hstarted⟩ | ⟨hnone, -⟩
  · cases hgives with
    | config hconfig => cases hconfig
    | conf _ hconf => cases hconf
    | found _ _ hthere => cases habsent.symm.trans hthere
    | absent =>
      have hn := (hs.network .regtest).mp hasks
      rw [← hn] at hstarted
      exact ⟨hstarted, hstarted.listening.trans rfl⟩
  · refine absurd ⟨_, .regtest, .absent rfl rfl habsent, ?_⟩ hnone
    refine ⟨fun k => ⟨fun hk => Chain.Step.asks_unique hk hasks, ?_⟩, by decide, by decide,
      fun h => absurd rfl h⟩
    rintro rfl
    exact hasks

end DaemonOptions

end Cli

end RpcDaemon
