import Mathlib.Data.List.Perm.Basic
import RpcDaemon.Settings.Overrides

/-!
# Values that go over settings

`Overrides.GoesOver` says of settings that they are others with values given on the command line:
value by value, switch by switch, and for the patterns of peers which ones are added and in which
order. It fits the settings after overriding and no others. Overriding twice with the same values is
overriding once, and two overrides in a row are a single one. Main statement:
`Settings.override_merges`.
-/

namespace RpcDaemon

namespace Overrides

/-! ## Patterns of peers -/

/-- The patterns of `given` that are not among `known`, each once, in the order in which they first
stand in `given`. -/
structure NewPatterns (known given added : List String) : Prop where
  /-- Exactly the patterns that are not known are added. -/
  mem_iff : ∀ p, p ∈ added ↔ p ∈ given ∧ p ∉ known
  /-- What stands further left stands earlier in `given`. -/
  inOrder : added.Pairwise fun p q => given.idxOf p < given.idxOf q

variable {known given : List String}

/-- No pattern is added twice. -/
theorem NewPatterns.nodup {added : List String} (h : NewPatterns known given added) :
    added.Nodup :=
  h.inOrder.imp fun hlt heq => absurd (congrArg given.idxOf heq) (Nat.ne_of_lt hlt)

/-- There is one way to add the new patterns. -/
theorem NewPatterns.unique {added added' : List String} (h : NewPatterns known given added)
    (h' : NewPatterns known given added') : added = added' := by
  have hperm : added.Perm added' :=
    (List.perm_ext_iff_of_nodup h.nodup h'.nodup).mpr fun p =>
      (h.mem_iff p).trans (h'.mem_iff p).symm
  exact hperm.eq_of_pairwise (fun _ _ _ _ hpq hqp => absurd hpq (Nat.lt_asymm hqp)) h.inOrder
    h'.inOrder

/-- A pattern that is known is no new one. -/
theorem NewPatterns.cons_of_mem {p : String} {added : List String} (hp : p ∈ known)
    (h : NewPatterns known given added) : NewPatterns known (p :: given) added := by
  have hne : ∀ q ∈ added, q ≠ p := fun q hq heq => ((h.mem_iff q).mp hq).2 (heq ▸ hp)
  constructor
  · intro q
    rw [h.mem_iff, List.mem_cons]
    constructor
    · exact fun ⟨hq, hk⟩ => ⟨Or.inr hq, hk⟩
    · rintro ⟨rfl | hq, hk⟩
      · exact absurd hp hk
      · exact ⟨hq, hk⟩
  · refine h.inOrder.imp_of_mem fun {q r} hq hr hlt => ?_
    rw [List.idxOf_cons_ne _ (hne q hq).symm, List.idxOf_cons_ne _ (hne r hr).symm]
    exact Nat.succ_lt_succ hlt

/-- A pattern that is not known comes first, and is known from then on. -/
theorem NewPatterns.cons_of_notMem {p : String} {added : List String} (hp : p ∉ known)
    (h : NewPatterns (known ++ [p]) given added) :
    NewPatterns known (p :: given) (p :: added) := by
  have hne : ∀ q ∈ added, q ≠ p := fun q hq heq =>
    ((h.mem_iff q).mp hq).2 (List.mem_append_right known (List.mem_singleton.mpr heq))
  constructor
  · intro q
    rw [List.mem_cons, List.mem_cons, h.mem_iff, List.mem_append, List.mem_singleton]
    by_cases hq : q = p
    · simp [hq, hp]
    · simp [hq]
  · rw [List.pairwise_cons]
    constructor
    · intro q hq
      rw [List.idxOf_cons_self, List.idxOf_cons_ne _ (hne q hq).symm]
      exact Nat.succ_pos _
    · refine h.inOrder.imp_of_mem fun {q r} hq hr hlt => ?_
      rw [List.idxOf_cons_ne _ (hne q hq).symm, List.idxOf_cons_ne _ (hne r hr).symm]
      exact Nat.succ_lt_succ hlt

/-- **The new patterns are added at the end**, and nothing else. -/
theorem exists_newPatterns (known given : List String) :
    ∃ added, addPatterns known given = known ++ added ∧ NewPatterns known given added := by
  induction given generalizing known with
  | nil => exact ⟨[], (List.append_nil known).symm, by simp, List.Pairwise.nil⟩
  | cons p given ih =>
    rw [addPatterns]
    split
    · rename_i hp
      obtain ⟨added, hadd, hnew⟩ := ih known
      exact ⟨added, hadd, hnew.cons_of_mem hp⟩
    · rename_i hp
      obtain ⟨added, hadd, hnew⟩ := ih (known ++ [p])
      exact ⟨p :: added, by rw [hadd, List.append_assoc]; rfl, hnew.cons_of_notMem hp⟩

/-- Patterns that are known already change nothing. -/
theorem addPatterns_of_subset (h : given ⊆ known) : addPatterns known given = known := by
  induction given with
  | nil => rfl
  | cons p given ih =>
    rw [addPatterns, if_pos (h List.mem_cons_self)]
    exact ih fun q hq => h (List.mem_cons_of_mem p hq)

/-- Patterns are added one list after the other. -/
theorem addPatterns_append (known given given' : List String) :
    addPatterns known (given ++ given') = addPatterns (addPatterns known given) given' := by
  induction given generalizing known with
  | nil => rfl
  | cons p given ih => exact ih _

/-- All patterns are there after they were added. -/
theorem subset_addPatterns (known given : List String) : given ⊆ addPatterns known given := by
  intro p hp
  obtain ⟨added, hadd, hnew⟩ := exists_newPatterns known given
  rw [hadd, List.mem_append]
  by_cases hk : p ∈ known
  · exact Or.inl hk
  · exact Or.inr ((hnew.mem_iff p).mpr ⟨hp, hk⟩)

/-! ## Single values -/

/-- The new value is the given one, put in its place by `put`, or the old value if none is given. -/
def Replaces {α β : Type} (put : α → β) (given : Option α) (old new : β) : Prop :=
  (∀ v, given = some v → new = put v) ∧ (given = none → new = old)

theorem replaces_id_iff {α : Type} {given : Option α} {old new : α} :
    Replaces id given old new ↔ new = given.getD old := by
  cases given <;> simp [Replaces]

theorem replaces_some_iff {α : Type} {given old new : Option α} :
    Replaces some given old new ↔ new = given.or old := by
  cases given <;> simp [Replaces]

/-! ## All values -/

/-- The settings `s'` are the settings `s` with the values of `o` over them. -/
structure GoesOver (o : Overrides) (s s' : Settings) : Prop where
  dataDir : Replaces id o.dataDir s.dataDir s'.dataDir
  user : Replaces id o.user s.rpc.user s'.rpc.user
  password : Replaces id o.password s.rpc.password s'.rpc.password
  port : Replaces some o.port s.rpc.port s'.rpc.port
  threads : Replaces id o.threads s.rpc.threads s'.rpc.threads
  filter : Replaces some o.logFilter s.logging.filter s'.logging.filter
  /-- A switch is on if it was on or is turned on; no switch is turned off. -/
  testnet : s'.network.testnet = true ↔ s.network.testnet = true ∨ o.testnet = true
  regtest : s'.network.regtest = true ↔ s.network.regtest = true ∨ o.regtest = true
  ssl : s'.rpc.ssl = true ↔ s.rpc.ssl = true ∨ o.ssl = true
  disableSafeMode :
    s'.rpc.disableSafeMode = true ↔ s.rpc.disableSafeMode = true ∨ o.disableSafeMode = true
  jsonFormat : s'.logging.jsonFormat = true ↔ s.logging.jsonFormat = true ∨ o.logJson = true
  /-- The patterns stay in front, and those that are new follow. -/
  allowIps : ∃ added, s'.rpc.allowIps = s.rpc.allowIps ++ added ∧
    NewPatterns s.rpc.allowIps o.allowIps added
  /-- What cannot be given on the command line stays. -/
  network : s'.network.network = s.network.network
  sslCert : s'.rpc.sslCert = s.rpc.sslCert
  sslKey : s'.rpc.sslKey = s.rpc.sslKey
  sslCiphers : s'.rpc.sslCiphers = s.rpc.sslCiphers
  maxBodyBytes : s'.rpc.maxBodyBytes = s.rpc.maxBodyBytes

/-- The values of `o'` over those of `o`, and the patterns of both. -/
def followedBy (o o' : Overrides) : Overrides where
  dataDir := o'.dataDir.or o.dataDir
  testnet := o.testnet || o'.testnet
  regtest := o.regtest || o'.regtest
  user := o'.user.or o.user
  password := o'.password.or o.password
  port := o'.port.or o.port
  allowIps := o.allowIps ++ o'.allowIps
  threads := o'.threads.or o.threads
  ssl := o.ssl || o'.ssl
  disableSafeMode := o.disableSafeMode || o'.disableSafeMode
  logFilter := o'.logFilter.or o.logFilter
  logJson := o.logJson || o'.logJson

end Overrides

namespace Settings

open Overrides

/-- **The values go over the settings.** -/
theorem goesOver_override (s : Settings) (o : Overrides) : o.GoesOver s (s.override o) where
  dataDir := replaces_id_iff.mpr rfl
  user := replaces_id_iff.mpr rfl
  password := replaces_id_iff.mpr rfl
  port := replaces_some_iff.mpr rfl
  threads := replaces_id_iff.mpr rfl
  filter := replaces_some_iff.mpr rfl
  testnet := Bool.or_eq_true_iff
  regtest := Bool.or_eq_true_iff
  ssl := Bool.or_eq_true_iff
  disableSafeMode := Bool.or_eq_true_iff
  jsonFormat := Bool.or_eq_true_iff
  allowIps := exists_newPatterns s.rpc.allowIps o.allowIps
  network := rfl
  sslCert := rfl
  sslKey := rfl
  sslCiphers := rfl
  maxBodyBytes := rfl

/-- **No other settings have the values over them.** -/
theorem eq_override_of_goesOver {s s' : Settings} {o : Overrides} (h : o.GoesOver s s') :
    s' = s.override o := by
  have hswitch : ∀ {a b c : Bool}, (c = true ↔ a = true ∨ b = true) → c = (a || b) :=
    fun hiff => Bool.eq_iff_iff.mpr (hiff.trans Bool.or_eq_true_iff.symm)
  have hips : s'.rpc.allowIps = addPatterns s.rpc.allowIps o.allowIps := by
    obtain ⟨added, hadd, hnew⟩ := h.allowIps
    obtain ⟨added', hadd', hnew'⟩ := exists_newPatterns s.rpc.allowIps o.allowIps
    rw [hadd, hadd', hnew.unique hnew']
  obtain ⟨dataDir', ⟨testnet', regtest', network'⟩, rpc', ⟨filter', jsonFormat'⟩⟩ := s'
  obtain rfl := replaces_id_iff.mp h.dataDir
  obtain rfl := hswitch h.testnet
  obtain rfl := hswitch h.regtest
  obtain rfl := h.network
  obtain rfl := replaces_some_iff.mp h.filter
  obtain rfl := hswitch h.jsonFormat
  obtain ⟨user', password', allowIps', port', threads', ssl', sslCert', sslKey', sslCiphers',
    disableSafeMode', maxBodyBytes'⟩ := rpc'
  obtain rfl := replaces_id_iff.mp h.user
  obtain rfl := replaces_id_iff.mp h.password
  obtain rfl := hips
  obtain rfl := replaces_some_iff.mp h.port
  obtain rfl := replaces_id_iff.mp h.threads
  obtain rfl := hswitch h.ssl
  obtain rfl := h.sslCert
  obtain rfl := h.sslKey
  obtain rfl := h.sslCiphers
  obtain rfl := hswitch h.disableSafeMode
  obtain rfl := h.maxBodyBytes
  rfl

/-- Two overrides in a row are a single one. -/
theorem override_override (s : Settings) (o o' : Overrides) :
    (s.override o).override o' = s.override (o.followedBy o') := by
  simp only [override, followedBy, addPatterns_append, Bool.or_assoc, Option.or_assoc,
    Option.getD_or]

/-- Values that go over themselves give nothing new. -/
theorem override_followedBy_self (s : Settings) (o : Overrides) :
    s.override (o.followedBy o) = s.override o := by
  have hips := addPatterns_of_subset (subset_addPatterns s.rpc.allowIps o.allowIps)
  simp only [override, followedBy, addPatterns_append, hips, Bool.or_self, Option.or_self]

/-- **Values given on the command line go over the settings**, and this says exactly what comes of
it: each value that is given, each switch that was on or is turned on, the patterns of peers with
those that are new behind them, and all else as it was. Doing it twice is doing it once, and two
overrides in a row are that of the later values over the earlier ones. -/
theorem override_merges (s : Settings) (o o' : Overrides) :
    (∀ s', o.GoesOver s s' ↔ s' = s.override o) ∧
      (s.override o).override o = s.override o ∧
      (s.override o).override o' = s.override (o.followedBy o') := by
  refine ⟨fun s' => ⟨eq_override_of_goesOver, ?_⟩, ?_, override_override s o o'⟩
  · rintro rfl
    exact goesOver_override s o
  · rw [override_override, override_followedBy_self]

/-- A pattern that is there already is not added again. -/
example : addPatterns ["10.0.0.*"] ["10.0.0.*", "192.168.*", "192.168.*"] =
    ["10.0.0.*", "192.168.*"] := by decide

end Settings

end RpcDaemon
