import RpcDaemon.Chain.Registry
import RpcDaemon.Proofs.Runs
import RpcDaemon.Proofs.Text.Blank

/-!
# Runs of choices

A run is a list of steps: the network is chosen directly, by flags or by a selection, or the registry
is sealed. Which network is active is read off the list alone: it is the one that the last step
before the first seal asked for, among those that ask for a network at all. A step that fails leaves
the registry as it was. Main statement: `selection_over_runs`.
-/

namespace RpcDaemon

namespace Chain

/-! ## Names and flags -/

/-- The names of a network, the short one first. -/
def Network.spellings : Network → List String
  | main => ["main", "mainnet"]
  | test => ["test", "testnet"]
  | regtest => ["regtest", "regression"]

/-- The text is a name of the network, in any case. -/
def Network.Spelled (n : Network) (name : String) : Prop :=
  ∃ s ∈ n.spellings, sameIgnoringCase name s = true

/-- A name of a network is one of its spellings once it is in lower case. -/
theorem Network.spelled_iff {n : Network} {name : String} :
    n.Spelled name ↔ lowered name ∈ n.spellings := by
  have hlower : ∀ s ∈ n.spellings, Chars.lower s.toList = s.toList := by
    cases n <;> decide
  constructor
  · rintro ⟨s, hs, hsame⟩
    have heq : lowered name = s := (lowered_eq_iff (hlower s hs)).mpr hsame
    rw [heq]
    exact hs
  · intro h
    exact ⟨_, h, (lowered_eq_iff (hlower _ h)).mp rfl⟩

/-- **The names that are known are the spellings of the networks.** -/
theorem Network.ofName?_eq_some_iff {name : String} {n : Network} :
    Network.ofName? name = some n ↔ n.Spelled name := by
  rw [spelled_iff, Network.ofName?]
  generalize lowered name = t
  split
  · rename_i h
    rcases h with rfl | rfl <;> cases n <;> simp [spellings]
  · split
    · rename_i h
      rcases h with rfl | rfl <;> cases n <;> simp [spellings]
    · split
      · rename_i h
        rcases h with rfl | rfl <;> cases n <;> simp [spellings]
      · cases n <;> simp_all [spellings]

/-- The network that two flags ask for, the main one if they ask for none; none if both are set. -/
def flagged? (regtest testnet : Bool) : Option Network :=
  match regtest, testnet with
  | true, true => none
  | true, false => some .regtest
  | false, true => some .test
  | false, false => some .main

/-- The flags of a selection allow for a network: not both are set, and one that is set agrees. -/
def Selection.Allows (s : Selection) (n : Network) : Prop :=
  ¬ (s.regtest = true ∧ s.testnet = true) ∧ (s.regtest = true → n = .regtest) ∧
    (s.testnet = true → n = .test)

instance (s : Selection) (n : Network) : Decidable (s.Allows n) :=
  inferInstanceAs (Decidable (_ ∧ _ ∧ _))

/-- Flags allow for a network if neither of the two checks on them finds a contradiction. -/
theorem Selection.allows_iff {s : Selection} {n : Network} :
    s.Allows n ↔ (s.regtest && s.testnet) = false ∧
      ((s.regtest && n != .regtest) || (s.testnet && n != .test)) = false := by
  unfold Allows
  cases s.regtest <;> cases s.testnet <;> cases n <;> decide

/-! ## One choice -/

namespace Choice

variable {r : Registry}

/-- What comes of making a network active: nothing once the registry is sealed. -/
def granted (r : Registry) (n : Network) : Except SelectError Network × Registry :=
  if r.isSealed then (.error .sealed, r) else (.ok n, { r with active := n })

/-- A choice succeeds exactly on a registry that is not sealed. -/
theorem granted_fst_eq_ok_iff {n m : Network} :
    (granted r n).1 = .ok m ↔ r.isSealed = false ∧ n = m := by
  unfold granted
  cases r.isSealed <;> simp

/-- The network that is granted is active from then on. -/
theorem granted_snd_of_ok {n m : Network} (h : (granted r n).1 = .ok m) :
    (granted r n).2 = { r with active := m } := by
  obtain ⟨hopen, rfl⟩ := granted_fst_eq_ok_iff.mp h
  rw [granted, hopen]
  rfl

/-- What a choice does once it has found its network. -/
theorem run_select_return (n : Network) : run (do select n; return n) r = granted r n := by
  unfold select granted
  cases h : r.isSealed <;> simp [h, Except.map]

/-- **A choice by flags** makes the network active that they ask for, and fails if both are set. -/
theorem run_selectByFlags (regtest testnet : Bool) :
    run (selectByFlags regtest testnet) r =
      match flagged? regtest testnet with
      | some n => granted r n
      | none => (.error .conflictingFlags, r) := by
  unfold selectByFlags
  cases regtest <;> cases testnet
  · exact run_select_return .main
  · exact run_select_return .test
  · exact run_select_return .regtest
  · rfl

variable {s : Selection}

/-- Without a name a selection is a choice by its flags. -/
theorem run_selectBy_of_unnamed (h : s.network = none) :
    run (selectBy s) r = run (selectByFlags s.regtest s.testnet) r := by
  unfold selectBy
  rw [h]

/-- **A choice by a name** makes the network active that has the name, if the flags allow for it. -/
theorem run_selectBy_of_named {name : String} (h : s.network = some name) :
    run (selectBy s) r =
      match Network.ofName? name with
      | none => (.error (.unknownNetwork name), r)
      | some n => if s.Allows n then granted r n else (.error .conflictingFlags, r) := by
  unfold selectBy
  rw [h]
  cases hn : Network.ofName? name with
  | none => simp [hn]
  | some n =>
    simp only [hn]
    by_cases hallows : s.Allows n
    · obtain ⟨hboth, hother⟩ := Selection.allows_iff.mp hallows
      rw [if_pos hallows, hboth, hother]
      exact run_select_return n
    · rw [if_neg hallows]
      rw [Selection.allows_iff, not_and, Bool.not_eq_false] at hallows
      by_cases hboth : (s.regtest && s.testnet) = true
      · rw [hboth]
        rfl
      · rw [Bool.not_eq_true] at hboth
        rw [hboth, hallows hboth]
        rfl

/-- A choice by a name succeeds exactly if the registry is not sealed, the name is one of the
network, and the flags allow for that. -/
theorem selectBy_fst_eq_ok_iff {name : String} (h : s.network = some name) (n : Network) :
    (run (selectBy s) r).1 = .ok n ↔ r.isSealed = false ∧ n.Spelled name ∧ s.Allows n := by
  rw [run_selectBy_of_named h, ← Network.ofName?_eq_some_iff]
  cases Network.ofName? name with
  | none => simp
  | some m =>
    dsimp only
    by_cases hallows : s.Allows m
    · rw [if_pos hallows, granted_fst_eq_ok_iff, Option.some.injEq]
      constructor
      · rintro ⟨hopen, rfl⟩
        exact ⟨hopen, rfl, hallows⟩
      · rintro ⟨hopen, rfl, -⟩
        exact ⟨hopen, rfl⟩
    · rw [if_neg hallows]
      constructor
      · intro hok
        cases hok
      · rintro ⟨-, hm, hn⟩
        rw [Option.some.inj hm] at hallows
        exact absurd hn hallows

/-- A choice by a selection makes the network active that it gives back. -/
theorem selectBy_snd_of_ok {n : Network} (h : (run (selectBy s) r).1 = .ok n) :
    (run (selectBy s) r).2 = { r with active := n } := by
  cases hname : s.network with
  | none =>
    rw [run_selectBy_of_unnamed hname, run_selectByFlags] at h ⊢
    cases hf : flagged? s.regtest s.testnet with
    | none =>
      rw [hf] at h
      cases h
    | some m =>
      rw [hf] at h
      exact granted_snd_of_ok h
  | some name =>
    have hok := (selectBy_fst_eq_ok_iff hname n).mp h
    rw [run_selectBy_of_named hname, Network.ofName?_eq_some_iff.mpr hok.2.1] at h ⊢
    dsimp only at h ⊢
    rw [if_pos hok.2.2] at h ⊢
    exact granted_snd_of_ok h

/-- A name that says what the flags say changes nothing. -/
theorem run_selectBy_of_spelled {name : String} {n : Network} (h : s.network = some name)
    (hspelled : n.Spelled name) (hflags : flagged? s.regtest s.testnet = some n) :
    run (selectBy s) r = run (selectBy { s with network := none }) r := by
  have hallows : s.Allows n := by
    revert hflags
    rw [Selection.allows_iff]
    cases s.regtest <;> cases s.testnet <;> cases n <;> decide
  rw [run_selectBy_of_named h, Network.ofName?_eq_some_iff.mpr hspelled,
    run_selectBy_of_unnamed (s := { s with network := none }) rfl, run_selectByFlags]
  dsimp only
  rw [if_pos hallows, hflags]

end Choice

/-! ## Steps -/

/-- What is done to a registry. -/
inductive Step where
  /-- A network is chosen. -/
  | select (n : Network)
  /-- The network is chosen by two flags. -/
  | flags (regtest testnet : Bool)
  /-- The network is chosen by a selection. -/
  | wish (s : Selection)
  /-- The registry is sealed. -/
  | close
deriving DecidableEq

namespace Step

/-- Takes a step, which gives back the network chosen, if it is a choice. -/
def take : Step → Choice (Option Network)
  | select n => some <$> do
      Choice.select n
      return n
  | flags regtest testnet => some <$> Choice.selectByFlags regtest testnet
  | wish s => some <$> Choice.selectBy s
  | close => do
      modify Registry.close
      return none

/-- What comes of a step on a registry, and the registry that it leaves. -/
def run (a : Step) (r : Registry) : Except SelectError (Option Network) × Registry :=
  a.take.run r

/-- The step asks for the network `n`. -/
inductive Asks : Step → Network → Prop
  /-- A direct choice asks for its network. -/
  | select (n : Network) : Asks (select n) n
  /-- Flags ask for the network that they stand for, unless both are set. -/
  | flags {regtest testnet : Bool} {n : Network} (h : flagged? regtest testnet = some n) :
      Asks (flags regtest testnet) n
  /-- A selection without a name asks for what its flags ask for. -/
  | unnamed {s : Selection} {n : Network} (hname : s.network = none)
      (h : flagged? s.regtest s.testnet = some n) : Asks (wish s) n
  /-- A selection with a name asks for the network of that name, if its flags allow for it. -/
  | named {s : Selection} {name : String} {n : Network} (hname : s.network = some name)
      (hspelled : n.Spelled name) (hallows : s.Allows n) : Asks (wish s) n

variable {a : Step} {r : Registry}

/-- Sealing leaves the active network as it is. -/
theorem run_close : close.run r = (.ok none, r.close) := rfl

/-- A step that asks for a network is granted it. -/
theorem run_of_asks {n : Network} (h : a.Asks n) :
    a.run r = ((Choice.granted r n).1.map some, (Choice.granted r n).2) := by
  have hflags : ∀ {regtest testnet : Bool}, flagged? regtest testnet = some n →
      Choice.run (Choice.selectByFlags regtest testnet) r = Choice.granted r n := by
    intro regtest testnet hf
    rw [Choice.run_selectByFlags, hf]
  unfold run take
  cases h with
  | select => rw [Choice.run_map, Choice.run_select_return]
  | flags hf => rw [Choice.run_map, hflags hf]
  | unnamed hname hf => rw [Choice.run_map, Choice.run_selectBy_of_unnamed hname, hflags hf]
  | named hname hspelled hallows =>
    rw [Choice.run_map, Choice.run_selectBy_of_named hname,
      Network.ofName?_eq_some_iff.mpr hspelled]
    dsimp only
    rw [if_pos hallows]

/-- A choice that asks for no network fails and leaves the registry as it was. -/
theorem run_of_not_asks (hclose : a ≠ close) (h : ∀ n, ¬ a.Asks n) :
    ∃ e, a.run r = (.error e, r) := by
  have hflags : ∀ {regtest testnet : Bool}, (∀ n, flagged? regtest testnet ≠ some n) →
      Choice.run (Choice.selectByFlags regtest testnet) r = (.error .conflictingFlags, r) := by
    intro regtest testnet hf
    rw [Choice.run_selectByFlags, Option.eq_none_iff_forall_ne_some.mpr hf]
  unfold run take
  cases a with
  | select n => exact absurd (Asks.select n) (h n)
  | flags regtest testnet =>
    rw [Choice.run_map, hflags fun n hf => h n (Asks.flags hf)]
    exact ⟨_, rfl⟩
  | wish s =>
    dsimp only
    rw [Choice.run_map]
    cases hname : s.network with
    | none =>
      rw [Choice.run_selectBy_of_unnamed hname, hflags fun n hf => h n (Asks.unnamed hname hf)]
      exact ⟨_, rfl⟩
    | some name =>
      rw [Choice.run_selectBy_of_named hname]
      cases hn : Network.ofName? name with
      | none => exact ⟨_, rfl⟩
      | some n =>
        have hspelled : n.Spelled name := Network.ofName?_eq_some_iff.mp hn
        dsimp only
        rw [if_neg fun hallows => h n (Asks.named hname hspelled hallows)]
        exact ⟨_, rfl⟩
  | close => exact absurd rfl hclose

/-- **What a step can do.** It seals the registry; or it makes the network active that it asks for,
which takes a registry that is not sealed; or it fails and leaves the registry as it was. -/
theorem run_cases (a : Step) (r : Registry) :
    (a = close ∧ a.run r = (.ok none, r.close)) ∨
      (∃ n, a.Asks n ∧ r.isSealed = false ∧ a.run r = (.ok (some n), { r with active := n })) ∨
      (a ≠ close ∧ ((∀ n, ¬ a.Asks n) ∨ r.isSealed = true) ∧ ∃ e, a.run r = (.error e, r)) := by
  by_cases hclose : a = close
  · subst hclose
    exact Or.inl ⟨rfl, run_close⟩
  · right
    by_cases hasks : ∃ n, a.Asks n
    · obtain ⟨n, hn⟩ := hasks
      rw [run_of_asks hn, Choice.granted]
      cases hr : r.isSealed with
      | false => exact Or.inl ⟨n, hn, rfl, rfl⟩
      | true => exact Or.inr ⟨hclose, Or.inr rfl, _, rfl⟩
    · have hnone : ∀ n, ¬ a.Asks n := not_exists.mp hasks
      exact Or.inr ⟨hclose, Or.inl hnone, run_of_not_asks hclose hnone⟩

/-- A step asks for one network at most. -/
theorem asks_unique {a : Step} {n k : Network} (hn : a.Asks n) (hk : a.Asks k) : n = k := by
  cases hn with
  | select => cases hk with
    | select => rfl
  | flags h => cases hk with
    | flags h' => exact Option.some.inj (h.symm.trans h')
  | unnamed hname h => cases hk with
    | unnamed _ h' => exact Option.some.inj (h.symm.trans h')
    | named hname' => cases hname.symm.trans hname'
  | named hname hspelled => cases hk with
    | unnamed hname' => cases hname'.symm.trans hname
    | named hname' hspelled' =>
      cases hname.symm.trans hname'
      rw [← Network.ofName?_eq_some_iff] at hspelled hspelled'
      exact Option.some.inj (hspelled.symm.trans hspelled')

end Step

namespace Choice

variable {s : Selection} {r : Registry}

/-- A selection is granted the network that it asks for. -/
theorem run_selectBy_of_asks {n : Network} (h : (Step.wish s).Asks n) :
    run (selectBy s) r = granted r n := by
  cases h with
  | unnamed hname hflags => rw [run_selectBy_of_unnamed hname, run_selectByFlags, hflags]
  | named hname hspelled hallows =>
    rw [run_selectBy_of_named hname, Network.ofName?_eq_some_iff.mpr hspelled]
    exact if_pos hallows

/-- A selection that asks for no network fails and leaves the registry as it was. -/
theorem run_selectBy_of_not_asks (h : ∀ n, ¬(Step.wish s).Asks n) :
    ∃ e, run (selectBy s) r = (.error e, r) := by
  have hclose : Step.wish s ≠ .close := by
    intro heq
    cases heq
  obtain ⟨e, he⟩ := Step.run_of_not_asks (r := r) hclose h
  rw [Step.run, Step.take, run_map] at he
  rcases hrun : run (selectBy s) r with ⟨e' | n, r'⟩
  · rw [hrun] at he
    cases he
    exact ⟨e, rfl⟩
  · rw [hrun] at he
    cases he

end Choice

/-! ## Runs -/

/-- The registry after the first `k` steps. -/
def after (steps : List Step) (k : Nat) : Registry :=
  (steps.take k).foldl (fun r a => (a.run r).2) .initial

/-- What comes of step `k`. -/
def outcome? (steps : List Step) (k : Nat) : Option (Except SelectError (Option Network)) :=
  steps[k]?.map fun a => (a.run (after steps k)).1

/-- Step `k` is a choice of the network `n` that succeeds. -/
def Chooses (steps : List Step) (k : Nat) (n : Network) : Prop :=
  outcome? steps k = some (.ok (some n))

/-- Of the first `k` steps, the last choice that succeeds is one of the network `n`. -/
def LastChosen (steps : List Step) (k : Nat) (n : Network) : Prop :=
  ∃ i < k, Chooses steps i n ∧ ∀ j, i < j → j < k → ∀ m, ¬ Chooses steps j m

/-- The first `k` steps seal the registry. -/
def SealedBefore (steps : List Step) (k : Nat) : Prop :=
  ∃ j < k, steps[j]? = some .close

variable {steps : List Step} {k : Nat}

/-- A step leads from the registry before it to the one after it. -/
theorem after_succ {a : Step} (h : steps[k]? = some a) :
    after steps (k + 1) = (a.run (after steps k)).2 :=
  foldl_take_succ h Registry.initial

/-- Past the end of the run nothing changes. -/
theorem after_succ_of_none (h : steps[k]? = none) : after steps (k + 1) = after steps k := by
  unfold after
  rw [take_succ_of_none h]

/-- A step comes to what it comes to on the registry before it. -/
theorem outcome?_of_step {a : Step} (h : steps[k]? = some a) :
    outcome? steps k = some (a.run (after steps k)).1 := by
  rw [outcome?, h, Option.map_some]

/-- Past the end of the run nothing is chosen. -/
theorem not_chooses_of_none (h : steps[k]? = none) (n : Network) : ¬ Chooses steps k n := by
  simp [Chooses, outcome?, h]

/-- One step more seals the registry if it is a seal, and keeps a seal otherwise. -/
theorem sealedBefore_succ_iff :
    SealedBefore steps (k + 1) ↔ SealedBefore steps k ∨ steps[k]? = some .close := by
  constructor
  · rintro ⟨j, hj, hs⟩
    rcases Nat.lt_succ_iff_lt_or_eq.mp hj with hlt | rfl
    · exact Or.inl ⟨j, hlt, hs⟩
    · exact Or.inr hs
  · rintro (⟨j, hj, hs⟩ | hs)
    · exact ⟨j, Nat.lt_succ_of_lt hj, hs⟩
    · exact ⟨k, Nat.lt_succ_self k, hs⟩

/-- **The registry is sealed from the first seal on**, and not before. -/
theorem isSealed_after_iff (steps : List Step) (k : Nat) :
    (after steps k).isSealed = true ↔ SealedBefore steps k := by
  induction k with
  | zero => simp [after, SealedBefore, Registry.initial]
  | succ k ih =>
    rw [sealedBefore_succ_iff, ← ih]
    cases ha : steps[k]? with
    | none => simp [after_succ_of_none ha]
    | some a =>
      rw [after_succ ha]
      rcases a.run_cases (after steps k) with ⟨rfl, hr⟩ | ⟨n, hn, -, hr⟩ | ⟨hc, -, e, hr⟩
      · simp [hr, Registry.close]
      · have hc : a ≠ .close := by
          rintro rfl
          cases hn
        simp [hr, hc]
      · simp [hr, hc]

/-- A step chooses the network that it asks for, as long as the registry is not sealed. -/
theorem chooses_iff {a : Step} (h : steps[k]? = some a) (n : Network) :
    Chooses steps k n ↔ a.Asks n ∧ ¬ SealedBefore steps k := by
  rw [← isSealed_after_iff, Bool.not_eq_true, Chooses, outcome?_of_step h, Option.some.injEq]
  constructor
  · intro hok
    rcases a.run_cases (after steps k) with ⟨-, hr⟩ | ⟨m, hm, hopen, hr⟩ | ⟨-, -, e, hr⟩
    · rw [hr] at hok
      cases hok
    · rw [hr] at hok
      cases hok
      exact ⟨hm, hopen⟩
    · rw [hr] at hok
      cases hok
  · rintro ⟨hasks, hopen⟩
    rw [Step.run_of_asks hasks, Choice.granted, hopen]
    rfl

/-- One step more is the last choice if it is one that succeeds; otherwise the last one stays. -/
theorem lastChosen_succ_iff {n : Network} :
    LastChosen steps (k + 1) n ↔
      Chooses steps k n ∨ (LastChosen steps k n ∧ ∀ m, ¬ Chooses steps k m) := by
  constructor
  · rintro ⟨i, hi, hc, hlast⟩
    rcases Nat.lt_succ_iff_lt_or_eq.mp hi with hlt | rfl
    · obtain ⟨hbefore, hk⟩ := (forall_between_succ_iff hlt).mp hlast
      exact Or.inr ⟨⟨i, hlt, hc, hbefore⟩, hk⟩
    · exact Or.inl hc
  · rintro (hc | ⟨⟨i, hi, hc, hlast⟩, hk⟩)
    · exact ⟨k, Nat.lt_succ_self k, hc, forall_between_self k⟩
    · exact ⟨i, Nat.lt_succ_of_lt hi, hc, (forall_between_succ_iff hi).mpr ⟨hlast, hk⟩⟩

/-- A step that chooses a network makes it active. -/
theorem active_succ_of_chooses {n : Network} (h : Chooses steps k n) :
    (after steps (k + 1)).active = n := by
  cases ha : steps[k]? with
  | none => exact absurd h (not_chooses_of_none ha n)
  | some a =>
    obtain ⟨hasks, hopen⟩ := (chooses_iff ha n).mp h
    rw [← isSealed_after_iff, Bool.not_eq_true] at hopen
    rw [after_succ ha, Step.run_of_asks hasks, Choice.granted, hopen]
    rfl

/-- A step that chooses no network leaves the active one as it is. -/
theorem active_succ_of_not_chooses (h : ∀ n, ¬ Chooses steps k n) :
    (after steps (k + 1)).active = (after steps k).active := by
  cases ha : steps[k]? with
  | none => rw [after_succ_of_none ha]
  | some a =>
    rw [after_succ ha]
    rcases a.run_cases (after steps k) with ⟨-, hr⟩ | ⟨n, -, -, hr⟩ | ⟨-, -, e, hr⟩
    · rw [hr]
      rfl
    · have hc : Chooses steps k n := by
        rw [Chooses, outcome?_of_step ha, hr]
      exact absurd hc (h n)
    · rw [hr]

/-- **The active network is that of the last choice that succeeded**, the main one before the first
of them. -/
theorem active_after_iff (steps : List Step) (k : Nat) (n : Network) :
    (after steps k).active = n ↔
      LastChosen steps k n ∨ (n = .main ∧ ∀ i < k, ∀ m, ¬ Chooses steps i m) := by
  induction k with
  | zero =>
    have hfirst : (after steps 0).active = .main := rfl
    simp [hfirst, LastChosen, eq_comm]
  | succ k ih =>
    rw [lastChosen_succ_iff]
    by_cases hk : ∃ m, Chooses steps k m
    · obtain ⟨m, hm⟩ := hk
      rw [active_succ_of_chooses hm]
      constructor
      · rintro rfl
        exact Or.inl (Or.inl hm)
      · rintro ((hn | ⟨-, hnone⟩) | ⟨-, hnone⟩)
        · -- A step has one outcome.
          exact Option.some.inj (Except.ok.inj (Option.some.inj (hm.symm.trans hn)))
        · exact absurd hm (hnone m)
        · exact absurd hm (hnone k (Nat.lt_succ_self k) m)
    · have hnone : ∀ m, ¬ Chooses steps k m := not_exists.mp hk
      rw [active_succ_of_not_chooses hnone, ih]
      constructor
      · rintro (hlast | ⟨hmain, hbefore⟩)
        · exact Or.inl (Or.inr ⟨hlast, hnone⟩)
        · refine Or.inr ⟨hmain, fun i hi => ?_⟩
          rcases Nat.lt_succ_iff_lt_or_eq.mp hi with hlt | rfl
          · exact hbefore i hlt
          · exact hnone
      · rintro ((hn | ⟨hlast, -⟩) | ⟨hmain, hbefore⟩)
        · exact absurd hn (hnone n)
        · exact Or.inl hlast
        · exact Or.inr ⟨hmain, fun i hi => hbefore i (Nat.lt_succ_of_lt hi)⟩

/-- A step that fails leaves the registry as it was. -/
theorem after_succ_of_error {e : SelectError} (h : outcome? steps k = some (.error e)) :
    after steps (k + 1) = after steps k := by
  cases ha : steps[k]? with
  | none => rw [after_succ_of_none ha]
  | some a =>
    rw [outcome?_of_step ha] at h
    rw [after_succ ha]
    rcases a.run_cases (after steps k) with ⟨-, hr⟩ | ⟨n, -, -, hr⟩ | ⟨-, -, e', hr⟩
    · rw [hr] at h
      cases h
    · rw [hr] at h
      cases h
    · rw [hr]

/-- Once the registry is sealed, every choice fails. -/
theorem outcome?_of_sealed {a : Step} (ha : steps[k]? = some a) (hs : SealedBefore steps k)
    (hc : a ≠ .close) : ∃ e, outcome? steps k = some (.error e) := by
  have hclosed : (after steps k).isSealed = true := (isSealed_after_iff steps k).mpr hs
  rw [outcome?_of_step ha]
  rcases a.run_cases (after steps k) with ⟨hclose, -⟩ | ⟨n, -, hopen, -⟩ | ⟨-, -, e, hr⟩
  · exact absurd hclose hc
  · exact absurd (hclosed.symm.trans hopen) (by decide)
  · exact ⟨e, by rw [hr]⟩

/-- From a seal on the active network stays what it is. -/
theorem active_of_sealed {j : Nat} (hs : steps[j]? = some .close) (hjk : j < k) :
    (after steps k).active = (after steps j).active := by
  induction k with
  | zero => exact absurd hjk (Nat.not_lt_zero j)
  | succ k ih =>
    have hnone : ∀ n, ¬ Chooses steps k n := by
      intro n hn
      cases ha : steps[k]? with
      | none => exact not_chooses_of_none ha n hn
      | some a =>
        obtain ⟨hasks, hopen⟩ := (chooses_iff ha n).mp hn
        rcases Nat.lt_succ_iff_lt_or_eq.mp hjk with hlt | rfl
        · exact hopen ⟨j, hlt, hs⟩
        · -- The seal itself asks for no network.
          rw [hs] at ha
          cases ha
          cases hasks
    rw [active_succ_of_not_chooses hnone]
    rcases Nat.lt_succ_iff_lt_or_eq.mp hjk with hlt | rfl
    · exact ih hlt
    · rfl

/-- **Choices over whole runs.** After any number of steps the active network is that of the last
choice that succeeded, and a choice succeeds if it asks for a network before the first seal. A step
that fails leaves the registry as it was. The registry is sealed from the first seal on; from then
every choice fails and the active network stays. A choice by a name succeeds exactly if the registry
is not sealed, the name is known, and the flags allow for its network, which then is active and is
given back. A selection without a name is a choice by its flags, and so is one with a name that says
what the flags say. -/
theorem selection_over_runs (steps : List Step) :
    (∀ k n, (after steps k).active = n ↔
      LastChosen steps k n ∨ (n = .main ∧ ∀ i < k, ∀ m, ¬ Chooses steps i m)) ∧
    (∀ k a n, steps[k]? = some a → (Chooses steps k n ↔ a.Asks n ∧ ¬ SealedBefore steps k)) ∧
    (∀ k e, outcome? steps k = some (.error e) → after steps (k + 1) = after steps k) ∧
    (∀ k, (after steps k).isSealed = true ↔ SealedBefore steps k) ∧
    (∀ k a, steps[k]? = some a → a ≠ .close → SealedBefore steps k →
      ∃ e, outcome? steps k = some (.error e)) ∧
    (∀ j k, steps[j]? = some .close → j < k → (after steps k).active = (after steps j).active) ∧
    (∀ (r : Registry) (s : Selection) (name : String), s.network = some name →
      ∀ n, ((Choice.selectBy s).run r).1 = .ok n ↔
        r.isSealed = false ∧ n.Spelled name ∧ s.Allows n) ∧
    (∀ (r : Registry) (s : Selection) (n : Network), ((Choice.selectBy s).run r).1 = .ok n →
      ((Choice.selectBy s).run r).2 = { r with active := n }) ∧
    (∀ (r : Registry) (s : Selection), s.network = none →
      (Choice.selectBy s).run r = (Choice.selectByFlags s.regtest s.testnet).run r) ∧
    ∀ (r : Registry) (s : Selection) (name : String) (n : Network), s.network = some name →
      n.Spelled name → flagged? s.regtest s.testnet = some n →
      (Choice.selectBy s).run r = (Choice.selectBy { s with network := none }).run r := by
  refine ⟨active_after_iff steps, ?_, ?_, isSealed_after_iff steps, ?_, ?_, ?_, ?_, ?_, ?_⟩
  · intro k a n ha
    exact chooses_iff ha n
  · intro k e he
    exact after_succ_of_error he
  · intro k a ha hc hs
    exact outcome?_of_sealed ha hs hc
  · intro j k hs hjk
    exact active_of_sealed hs hjk
  · intro r s name hname n
    exact Choice.selectBy_fst_eq_ok_iff hname n
  · intro r s n hok
    exact Choice.selectBy_snd_of_ok hok
  · intro r s hname
    exact Choice.run_selectBy_of_unnamed hname
  · intro r s name n hname hspelled hflags
    exact Choice.run_selectBy_of_spelled hname hspelled hflags

/-- Flags that contradict one another and a choice after the seal change nothing. -/
example : after [.select .test, .flags true true, .close, .select .main] 4 = ⟨.test, true⟩ := by
  decide

end Chain

end RpcDaemon
