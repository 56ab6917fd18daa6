import RpcDaemon.Proofs.Timer.Advance

/-!
# Timers debounce by name

A run is a list of steps: a call sets a timer, the clock is advanced, or the scheduler is shut down.
What a call comes to is read off the list alone: its callback runs in the first advance that brings
the clock to its deadline, unless the scheduler had been shut down, or a further call of the name or
a shutdown comes in between. Timers get to run in advances only, so a timer without delay waits
for the next advance, be it one by no time at all. Main statement: `debounce_by_name`.
-/

namespace RpcDaemon

namespace Timer

/-! ## Runs -/

/-- What is done to a scheduler. -/
inductive Step where
  /-- A call sets a timer whose callback leaves a tag. -/
  | runLater (name : String) (delay : Nat) (tag : String)
  /-- The clock is advanced. -/
  | advance (ms : Nat)
  /-- The scheduler is shut down. -/
  | shutdown
deriving DecidableEq

/-- The milliseconds that a step takes. -/
def Step.length : Step → Nat
  | advance ms => ms
  | _ => 0

/-- Takes a step: what ran in it, each with its moment, and the scheduler afterwards. -/
def Scheduler.step (s : Scheduler) : Step → List (Nat × String) × Scheduler
  | .runLater name delay tag => ([], s.runLater name delay (.record tag))
  | .advance ms => s.advance ms
  | .shutdown => ([], s.shutdown)

/-- The scheduler after the first `k` steps. -/
def after (steps : List Step) (k : Nat) : Scheduler :=
  (steps.take k).foldl (fun s a => (s.step a).2) .initial

/-- What runs in step `k`, each with its moment. -/
def fired (steps : List Step) (k : Nat) : List (Nat × String) :=
  match steps[k]? with
  | some a => ((after steps k).step a).1
  | none => []

/-- The time after the first `k` steps. -/
def time (steps : List Step) (k : Nat) : Nat :=
  (steps.take k).foldl (fun t a => t + a.length) 0

variable {steps : List Step} {k : Nat}

/-- A step leads from the scheduler before it to the one after it. -/
theorem after_succ {a : Step} (h : steps[k]? = some a) :
    after steps (k + 1) = ((after steps k).step a).2 :=
  foldl_take_succ h Scheduler.initial

/-- Past the end of the run nothing changes. -/
theorem after_succ_of_none (h : steps[k]? = none) : after steps (k + 1) = after steps k := by
  unfold after
  rw [take_succ_of_none h]

/-- A step takes its time. -/
theorem time_succ {a : Step} (h : steps[k]? = some a) :
    time steps (k + 1) = time steps k + a.length :=
  foldl_take_succ h 0

/-- Past the end of the run no time passes. -/
theorem time_succ_of_none (h : steps[k]? = none) : time steps (k + 1) = time steps k := by
  unfold time
  rw [take_succ_of_none h]

/-! ## What a call comes to -/

/-- A call that sets a timer. -/
structure Call where
  /-- The name of the timer. -/
  name : String
  /-- The time of the call plus the delay. -/
  due : Nat
  /-- The tag that the callback leaves. -/
  tag : String
deriving DecidableEq

/-- The call that is made in step `i`, if one is. -/
def call? (steps : List Step) (i : Nat) : Option Call :=
  match steps[i]? with
  | some (.runLater name delay tag) => some ⟨name, time steps i + delay, tag⟩
  | _ => none

/-- Step `i` makes the call `c`, and the scheduler was not shut down before. -/
def Accepted (steps : List Step) (i : Nat) (c : Call) : Prop :=
  call? steps i = some c ∧ ∀ j < i, steps[j]? ≠ some .shutdown

/-- Step `j` advances the clock to the moment `t` or past it. -/
def Reaches (steps : List Step) (j t : Nat) : Prop :=
  (∃ ms, steps[j]? = some (.advance ms)) ∧ t ≤ time steps (j + 1)

/-- Step `j` is a further call of the name, or a shutdown. -/
def Supersedes (steps : List Step) (j : Nat) (name : String) : Prop :=
  (∃ c, call? steps j = some c ∧ c.name = name) ∨ steps[j]? = some .shutdown

/-- The callback of the call `c`, which step `i` makes, runs in step `k`. -/
structure Runs (steps : List Step) (k i : Nat) (c : Call) : Prop where
  /-- The call was accepted. -/
  accepted : Accepted steps i c
  /-- It was made before. -/
  before : i < k
  /-- The step brings the clock to the deadline. -/
  reaches : Reaches steps k c.due
  /-- No earlier advance did. -/
  first : ∀ j, i < j → j < k → ¬ Reaches steps j c.due
  /-- Neither a further call of the name nor a shutdown came in between. -/
  kept : ∀ j, i < j → j < k → ¬ Supersedes steps j c.name

/-- The call `c`, which step `i` makes, still waits after the first `k` steps. -/
structure Waits (steps : List Step) (k i : Nat) (c : Call) : Prop where
  /-- The call was accepted. -/
  accepted : Accepted steps i c
  /-- It is one of the first steps. -/
  before : i < k
  /-- No advance brought the clock to the deadline. -/
  unreached : ∀ j, i < j → j < k → ¬ Reaches steps j c.due
  /-- Neither a further call of the name nor a shutdown came. -/
  kept : ∀ j, i < j → j < k → ¬ Supersedes steps j c.name

/-- The callback of a call runs in a step if the call waits until then and the step reaches its
deadline. -/
theorem runs_iff {i : Nat} {c : Call} :
    Runs steps k i c ↔ Waits steps k i c ∧ Reaches steps k c.due := by
  constructor
  · intro h
    exact ⟨⟨h.accepted, h.before, h.first, h.kept⟩, h.reaches⟩
  · rintro ⟨h, hr⟩
    exact ⟨h.accepted, h.before, hr, h.unreached, h.kept⟩

/-- A callback runs in one step at most. -/
theorem Runs.step_unique {i k' : Nat} {c c' : Call} (h : Runs steps k i c)
    (h' : Runs steps k' i c') : k = k' := by
  have hc : c = c' := Option.some.inj (h.accepted.1.symm.trans h'.accepted.1)
  subst hc
  rcases Nat.lt_trichotomy k k' with hlt | heq | hlt
  · exact absurd h.reaches (h'.first k h.before hlt)
  · exact heq
  · exact absurd h'.reaches (h.first k' h'.before hlt)

/-- After one step more, those calls wait that waited and were neither reached nor superseded by it,
and the one that the step itself makes. -/
theorem waits_succ_iff {i : Nat} {c : Call} :
    Waits steps (k + 1) i c ↔
      (Waits steps k i c ∧ ¬ Reaches steps k c.due ∧ ¬ Supersedes steps k c.name) ∨
        (i = k ∧ Accepted steps k c) := by
  constructor
  · intro h
    rcases Nat.lt_succ_iff_lt_or_eq.mp h.before with hlt | rfl
    · obtain ⟨hunreached, hr⟩ := (forall_between_succ_iff hlt).mp h.unreached
      obtain ⟨hkept, hs⟩ := (forall_between_succ_iff hlt).mp h.kept
      exact Or.inl ⟨⟨h.accepted, hlt, hunreached, hkept⟩, hr, hs⟩
    · exact Or.inr ⟨rfl, h.accepted⟩
  · rintro (⟨h, hr, hs⟩ | ⟨rfl, hacc⟩)
    · exact ⟨h.accepted, Nat.lt_succ_of_lt h.before,
        (forall_between_succ_iff h.before).mpr ⟨h.unreached, hr⟩,
        (forall_between_succ_iff h.before).mpr ⟨h.kept, hs⟩⟩
    · exact ⟨hacc, Nat.lt_succ_self i, forall_between_self i, forall_between_self i⟩

/-- While a call waits, the scheduler has not been shut down. -/
theorem Waits.not_shutdown {i : Nat} {c : Call} (h : Waits steps k i c) :
    ∀ j < k, steps[j]? ≠ some .shutdown := by
  intro j hjk hj
  rcases Nat.lt_trichotomy j i with hlt | rfl | hlt
  · exact h.accepted.2 j hlt hj
  · have hcall := h.accepted.1
    unfold call? at hcall
    rw [hj] at hcall
    cases hcall
  · exact h.kept j hlt hjk (Or.inr hj)

/-! ## The calls behind the timers -/

/-- The call that a waiting timer was set by. -/
def Sleeper.call (p : Sleeper) : Call :=
  ⟨p.name, p.deadline, p.job.tag⟩

/-- After the first `k` steps the timers that wait are those of the calls that wait; each stands in
`entries` with the step of its call. -/
structure Ledger (steps : List Step) (k : Nat) (entries : List (Nat × Sleeper)) : Prop where
  /-- The invariant of the scheduler. -/
  settled : (after steps k).Settled
  /-- The clock shows the time that has passed. -/
  now : (after steps k).now = time steps k
  /-- The scheduler knows whether it was shut down. -/
  shut : (after steps k).timers.shutDown = true ↔ ∃ j < k, steps[j]? = some .shutdown
  /-- The timers of the entries are those that wait. -/
  sleepers : entries.map Prod.snd = (after steps k).sleepers
  /-- The entries stand in the order of their steps. -/
  rising : entries.Pairwise fun a b => a.1 < b.1
  /-- The calls of the entries are those that wait. -/
  waits : ∀ i c, (∃ p, (i, p) ∈ entries ∧ p.call = c) ↔ Waits steps k i c

namespace Ledger

variable {entries : List (Nat × Sleeper)}

/-- At the start nothing waits. -/
theorem zero (steps : List Step) : Ledger steps 0 [] where
  settled := Scheduler.settled_initial
  now := rfl
  shut := by
    constructor
    · intro h
      cases h
    · rintro ⟨j, hj, -⟩
      exact absurd hj (Nat.not_lt_zero j)
  sleepers := rfl
  rising := List.Pairwise.nil
  waits := by
    intro i c
    constructor
    · rintro ⟨p, hp, -⟩
      cases hp
    · intro h
      exact absurd h.before (Nat.not_lt_zero i)

/-- The step of an entry is one of those that were taken. -/
theorem lt_of_mem (h : Ledger steps k entries) {e : Nat × Sleeper} (he : e ∈ entries) : e.1 < k :=
  ((h.waits e.1 e.2.call).mp ⟨e.2, he, rfl⟩).before

/-- Without waiting timers there are no entries. -/
theorem eq_nil (h : Ledger steps k entries) (hs : (after steps k).sleepers = []) : entries = [] :=
  List.map_eq_nil_iff.mp (h.sleepers.trans hs)

/-! ## One step more -/

/-- Past the end of the run. -/
theorem next_none (h : Ledger steps k entries) (hk : steps[k]? = none) :
    Ledger steps (k + 1) entries where
  settled := after_succ_of_none hk ▸ h.settled
  now := by
    rw [after_succ_of_none hk, time_succ_of_none hk]
    exact h.now
  shut := by
    rw [after_succ_of_none hk, Nat.exists_lt_succ_right, or_iff_left (by simp [hk])]
    exact h.shut
  sleepers := by
    rw [after_succ_of_none hk]
    exact h.sleepers
  rising := h.rising
  waits := by
    intro i c
    rw [h.waits, waits_succ_iff]
    simp [Reaches, Supersedes, Accepted, call?, hk]

/-- A call that is made after a shutdown. -/
theorem next_refused (h : Ledger steps k entries) {name tag : String} {delay : Nat}
    (hk : steps[k]? = some (.runLater name delay tag))
    (hs : (after steps k).timers.shutDown = true) : Ledger steps (k + 1) entries := by
  have hstep : after steps (k + 1) = after steps k := by
    rw [after_succ hk]
    exact Scheduler.Settled.runLater_of_shut hs name delay _
  have hnil := h.eq_nil (h.settled.sleepers_of_shut hs)
  refine ⟨hstep ▸ h.settled, ?_, ?_, ?_, h.rising, ?_⟩
  · rw [hstep, time_succ hk]
    exact h.now
  · rw [hstep, Nat.exists_lt_succ_right, or_iff_left (by simp [hk])]
    exact h.shut
  · rw [hstep]
    exact h.sleepers
  · -- Nothing waits, and the call is not accepted.
    intro i c
    rw [h.waits, waits_succ_iff]
    obtain ⟨j, hj, hshut⟩ := h.shut.mp hs
    constructor
    · intro hw
      exact absurd hshut (hw.not_shutdown j hj)
    · rintro (⟨hw, -⟩ | ⟨-, hacc⟩)
      · exact hw
      · exact absurd hshut (hacc.2 j hj)

/-- A call takes the place of the one of its name. -/
theorem next_runLater (h : Ledger steps k entries) {name tag : String} {delay : Nat}
    (hk : steps[k]? = some (.runLater name delay tag))
    (ho : (after steps k).timers.shutDown = false) :
    Ledger steps (k + 1) (entries.filter (fun e => e.2.name != name) ++
      [(k, (after steps k).newest name delay (.record tag))]) := by
  have hstep : after steps (k + 1) = (after steps k).runLater name delay (.record tag) := by
    rw [after_succ hk]
    rfl
  have hopen := Scheduler.Settled.runLater_of_open ho name delay (.record tag)
  have hcall : call? steps k = some ⟨name, time steps k + delay, tag⟩ := by
    unfold call?
    rw [hk]
  have hnone : ∀ j < k, steps[j]? ≠ some .shutdown := by
    intro j hj hs
    rw [h.shut.mpr ⟨j, hj, hs⟩] at ho
    cases ho
  refine ⟨?_, ?_, ?_, ?_, ?_, ?_⟩
  · rw [hstep]
    exact h.settled.runLater name delay ⟨tag, rfl⟩
  · rw [hstep, hopen, time_succ hk]
    exact h.now
  · rw [hstep, hopen, Nat.exists_lt_succ_right, or_iff_left (by simp [hk])]
    exact h.shut
  · rw [hstep, hopen, List.map_append, ← h.sleepers, List.filter_map]
    rfl
  · refine List.pairwise_append.mpr ⟨h.rising.filter _, List.pairwise_singleton _ _, ?_⟩
    intro e he f hf
    rcases List.mem_singleton.mp hf with rfl
    exact h.lt_of_mem (List.mem_filter.mp he).1
  · intro i c
    rw [waits_succ_iff, ← h.waits]
    have hreach : ¬ Reaches steps k c.due := by
      rintro ⟨⟨ms, hms⟩, -⟩
      rw [hk] at hms
      cases hms
    have hsuper : Supersedes steps k c.name ↔ name = c.name := by
      unfold Supersedes
      rw [hcall, hk]
      simp
    have hnew : ((after steps k).newest name delay (.record tag)).call =
        ⟨name, time steps k + delay, tag⟩ := by
      rw [← h.now]
      rfl
    constructor
    · rintro ⟨p, hp, rfl⟩
      rcases List.mem_append.mp hp with hp | hp
      · obtain ⟨hp, hne⟩ := List.mem_filter.mp hp
        refine Or.inl ⟨⟨p, hp, rfl⟩, hreach, fun hs => bne_iff_ne.mp hne ?_⟩
        exact (hsuper.mp hs).symm
      · obtain ⟨rfl, rfl⟩ := Prod.mk.inj (List.mem_singleton.mp hp)
        exact Or.inr ⟨rfl, hnew ▸ hcall, hnone⟩
    · rintro (⟨⟨p, hp, rfl⟩, -, hns⟩ | ⟨rfl, hacc, -⟩)
      · refine ⟨p, List.mem_append_left _ (List.mem_filter.mpr ⟨hp, ?_⟩), rfl⟩
        exact bne_iff_ne.mpr fun heq => hns (hsuper.mpr heq.symm)
      · refine ⟨_, List.mem_append_right _ List.mem_cons_self, ?_⟩
        exact hnew.trans (Option.some.inj (hcall.symm.trans hacc))

/-- An advance takes the calls away whose deadline it reaches. -/
theorem next_advance (h : Ledger steps k entries) {ms : Nat}
    (hk : steps[k]? = some (.advance ms)) :
    Ledger steps (k + 1) (entries.filter fun e => time steps (k + 1) < e.2.deadline) := by
  have hstep : after steps (k + 1) = ((after steps k).advance ms).2 := by
    rw [after_succ hk]
    rfl
  have htime : time steps (k + 1) = (after steps k).now + ms := by
    rw [time_succ hk, h.now]
    rfl
  obtain ⟨-, hnow, hleft, hshut, hsettled⟩ := h.settled.advance_spec ms
  refine ⟨?_, ?_, ?_, ?_, h.rising.filter _, ?_⟩
  · rw [hstep]
    exact hsettled
  · rw [hstep, hnow, htime]
  · rw [hstep, hshut, Nat.exists_lt_succ_right, or_iff_left (by simp [hk])]
    exact h.shut
  · rw [hstep, hleft, htime, ← h.sleepers, List.filter_map]
    rfl
  · intro i c
    rw [waits_succ_iff, ← h.waits]
    have hsuper : ¬ Supersedes steps k c.name := by simp [Supersedes, call?, hk]
    have hreach : Reaches steps k c.due ↔ c.due ≤ time steps (k + 1) := by
      unfold Reaches
      rw [hk]
      simp
    have hcall : ¬ Accepted steps k c := by simp [Accepted, call?, hk]
    constructor
    · rintro ⟨p, hp, rfl⟩
      obtain ⟨hp, hlate⟩ := List.mem_filter.mp hp
      have hlate : time steps (k + 1) < p.deadline := of_decide_eq_true hlate
      refine Or.inl ⟨⟨p, hp, rfl⟩, fun hr => ?_, hsuper⟩
      exact absurd (hreach.mp hr) (Nat.not_le.mpr hlate)
    · rintro (⟨⟨p, hp, rfl⟩, hnr, -⟩ | ⟨-, hacc⟩)
      · refine ⟨p, List.mem_filter.mpr ⟨hp, decide_eq_true ?_⟩, rfl⟩
        exact Nat.not_le.mp fun hle => hnr (hreach.mpr hle)
      · exact absurd hacc hcall

/-- A shutdown takes all calls away. -/
theorem next_shutdown (h : Ledger steps k entries) (hk : steps[k]? = some .shutdown) :
    Ledger steps (k + 1) [] := by
  have hstep : after steps (k + 1) = (after steps k).shutdown := by
    rw [after_succ hk]
    rfl
  refine ⟨?_, ?_, ?_, ?_, List.Pairwise.nil, ?_⟩
  · rw [hstep]
    exact Scheduler.Settled.shutdown _
  · rw [hstep, time_succ hk]
    exact h.now
  · rw [hstep]
    exact ⟨fun _ => ⟨k, Nat.lt_succ_self k, hk⟩, fun _ => rfl⟩
  · rw [hstep]
    rfl
  · intro i c
    constructor
    · rintro ⟨p, hp, -⟩
      cases hp
    · intro hw
      exact absurd hk (hw.not_shutdown k (Nat.lt_succ_self k))

end Ledger

/-- **Along every run** the timers that wait are those of the calls that wait. -/
theorem exists_ledger (steps : List Step) (k : Nat) : ∃ entries, Ledger steps k entries := by
  induction k with
  | zero => exact ⟨[], .zero steps⟩
  | succ k ih =>
    obtain ⟨entries, h⟩ := ih
    cases hk : steps[k]? with
    | none => exact ⟨entries, h.next_none hk⟩
    | some a =>
      cases a with
      | runLater name delay tag =>
        cases hs : (after steps k).timers.shutDown with
        | true => exact ⟨entries, h.next_refused hk hs⟩
        | false => exact ⟨_, h.next_runLater hk hs⟩
      | advance ms => exact ⟨_, h.next_advance hk⟩
      | shutdown => exact ⟨[], h.next_shutdown hk⟩

/-! ## What runs, and what is pending -/

/-- What runs in a step: the callbacks of the calls that are to run in it, each once, at its
deadline. -/
theorem fired_perm (steps : List Step) (k : Nat) :
    ∃ calls : List (Nat × Call), (calls.map Prod.fst).Nodup ∧
      (∀ i c, (i, c) ∈ calls ↔ Runs steps k i c) ∧
      (fired steps k).Perm (calls.map fun e => (e.2.due, e.2.tag)) := by
  obtain ⟨entries, h⟩ := exists_ledger steps k
  by_cases hk : ∃ ms, steps[k]? = some (.advance ms)
  · obtain ⟨ms, hk⟩ := hk
    have htime : time steps (k + 1) = (after steps k).now + ms := by
      rw [time_succ hk, h.now]
      rfl
    obtain ⟨hran, -⟩ := h.settled.advance_spec ms
    refine ⟨(entries.filter fun e => e.2.deadline ≤ time steps (k + 1)).map
      fun e => (e.1, e.2.call), ?_, ?_, ?_⟩
    · rw [List.map_map]
      have hne : (entries.filter fun e => e.2.deadline ≤ time steps (k + 1)).Pairwise
          fun a b => a.1 ≠ b.1 :=
        (h.rising.filter _).imp fun hlt => Nat.ne_of_lt hlt
      exact List.pairwise_map.mpr hne
    · intro i c
      rw [runs_iff, ← h.waits, List.mem_map]
      constructor
      · rintro ⟨e, he, heq⟩
        obtain ⟨rfl, rfl⟩ := Prod.mk.inj heq
        obtain ⟨he, hdue⟩ := List.mem_filter.mp he
        exact ⟨⟨e.2, he, rfl⟩, ⟨ms, hk⟩, of_decide_eq_true hdue⟩
      · rintro ⟨⟨p, hp, rfl⟩, -, hdue⟩
        exact ⟨(i, p), List.mem_filter.mpr ⟨hp, decide_eq_true hdue⟩, rfl⟩
    · have hfired : fired steps k = ((after steps k).advance ms).1 := by
        unfold fired
        rw [hk]
        rfl
      rw [hfired, List.map_map]
      refine hran.trans (List.Perm.of_eq ?_)
      rw [← h.sleepers, List.filter_map, List.map_map, htime]
      rfl
  · -- Nothing runs in a step that does not advance the clock.
    refine ⟨[], List.nodup_nil, ?_, ?_⟩
    · intro i c
      constructor
      · intro hm
        cases hm
      · intro hr
        exact absurd hr.reaches.1 hk
    · have hfired : fired steps k = [] := by
        unfold fired
        cases hs : steps[k]? with
        | none => rfl
        | some a =>
          cases a with
          | runLater name delay tag => rfl
          | advance ms => exact absurd ⟨ms, hs⟩ hk
          | shutdown => rfl
      rw [hfired]
      exact List.Perm.refl []

/-- The call `c`, which step `i` makes, is the latest accepted one of its name among the first `k`
steps, and has neither run nor been cancelled. -/
structure Outstanding (steps : List Step) (k i : Nat) (c : Call) : Prop where
  /-- The call was accepted. -/
  accepted : Accepted steps i c
  /-- It is one of the first steps. -/
  before : i < k
  /-- No later call of the name was accepted. -/
  latest : ∀ j c', i < j → j < k → Accepted steps j c' → c'.name ≠ c.name
  /-- Its callback has not run. -/
  not_run : ∀ j < k, ¬ Runs steps j i c
  /-- It was not cancelled. -/
  not_cancelled : ∀ j, i < j → j < k → steps[j]? ≠ some .shutdown

/-- The calls that wait are those that are outstanding. -/
theorem outstanding_iff {i : Nat} {c : Call} : Outstanding steps k i c ↔ Waits steps k i c := by
  constructor
  · intro h
    -- Up to any step the call was kept, so that an advance to its deadline would have run it.
    have hkept : ∀ j, i < j → j < k → ¬ Supersedes steps j c.name := by
      rintro j hij hjk (⟨c', hc', hname⟩ | hs)
      · refine h.latest j c' hij hjk ⟨hc', ?_⟩ hname
        intro m hmj hm
        rcases Nat.lt_trichotomy m i with hlt | rfl | hlt
        · exact h.accepted.2 m hlt hm
        · have hcall := h.accepted.1
          unfold call? at hcall
          rw [hm] at hcall
          cases hcall
        · exact h.not_cancelled m hlt (Nat.lt_trans hmj hjk) hm
      · exact h.not_cancelled j hij hjk hs
    refine ⟨h.accepted, h.before, ?_, hkept⟩
    intro j
    induction j using Nat.strongRecOn with
    | ind j ih =>
      intro hij hjk hr
      refine h.not_run j hjk ⟨h.accepted, hij, hr, ?_, ?_⟩
      · exact fun m him hmj => ih m hmj him (Nat.lt_trans hmj hjk)
      · exact fun m him hmj => hkept m him (Nat.lt_trans hmj hjk)
  · intro h
    refine ⟨h.accepted, h.before, ?_, ?_, ?_⟩
    · intro j c' hij hjk hacc hname
      exact h.kept j hij hjk (Or.inl ⟨c', hacc.1, hname⟩)
    · intro j hjk hr
      exact h.unreached j hr.before hjk hr.reaches
    · intro j hij hjk hs
      exact h.kept j hij hjk (Or.inr hs)

/-- The names that are pending are those of the calls that are outstanding. -/
theorem mem_names_after_iff (steps : List Step) (k : Nat) (name : String) :
    name ∈ (after steps k).timers.names ↔ ∃ i c, Outstanding steps k i c ∧ c.name = name := by
  obtain ⟨entries, h⟩ := exists_ledger steps k
  rw [h.settled.mem_names_iff, ← h.sleepers]
  constructor
  · rintro ⟨p, hp, rfl⟩
    obtain ⟨e, he, rfl⟩ := List.mem_map.mp hp
    exact ⟨e.1, e.2.call, outstanding_iff.mpr ((h.waits _ _).mp ⟨e.2, he, rfl⟩), rfl⟩
  · rintro ⟨i, c, ho, rfl⟩
    obtain ⟨p, hp, rfl⟩ := (h.waits i c).mpr (outstanding_iff.mp ho)
    exact ⟨p, List.mem_map.mpr ⟨(i, p), hp, rfl⟩, rfl⟩

/-- **Timers debounce by name.** In every run and every step of it, what runs are the callbacks of
exactly those accepted calls whose deadline the step is the first to reach and that no further call
of their name and no shutdown superseded before; each runs once in that step, at its deadline, and
in no other step. What is pending after any number of steps is the sorted list of exactly the names
whose latest accepted call has neither run nor been cancelled, and it is empty from the first
shutdown on. -/
theorem debounce_by_name (steps : List Step) :
    (∀ k, ∃ calls : List (Nat × Call), (calls.map Prod.fst).Nodup ∧
      (∀ i c, (i, c) ∈ calls ↔ Runs steps k i c) ∧
      (fired steps k).Perm (calls.map fun e => (e.2.due, e.2.tag))) ∧
    (∀ i c k k', Runs steps k i c → Runs steps k' i c → k = k') ∧
    (∀ k, (after steps k).timers.names.Pairwise (· < ·) ∧
      ∀ name, name ∈ (after steps k).timers.names ↔
        ∃ i c, Outstanding steps k i c ∧ c.name = name) ∧
    ∀ j k, j < k → steps[j]? = some .shutdown → (after steps k).timers.names = [] := by
  refine ⟨fired_perm steps, ?_, ?_, ?_⟩
  · intro i c k k' h h'
    exact h.step_unique h'
  · intro k
    obtain ⟨entries, h⟩ := exists_ledger steps k
    exact ⟨h.settled.table.sorted_names, mem_names_after_iff steps k⟩
  · intro j k hjk hs
    refine List.eq_nil_iff_forall_not_mem.mpr ?_
    intro name hm
    obtain ⟨i, c, ho, -⟩ := (mem_names_after_iff steps k name).mp hm
    exact (outstanding_iff.mp ho).not_shutdown j hjk hs

/-- A second call of a name puts the first off, whose callback never runs. -/
example : (fired [.runLater "x" 5 "first", .runLater "x" 10 "second", .advance 6, .advance 5] 3) =
    [(10, "second")] := by
  decide

end Timer

end RpcDaemon
