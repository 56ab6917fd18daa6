import RpcDaemon.Proofs.Timer.Table

/-!
# Tasks that were told to stop

Each call that is accepted spawns a task, which sleeps and then asks the table whether it is still
current. A call that replaces a timer, and a shutdown, abort the tasks of the entries they take out,
but a task may wake up before the abort takes effect. Here calls, shutdowns and wake-ups come in any
order, and what they come to is read off the order alone. Main statements: `Pool.follows` and
`Pool.promptly_eq_after`.
-/

namespace RpcDaemon

namespace Timer

/-! ## Runs -/

/-- What happens to a table of timers and its tasks. -/
inductive Event where
  /-- A call sets a timer. -/
  | runLater (name : String)
  /-- The table is shut down. -/
  | shutdown
  /-- A task wakes up; the tasks are counted from zero in the order of their calls. -/
  | wake (task : Nat)
deriving DecidableEq

/-- Whether an event is a call. -/
def Event.isCall : Event → Bool
  | runLater _ => true
  | _ => false

/-- A table of timers with the tasks that were spawned for them. -/
structure Pool where
  /-- The table. -/
  timers : Timers
  /-- The name and the generation of each task, in the order in which they were spawned. -/
  tasks : List (String × Nat)
  /-- The entries that were taken out of the table and whose tasks were aborted. -/
  aborted : List (String × Nat)
  /-- The tasks whose callbacks ran, in their order. -/
  ran : List Nat
deriving DecidableEq

namespace Pool

/-- No timers and no tasks. -/
def initial : Pool := ⟨.empty, [], [], []⟩

/-- A call spawns a task and aborts the one it replaces, unless it is refused. -/
def runLater (p : Pool) (name : String) : Pool :=
  match p.timers.schedule name with
  | (none, _) => p
  | (some g, timers) =>
      { p with
        timers := timers
        tasks := p.tasks ++ [(name, g)]
        aborted := p.aborted ++ p.timers.pending.filter fun e => e.1 == name }

/-- A shutdown aborts the tasks of all entries. -/
def shutdown (p : Pool) : Pool :=
  { p with timers := p.timers.shutdown, aborted := p.aborted ++ p.timers.pending }

/-- A task wakes up and runs its callback if it is current. -/
def wake (p : Pool) (n : Nat) : Pool :=
  match p.tasks[n]? with
  | none => p
  | some (name, g) =>
      match p.timers.wake name g with
      | (true, timers) => { p with timers := timers, ran := p.ran ++ [n] }
      | (false, timers) => { p with timers := timers }

/-- Whether a task was aborted. -/
def isAborted (p : Pool) (n : Nat) : Bool :=
  p.tasks[n]?.any fun t => p.aborted.contains t

/-- Takes a step in which every task may wake up. -/
def step (p : Pool) : Event → Pool
  | .runLater name => p.runLater name
  | .shutdown => p.shutdown
  | .wake n => p.wake n

/-- Takes a step in which an aborted task does not wake up. -/
def promptStep (p : Pool) : Event → Pool
  | .wake n => if p.isAborted n then p else p.wake n
  | e => p.step e

/-- The pool after the first `k` events, if aborts never take effect. -/
def after (events : List Event) (k : Nat) : Pool :=
  (events.take k).foldl step initial

/-- The pool after the first `k` events, if aborts take effect at once. -/
def promptly (events : List Event) (k : Nat) : Pool :=
  (events.take k).foldl promptStep initial

/-- How many of the first `k` events are calls. -/
def calls (events : List Event) (k : Nat) : Nat :=
  (events.take k).countP Event.isCall

variable {events : List Event} {k : Nat}

/-- An event leads from the pool before it to the one after it. -/
theorem after_succ {e : Event} (h : events[k]? = some e) :
    after events (k + 1) = (after events k).step e :=
  foldl_take_succ h initial

/-- Past the end of the run nothing changes. -/
theorem after_succ_of_none (h : events[k]? = none) : after events (k + 1) = after events k := by
  unfold after
  rw [take_succ_of_none h]

theorem promptly_succ {e : Event} (h : events[k]? = some e) :
    promptly events (k + 1) = (promptly events k).promptStep e :=
  foldl_take_succ h initial

theorem promptly_succ_of_none (h : events[k]? = none) :
    promptly events (k + 1) = promptly events k := by
  unfold promptly
  rw [take_succ_of_none h]

/-- An event is counted if it is a call. -/
theorem calls_succ {e : Event} (h : events[k]? = some e) :
    calls events (k + 1) = calls events k + if e.isCall then 1 else 0 := by
  unfold calls
  rw [List.take_add_one, h, Option.toList_some, List.countP_append, List.countP_singleton]

theorem calls_succ_of_none (h : events[k]? = none) : calls events (k + 1) = calls events k := by
  unfold calls
  rw [take_succ_of_none h]

/-- Longer beginnings hold no fewer calls. -/
theorem calls_mono {j : Nat} (h : j ≤ k) : calls events j ≤ calls events k :=
  (List.take_sublist_take_left h).countP_le

/-! ## What a call comes to -/

/-- Event `i` is a call of the name that is not refused, and it spawns task `n`. -/
structure Spawns (events : List Event) (i n : Nat) (name : String) : Prop where
  /-- The event is the call. -/
  call : events[i]? = some (.runLater name)
  /-- The table was not shut down before. -/
  accepted : ∀ j < i, events[j]? ≠ some .shutdown
  /-- The task is counted by the calls before. -/
  number : n = calls events i

/-- Event `j` settles what becomes of task `n` of the name: it is a further call of the name, a
shutdown, or the wake-up of the task itself. -/
def Settles (events : List Event) (j n : Nat) (name : String) : Prop :=
  events[j]? = some (.runLater name) ∨ events[j]? = some .shutdown ∨ events[j]? = some (.wake n)

/-- After the first `k` events task `n`, which event `i` spawned for the name, is still to run. -/
structure Live (events : List Event) (k i n : Nat) (name : String) : Prop where
  /-- The task was spawned. -/
  spawns : Spawns events i n name
  /-- Its call is one of the first events. -/
  before : i < k
  /-- Nothing has settled what becomes of it. -/
  unsettled : ∀ j, i < j → j < k → ¬ Settles events j n name

/-- Event `k` runs the callback of task `n`: it wakes the task up while it is still to run. -/
def Fires (events : List Event) (k n : Nat) : Prop :=
  events[k]? = some (.wake n) ∧ ∃ i name, Live events k i n name

variable {i n : Nat} {name : String}

/-- A call settles the tasks of its name. -/
theorem settles_runLater_iff {name' : String} (hk : events[k]? = some (.runLater name)) :
    Settles events k n name' ↔ name' = name := by
  simp [Settles, hk, eq_comm]

/-- A wake-up settles the task that wakes up. -/
theorem settles_wake_iff {n' : Nat} (hk : events[k]? = some (.wake n)) :
    Settles events k n' name ↔ n' = n := by
  simp [Settles, hk, eq_comm]

/-- A task is spawned by one event. -/
theorem Spawns.unique {i' : Nat} {name' : String} (h : Spawns events i n name)
    (h' : Spawns events i' n name') : i = i' := by
  have hi := calls_succ h.call
  have hi' := calls_succ h'.call
  have hn := h.number.symm.trans h'.number
  simp only [Event.isCall, if_true] at hi hi'
  -- Each call is counted, so that the number of the later one is higher.
  rcases Nat.lt_trichotomy i i' with hlt | heq | hlt
  · have hle : calls events (i + 1) ≤ calls events i' := calls_mono hlt
    omega
  · exact heq
  · have hle : calls events (i' + 1) ≤ calls events i := calls_mono hlt
    omega

/-- After one event more, those tasks are still to run that were and that it does not settle, and
the one that it spawns. -/
theorem live_succ_iff :
    Live events (k + 1) i n name ↔
      (Live events k i n name ∧ ¬ Settles events k n name) ∨ (i = k ∧ Spawns events k n name) := by
  constructor
  · intro h
    rcases Nat.lt_succ_iff_lt_or_eq.mp h.before with hlt | rfl
    · obtain ⟨hold, hlast⟩ := (forall_between_succ_iff hlt).mp h.unsettled
      exact Or.inl ⟨⟨h.spawns, hlt, hold⟩, hlast⟩
    · exact Or.inr ⟨rfl, h.spawns⟩
  · rintro (⟨h, hs⟩ | ⟨rfl, hsp⟩)
    · exact ⟨h.spawns, Nat.lt_succ_of_lt h.before,
        (forall_between_succ_iff h.before).mpr ⟨h.unsettled, hs⟩⟩
    · exact ⟨hsp, Nat.lt_succ_self i, forall_between_self i⟩

/-- While a task is still to run, the table has not been shut down. -/
theorem Live.not_shutdown (h : Live events k i n name) : ∀ j < k, events[j]? ≠ some .shutdown := by
  intro j hjk hj
  rcases Nat.lt_trichotomy j i with hlt | rfl | hlt
  · exact h.spawns.accepted j hlt hj
  · rw [h.spawns.call] at hj
    cases hj
  · exact h.unsettled j hlt hjk (Or.inr (Or.inl hj))

/-- A callback runs in one event at most. -/
theorem Fires.unique {k' : Nat} (h : Fires events k n) (h' : Fires events k' n) : k = k' := by
  obtain ⟨hw, i, name, hl⟩ := h
  obtain ⟨hw', i', name', hl'⟩ := h'
  have hi := hl.spawns.unique hl'.spawns
  subst hi
  -- The earlier wake-up settles the task, which then is not to run any more at the later one.
  rcases Nat.lt_trichotomy k k' with hlt | heq | hlt
  · exact absurd (Or.inr (Or.inr hw)) (hl'.unsettled k hl.before hlt)
  · exact heq
  · exact absurd (Or.inr (Or.inr hw')) (hl.unsettled k' hl'.before hlt)

/-! ## The operations -/

variable {p : Pool}

/-- A call is refused after a shutdown. -/
theorem runLater_of_shut (h : p.timers.shutDown = true) (name : String) : p.runLater name = p := by
  rw [runLater, Timers.schedule_of_shut h]

/-- A call that is accepted spawns the task of the next generation. -/
theorem runLater_of_open (h : p.timers.shutDown = false) (name : String) :
    p.runLater name =
      { p with
        timers := ⟨p.timers.generation + 1,
          Timers.put name (p.timers.generation + 1) p.timers.pending, p.timers.shutDown⟩
        tasks := p.tasks ++ [(name, p.timers.generation + 1)]
        aborted := p.aborted ++ p.timers.pending.filter fun e => e.1 == name } := by
  rw [runLater, Timers.schedule_of_open h]

/-- A task asks the table whether it is current, and runs its callback if it is. -/
theorem wake_of_task {g : Nat} (ht : p.tasks[n]? = some (name, g)) :
    p.wake n =
      { p with
        timers := (p.timers.wake name g).2
        ran := if (p.timers.wake name g).1 then p.ran ++ [n] else p.ran } := by
  unfold wake
  rw [ht]
  dsimp only
  rcases p.timers.wake name g with ⟨_ | _, timers⟩ <;> rfl

/-- A task whose entry stands in the table runs its callback and takes the entry out. -/
theorem wake_of_mem (h : p.timers.Sound) {g : Nat} (ht : p.tasks[n]? = some (name, g))
    (hm : (name, g) ∈ p.timers.pending) :
    p.wake n =
      { p with
        timers := { p.timers with pending := p.timers.pending.filter fun e => e.1 != name }
        ran := p.ran ++ [n] } := by
  rw [wake_of_task ht, h.wake_of_mem hm]
  rfl

/-- A task whose entry does not stand in the table changes nothing. -/
theorem wake_of_not_mem (h : p.timers.Sound)
    (hm : ∀ name g, p.tasks[n]? = some (name, g) → (name, g) ∉ p.timers.pending) :
    p.wake n = p := by
  rcases ht : p.tasks[n]? with _ | ⟨name, g⟩
  · unfold wake
    rw [ht]
  · rw [wake_of_task ht, h.wake_of_not_mem (hm name g ht)]
    rfl

/-! ## The tasks along a run -/

/-- After the first `k` events the tasks are those of the calls that were accepted. -/
structure Counted (events : List Event) (k : Nat) : Prop where
  /-- Each task has a generation of its own. -/
  counted : (after events k).timers.generation = (after events k).tasks.length
  /-- Not more tasks were spawned than calls were made. -/
  bounded : (after events k).tasks.length ≤ calls events k
  /-- Until the table is shut down every call has spawned one. -/
  complete : (after events k).timers.shutDown = false →
    (after events k).tasks.length = calls events k
  /-- A task has the generation of its number. -/
  numbered : ∀ n name g, (after events k).tasks[n]? = some (name, g) → g = n + 1
  /-- The tasks that were spawned are there. -/
  spawned : ∀ i n name, i < k → Spawns events i n name →
    (after events k).tasks[n]? = some (name, n + 1)

namespace Counted

/-- An event that spawns no task leaves the tasks as they are. -/
theorem kept (h : Counted events k) (hsp : ∀ n name, ¬ Spawns events k n name)
    (htasks : (after events (k + 1)).tasks = (after events k).tasks)
    (hgen : (after events (k + 1)).timers.generation = (after events k).timers.generation)
    (hopen : (after events (k + 1)).timers.shutDown = false →
      (after events k).timers.shutDown = false ∧ calls events (k + 1) = calls events k) :
    Counted events (k + 1) where
  counted := by
    rw [hgen, htasks]
    exact h.counted
  bounded := by
    rw [htasks]
    exact Nat.le_trans h.bounded (calls_mono (Nat.le_succ k))
  complete := by
    intro ho
    obtain ⟨ho, hcalls⟩ := hopen ho
    rw [htasks, hcalls]
    exact h.complete ho
  numbered := by
    rw [htasks]
    exact h.numbered
  spawned := by
    intro i n name hi hs
    rw [htasks]
    rcases Nat.lt_succ_iff_lt_or_eq.mp hi with hlt | rfl
    · exact h.spawned i n name hlt hs
    · exact absurd hs (hsp n name)

/-- A call that is accepted spawns the task that is counted next. -/
theorem spawn (h : Counted events k) (hk : events[k]? = some (.runLater name))
    (ho : (after events k).timers.shutDown = false)
    (htasks : (after events (k + 1)).tasks
      = (after events k).tasks ++ [(name, (after events k).timers.generation + 1)])
    (hgen : (after events (k + 1)).timers.generation = (after events k).timers.generation + 1) :
    Counted events (k + 1) := by
  have hcalls : calls events (k + 1) = calls events k + 1 := calls_succ hk
  have hcount := h.counted
  have hfull := h.complete ho
  have hlength : (after events (k + 1)).tasks.length = (after events k).tasks.length + 1 := by
    rw [htasks, List.length_append, List.length_singleton]
  refine ⟨?_, ?_, ?_, ?_, ?_⟩
  · rw [hgen, hlength, hcount]
  · rw [hlength, hcalls]
    exact Nat.succ_le_succ h.bounded
  · intro _
    rw [hlength, hcalls, hfull]
  · -- A task is one of those before, or the new one, whose number is their length.
    intro n name' g hn
    rw [htasks, List.getElem?_append] at hn
    by_cases hlt : n < (after events k).tasks.length
    · rw [if_pos hlt] at hn
      exact h.numbered n name' g hn
    · rw [if_neg hlt, List.getElem?_singleton] at hn
      by_cases hz : n - (after events k).tasks.length = 0
      · rw [if_pos hz] at hn
        cases hn
        omega
      · rw [if_neg hz] at hn
        cases hn
  · intro i n name' hi hs
    rw [htasks]
    rcases Nat.lt_succ_iff_lt_or_eq.mp hi with hlt | rfl
    · have hn := h.spawned i n name' hlt hs
      exact (List.getElem?_append_left (List.getElem?_eq_some_iff.mp hn).1).trans hn
    · have hcall := hs.call
      rw [hk] at hcall
      cases hcall
      rw [hs.number, ← hfull, hcount]
      exact List.getElem?_concat_length

end Counted

/-! ## The table along a run -/

/-- After the first `k` events the pool is what the events say. -/
structure Follows (events : List Event) (k : Nat) : Prop extends Counted events k where
  /-- The invariant of the table. -/
  sound : (after events k).timers.Sound
  /-- The table knows whether it was shut down. -/
  shut : (after events k).timers.shutDown = true ↔ ∃ j < k, events[j]? = some .shutdown
  /-- The entries of the table are those of the tasks that are still to run. -/
  pending : ∀ name g, (name, g) ∈ (after events k).timers.pending ↔
    ∃ i n, g = n + 1 ∧ Live events k i n name
  /-- No entry that was taken out stands in the table. -/
  aborted : ∀ e ∈ (after events k).aborted,
    e ∉ (after events k).timers.pending ∧ e.2 ≤ (after events k).timers.generation
  /-- The callbacks that ran are those that an event has run. -/
  ran : ∀ n, n ∈ (after events k).ran ↔ ∃ j < k, Fires events j n
  /-- None ran twice. -/
  once : (after events k).ran.Nodup

namespace Follows

/-- At the start nothing has happened. -/
theorem zero (events : List Event) : Follows events 0 where
  counted := rfl
  bounded := Nat.zero_le _
  complete := fun _ => rfl
  numbered := by
    intro n name g h
    cases h
  spawned := by
    intro i n name hi
    exact absurd hi (Nat.not_lt_zero i)
  sound := Timers.sound_empty
  shut := by
    constructor
    · intro h
      cases h
    · rintro ⟨j, hj, -⟩
      exact absurd hj (Nat.not_lt_zero j)
  pending := by
    intro name g
    constructor
    · intro h
      cases h
    · rintro ⟨i, n, -, hl⟩
      exact absurd hl.before (Nat.not_lt_zero i)
  aborted := by
    intro e he
    cases he
  ran := by
    intro n
    constructor
    · intro h
      cases h
    · rintro ⟨j, hj, -⟩
      exact absurd hj (Nat.not_lt_zero j)
  once := List.Pairwise.nil

/-- A task that is still to run is there, and its entry stands in the table. -/
theorem entry_of_live (h : Follows events k) (hl : Live events k i n name) :
    (after events k).tasks[n]? = some (name, n + 1) ∧
      (name, n + 1) ∈ (after events k).timers.pending :=
  ⟨h.spawned i n name hl.before hl.spawns, (h.pending name (n + 1)).mpr ⟨i, n, rfl, hl⟩⟩

/-- A task whose entry stands in the table is still to run. -/
theorem live_of_entry (h : Follows events k) {g : Nat}
    (ht : (after events k).tasks[n]? = some (name, g))
    (hm : (name, g) ∈ (after events k).timers.pending) : ∃ i, Live events k i n name := by
  obtain ⟨i, n', hg, hl⟩ := (h.pending name g).mp hm
  have hn : n = n' := Nat.succ.inj ((h.numbered n name g ht).symm.trans hg)
  exact ⟨i, hn ▸ hl⟩

/-- The wake-up of a task that is not to run any more changes nothing. -/
theorem wake_of_not_live (h : Follows events k) (hn : ∀ i name, ¬ Live events k i n name) :
    (after events k).wake n = after events k := by
  refine wake_of_not_mem h.sound ?_
  intro name g ht hm
  obtain ⟨i, hl⟩ := h.live_of_entry ht hm
  exact hn i name hl

/-! ## One event more -/

/-- The callbacks that ran stay the same in an event that runs none. -/
theorem ran_kept (h : Follows events k) (hran : (after events (k + 1)).ran = (after events k).ran)
    (hf : ∀ n, ¬ Fires events k n) (n : Nat) :
    n ∈ (after events (k + 1)).ran ↔ ∃ j < k + 1, Fires events j n := by
  rw [hran, h.ran, Nat.exists_lt_succ_right, or_iff_left (hf n)]

/-- An event that spawns no task and settles none that is still to run leaves things as they are. -/
theorem unchanged (h : Follows events k) (hstep : after events (k + 1) = after events k)
    (hshut : events[k]? ≠ some .shutdown) (hsp : ∀ n name, ¬ Spawns events k n name)
    (hlive : ∀ i n name, Live events k i n name → ¬ Settles events k n name)
    (hcalls : (after events k).timers.shutDown = false → calls events (k + 1) = calls events k) :
    Follows events (k + 1) where
  toCounted := by
    refine h.toCounted.kept hsp (by rw [hstep]) (by rw [hstep]) ?_
    rw [hstep]
    exact fun ho => ⟨ho, hcalls ho⟩
  sound := hstep ▸ h.sound
  shut := by
    rw [hstep, h.shut, Nat.exists_lt_succ_right, or_iff_left hshut]
  pending := by
    intro name g
    rw [hstep, h.pending]
    refine exists_congr fun i => exists_congr fun n => and_congr_right fun _ => ?_
    rw [live_succ_iff, or_iff_left fun hs => hsp n name hs.2]
    exact ⟨fun hl => ⟨hl, hlive i n name hl⟩, And.left⟩
  aborted := hstep ▸ h.aborted
  ran := by
    refine h.ran_kept (by rw [hstep]) ?_
    rintro n ⟨hw, i, name, hl⟩
    exact hlive i n name hl (Or.inr (Or.inr hw))
  once := hstep ▸ h.once

/-- Past the end of the run. -/
theorem next_none (h : Follows events k) (hk : events[k]? = none) : Follows events (k + 1) := by
  refine h.unchanged (after_succ_of_none hk) (by simp [hk]) ?_ ?_ fun _ => calls_succ_of_none hk
  · intro n name hs
    exact absurd (hk.symm.trans hs.call) (by simp)
  · intro i n name _ hs
    simp [Settles, hk] at hs

/-- A call that is made after a shutdown. -/
theorem next_refused (h : Follows events k) (hk : events[k]? = some (.runLater name))
    (hs : (after events k).timers.shutDown = true) : Follows events (k + 1) := by
  obtain ⟨j, hj, hshut⟩ := h.shut.mp hs
  refine h.unchanged ?_ (by simp [hk]) ?_ ?_ ?_
  · rw [after_succ hk]
    exact runLater_of_shut hs name
  · intro n name hsp
    exact hsp.accepted j hj hshut
  · intro i n name hl
    exact absurd hshut (hl.not_shutdown j hj)
  · intro ho
    rw [hs] at ho
    cases ho

/-- The wake-up of a task that is not to run any more. -/
theorem next_stale (h : Follows events k) (hk : events[k]? = some (.wake n))
    (hn : ∀ i name, ¬ Live events k i n name) : Follows events (k + 1) := by
  refine h.unchanged ?_ (by simp [hk]) ?_ ?_ fun _ => calls_succ hk
  · rw [after_succ hk]
    exact h.wake_of_not_live hn
  · intro n' name hs
    exact absurd (hk.symm.trans hs.call) (by simp)
  · intro i n' name hl hs
    have hnn := (settles_wake_iff hk).mp hs
    exact hn i name (hnn ▸ hl)

/-- A call that is accepted. -/
theorem next_runLater (h : Follows events k) (hk : events[k]? = some (.runLater name))
    (ho : (after events k).timers.shutDown = false) : Follows events (k + 1) := by
  have hstep : after events (k + 1) = (after events k).runLater name := after_succ hk
  rw [runLater_of_open ho] at hstep
  have hfull : (after events k).timers.generation = calls events k :=
    h.counted.trans (h.complete ho)
  have hspawns : ∀ n name', Spawns events k n name' ↔ name' = name ∧ n = calls events k := by
    intro n name'
    constructor
    · intro hs
      have hcall := hs.call
      rw [hk] at hcall
      cases hcall
      exact ⟨rfl, hs.number⟩
    · rintro ⟨rfl, rfl⟩
      refine ⟨hk, ?_, rfl⟩
      intro j hj hs
      rw [h.shut.mpr ⟨j, hj, hs⟩] at ho
      cases ho
  refine ⟨h.toCounted.spawn hk ho (by rw [hstep]) (by rw [hstep]), ?_, ?_, ?_, ?_, ?_, ?_⟩
  · rw [hstep]
    exact h.sound.put ho name
  · rw [hstep, Nat.exists_lt_succ_right, or_iff_left (by simp [hk])]
    exact h.shut
  · -- The new entry is that of the task spawned now, and the others keep their names.
    intro name' g
    rw [hstep, Timers.mem_put_iff h.sound.sorted, h.pending, hfull]
    constructor
    · rintro (he | ⟨⟨i, n, hg, hl⟩, hne⟩)
      · obtain ⟨rfl, rfl⟩ := Prod.mk.inj he
        exact ⟨k, _, rfl, live_succ_iff.mpr (Or.inr ⟨rfl, (hspawns _ _).mpr ⟨rfl, rfl⟩⟩)⟩
      · refine ⟨i, n, hg, live_succ_iff.mpr (Or.inl ⟨hl, ?_⟩)⟩
        exact fun hs => hne ((settles_runLater_iff hk).mp hs)
    · rintro ⟨i, n, rfl, hl⟩
      rcases live_succ_iff.mp hl with ⟨hl, hs⟩ | ⟨-, hs⟩
      · exact Or.inr ⟨⟨i, n, rfl, hl⟩, fun hne => hs ((settles_runLater_iff hk).mpr hne)⟩
      · obtain ⟨rfl, rfl⟩ := (hspawns n name').mp hs
        exact Or.inl rfl
  · -- The generation of the new entry is above all earlier ones.
    intro e he
    rw [hstep] at he ⊢
    rw [Timers.mem_put_iff h.sound.sorted]
    have hold : e ∉ (after events k).timers.pending ∨ e.1 = name := by
      rcases List.mem_append.mp he with he | he
      · exact Or.inl (h.aborted e he).1
      · exact Or.inr (eq_of_beq (List.mem_filter.mp he).2)
    have hle : e.2 ≤ (after events k).timers.generation := by
      rcases List.mem_append.mp he with he | he
      · exact (h.aborted e he).2
      · exact h.sound.bounded e (List.mem_filter.mp he).1
    refine ⟨?_, Nat.le_succ_of_le hle⟩
    rintro (rfl | ⟨hin, hne⟩)
    · exact absurd hle (Nat.not_succ_le_self _)
    · exact hold.elim (fun hout => hout hin) hne
  · refine h.ran_kept (by rw [hstep]) ?_
    intro n hf
    exact absurd (hk.symm.trans hf.1) (by simp)
  · rw [hstep]
    exact h.once

/-- A shutdown. -/
theorem next_shutdown (h : Follows events k) (hk : events[k]? = some .shutdown) :
    Follows events (k + 1) := by
  have hstep : after events (k + 1) = (after events k).shutdown := after_succ hk
  refine ⟨h.toCounted.kept ?_ (by rw [hstep]; rfl) (by rw [hstep]; rfl) ?_, ?_, ?_, ?_, ?_, ?_, ?_⟩
  · intro n name hs
    exact absurd (hk.symm.trans hs.call) (by simp)
  · rw [hstep]
    intro ho
    cases ho
  · rw [hstep]
    exact Timers.sound_shutdown _
  · rw [hstep, Nat.exists_lt_succ_right]
    exact ⟨fun _ => Or.inr hk, fun _ => rfl⟩
  · intro name g
    rw [hstep]
    constructor
    · intro he
      cases he
    · rintro ⟨i, n, -, hl⟩
      exact absurd hk (hl.not_shutdown k (Nat.lt_succ_self k))
  · intro e he
    rw [hstep] at he ⊢
    refine ⟨List.not_mem_nil, ?_⟩
    rcases List.mem_append.mp he with he | he
    · exact (h.aborted e he).2
    · exact h.sound.bounded e he
  · refine h.ran_kept (by rw [hstep]; rfl) ?_
    intro n hf
    exact absurd (hk.symm.trans hf.1) (by simp)
  · rw [hstep]
    exact h.once

/-- The wake-up of a task that is still to run. -/
theorem next_wake (h : Follows events k) (hk : events[k]? = some (.wake n))
    (hl : Live events k i n name) : Follows events (k + 1) := by
  obtain ⟨ht, hm⟩ := h.entry_of_live hl
  have hstep : after events (k + 1) = (after events k).wake n := after_succ hk
  rw [wake_of_mem h.sound ht hm] at hstep
  have hfires : Fires events k n := ⟨hk, i, name, hl⟩
  have hsp : ∀ n' name', ¬ Spawns events k n' name' := by
    intro n' name' hs
    exact absurd (hk.symm.trans hs.call) (by simp)
  refine ⟨h.toCounted.kept hsp (by rw [hstep]) (by rw [hstep]) ?_, ?_, ?_, ?_, ?_, ?_, ?_⟩
  · rw [hstep]
    exact fun ho => ⟨ho, calls_succ hk⟩
  · rw [hstep]
    exact h.sound.filter _
  · rw [hstep, Nat.exists_lt_succ_right, or_iff_left (by simp [hk])]
    exact h.shut
  · -- The entry of the task is the only one of its name.
    intro name' g
    rw [hstep, List.mem_filter]
    constructor
    · rintro ⟨hin, hne⟩
      obtain ⟨i', n', rfl, hl'⟩ := (h.pending name' g).mp hin
      refine ⟨i', n', rfl, live_succ_iff.mpr (Or.inl ⟨hl', ?_⟩)⟩
      intro hs
      have hnn := (settles_wake_iff hk).mp hs
      subst hnn
      have hboth := (h.entry_of_live hl').1.symm.trans ht
      cases hboth
      exact absurd hne (by simp)
    · rintro ⟨i', n', rfl, hl'⟩
      rcases live_succ_iff.mp hl' with ⟨hl', hs⟩ | ⟨-, hs⟩
      · obtain ⟨-, hin⟩ := h.entry_of_live hl'
        refine ⟨hin, ?_⟩
        simp only [bne_iff_ne, ne_eq]
        rintro rfl
        exact hs ((settles_wake_iff hk).mpr (Nat.succ.inj (h.sound.generation_unique hin hm)))
      · exact absurd hs (hsp n' name')
  · intro e he
    rw [hstep] at he ⊢
    obtain ⟨hout, hle⟩ := h.aborted e he
    exact ⟨fun hin => hout (List.mem_filter.mp hin).1, hle⟩
  · intro n'
    rw [hstep, Nat.exists_lt_succ_right, List.mem_append, h.ran, List.mem_singleton]
    refine or_congr_right ⟨?_, ?_⟩
    · rintro rfl
      exact hfires
    · rintro ⟨hw, -⟩
      rw [hk] at hw
      cases hw
      rfl
  · rw [hstep]
    refine List.nodup_append.mpr ⟨h.once, by simp, ?_⟩
    intro a ha b hb hab
    obtain ⟨j, hj, hf⟩ := (h.ran a).mp ha
    rw [hab, List.mem_singleton.mp hb] at hf
    exact absurd (hf.unique hfires) (Nat.ne_of_lt hj)

end Follows

/-- After any number of events the pool is what the events say. -/
theorem follows (events : List Event) (k : Nat) : Follows events k := by
  induction k with
  | zero => exact Follows.zero events
  | succ k h =>
    rcases hk : events[k]? with _ | ⟨name⟩ | _ | n
    · exact h.next_none hk
    · rcases hs : (after events k).timers.shutDown with _ | _
      · exact h.next_runLater hk hs
      · exact h.next_refused hk hs
    · exact h.next_shutdown hk
    · by_cases hl : ∃ i name, Live events k i n name
      · obtain ⟨i, name, hl⟩ := hl
        exact h.next_wake hk hl
      · exact h.next_stale hk fun i name h => hl ⟨i, name, h⟩

/-- An aborted task would change nothing if it woke up. -/
theorem promptStep_after (events : List Event) (k : Nat) (e : Event) :
    (after events k).promptStep e = (after events k).step e := by
  rcases e with name | _ | n
  · rfl
  · rfl
  · show (if (after events k).isAborted n then after events k else (after events k).wake n)
      = (after events k).wake n
    by_cases ha : (after events k).isAborted n
    · rw [if_pos ha]
      refine (wake_of_not_mem (follows events k).sound ?_).symm
      intro name g ht
      unfold isAborted at ha
      rw [ht, Option.any_some] at ha
      exact ((follows events k).aborted _ (List.contains_iff_mem.mp ha)).1
    · rw [if_neg ha]

/-- Aborts make no difference along a run. -/
theorem promptly_eq_after (events : List Event) (k : Nat) :
    promptly events k = after events k := by
  induction k with
  | zero => rfl
  | succ k ih =>
    rcases hk : events[k]? with _ | e
    · rw [promptly_succ_of_none hk, after_succ_of_none hk, ih]
    · rw [promptly_succ hk, after_succ hk, ih, promptStep_after]

end Pool

end Timer

end RpcDaemon
