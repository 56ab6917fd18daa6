import RpcDaemon.Proofs.Timer.Debounce
import RpcDaemon.Proofs.Timer.Tasks

/-!
# Aborts only save work

The scheduler on a clock stops a timer at once when it is replaced or cancelled. That is one order
of events among others: calls and shutdowns come as they are made, and each timer that is due wakes
up. So what holds of calls, shutdowns and wake-ups in any order holds of the scheduler. Main
statement: `abort_only_saves_work`.
-/

namespace RpcDaemon

namespace Timer

/-! ## The scheduler and its tasks -/

/-- The pool stands where the scheduler stands: the tables are the same, and every timer that waits
has its task. -/
structure Mirrors (s : Scheduler) (p : Pool) : Prop where
  /-- The tables are the same. -/
  timers : p.timers = s.timers
  /-- Every timer that waits has its task. -/
  tasks : ∀ q ∈ s.sleepers, ∃ n : Nat, p.tasks[n]? = some (q.name, q.generation)

/-- Some events lead from the pool to one that mirrors the scheduler, and run `count` callbacks. -/
def Leads (p : Pool) (s : Scheduler) (count : Nat) : Prop :=
  ∃ events : List Event, Mirrors s (events.foldl Pool.step p) ∧
    (events.foldl Pool.step p).ran.length = p.ran.length + count

/-- One event is enough to lead somewhere. -/
theorem Leads.of_event {p : Pool} {s : Scheduler} {count : Nat} (e : Event)
    (h : Mirrors s (p.step e)) (hran : (p.step e).ran.length = p.ran.length + count) :
    Leads p s count :=
  ⟨[e], h, hran⟩

/-- What leads on from where events have led is led to. -/
theorem Leads.trans {p : Pool} {s s' : Scheduler} {count count' : Nat} (h : Leads p s count)
    (h' : ∀ p', Mirrors s p' → Leads p' s' count') : Leads p s' (count + count') := by
  obtain ⟨events, hm, hran⟩ := h
  obtain ⟨events', hm', hran'⟩ := h' _ hm
  refine ⟨events ++ events', ?_, ?_⟩
  · rw [List.foldl_append]
    exact hm'
  · rw [List.foldl_append, hran', hran, Nat.add_assoc]

namespace Mirrors

variable {s : Scheduler} {p : Pool}

/-- No event is needed to stay. -/
theorem leads (h : Mirrors s p) : Leads p s 0 :=
  ⟨[], h, rfl⟩

/-- A call spawns a task for the timer that it sets. -/
theorem runLater (h : Mirrors s p) (name : String) (delay : Nat) (j : Job) :
    Leads p (s.runLater name delay j) 0 := by
  rcases hs : s.timers.shutDown with _ | _
  · refine Leads.of_event (.runLater name) ?_ ?_
    · show Mirrors _ (p.runLater name)
      rw [Pool.runLater_of_open (by rw [h.timers, hs]), Scheduler.Settled.runLater_of_open hs]
      refine ⟨by rw [h.timers], ?_⟩
      intro q hq
      rcases List.mem_append.mp hq with hq | hq
      · obtain ⟨n, hn⟩ := h.tasks q (List.mem_filter.mp hq).1
        exact ⟨n, (List.getElem?_append_left (List.getElem?_eq_some_iff.mp hn).1).trans hn⟩
      · rcases List.mem_singleton.mp hq with rfl
        refine ⟨p.tasks.length, ?_⟩
        rw [h.timers]
        exact List.getElem?_concat_length
    · show (p.runLater name).ran.length = _
      rw [Pool.runLater_of_open (by rw [h.timers, hs])]
      rfl
  · rw [Scheduler.Settled.runLater_of_shut hs]
    exact h.leads

/-- A shutdown is an event. -/
theorem shutdown (h : Mirrors s p) : Leads p s.shutdown 0 := by
  refine Leads.of_event .shutdown ⟨?_, ?_⟩ rfl
  · show p.timers.shutdown = s.timers.shutdown
    rw [h.timers]
  · intro q hq
    cases hq

/-- What a job that ran sets up is a further call. -/
theorem follow (h : Mirrors s p) (j : Job) : Leads p (s.follow j) 0 := by
  cases j with
  | record tag => exact h.leads
  | andThen tag name delay next => exact h.runLater name delay next

/-- A timer that wakes up is its task that wakes up. -/
theorem wakeUp (h : Mirrors s p) {q : Sleeper} (hq : q ∈ s.sleepers) :
    Leads p (s.wakeUp q).2 (s.wakeUp q).1.length := by
  obtain ⟨n, hn⟩ := h.tasks q hq
  have hwake : p.step (.wake n) = _ := Pool.wake_of_task hn
  rw [h.timers] at hwake
  have hkept : ∀ x ∈ s.sleepers.filter (fun x => x.generation != q.generation),
      ∃ m : Nat, p.tasks[m]? = some (x.name, x.generation) :=
    fun x hx => h.tasks x (List.mem_filter.mp hx).1
  unfold Scheduler.wakeUp
  dsimp only
  rcases hw : s.timers.wake q.name q.generation with ⟨_ | _, timers⟩
  · rw [hw] at hwake
    refine Leads.of_event (.wake n) ?_ ?_
    · rw [hwake]
      exact ⟨rfl, hkept⟩
    · rw [hwake]
      rfl
  · rw [hw] at hwake
    -- The callback runs in the event, and its job may make a call after it.
    have hfired : Leads p { s with
        now := max s.now q.deadline
        timers := timers
        sleepers := s.sleepers.filter fun x => x.generation != q.generation } 1 := by
      refine Leads.of_event (.wake n) ?_ ?_
      · rw [hwake]
        exact ⟨rfl, hkept⟩
      · rw [hwake]
        exact List.length_append
    exact hfired.trans fun p' h' => h'.follow q.job

/-- Running what is due is waking up one timer after the other. -/
theorem runDue (limit fuel : Nat) (h : Mirrors s p) :
    Leads p (Scheduler.runDue limit fuel s).2 (Scheduler.runDue limit fuel s).1.length := by
  induction fuel generalizing s p with
  | zero => exact h.leads
  | succ fuel ih =>
    rw [Scheduler.runDue]
    rcases hn : Scheduler.next? limit s.sleepers with _ | q
    · exact h.leads
    · dsimp only
      rw [List.length_append]
      exact (h.wakeUp (Scheduler.next?_spec hn).1).trans fun p' h' => ih h'

/-- A step of the scheduler is a number of events. -/
theorem step (h : Mirrors s p) (a : Step) : Leads p (s.step a).2 (s.step a).1.length := by
  cases a with
  | runLater name delay tag => exact h.runLater name delay _
  | shutdown => exact h.shutdown
  | advance ms =>
    obtain ⟨events, hm, hran⟩ := h.runDue (s.now + ms) s.work
    exact ⟨events, ⟨hm.timers, hm.tasks⟩, hran⟩

end Mirrors

/-- A run of the scheduler is a number of events. -/
theorem leads_after (steps : List Step) (k : Nat) :
    Leads .initial (after steps k) ((List.range k).flatMap (fired steps)).length := by
  induction k with
  | zero =>
    refine Mirrors.leads ⟨rfl, ?_⟩
    intro q hq
    cases hq
  | succ k ih =>
    rw [List.range_succ, List.flatMap_append, List.flatMap_singleton, List.length_append]
    refine ih.trans fun p h => ?_
    rcases hk : steps[k]? with _ | a
    · rw [after_succ_of_none hk, fired, hk]
      exact h.leads
    · rw [after_succ hk, fired, hk]
      exact h.step a

/-- **Aborting tasks only saves work.** After any number of events in any order, the callbacks that
ran are those of the tasks that an event woke up while they were still to run, which means that
their calls were not refused and that since then neither a further call of the name nor a shutdown
nor a wake-up of the same task had come. None ran twice. The names that are given out are sorted and
are those of the tasks still to run. Such a task runs its callback whenever it wakes up, and takes
no name but its own out of the table; any other task changes nothing. If aborted tasks never woke
up, the callbacks that ran and the names would be the same. The generation never exceeds the number
of calls. Every run of the scheduler on its clock is such an order of events: the table is the same,
and as many callbacks ran. -/
theorem abort_only_saves_work :
    (∀ (events : List Event) (k : Nat),
      (∀ n, n ∈ (Pool.after events k).ran ↔ ∃ j < k, Pool.Fires events j n) ∧
      (Pool.after events k).ran.Nodup ∧
      (Pool.after events k).timers.names.Pairwise (· < ·) ∧
      (∀ name, name ∈ (Pool.after events k).timers.names ↔
        ∃ i n, Pool.Live events k i n name) ∧
      (∀ i n name, Pool.Live events k i n name →
        ((Pool.after events k).wake n).ran = (Pool.after events k).ran ++ [n] ∧
        ∀ other, other ∈ ((Pool.after events k).wake n).timers.names ↔
          other ∈ (Pool.after events k).timers.names ∧ other ≠ name) ∧
      (∀ n, (∀ i name, ¬ Pool.Live events k i n name) →
        (Pool.after events k).wake n = Pool.after events k) ∧
      (Pool.promptly events k).ran = (Pool.after events k).ran ∧
      (Pool.promptly events k).timers.names = (Pool.after events k).timers.names ∧
      (Pool.after events k).timers.generation ≤ Pool.calls events k) ∧
    ∀ (steps : List Step) (k : Nat), ∃ events : List Event,
      (Pool.after events events.length).timers = (after steps k).timers ∧
      (Pool.after events events.length).ran.length =
        ((List.range k).flatMap (fired steps)).length := by
  constructor
  · intro events k
    have h := Pool.follows events k
    refine ⟨h.ran, h.once, h.sound.sorted_names, ?_, ?_, fun n hn => h.wake_of_not_live hn, ?_, ?_,
      ?_⟩
    · intro name
      rw [Timers.mem_names_iff]
      constructor
      · rintro ⟨g, hg⟩
        obtain ⟨i, n, -, hl⟩ := (h.pending name g).mp hg
        exact ⟨i, n, hl⟩
      · rintro ⟨i, n, hl⟩
        exact ⟨n + 1, (h.entry_of_live hl).2⟩
    · intro i n name hl
      obtain ⟨ht, hm⟩ := h.entry_of_live hl
      rw [Pool.wake_of_mem h.sound ht hm]
      refine ⟨rfl, ?_⟩
      intro other
      rw [Timers.mem_names_iff, Timers.mem_names_iff]
      simp [List.mem_filter]
    · rw [Pool.promptly_eq_after]
    · rw [Pool.promptly_eq_after]
    · rw [h.counted]
      exact h.bounded
  · intro steps k
    obtain ⟨events, hm, hran⟩ := leads_after steps k
    refine ⟨events, ?_⟩
    rw [Pool.after, List.take_length]
    exact ⟨hm.timers, hran.trans (Nat.zero_add _)⟩

/-- The replaced task wakes up in vain, and the other one runs once. -/
example : (Pool.after [.runLater "a", .runLater "a", .wake 0, .wake 1, .wake 1] 5).ran = [1] := by
  decide

end Timer

end RpcDaemon
