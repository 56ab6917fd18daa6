import RpcDaemon.Proofs.Timer.Table
import RpcDaemon.Timer.Scheduler

/-!
# Advancing the clock

What waits and what stands in the table of a scheduler are the same timers, and none of them is
overdue: `Scheduler.Settled`. An advance of the clock runs each timer whose deadline it reaches
once, at its deadline, and leaves the others. Main statement: `Scheduler.Settled.advance`.
-/

namespace RpcDaemon

namespace Timer

/-! ## The timer that is due next -/

namespace Scheduler

/-- If no timer is due, every deadline lies after the limit. -/
theorem lt_deadline_of_next?_eq_none {limit : Nat} {l : List Sleeper}
    (h : next? limit l = none) : ∀ p ∈ l, limit < p.deadline := by
  induction l with
  | nil =>
    intro p hp
    cases hp
  | cons q l ih =>
    rw [next?] at h
    cases hn : next? limit l with
    | some r =>
      rw [hn] at h
      dsimp only at h
      split at h <;> cases h
    | none =>
      rw [hn] at h
      dsimp only at h
      by_cases hq : q.deadline ≤ limit
      · rw [if_pos hq] at h
        cases h
      · intro p hp
        rcases List.mem_cons.mp hp with rfl | hp
        · omega
        · exact ih hn p hp

/-- The timer that is due next waits, its deadline is within the limit, and none comes before it. -/
theorem next?_spec {limit : Nat} {l : List Sleeper} {p : Sleeper}
    (h : next? limit l = some p) :
    p ∈ l ∧ p.deadline ≤ limit ∧ ∀ q ∈ l, p.deadline ≤ q.deadline := by
  induction l generalizing p with
  | nil => cases h
  | cons q l ih =>
    rw [next?] at h
    cases hn : next? limit l with
    | some r =>
      obtain ⟨hr, hdue, hleast⟩ := ih hn
      rw [hn] at h
      dsimp only at h
      by_cases hqr : q.deadline ≤ r.deadline
      · rw [if_pos hqr] at h
        cases h
        refine ⟨List.mem_cons_self, Nat.le_trans hqr hdue, ?_⟩
        intro x hx
        rcases List.mem_cons.mp hx with rfl | hx
        · exact Nat.le_refl _
        · exact Nat.le_trans hqr (hleast x hx)
      · rw [if_neg hqr] at h
        cases h
        refine ⟨List.mem_cons_of_mem q hr, hdue, ?_⟩
        intro x hx
        rcases List.mem_cons.mp hx with rfl | hx
        · omega
        · exact hleast x hx
    | none =>
      have hlate := lt_deadline_of_next?_eq_none hn
      rw [hn] at h
      dsimp only at h
      by_cases hq : q.deadline ≤ limit
      · rw [if_pos hq] at h
        cases h
        refine ⟨List.mem_cons_self, hq, ?_⟩
        intro x hx
        rcases List.mem_cons.mp hx with rfl | hx
        · exact Nat.le_refl _
        · have := hlate x hx
          omega
      · rw [if_neg hq] at h
        cases h

/-- There is work enough to wake every timer that waits. -/
theorem length_le_work (s : Scheduler) : s.sleepers.length ≤ s.work := by
  have hsize : ∀ j : Job, 1 ≤ j.size := by
    intro j
    cases j with
    | record tag => exact Nat.le_refl 1
    | andThen tag name delay next => exact Nat.succ_le_succ (Nat.zero_le _)
  unfold work
  induction s.sleepers with
  | nil => exact Nat.le_refl 0
  | cons p l ih =>
    have := hsize p.job
    rw [List.length_cons, List.foldr_cons]
    omega

end Scheduler

/-! ## One timer among others -/

/-- The job does nothing but leave its tag. -/
def Job.IsRecord (j : Job) : Prop := ∃ tag, j = .record tag

/-- What a timer leaves if it runs at its deadline. -/
def Sleeper.trace (p : Sleeper) : Nat × String :=
  (p.deadline, p.job.tag)

/-- Timers set one after the other, with rising generations, are one of them and the others. -/
theorem perm_cons_others {l : List Sleeper}
    (hr : l.Pairwise fun p q => p.generation < q.generation) {p : Sleeper} (hp : p ∈ l) :
    l.Perm (p :: l.filter fun q => q.generation != p.generation) := by
  induction l with
  | nil => cases hp
  | cons q l ih =>
    obtain ⟨hfirst, hrest⟩ := List.pairwise_cons.mp hr
    rcases List.mem_cons.mp hp with rfl | hp
    · have hkeep : l.filter (fun x => x.generation != p.generation) = l := by
        refine List.filter_eq_self.mpr fun x hx => ?_
        have := hfirst x hx
        exact bne_iff_ne.mpr (by omega)
      rw [List.filter_cons_of_neg (by simp), hkeep]
    · have hne : (q.generation != p.generation) = true := by
        have := hfirst p hp
        exact bne_iff_ne.mpr (by omega)
      have hfilter : (q :: l).filter (fun x => x.generation != p.generation) =
          q :: l.filter fun x => x.generation != p.generation :=
        List.filter_cons_of_pos hne
      rw [hfilter]
      exact ((ih hrest hp).cons q).trans (List.Perm.swap p q _)

/-- Timers with rising generations are told apart by them. -/
theorem eq_of_generation {l : List Sleeper}
    (hr : l.Pairwise fun p q => p.generation < q.generation) {p q : Sleeper} (hp : p ∈ l)
    (hq : q ∈ l) (h : p.generation = q.generation) : p = q := by
  induction l with
  | nil => cases hp
  | cons r l ih =>
    obtain ⟨hfirst, hrest⟩ := List.pairwise_cons.mp hr
    rcases List.mem_cons.mp hp with rfl | hpl
    · rcases List.mem_cons.mp hq with rfl | hql
      · rfl
      · have := hfirst q hql
        omega
    · rcases List.mem_cons.mp hq with rfl | hql
      · have := hfirst p hpl
        omega
      · exact ih hrest hpl hql

namespace Scheduler

/-- The timer that a call sets. -/
def newest (s : Scheduler) (name : String) (delay : Nat) (j : Job) : Sleeper :=
  ⟨name, s.timers.generation + 1, s.now + delay, j⟩

/-- The scheduler after the timer `p` ran. -/
def without (s : Scheduler) (p : Sleeper) : Scheduler where
  now := max s.now p.deadline
  timers := { s.timers with pending := s.timers.pending.filter fun e => e.1 != p.name }
  sleepers := s.sleepers.filter fun q => q.generation != p.generation

/-! ## The invariant -/

/-- What holds of a scheduler between two steps, when no job sets a further timer. -/
structure Settled (s : Scheduler) : Prop where
  /-- The table is sound. -/
  table : s.timers.Sound
  /-- The entries of the table are the timers that wait. -/
  entries : ∀ name g, (name, g) ∈ s.timers.pending ↔
    ∃ p ∈ s.sleepers, p.name = name ∧ p.generation = g
  /-- Timers wait in the order in which they were set. -/
  rising : s.sleepers.Pairwise fun p q => p.generation < q.generation
  /-- No timer is overdue. -/
  ahead : ∀ p ∈ s.sleepers, s.now ≤ p.deadline
  /-- Every job just leaves its tag. -/
  records : ∀ p ∈ s.sleepers, p.job.IsRecord

/-- A scheduler without timers. -/
theorem settled_initial : Settled initial where
  table := Timers.sound_empty
  entries := by
    intro name g
    show (name, g) ∈ [] ↔ _
    simp [initial]
  rising := List.Pairwise.nil
  ahead := by
    intro p hp
    cases hp
  records := by
    intro p hp
    cases hp

namespace Settled

variable {s : Scheduler}

/-- Two timers that wait under one name are one. -/
theorem eq_of_name (h : Settled s) {p q : Sleeper} (hp : p ∈ s.sleepers) (hq : q ∈ s.sleepers)
    (hn : p.name = q.name) : p = q := by
  have hgen : p.generation = q.generation :=
    h.table.generation_unique ((h.entries _ _).mpr ⟨p, hp, hn, rfl⟩)
      ((h.entries _ _).mpr ⟨q, hq, rfl, rfl⟩)
  exact eq_of_generation h.rising hp hq hgen

/-- The names that are given out are those of the timers that wait. -/
theorem mem_names_iff (h : Settled s) (name : String) :
    name ∈ s.timers.names ↔ ∃ p ∈ s.sleepers, p.name = name := by
  rw [Timers.mem_names_iff]
  constructor
  · rintro ⟨g, hg⟩
    obtain ⟨p, hp, hn, -⟩ := (h.entries name g).mp hg
    exact ⟨p, hp, hn⟩
  · rintro ⟨p, hp, hn⟩
    exact ⟨p.generation, (h.entries name _).mpr ⟨p, hp, hn, rfl⟩⟩

/-- The time may be set to any moment before the deadlines. -/
theorem at_time (h : Settled s) {now : Nat} (hnow : ∀ p ∈ s.sleepers, now ≤ p.deadline) :
    Settled { s with now := now } where
  table := h.table
  entries := h.entries
  rising := h.rising
  ahead := hnow
  records := h.records

/-- A scheduler that was shut down has no timers. -/
theorem sleepers_of_shut (h : Settled s) (hs : s.timers.shutDown = true) : s.sleepers = [] := by
  refine List.eq_nil_iff_forall_not_mem.mpr ?_
  intro p hp
  have hm := (h.entries p.name p.generation).mpr ⟨p, hp, rfl, rfl⟩
  rw [h.table.shut hs] at hm
  cases hm

/-! ## Setting timers and shutting down -/

/-- A scheduler that was shut down takes no timer. -/
theorem runLater_of_shut (hs : s.timers.shutDown = true) (name : String) (delay : Nat) (j : Job) :
    s.runLater name delay j = s := by
  rw [runLater, Timers.schedule_of_shut hs]

/-- A scheduler that is open takes the timer and stops the one of the same name. -/
theorem runLater_of_open (ho : s.timers.shutDown = false) (name : String) (delay : Nat) (j : Job) :
    s.runLater name delay j =
      { now := s.now
        timers := ⟨s.timers.generation + 1,
          Timers.put name (s.timers.generation + 1) s.timers.pending, s.timers.shutDown⟩
        sleepers := s.sleepers.filter (fun p => p.name != name) ++ [s.newest name delay j] } := by
  rw [runLater, Timers.schedule_of_open ho]
  rfl

/-- Setting a timer keeps the invariant. -/
theorem runLater (h : Settled s) (name : String) (delay : Nat) {j : Job} (hj : j.IsRecord) :
    Settled (s.runLater name delay j) := by
  cases hs : s.timers.shutDown with
  | true =>
    rw [runLater_of_shut hs]
    exact h
  | false =>
    rw [runLater_of_open hs]
    have hold : ∀ p ∈ s.sleepers, p.generation ≤ s.timers.generation := fun p hp =>
      h.table.bounded _ ((h.entries p.name p.generation).mpr ⟨p, hp, rfl, rfl⟩)
    refine ⟨h.table.put hs name, ?_, ?_, ?_, ?_⟩
    · intro n g
      refine (Timers.mem_put_iff h.table.sorted (n, g)).trans ?_
      rw [h.entries]
      constructor
      · rintro (heq | ⟨⟨p, hp, hn, hg⟩, hne⟩)
        · obtain ⟨rfl, rfl⟩ := Prod.mk.inj heq
          exact ⟨_, List.mem_append_right _ List.mem_cons_self, rfl, rfl⟩
        · refine ⟨p, List.mem_append_left _ (List.mem_filter.mpr ⟨hp, ?_⟩), hn, hg⟩
          exact bne_iff_ne.mpr (hn ▸ hne)
      · rintro ⟨p, hp, hn, hg⟩
        rcases List.mem_append.mp hp with hp | hp
        · obtain ⟨hp, hne⟩ := List.mem_filter.mp hp
          exact Or.inr ⟨⟨p, hp, hn, hg⟩, hn ▸ bne_iff_ne.mp hne⟩
        · rcases List.mem_singleton.mp hp with rfl
          subst hn hg
          exact Or.inl rfl
    · refine List.pairwise_append.mpr ⟨h.rising.filter _, List.pairwise_singleton _ _, ?_⟩
      intro p hp q hq
      rcases List.mem_singleton.mp hq with rfl
      exact Nat.lt_succ_of_le (hold p (List.mem_filter.mp hp).1)
    · intro p hp
      rcases List.mem_append.mp hp with hp | hp
      · exact h.ahead p (List.mem_filter.mp hp).1
      · rcases List.mem_singleton.mp hp with rfl
        exact Nat.le_add_right _ _
    · intro p hp
      rcases List.mem_append.mp hp with hp | hp
      · exact h.records p (List.mem_filter.mp hp).1
      · rcases List.mem_singleton.mp hp with rfl
        exact hj

/-- Shutting the scheduler down keeps the invariant. -/
theorem shutdown (s : Scheduler) : Settled s.shutdown where
  table := Timers.sound_shutdown s.timers
  entries := by
    intro name g
    show (name, g) ∈ [] ↔ ∃ p ∈ [], _
    simp
  rising := List.Pairwise.nil
  ahead := by
    intro p hp
    cases hp
  records := by
    intro p hp
    cases hp

/-! ## Waking timers up -/

/-- A timer that waits is current, so it runs when it wakes up, at its deadline. -/
theorem wakeUp_eq (h : Settled s) {p : Sleeper} (hp : p ∈ s.sleepers) :
    s.wakeUp p = ([p.trace], s.without p) := by
  have hcurrent := (h.entries p.name p.generation).mpr ⟨p, hp, rfl, rfl⟩
  have hnow := h.ahead p hp
  obtain ⟨tag, htag⟩ := h.records p hp
  unfold wakeUp Sleeper.trace Scheduler.without
  dsimp only
  rw [h.table.wake_of_mem hcurrent, htag, Nat.max_eq_right hnow]
  rfl

/-- When the timer that is due first has run, the invariant holds again. -/
theorem without (h : Settled s) {p : Sleeper} (hp : p ∈ s.sleepers)
    (hfirst : ∀ q ∈ s.sleepers, p.deadline ≤ q.deadline) : Settled (s.without p) := by
  -- Among the timers that wait, to have the name of `p` and to have its generation is the same.
  have hother : ∀ q ∈ s.sleepers, q.name ≠ p.name ↔ q.generation ≠ p.generation := by
    intro q hq
    constructor
    · intro hn hg
      exact hn (congrArg Sleeper.name (eq_of_generation h.rising hq hp hg))
    · intro hg hn
      exact hg (congrArg Sleeper.generation (h.eq_of_name hq hp hn))
  refine ⟨h.table.filter _, ?_, h.rising.filter _, ?_, ?_⟩
  · intro n g
    show (n, g) ∈ List.filter _ _ ↔ ∃ q ∈ List.filter _ _, _
    rw [List.mem_filter, h.entries]
    constructor
    · rintro ⟨⟨q, hq, hn, hg⟩, hne⟩
      have hname : q.name ≠ p.name := hn ▸ bne_iff_ne.mp hne
      exact ⟨q, List.mem_filter.mpr ⟨hq, bne_iff_ne.mpr ((hother q hq).mp hname)⟩, hn, hg⟩
    · rintro ⟨q, hq, hn, hg⟩
      obtain ⟨hq, hne⟩ := List.mem_filter.mp hq
      have hname := (hother q hq).mpr (bne_iff_ne.mp hne)
      exact ⟨⟨q, hq, hn, hg⟩, bne_iff_ne.mpr (hn ▸ hname)⟩
  · intro q hq
    have hq := (List.mem_filter.mp hq).1
    exact Nat.max_le.mpr ⟨h.ahead q hq, hfirst q hq⟩
  · intro q hq
    exact h.records q (List.mem_filter.mp hq).1

/-! ## Advancing -/

/-- **Running what is due.** Each timer whose deadline is within the limit runs once, at its
deadline, and the others wait on. -/
theorem runDue_spec (limit : Nat) {fuel : Nat} (h : Settled s) (hf : s.sleepers.length ≤ fuel) :
    (runDue limit fuel s).1.Perm
        ((s.sleepers.filter fun p => p.deadline ≤ limit).map Sleeper.trace) ∧
      (runDue limit fuel s).2.sleepers = (s.sleepers.filter fun p => limit < p.deadline) ∧
      (runDue limit fuel s).2.timers.shutDown = s.timers.shutDown ∧
      Settled (runDue limit fuel s).2 := by
  induction fuel generalizing s with
  | zero =>
    have hnil : s.sleepers = [] := List.length_eq_zero_iff.mp (Nat.le_zero.mp hf)
    rw [hnil]
    exact ⟨List.Perm.refl [], hnil, rfl, h⟩
  | succ fuel ih =>
    rw [runDue]
    cases hn : next? limit s.sleepers with
    | none =>
      have hlate := lt_deadline_of_next?_eq_none hn
      have hdue : (s.sleepers.filter fun p => p.deadline ≤ limit) = [] := by
        refine List.filter_eq_nil_iff.mpr fun p hp => ?_
        have := hlate p hp
        simp only [decide_eq_true_eq]
        omega
      have hrest : (s.sleepers.filter fun p => limit < p.deadline) = s.sleepers :=
        List.filter_eq_self.mpr fun p hp => decide_eq_true (hlate p hp)
      rw [hdue, hrest]
      exact ⟨List.Perm.refl [], rfl, rfl, h⟩
    | some p =>
      obtain ⟨hp, hdue, hfirst⟩ := next?_spec hn
      have hperm := perm_cons_others h.rising hp
      have hlen : (s.without p).sleepers.length ≤ fuel := by
        have := hperm.length_eq
        rw [List.length_cons] at this
        show (s.sleepers.filter fun q => q.generation != p.generation).length ≤ fuel
        omega
      obtain ⟨hran, hleft, hshut, hsettled⟩ := ih (h.without hp hfirst) hlen
      dsimp only
      rw [h.wakeUp_eq hp]
      refine ⟨?_, ?_, hshut, hsettled⟩
      · -- The timers that are due are `p` and those that are due without it.
        have hfilter := (hperm.filter fun q => decide (q.deadline ≤ limit)).map Sleeper.trace
        rw [List.filter_cons, if_pos (decide_eq_true hdue), List.map_cons] at hfilter
        exact (hran.cons p.trace).trans hfilter.symm
      · rw [hleft]
        show List.filter _ (List.filter _ _) = _
        rw [List.filter_filter]
        refine List.filter_congr fun q hq => ?_
        by_cases hlate : limit < q.deadline
        · have hne : q.generation ≠ p.generation := by
            intro heq
            have := eq_of_generation h.rising hq hp heq
            subst this
            omega
          simp [hlate, hne]
        · simp [hlate]

/-- **Advancing the clock.** Each timer whose deadline the clock reaches or passes runs once, at its
deadline; the others wait on. -/
theorem advance_spec (h : Settled s) (ms : Nat) :
    (s.advance ms).1.Perm
        ((s.sleepers.filter fun p => p.deadline ≤ s.now + ms).map Sleeper.trace) ∧
      (s.advance ms).2.now = s.now + ms ∧
      (s.advance ms).2.sleepers = (s.sleepers.filter fun p => s.now + ms < p.deadline) ∧
      (s.advance ms).2.timers.shutDown = s.timers.shutDown ∧
      Settled (s.advance ms).2 := by
  obtain ⟨hran, hleft, hshut, hsettled⟩ := h.runDue_spec (s.now + ms) (length_le_work s)
  refine ⟨hran, rfl, hleft, hshut, hsettled.at_time ?_⟩
  intro p hp
  rw [hleft] at hp
  exact Nat.le_of_lt (of_decide_eq_true (List.mem_filter.mp hp).2)

end Settled

end Scheduler

end Timer

end RpcDaemon
