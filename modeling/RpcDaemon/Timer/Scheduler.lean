import RpcDaemon.Text.Described
import RpcDaemon.Timer.Table

/-!
# Timers on a clock

Timers with deadlines on a clock of milliseconds. When the clock is advanced, the timers that are
due wake up in the order of their deadlines, each at its own moment. A job that runs leaves its tag
and may set one further timer.
-/

namespace RpcDaemon

namespace Timer

/-- What a timer does when it runs. -/
inductive Job where
  /-- Leaves a tag and is done. -/
  | record (tag : String)
  /-- Leaves a tag and sets a timer for another job. -/
  | andThen (tag : String) (name : String) (delay : Nat) (next : Job)

namespace Job

/-- The tag that a job leaves. -/
def tag : Job → String
  | record t => t
  | andThen t _ _ _ => t

/-- How many jobs come of a job. -/
def size : Job → Nat
  | record _ => 1
  | andThen _ _ _ next => next.size + 1

end Job

/-- A timer that waits for its deadline. -/
structure Sleeper where
  /-- The name. -/
  name : String
  /-- The generation. -/
  generation : Nat
  /-- When it wakes up. -/
  deadline : Nat
  /-- What it does then. -/
  job : Job

/-- A clock and its timers. -/
structure Scheduler where
  /-- The time in milliseconds. -/
  now : Nat
  /-- The table of timers. -/
  timers : Timers
  /-- The timers that wait, in the order in which they were set. -/
  sleepers : List Sleeper

namespace Scheduler

/-- A clock at zero without timers. -/
def initial : Scheduler := ⟨0, .empty, []⟩

/-- Sets a timer. The one it replaces is stopped. -/
def runLater (s : Scheduler) (name : String) (delay : Nat) (job : Job) : Scheduler :=
  match s.timers.schedule name with
  | (none, _) => s
  | (some g, timers) =>
      let kept := s.sleepers.filter fun p => p.name != name
      { s with
        timers := timers
        sleepers := kept ++ [⟨name, g, s.now + delay, job⟩] }

/-- Cancels every timer. -/
def shutdown (s : Scheduler) : Scheduler :=
  { s with timers := s.timers.shutdown, sleepers := [] }

/-- The timer that is due next, if its deadline is not after `limit`; of several the first set. -/
def next? (limit : Nat) : List Sleeper → Option Sleeper
  | [] => none
  | p :: rest =>
      match next? limit rest with
      | some q => if p.deadline ≤ q.deadline then some p else some q
      | none => if p.deadline ≤ limit then some p else none

/-- What a job that ran sets up. -/
def follow (s : Scheduler) : Job → Scheduler
  | .record _ => s
  | .andThen _ name delay next => s.runLater name delay next

/-- Wakes one timer up at its deadline: what it left, and the scheduler afterwards. -/
def wakeUp (s : Scheduler) (p : Sleeper) : List (Nat × String) × Scheduler :=
  let s := { s with
    now := max s.now p.deadline
    sleepers := s.sleepers.filter fun q => q.generation != p.generation }
  match s.timers.wake p.name p.generation with
  | (true, timers) => ([(s.now, p.job.tag)], follow { s with timers } p.job)
  | (false, timers) => ([], { s with timers })

/-- Runs what is due up to `limit`, at most `fuel` timers: what they left, and the scheduler. -/
def runDue (limit : Nat) : Nat → Scheduler → List (Nat × String) × Scheduler
  | 0, s => ([], s)
  | fuel + 1, s =>
      match next? limit s.sleepers with
      | none => ([], s)
      | some p =>
          let (fired, s) := s.wakeUp p
          let (more, s) := runDue limit fuel s
          (fired ++ more, s)

/-- A number of timers that no run exceeds. -/
def work (s : Scheduler) : Nat :=
  s.sleepers.foldr (fun p n => p.job.size + n) 0

/-- Advances the clock and runs what is due. -/
def advance (s : Scheduler) (ms : Nat) : List (Nat × String) × Scheduler :=
  let limit := s.now + ms
  let (fired, s) := runDue limit s.work s
  (fired, { s with now := limit })

/-- The description of a scheduler. -/
def describe (s : Scheduler) : String :=
  "DeferredTaskScheduler \x7b pending: " ++ Described.strings s.timers.names ++ ", shut_down: "
    ++ Described.bool s.timers.shutDown ++ " \x7d"

end Scheduler

end Timer

end RpcDaemon
