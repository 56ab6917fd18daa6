/-!
# Named timers

The table of the timers that are still to run. Each call that is accepted gets a new generation
number, and the table keeps the latest one for each name. A timer that wakes up runs only if its
generation is the one in the table, so a timer that was replaced or cancelled does nothing even if
it could not be stopped in time.
-/

namespace RpcDaemon

namespace Timer

/-- The timers that are still to run. -/
structure Timers where
  /-- The generation given last. -/
  generation : Nat
  /-- The generation of each name with a timer still to run, sorted by name. -/
  pending : List (String × Nat)
  /-- Whether no timer is accepted any more. -/
  shutDown : Bool
deriving DecidableEq

namespace Timers

/-- No timers. -/
def empty : Timers := ⟨0, [], false⟩

/-- Puts the generation of a name at its place. -/
def put (name : String) (generation : Nat) : List (String × Nat) → List (String × Nat)
  | [] => [(name, generation)]
  | (k, g) :: rest =>
      if k = name then (name, generation) :: rest
      else if name < k then (name, generation) :: (k, g) :: rest
      else (k, g) :: put name generation rest

/-- The generation of the timer that is to run under a name. -/
def current? (t : Timers) (name : String) : Option Nat :=
  t.pending.lookup name

/-- Accepts a timer in the place of an earlier one of the same name, unless the table is shut down. -/
def schedule (t : Timers) (name : String) : Option Nat × Timers :=
  if t.shutDown then (none, t)
  else
    let g := t.generation + 1
    (some g, { t with generation := g, pending := put name g t.pending })

/-- A timer wakes up: it runs, and leaves the table, exactly if it is the current one of its name. -/
def wake (t : Timers) (name : String) (generation : Nat) : Bool × Timers :=
  if t.current? name = some generation then
    (true, { t with pending := t.pending.filter fun p => p.1 != name })
  else (false, t)

/-- Cancels every timer and accepts no more. -/
def shutdown (t : Timers) : Timers :=
  { t with pending := [], shutDown := true }

/-- The names with a timer still to run, sorted. -/
def names (t : Timers) : List String :=
  t.pending.map fun p => p.1

end Timers

end Timer

end RpcDaemon
