import RpcDaemon.Chain.Profile

/-!
# Choice of the network

The registry holds the network that is active. It may be chosen again and again until the registry
is sealed; from then on every choice fails.
-/

namespace RpcDaemon

namespace Chain

/-- Why a network could not be chosen. -/
inductive SelectError where
  /-- Flags and names contradict one another. -/
  | conflictingFlags
  /-- No network has this name. -/
  | unknownNetwork (name : String)
  /-- The choice is closed. -/
  | sealed
deriving DecidableEq

/-- The wording of an error. -/
def SelectError.message : SelectError → String
  | conflictingFlags => "Invalid combination of -regtest and -testnet."
  | unknownNetwork name => "unknown network: " ++ name
  | sealed => "network profile already in use; selection is closed once services start"

/-- The network that is active, and whether that is final. -/
structure Registry where
  /-- The active network. -/
  active : Network
  /-- Whether the choice is closed. -/
  isSealed : Bool
deriving DecidableEq

/-- A wish for a network: two flags and an optional name. -/
structure Selection where
  /-- Whether the test network is asked for. -/
  testnet : Bool
  /-- Whether the regression network is asked for. -/
  regtest : Bool
  /-- The name of the network, if one is given. -/
  network : Option String
deriving DecidableEq

/-- A choice in progress. It works on the registry and may fail, and what it has done to the
registry by then stays done. -/
abbrev Choice (α : Type) := ExceptT SelectError (StateM Registry) α

namespace Choice

/-- What comes of a choice, and the registry that it leaves, also where it fails. -/
def run {α : Type} (c : Choice α) (r : Registry) : Except SelectError α × Registry :=
  (ExceptT.run c).run r

section Run

variable {α β : Type} (r : Registry)

@[simp] theorem run_pure (a : α) : run (pure a) r = (.ok a, r) := rfl

@[simp] theorem run_throw (e : SelectError) : run (throw e : Choice α) r = (.error e, r) := rfl

@[simp] theorem run_get : run get r = (.ok r, r) := rfl

@[simp] theorem run_modify (f : Registry → Registry) : run (modify f) r = (.ok (), f r) := rfl

@[simp] theorem run_bind (c : Choice α) (f : α → Choice β) :
    run (c >>= f) r =
      match run c r with
      | (.ok a, r') => run (f a) r'
      | (.error e, r') => (.error e, r') := by
  have hbind : run (c >>= f) r = ExceptT.bindCont f (run c r).1 (run c r).2 := rfl
  rw [hbind]
  rcases run c r with ⟨e | a, r'⟩
  · rfl
  · rfl

@[simp] theorem run_map (f : α → β) (c : Choice α) :
    run (f <$> c) r = ((run c r).1.map f, (run c r).2) := by
  rw [map_eq_pure_bind, run_bind]
  rcases run c r with ⟨e | a, r'⟩
  · rfl
  · rfl

end Run

/-- Makes a network active. -/
def select (n : Network) : Choice Unit := do
  if (← get).isSealed then throw .sealed
  modify fun r => { r with active := n }

/-- Makes the network active that the two flags ask for, the main one if they ask for none. -/
def selectByFlags (regtest testnet : Bool) : Choice Network := do
  if regtest && testnet then throw .conflictingFlags
  let n : Network := if regtest then .regtest else if testnet then .test else .main
  select n
  return n

/-- Makes the network active that a selection asks for. A name has to be known and to agree with
the flags that are set. -/
def selectBy (s : Selection) : Choice Network := do
  match s.network with
  | none => selectByFlags s.regtest s.testnet
  | some name =>
      match Network.ofName? name with
      | none => throw (.unknownNetwork name)
      | some n =>
          if s.regtest && s.testnet then throw .conflictingFlags
          if (s.regtest && n != .regtest) || (s.testnet && n != .test) then
            throw .conflictingFlags
          select n
          return n

end Choice

namespace Registry

/-- The main network is active at first. -/
def initial : Registry := ⟨.main, false⟩

/-- The profile of the active network. -/
def profile (r : Registry) : Profile :=
  Profile.of r.active

/-- Closes the choice. -/
def close (r : Registry) : Registry :=
  { r with isSealed := true }

/-- The registry after a choice and what was chosen, unless the choice fails. -/
def choose {α : Type} (r : Registry) (c : Choice α) : Except SelectError (α × Registry) :=
  let (a, r) := c.run r
  a.map fun a => (a, r)

/-- The registry after a network was made active. -/
def select (r : Registry) (n : Network) : Except SelectError Registry :=
  (r.choose (Choice.select n)).map fun p => p.2

/-- The registry after a choice by flags, and the network chosen. -/
def selectByFlags (r : Registry) (regtest testnet : Bool) :
    Except SelectError (Network × Registry) :=
  r.choose (Choice.selectByFlags regtest testnet)

/-- The registry after a choice by a selection, and the network chosen. -/
def selectBy (r : Registry) (s : Selection) : Except SelectError (Network × Registry) :=
  r.choose (Choice.selectBy s)

end Registry

end Chain

end RpcDaemon
