/-!
# Waiting for the shutdown

A waiter looks at the shutdown flag from time to time. It is done once it sees the flag raised, or
once nobody is left who could raise it, and then stays done.
-/

namespace RpcDaemon

/-- A flag, its owner, and one who waits for it. -/
structure Watch where
  /-- The flag. -/
  flag : Bool
  /-- Whether somebody can still set the flag. -/
  owned : Bool
  /-- Whether the waiter is done. -/
  done : Bool
deriving DecidableEq

namespace Watch

/-- Waiting begins. -/
def start (flag : Bool) : Watch := ⟨flag, true, false⟩

/-- The owner sets the flag, if there still is one. -/
def set (w : Watch) (flag : Bool) : Watch :=
  if w.owned then { w with flag } else w

/-- The owner is gone. -/
def drop (w : Watch) : Watch :=
  { w with owned := false }

/-- The waiter looks. -/
def look (w : Watch) : Watch :=
  { w with done := w.done || w.flag || !w.owned }

end Watch

end RpcDaemon
