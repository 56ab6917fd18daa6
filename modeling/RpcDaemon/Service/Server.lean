import RpcDaemon.Service.Connection
import RpcDaemon.Timer.Scheduler

/-!
# The server

A server is started once with a number of worker threads, closes the choice of the network, holds
timers of its own, and can be stopped.
-/

namespace RpcDaemon

/-- Why a server could not be started. -/
inductive StartError where
  /-- There is no worker thread. -/
  | noThreads
  /-- The machine listens nowhere on the port. -/
  | noListener (port : UInt16)
deriving DecidableEq

/-- The wording of the error. -/
def StartError.message : StartError → String
  | noThreads => "rpc thread count must be at least 1"
  | noListener port => "unable to bind any endpoint for RPC server on port " ++ decimal port.toNat

/-- A server. -/
structure Server (σ : Type) where
  /-- What connections are served with. -/
  service : Service σ
  /-- Whether connections are accepted. -/
  running : Bool
  /-- The timers. -/
  scheduler : Timer.Scheduler
  /-- The state that connections act on. -/
  world : World σ

namespace Server

variable {σ : Type}

/-- Starts a server: the choice of the network is closed from then on. -/
def start (s : Service σ) (threads : Nat) (w : World σ) : Except StartError (Server σ) :=
  if threads = 0 then .error .noThreads
  else .ok ⟨s, true, .initial, { w with node := w.node.closeRegistry }⟩

/-- Serves one connection. -/
def connect (s : Server σ) (peer : Net.Address) (inbound : Inbound) : Served σ × Server σ :=
  if s.running then
    let served := s.service.serve peer inbound s.world
    (served, { s with world := served.world })
  else (Served.silent s.world, s)

/-- Sets a timer. -/
def runLater (s : Server σ) (name : String) (delay : Nat) (job : Timer.Job) : Server σ :=
  { s with scheduler := s.scheduler.runLater name delay job }

/-- Stops the server and cancels its timers; a server that was stopped stays as it is. -/
def stop (s : Server σ) : Server σ :=
  if s.running then { s with running := false, scheduler := s.scheduler.shutdown } else s

end Server

end RpcDaemon
