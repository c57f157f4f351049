import CommandLog.Settings
import CommandLog.World

/-!
The server accepts connections, has a session started for each, and sweeps up the sessions that are
done, until it is told to stop. It is told by a signal or through its shutdown handle, and whichever
was the reason, the handle shows it from then on. A server that stops accepts nothing more, drains
the sessions it still has, and ends when all of them are joined. It fails when it cannot tell how long
to wait for them.
-/

namespace CommandLog

inductive Trigger where
  | handle
  | signal
deriving DecidableEq, Repr

def Trigger.event : Trigger → Event
  | .handle => .shutdownRequested
  | .signal => .signalReceived

inductive ServerStatus where
  | serving
  | draining
  | stopped (report : DrainReport)
  | failed
deriving DecidableEq, Repr

structure Server where
  world : World
  grace : Duration
  status : ServerStatus := .serving
  isShutdown : Bool := false
  isSignalled : Bool := false

inductive ServerAction where
  | requestShutdown
  | signal
  | accept (key : Key) (peer : Option Net.SocketAddress)
  | sweep
  | leave (trigger : Trigger)
  | look
  | proceed (action : Action)

/-- What clients, tasks, users of the log and time do on their own. -/
def Action.isOutside : Action → Bool
  | .arrive .. | .setWrite .. | .setFlush .. | .setShutdown .. | .call .. | .collect _ | .run _
  | .remember _ | .hold | .release | .elapse _ => true
  | .launch .. | .spawn .. | .discard _ | .reap | .drain _ | .look => false

namespace Server

def isServing (server : Server) : Bool := server.status == .serving

def hasSeen (server : Server) : Trigger → Bool
  | .handle => server.isShutdown
  | .signal => server.isSignalled

def accept (server : Server) (key : Key) (peer : Option Net.SocketAddress) : Option Server :=
  let identity : Identity := ⟨server.world.registry.nextId, peer⟩
  (server.world.spawn key peer).map fun world =>
    { server with world := world.report [.acceptedConnection identity] }

def stop (server : Server) (report : DrainReport) : Server :=
  { server with
    world := server.world.report [.stopped report]
    status := .stopped report }

/-- Stops accepting and begins to drain. Without a session left the server has stopped at once, and
with a drain that fails the server fails. -/
def leave (server : Server) (trigger : Trigger) : Server :=
  let reported := server.world.report [trigger.event]
  let world := reported.beginDrain server.grace
  let server := { server with world, isShutdown := true, status := .draining }
  if reported.failsToDrain server.grace then { server with status := .failed }
  else match world.drain with
    | some _ => server
    | none => server.stop ⟨0, 0⟩

def look (server : Server) : Option Server :=
  server.world.look.map fun (world, report) =>
    match report with
    | none => { server with world }
    | some report => { server with world }.stop report

def step (server : Server) : ServerAction → Option Server
  | .requestShutdown => some { server with isShutdown := true }
  | .signal => some { server with isSignalled := true }
  | .accept key peer => if server.isServing then server.accept key peer else none
  | .sweep => if server.isServing then some { server with world := server.world.reap.1 } else none
  | .leave trigger =>
      if server.isServing && server.hasSeen trigger then some (server.leave trigger) else none
  | .look => if server.status == .draining then server.look else none
  | .proceed action =>
      if action.isOutside then (server.world.step action).map fun world => { server with world }
      else none

def steps (server : Server) : List ServerAction → Option Server
  | [] => some server
  | action :: actions => (server.step action).bind fun next => next.steps actions

end Server

def Server.ofSettings (settings : Settings) : Except CapacityError Server :=
  (Log.ofCapacity settings.capacity).map fun log =>
    { world := World.initial log settings.lockTimeout settings.readBuffer
      grace := settings.shutdownGrace }

end CommandLog
