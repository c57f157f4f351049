import CommandLog.Schedule
import CommandLog.Server

/-!
A server together with its clients, which reach it over a network. Every operation runs the sessions
until all of them wait, so that the next one finds the server at rest.
-/

namespace CommandLog

inductive Network where
  | connected
  | refusing
deriving DecidableEq, Repr

inductive ClientFault where
  | notConnected
  /-- A close of which the server knows nothing is waited for in vain. -/
  | unanswered
deriving DecidableEq, Repr

structure Hosting where
  server : Server
  network : Network
  sweeps : Bool
  listens : Bool
  ready : List Key := []
  nextKey : Key := 0
  clients : Table String Key := []

namespace Hosting

def schedule (hosting : Hosting) : Schedule :=
  { world := hosting.server.world, ready := hosting.ready, nextKey := hosting.nextKey }

def resume (hosting : Hosting) (schedule : Schedule) : Hosting :=
  { hosting with
    server := { hosting.server with world := schedule.world }
    ready := schedule.ready
    nextKey := schedule.nextKey }

def settle (hosting : Hosting) : Hosting := hosting.resume hosting.schedule.settle

def act (hosting : Hosting) (action : ServerAction) : Hosting :=
  match hosting.server.step action with
  | none => hosting
  | some server => { hosting with server }

def connect (hosting : Hosting) (name : String) : Hosting × Bool :=
  let key := hosting.nextKey
  match hosting.network, hosting.server.step (.accept key none) with
  | .connected, some server =>
      let hosting := { hosting with
        server
        ready := hosting.ready ++ [key]
        nextKey := key + 1
        clients := Table.put name key hosting.clients }
      (hosting.settle, true)
  | _, _ => (hosting, false)

def arrive (hosting : Hosting) (key : Key) (item : Incoming) : Hosting :=
  (hosting.resume (hosting.schedule.act (.arrive key item) none)).settle

def tick (hosting : Hosting) : Hosting := if hosting.sweeps then hosting.act .sweep else hosting

def send (hosting : Hosting) (name : String) (data : Bytes) : Except ClientFault Hosting :=
  match Table.find? name hosting.clients with
  | none => .error .notConnected
  | some key => .ok (hosting.arrive key (.bytes data))

def closeWrite (hosting : Hosting) (name : String) : Except ClientFault Hosting :=
  match Table.find? name hosting.clients with
  | none => .error .notConnected
  | some key => .ok (hosting.arrive key .endOfStream).tick

def close (hosting : Hosting) (name : String) : Except ClientFault Hosting :=
  match Table.find? name hosting.clients with
  | none => .error .unanswered
  | some key =>
      let hosting := (hosting.arrive key .endOfStream).tick
      .ok { hosting with clients := Table.erase name hosting.clients }

def call (hosting : Hosting) (request : Request) : Hosting × Option (Except LogError Answer) :=
  let (schedule, answer) := hosting.schedule.call request
  (hosting.resume schedule, answer)

def leave (hosting : Hosting) (trigger : Trigger) : Hosting :=
  let hosting := hosting.act (.leave trigger)
  match hosting.server.status with
  | .draining =>
      let (schedule, report) := hosting.schedule.finishDrain
      let hosting := hosting.resume schedule
      { hosting with server := hosting.server.stop report }
  | _ => hosting

/-- Pulls a trigger; returns whether that has stopped the server. -/
def trigger (hosting : Hosting) (trigger : Trigger) : Hosting × Bool :=
  let wasServing := hosting.server.isServing
  let hosting := match trigger with
    | .handle => (hosting.act .requestShutdown).leave .handle
    | .signal => if hosting.listens then (hosting.act .signal).leave .signal else hosting
  (hosting, wasServing && !hosting.server.isServing)

end Hosting

end CommandLog
