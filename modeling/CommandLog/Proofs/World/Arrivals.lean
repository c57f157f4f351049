import CommandLog.Proofs.World.Responsive
import CommandLog.Proofs.Worker.Cuts

/-!
What a session reads. It is what has arrived on its connection, in that order and in parts, and nothing of it
is left out before the connection is dropped.
-/

namespace CommandLog

def Stream.Received (size : Nat) (arrived read : List Incoming) (stream : Stream) : Prop :=
  ∃ lost, (stream.isDropped = false → lost = []) ∧ Parts size arrived (read ++ stream.incoming ++ lost)

namespace Stream

variable {size : Nat} {arrived read : List Incoming} {stream next : Stream} {item : Incoming}

theorem Received.keeps (received : stream.Received size arrived read)
    (incoming : next.incoming = stream.incoming) (dropped : next.isDropped = stream.isDropped) :
    next.Received size arrived read := by
  simpa only [Received, incoming, dropped] using received

theorem Received.drop (received : stream.Received size arrived read) : stream.drop.Received size arrived read := by
  obtain ⟨lost, _, parts⟩ := received
  exact ⟨stream.incoming ++ lost, by simp [Stream.drop], by simpa [Stream.drop] using parts⟩

theorem Received.receive (received : stream.Received size arrived read) (positive : 1 ≤ size)
    (taken : stream.receive? size = some (item, next)) : next.Received size arrived (read ++ [item]) := by
  obtain ⟨lost, whole, parts⟩ := received
  obtain ⟨incoming, same⟩ := receive?_eq taken
  exact ⟨lost, by rwa [same], parts.receive positive taken⟩

theorem Received.arrive (received : stream.Received size arrived read) (item : Incoming) :
    (stream.arrive item).Received size (arrived ++ [item]) read := by
  obtain ⟨lost, whole, parts⟩ := received
  have more := parts.append [item]
  simp only [Stream.arrive]
  split
  · rename_i dropped
    exact ⟨lost ++ [item], by simp [dropped], by simpa using more⟩
  · rename_i live
    have nothing := whole (by simpa using live)
    exact ⟨[], fun _ => rfl, by simpa [nothing] using more⟩

end Stream

theorem Worker.Step.readBuffer {world : World} {before after : Worker} {told : List Event}
    (step : Step world before after told) : after.readBuffer = before.readBuffer := by
  cases step <;> rfl

theorem Worker.Step.received {world : World} {before after : Worker} {told : List Event}
    {arrived : List Incoming} {past : List Deed} (step : Step world before after told)
    (positive : 1 ≤ before.readBuffer)
    (received : before.stream.Received before.readBuffer arrived (items past)) :
    after.stream.Received after.readBuffer arrived (items (past ++ before.deeds world.memory after)) := by
  rw [step.readBuffer]
  have unread {added : List Deed} (nothing : reads added = []) : items (past ++ added) = items past := by
    rw [items_append, items, items, nothing, List.map_nil, List.append_nil]
  have took (item : Incoming) (point : Point) :
      items (past ++ .reads world.memory item :: point.reply) = items past ++ [item] := by
    rw [items_append]
    exact congrArg (items past ++ item :: List.map Prod.snd ·) (reads_reply point)
  cases step with
  | start point | take point | wait point | wake point | expire point | conclude point =>
      rw [deeds_apart (by simp [point]) (by simp [performs, point]), unread (reads_reply _)]
      exact received
  | sent point =>
      rw [deeds_sent point, List.append_nil]
      exact received
  | leave point arrived | «break» point arrived | read point arrived | refuse point arrived
  | ask point arrived =>
      rw [deeds_receiving point arrived, took]
      exact received.receive positive arrived
  | crash point arrived =>
      rw [deeds_receiving point arrived, took]
      exact (received.receive positive arrived).drop
  | send point filled written =>
      obtain ⟨_, rfl⟩ := Stream.write?_ok filled written
      rw [deeds_sending point filled written, unread rfl]
      exact received.keeps rfl rfl
  | sendFails point filled written =>
      cases Stream.write?_error written
      rw [deeds_unsent point filled written, unread rfl]
      exact received.keeps rfl rfl
  | flush point flushed =>
      cases Stream.flush?_ok flushed
      rw [deeds_flushing point flushed, unread rfl]
      exact received.keeps rfl rfl
  | flushFails point flushed =>
      cases Stream.flush?_error flushed
      rw [deeds_unflushed point flushed, unread rfl]
      exact received.keeps rfl rfl
  | shut point shut =>
      obtain ⟨_, rfl⟩ := Stream.shutDown?_eq shut
      rw [deeds_apart (by simp [point]) (by simp [performs, point]), unread (reads_reply _)]
      exact (received.keeps rfl rfl).drop

def Action.arrival? (key : Key) : Action → Option Incoming
  | .arrive other item => if other = key then some item else none
  | _ => none

def arrivals (key : Key) (actions : List Action) : List Incoming :=
  actions.filterMap (Action.arrival? key)

theorem arrivals_concat (key : Key) (past : List Passage) (passage : Passage) :
    arrivals key ((past ++ [passage]).map Passage.action) =
      arrivals key (past.map Passage.action) ++ (passage.action.arrival? key).toList := by
  simp only [arrivals, List.map_append, List.filterMap_append, List.map_cons, List.map_nil,
    List.filterMap_cons, List.filterMap_nil]
  cases passage.action.arrival? key <;> rfl

namespace World

variable {log : Log} {lockTimeout : Duration} {readBuffer : Nat} {action : Action}
variable {actions : List Action} {world next final : World} {key : Key} {worker : Worker}
variable {past : List Passage}

/-- A session has read what has arrived, and on a connection that there is not nothing has arrived. -/
def Receives (past : List Passage) (world : World) (key : Key) : Prop :=
  match world.worker? key with
  | none => arrivals key (past.map Passage.action) = [] ∧ deeds key past = []
  | some worker =>
      worker.stream.Received worker.readBuffer (arrivals key (past.map Passage.action))
        (items (deeds key past))

theorem Receives.of_some (receives : world.Receives past key) (found : world.worker? key = some worker) :
    worker.stream.Received worker.readBuffer (arrivals key (past.map Passage.action))
      (items (deeds key past)) := by
  simpa only [Receives, found] using receives

theorem Receives.arrives {item : Incoming} (receives : world.Receives past key)
    (stepped : world.step (.arrive key item) = some next) :
    next.Receives (past ++ [⟨world, .arrive key item, next⟩]) key := by
  obtain ⟨worker, found, rfl⟩ := Option.map_eq_some_iff.mp stepped
  have more := (receives.of_some found).arrive item
  have idle : (Action.arrive key item) ≠ .run key := by simp
  simp only [Receives, worker?_putWorker, deeds_concat, Passage.deeds_of_idle idle, List.append_nil,
    arrivals_concat, Action.arrival?, ↓reduceIte, Option.toList_some]
  exact more

theorem change_keeps {change : Stream → Stream} (changes : action.change? key = some change)
    (other : action.arrival? key = none) (stream : Stream) :
    (change stream).incoming = stream.incoming ∧ (change stream).isDropped = stream.isDropped := by
  cases Action.changes_of_change? changes with
  | arrive =>
      simp only [Action.arrival?, if_pos] at other
      cases other
  | setWrite | setFlush | setShutdown => exact ⟨rfl, rfl⟩

theorem Fates.receives (fates : world.Fates action key next) (other : action.arrival? key = none)
    (intact : ∀ worker, world.worker? key = some worker → worker.Intact)
    (receives : world.Receives past key) : next.Receives (past ++ [⟨world, action, next⟩]) key := by
  simp only [Receives, arrivals_concat, other, Option.toList_none, List.append_nil]
  refine fates.deeds_induction (fun deeds found => match found with
    | none => arrivals key (past.map Passage.action) = [] ∧ deeds = []
    | some worker => worker.stream.Received worker.readBuffer
        (arrivals key (past.map Passage.action)) (items deeds))
    receives ?_ ?_ ?_ ?_ ?_
  · rintro identity origin readBuffer ⟨nothing, idle⟩
    rw [nothing, idle]
    exact ⟨[], fun _ => rfl, .whole⟩
  · intro worker change changes received
    obtain ⟨incoming, dropped⟩ := change_keeps changes other worker.stream
    exact Stream.Received.keeps received incoming dropped
  · intro before after told _ found _ step received
    exact step.received (intact before found).reads received
  · intro worker _ _ _ received
    exact Stream.Received.drop received
  · intro worker _ _ received
    exact Stream.Received.drop received

theorem receives_run (launches : ∀ action, action ∈ actions → action.LaunchesNew)
    (ran : (initial log lockTimeout readBuffer).steps actions = some final) :
    final.Receives ((initial log lockTimeout readBuffer).passages actions) key := by
  refine passages_induction (fun past world => world.Receives past key) ⟨rfl, rfl⟩ ?_ ran
  intro early action late world next split reached receives stepped
  have member : action ∈ actions := split ▸ List.mem_append_right early List.mem_cons_self
  have launchesEarly (action : Action) (member : action ∈ early) : action.LaunchesNew :=
    launches action (split ▸ List.mem_append_left _ member)
  by_cases arrives : ∃ item, action = .arrive key item
  · obtain ⟨item, rfl⟩ := arrives
    exact receives.arrives stepped
  · refine (step_fate (launches action member) stepped key).receives ?_
      (fun worker found => intact_run launchesEarly reached found) receives
    cases action with
    | arrive other item =>
        have apart : other ≠ key := fun same => arrives ⟨item, same ▸ rfl⟩
        simp [Action.arrival?, apart]
    | _ => rfl

end World

end CommandLog
