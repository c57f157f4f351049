import CommandLog.Proofs.Registry.Conservation
import CommandLog.Proofs.Registry.Draining
import CommandLog.Proofs.Server.Course

/-!
A server that has been told to stop accepts nothing more and comes to an end, and then every session
that it has accepted has been joined once. Only a drain without a deadline keeps it from that.
-/

namespace CommandLog

namespace World

variable {past others : List Passage} {world other : World}

theorem spawned_forget (past : List Passage) : spawned (past.map Passage.forget) = spawned past := by
  rw [spawned, List.flatMap_map]
  rfl

theorem removed_forget (past : List Passage) : removed (past.map Passage.forget) = removed past := by
  rw [removed, List.flatMap_map]
  rfl

theorem joined_forget (past : List Passage) : joined (past.map Passage.forget) = joined past := by
  rw [joined, List.flatMap_map]
  rfl

theorem lost_forget (past : List Passage) : lost (past.map Passage.forget) = lost past := by
  rw [lost, List.flatMap_map]
  rfl

theorem Books.alike (books : Books past world)
    (same : past.map Passage.forget = others.map Passage.forget)
    (alike : world.forget = other.forget) : Books others other := by
  have spawned : spawned others = spawned past := by
    rw [← spawned_forget others, ← same, spawned_forget]
  have removed : removed others = removed past := by
    rw [← removed_forget others, ← same, removed_forget]
  have joined : joined others = joined past := by
    rw [← joined_forget others, ← same, joined_forget]
  have lost : lost others = lost past := by
    rw [← lost_forget others, ← same, lost_forget]
  have registry := alike_registry alike
  have drain := alike_drain alike
  have underway : other.underway = world.underway := by rw [World.underway, World.underway, drain]
  have worker? := alike_worker? alike
  refine ⟨?_, ?_, ?_, ?_, ?_, ?_, ?_⟩
  · rw [← registry, spawned, books.nextId]
  · rw [spawned, books.ids]
  · rw [← registry, spawned, removed]
    exact books.kept
  · rw [joined, lost, removed, underway]
    exact books.joins
  · rw [← registry, removed]
    intro record member
    obtain ⟨worker, found, rest⟩ := books.known record member
    exact ⟨worker, by rw [← worker?, found], by rwa [spawned]⟩
  · rw [joined]
    intro record member
    obtain ⟨worker, found, ended⟩ := books.ended record member
    exact ⟨worker, by rw [← worker?, found], ended⟩
  · rw [← registry, ← drain]
    exact books.closed

end World

/-- What happens to a server by itself once it accepts nothing more. -/
def ServerAction.isOwn : ServerAction → Prop
  | .proceed action => action.isOwn
  | .look => True
  | _ => False

def ServerAction.isAccept : ServerAction → Bool
  | .accept .. => true
  | _ => false

namespace Server

variable {settings : Settings} {start server next middle final : Server} {action : ServerAction}
variable {actions early late : List ServerAction} {past : List Passage} {world : World}

structure Run (settings : Settings) (past : List Passage) (server : Server) : Prop where
  stands : server.Stands past
  keeps : server.status ≠ .failed → lost past = []
  grace : server.grace = settings.shutdownGrace
  mirrored : ∃ log, server.Mirrored log settings.lockTimeout settings.readBuffer past

theorem Move.grace (move : server.Move action next) : next.grace = server.grace := by
  cases move <;> rfl

theorem Move.keeps (move : server.Move action next)
    (free : server.status = .serving → server.world.drain = none) (unfailed : next.status ≠ .failed) :
    server.status ≠ .failed ∧ lost (server.passage? action next).toList = [] := by
  cases move with
  | request | signal => exact ⟨unfailed, rfl⟩
  | accept serving | sweep serving => exact ⟨by simp [serving], rfl⟩
  | leave serving _ full tells alike =>
      rw [World.beginDrain_of_tells full tells] at alike
      have drain := World.alike_drain alike
      simp [serving, lost, passage?, ServerAction.act?, Passage.lost, drain]
  | leaveEmpty serving _ empty alike =>
      rw [World.beginDrain_of_empty empty] at alike
      have drain := (World.alike_drain alike).trans (free serving)
      have none_left : server.world.registry.records = [] := List.isEmpty_iff.mp empty
      simp [serving, lost, passage?, ServerAction.act?, Passage.lost, drain, none_left]
  | fail => exact absurd rfl unfailed
  | look draining | last draining => exact ⟨by simp [draining], rfl⟩
  | @proceed act _ outside =>
      refine ⟨unfailed, ?_⟩
      cases act <;> first | rfl | cases outside

theorem Move.seen (move : server.Move action next) (trigger : Trigger)
    (seen : server.hasSeen trigger = true) : next.hasSeen trigger = true := by
  cases move <;> cases trigger <;> first | exact seen | rfl

theorem Move.left (move : server.Move action next) (left : server.status ≠ .serving) :
    next.status ≠ .serving ∧ (next.status = .failed ↔ server.status = .failed) ∧
      action.isAccept = false := by
  cases move with
  | request | signal | proceed | look => exact ⟨left, .rfl, rfl⟩
  | accept serving | sweep serving | leave serving | leaveEmpty serving | fail serving =>
      exact absurd serving left
  | last draining => exact ⟨nofun, by simp [draining], rfl⟩

theorem Move.spawned (move : server.Move action next) :
    (spawned (server.passage? action next).toList).length = if action.isAccept then 1 else 0 := by
  cases move with
  | accept _ spawned =>
      have one := (World.step_spawn spawned).2.spawned
      exact congrArg List.length ((List.append_nil _).trans one)
  | @proceed act _ outside => cases act <;> first | rfl | cases outside
  | _ => rfl

namespace Run

theorem books (run : Run settings past server) : World.Books past server.world := by
  obtain ⟨log, acts, world, launches, ran, alike, same⟩ := run.mirrored
  exact (World.books_run launches ran).alike same alike

theorem published (run : Run settings past server) {key : Key} {worker : Worker}
    (found : server.world.worker? key = some worker) : worker.Published := by
  obtain ⟨log, acts, world, launches, ran, alike, _⟩ := run.mirrored
  exact World.published_run launches ran ((World.alike_worker? alike key).trans found)

theorem done (run : Run settings past server) (unfailed : server.status ≠ .failed)
    (free : server.world.drain = none) (empty : server.world.registry.isEmpty = true) :
    ((joined past).map Record.id).Perm ((spawned past).map Identity.id) ∧
      ∀ identity, identity ∈ spawned past → ∃ key worker,
        server.world.worker? key = some worker ∧ worker.identity = identity ∧
          worker.session.isComplete = true := by
  have books := run.books
  have none_left : server.world.registry.records = [] := List.isEmpty_iff.mp empty
  have joins := books.joins
  have kept := books.kept
  rw [run.keeps unfailed, World.underway_of_none free, List.append_nil, List.append_nil] at joins
  rw [none_left, List.append_nil] at kept
  have all := (joins.map Record.id).trans kept
  refine ⟨all, fun identity started => ?_⟩
  obtain ⟨record, member, id⟩ := List.mem_map.mp (all.mem_iff.mpr (List.mem_map_of_mem started))
  obtain ⟨worker, found, ended⟩ := books.ended record member
  obtain ⟨same, present, _, worker_id, here⟩ :=
    books.known record (List.mem_append_left _ (joins.subset member))
  cases found.symm.trans present
  have distinct : ((spawned past).map Identity.id).Nodup := by
    rw [books.ids]
    exact List.nodup_range'
  refine ⟨record.key, worker, found, ?_, by rw [(run.published found).isComplete, ended]⟩
  exact List.inj_on_of_nodup_map distinct here started (worker_id.trans id)

end Run

end Server

end CommandLog
