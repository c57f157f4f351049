import CommandLog.Proofs.Registry.Books
import CommandLog.Proofs.World.Journal
import CommandLog.Server

/-!
The course of a server: it serves until it is told to stop, then drains, and then it has stopped, unless
the drain fails. What its world goes through is a run of the world like any other, but for what is
reported.
-/

namespace CommandLog

def ServerAction.act? (grace : Duration) : ServerAction → Option Action
  | .accept key peer => some (.spawn key peer)
  | .sweep => some .reap
  | .leave _ => some (.drain grace)
  | .look => some .look
  | .proceed action => some action
  | .requestShutdown | .signal => none

namespace Server

def passage? (server : Server) (action : ServerAction) (next : Server) : Option Passage :=
  (action.act? server.grace).map fun act => ⟨server.world, act, next.world⟩

def passages (server : Server) : List ServerAction → List Passage
  | [] => []
  | action :: actions =>
      match server.step action with
      | none => []
      | some next => (server.passage? action next).toList ++ next.passages actions

variable {start server next final : Server} {action : ServerAction} {actions : List ServerAction}
variable {past : List Passage}

theorem steps_append (server : Server) (early late : List ServerAction) :
    server.steps (early ++ late) = (server.steps early).bind fun next => next.steps late := by
  induction early generalizing server with
  | nil => rfl
  | cons action early ih =>
      simp only [List.cons_append, steps]
      cases server.step action with
      | none => rfl
      | some next => exact ih next

theorem steps_induction (motive : List Passage → Server → Prop)
    (step : ∀ past server action next, motive past server → server.step action = some next →
      motive (past ++ (server.passage? action next).toList) next)
    (first : motive past start) (ran : start.steps actions = some final) :
    motive (past ++ start.passages actions) final := by
  induction actions generalizing start past with
  | nil =>
      cases ran
      rw [passages, List.append_nil]
      exact first
  | cons action actions ih =>
      obtain ⟨next, stepped, ran⟩ := Option.bind_eq_some_iff.mp ran
      have later := ih (step past start action next first stepped) ran
      rw [List.append_assoc] at later
      simpa only [passages, stepped] using later

inductive Move (server : Server) : ServerAction → Server → Prop
  | request : Move server .requestShutdown { server with isShutdown := true }
  | signal : Move server .signal { server with isSignalled := true }
  | accept {key : Key} {peer : Option Net.SocketAddress} {world : World} {events : List Event} :
      server.status = .serving → server.world.step (.spawn key peer) = some world →
      Move server (.accept key peer) { server with world := world.report events }
  | sweep : server.status = .serving → server.world.step .reap = some server.world.reap.1 →
      Move server .sweep { server with world := server.world.reap.1 }
  | leave {trigger : Trigger} {world : World} : server.status = .serving →
      server.hasSeen trigger = true → server.world.registry.isEmpty = false →
      server.world.clock + server.grace.nanoseconds < Clock.limit →
      world.forget = (server.world.beginDrain server.grace).forget →
      Move server (.leave trigger) { server with
        world
        isShutdown := true
        status := .draining }
  | leaveEmpty {trigger : Trigger} {world : World} : server.status = .serving →
      server.hasSeen trigger = true → server.world.registry.isEmpty = true →
      world.forget = (server.world.beginDrain server.grace).forget →
      Move server (.leave trigger) { server with
        world
        isShutdown := true
        status := .stopped ⟨0, 0⟩ }
  | fail {trigger : Trigger} {world : World} : server.status = .serving →
      server.hasSeen trigger = true → server.world.registry.isEmpty = false →
      Clock.limit ≤ server.world.clock + server.grace.nanoseconds →
      world.forget = (server.world.beginDrain server.grace).forget →
      Move server (.leave trigger) { server with
        world
        isShutdown := true
        status := .failed }
  | look {world : World} : server.status = .draining → server.world.look = some (world, none) →
      Move server .look { server with world }
  | last {world : World} {report : DrainReport} : server.status = .draining →
      server.world.look = some (world, some report) →
      Move server .look { server with
        world := world.report [.stopped report]
        status := .stopped report }
  | proceed {action : Action} {world : World} : action.isOutside = true →
      server.world.step action = some world →
      Move server (.proceed action) { server with world }

theorem leave_move {trigger : Trigger} (serving : server.status = .serving)
    (seen : server.hasSeen trigger = true) (free : server.world.drain = none) :
    server.Move (.leave trigger) (server.leave trigger) := by
  let reported := server.world.report [trigger.event]
  have alike : (reported.beginDrain server.grace).forget =
      (server.world.beginDrain server.grace).forget := by
    rw [← World.forget_beginDrain, World.alike_report, World.forget_beginDrain]
  have begins := World.begins_beginDrain reported server.grace
  simp only [Server.leave]
  change Move server _ (if reported.failsToDrain server.grace then _ else _)
  generalize reported.beginDrain server.grace = world at begins alike ⊢
  cases begins with
  | empty empty =>
      rw [if_neg (by simp [World.failsToDrain, empty])]
      simp only [show reported.drain = none from free]
      exact .leaveEmpty serving seen empty alike
  | underway full tells =>
      rw [if_neg (by simpa [World.failsToDrain_iff, full] using tells)]
      exact .leave serving seen full tells alike
  | failed full beyond =>
      rw [if_pos (World.failsToDrain_iff.mpr ⟨full, beyond⟩)]
      exact .fail serving seen full beyond alike

theorem step_move (free : server.status = .serving → server.world.drain = none)
    (stepped : server.step action = some next) : server.Move action next := by
  cases action with
  | requestShutdown =>
      cases stepped
      exact .request
  | signal =>
      cases stepped
      exact .signal
  | accept key peer =>
      simp only [step, isServing, beq_iff_eq, Option.ite_none_right_eq_some] at stepped
      obtain ⟨serving, accepted⟩ := stepped
      obtain ⟨world, spawned, rfl⟩ := Option.map_eq_some_iff.mp accepted
      refine .accept serving ?_
      rw [World.step, free serving]
      exact spawned
  | sweep =>
      simp only [step, isServing, beq_iff_eq, Option.ite_none_right_eq_some, Option.some.injEq] at stepped
      obtain ⟨serving, rfl⟩ := stepped
      refine .sweep serving ?_
      rw [World.step, free serving]
      rfl
  | leave trigger =>
      simp only [step, isServing, Bool.and_eq_true, beq_iff_eq, Option.ite_none_right_eq_some,
        Option.some.injEq] at stepped
      obtain ⟨⟨serving, seen⟩, rfl⟩ := stepped
      exact leave_move serving seen (free serving)
  | look =>
      simp only [step, beq_iff_eq, Option.ite_none_right_eq_some] at stepped
      obtain ⟨draining, looked⟩ := stepped
      rw [Server.look] at looked
      obtain ⟨⟨world, report⟩, seen, rfl⟩ := Option.map_eq_some_iff.mp looked
      cases report with
      | none => exact .look draining seen
      | some report => exact .last draining seen
  | proceed action =>
      simp only [step, Option.ite_none_right_eq_some] at stepped
      obtain ⟨outside, proceeds⟩ := stepped
      obtain ⟨world, stepped, rfl⟩ := Option.map_eq_some_iff.mp proceeds
      exact .proceed outside stepped

theorem Move.acts (move : server.Move action next)
    (free : server.status = .serving → server.world.drain = none) :
    match action.act? server.grace with
    | none => next.world = server.world
    | some act => act.LaunchesNew ∧
        ∃ world, server.world.step act = some world ∧ world.forget = next.world.forget := by
  cases move with
  | request | signal => rfl
  | accept _ spawned => exact ⟨trivial, _, spawned, rfl⟩
  | sweep _ reaped => exact ⟨trivial, _, reaped, rfl⟩
  | leave serving _ _ _ alike | leaveEmpty serving _ _ alike | fail serving _ _ _ alike =>
      refine ⟨trivial, server.world.beginDrain server.grace, ?_, alike.symm⟩
      rw [World.step, free serving]
      rfl
  | look _ looked =>
      refine ⟨trivial, _, ?_, rfl⟩
      rw [World.step, looked, Option.map_some]
  | @last world _ _ looked =>
      refine ⟨trivial, world, ?_, rfl⟩
      rw [World.step, looked, Option.map_some]
  | @proceed act _ outside stepped =>
      refine ⟨?_, _, stepped, rfl⟩
      cases act <;> trivial

/-- What its status tells of a server: while it serves nothing is drained, and when it has stopped
nothing is left, and the drain has reported once. When it has failed, the drain had no deadline. -/
def Stands (past : List Passage) (server : Server) : Prop :=
  match server.status with
  | .serving => server.world.drain = none ∧ past.filterMap Passage.report? = []
  | .draining => server.world.drain ≠ none ∧ server.world.registry.isEmpty = true ∧
      server.isShutdown = true ∧ past.filterMap Passage.report? = []
  | .stopped report => server.world.drain = none ∧ server.world.registry.isEmpty = true ∧
      server.isShutdown = true ∧ past.filterMap Passage.report? = [report]
  | .failed => Clock.limit ≤ server.world.clock + server.grace.nanoseconds ∧ server.isShutdown = true

theorem Stands.of_serving (stands : server.Stands past) (serving : server.status = .serving) :
    server.world.drain = none ∧ past.filterMap Passage.report? = [] := by
  simpa only [Stands, serving] using stands

theorem Stands.free (stands : server.Stands past) (serving : server.status = .serving) :
    server.world.drain = none := (stands.of_serving serving).1

theorem Stands.of_draining (stands : server.Stands past) (draining : server.status = .draining) :
    server.world.drain ≠ none ∧ server.world.registry.isEmpty = true ∧
      server.isShutdown = true ∧ past.filterMap Passage.report? = [] := by
  simpa only [Stands, draining] using stands

theorem outside_keeps {action : Action} {world next : World} (outside : action.isOutside = true)
    (stepped : world.step action = some next) :
    next.registry = world.registry ∧ next.drain = world.drain ∧ world.clock ≤ next.clock := by
  cases World.step_registry stepped with
  | spawn | reap | drain | look => cases outside
  | pass elapsed =>
      obtain ⟨_, _, rfl⟩ := World.elapse_eq_some elapsed
      exact ⟨rfl, rfl, Nat.le_add_right _ _⟩
  | apart _ registry drain clock => exact ⟨registry, drain, Nat.le_of_eq clock.symm⟩

theorem reports_concat (past : List Passage) (passage? : Option Passage) :
    (past ++ passage?.toList).filterMap Passage.report? =
      past.filterMap Passage.report? ++ (passage?.bind Passage.report?).toList := by
  cases passage? with
  | none => simp
  | some passage => cases report : passage.report? <;> simp [report]

theorem Stands.step (stands : server.Stands past) (move : server.Move action next) :
    next.Stands (past ++ (server.passage? action next).toList) := by
  -- For the moves that leave the status, the registry and the drain as they are, and report nothing.
  have keeps {next : Server} (same : next.status = server.status)
      (silent : (server.passage? action next).bind Passage.report? = none)
      (registry : next.world.registry = server.world.registry)
      (drain : next.world.drain = server.world.drain)
      (clock : server.world.clock ≤ next.world.clock) (grace : next.grace = server.grace)
      (shown : server.isShutdown = true → next.isShutdown = true) :
      next.Stands (past ++ (server.passage? action next).toList) := by
    simp only [Stands, same, reports_concat, silent, registry, drain, grace, Option.toList_none,
      List.append_nil] at stands ⊢
    split at stands
    · exact stands
    · exact ⟨stands.1, stands.2.1, shown stands.2.2.1, stands.2.2.2⟩
    · exact ⟨stands.1, stands.2.1, shown stands.2.2.1, stands.2.2.2⟩
    · exact ⟨Nat.le_trans stands.1 (Nat.add_le_add_right clock _), shown stands.2⟩
  cases move with
  | request => exact keeps rfl rfl rfl rfl (Nat.le_refl _) rfl fun _ => rfl
  | signal => exact keeps rfl rfl rfl rfl (Nat.le_refl _) rfl id
  | accept serving spawned =>
      obtain ⟨free, silent⟩ := stands.of_serving serving
      simp only [Stands, serving, reports_concat, silent]
      exact ⟨(World.step_spawn spawned).2.drain.trans free, rfl⟩
  | sweep serving =>
      obtain ⟨free, silent⟩ := stands.of_serving serving
      simp only [Stands, serving, reports_concat, silent]
      exact ⟨free, rfl⟩
  | leave serving seen full tells alike =>
      obtain ⟨_, silent⟩ := stands.of_serving serving
      rw [World.beginDrain_of_tells full tells] at alike
      simp only [Stands, reports_concat, silent, World.alike_drain alike, World.alike_registry alike]
      refine ⟨by simp, rfl, trivial, ?_⟩
      simp [passage?, ServerAction.act?, Passage.report?, full]
  | leaveEmpty serving seen empty alike =>
      obtain ⟨free, silent⟩ := stands.of_serving serving
      rw [World.beginDrain_of_empty empty] at alike
      simp only [Stands, reports_concat, silent, World.alike_drain alike, World.alike_registry alike]
      refine ⟨free, empty, trivial, ?_⟩
      simp [passage?, ServerAction.act?, Passage.report?, empty]
  | fail _ _ full beyond alike =>
      rw [World.beginDrain_of_beyond full beyond] at alike
      simp only [Stands, World.alike_clock alike]
      exact ⟨beyond, trivial⟩
  | look draining looked =>
      obtain ⟨_, _, _, looks⟩ := World.look_looks looked
      obtain ⟨_, empty, shown, silent⟩ := stands.of_draining draining
      simp only [Stands, draining, reports_concat, silent]
      cases looks
      refine ⟨by simp, empty, shown, ?_⟩
      simp [passage?, ServerAction.act?, Passage.report?, looked]
  | last draining looked =>
      obtain ⟨_, _, _, looks⟩ := World.look_looks looked
      obtain ⟨_, empty, shown, silent⟩ := stands.of_draining draining
      simp only [Stands, reports_concat, silent]
      cases looks
      refine ⟨rfl, ?_, shown, ?_⟩
      · rw [← empty]
        exact congrArg Registry.isEmpty (World.endDrain_keeps _ _).1
      · simp [passage?, ServerAction.act?, Passage.report?, looked]
  | @proceed act _ outside stepped =>
      obtain ⟨registry, drain, clock⟩ := outside_keeps outside stepped
      refine keeps rfl ?_ registry drain clock rfl id
      cases act <;> first | rfl | cases outside

/-- There is a run of the world with the same steps. -/
def Mirrored (log : Log) (lockTimeout : Duration) (readBuffer : Nat) (past : List Passage)
    (server : Server) : Prop :=
  ∃ acts world, (∀ act, act ∈ acts → act.LaunchesNew) ∧
    (World.initial log lockTimeout readBuffer).steps acts = some world ∧
    world.forget = server.world.forget ∧
    ((World.initial log lockTimeout readBuffer).passages acts).map Passage.forget =
      past.map Passage.forget

variable {log : Log} {lockTimeout : Duration} {readBuffer : Nat}

theorem Mirrored.step (mirrored : server.Mirrored log lockTimeout readBuffer past)
    (free : server.status = .serving → server.world.drain = none)
    (move : server.Move action next) :
    next.Mirrored log lockTimeout readBuffer (past ++ (server.passage? action next).toList) := by
  obtain ⟨acts, world, launches, ran, alike, same⟩ := mirrored
  have goes := move.acts free
  cases acted : action.act? server.grace with
  | none =>
      simp only [acted] at goes
      rw [passage?, acted, Option.map_none, Option.toList_none, List.append_nil]
      exact ⟨acts, world, launches, ran, by rw [alike, goes], same⟩
  | some act =>
      simp only [acted] at goes
      obtain ⟨launchesNew, after, stepped, left⟩ := goes
      obtain ⟨others, steps, reached⟩ := World.alike_step alike stepped
      refine ⟨acts ++ [act], others, ?_, World.steps_concat_eq_some.mpr ⟨world, ran, steps⟩,
        reached.trans left, ?_⟩
      · intro other member
        rcases List.mem_append.mp member with older | newest
        · exact launches other older
        · rwa [List.mem_singleton.mp newest]
      · rw [World.passages_concat ran steps, passage?, acted, List.map_append, List.map_append, same]
        refine congrArg (past.map Passage.forget ++ ·) ?_
        simp only [Option.map_some, Option.toList_some, List.map_cons, List.map_nil, Passage.forget]
        rw [alike, reached.trans left]

end Server

end CommandLog
