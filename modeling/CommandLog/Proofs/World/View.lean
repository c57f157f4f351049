import CommandLog.Proofs.World.Passage
import Mathlib.Logic.Function.Basic

/-!
A run of the world as the log sees it. Of each task only its business with the log is kept, and of each
step only the facts that concern the log: who asks for it, who waits, whose turn it is and what comes
of it, whose wait is given up. The facts are read off the worlds before and after a step.
-/

namespace CommandLog

/-- Where a task stands with the log. -/
inductive Standing where
  | idle
  | requesting (request : Request)
  | waiting (request : Request)
  | holding (request : Request)
  | gone
deriving DecidableEq

def Task.standing : Task → Standing
  | .session worker =>
      match worker.point with
      | .requesting command => .requesting (.exchange command worker.cursor)
      | .waiting command => .waiting (.exchange command worker.cursor)
      | .holding command => .holding (.exchange command worker.cursor)
      | .ended _ => .gone
      | .fresh | .receiving | .sending _ | .flushing | .closing _ => .idle
  | .call direct =>
      match direct.point with
      | .requesting => .requesting direct.request
      | .waiting => .waiting direct.request
      | .holding => .holding direct.request
      | .fresh | .finished _ => .idle

def Task.cursor : Task → Nat
  | .session worker => worker.cursor
  | .call _ => 0

structure View where
  log : Log
  memory : Memory
  lockTimeout : Duration
  lock : Lock
  clock : Nat
  standing : Key → Standing
  cursor : Key → Nat

def View.put (view : View) (key : Key) (standing : Standing) : View :=
  { view with standing := Function.update view.standing key standing }

def View.withLock (view : View) (lock : Lock) : View := { view with lock }

namespace World

def standing (world : World) (key : Key) : Standing :=
  ((Table.find? key world.tasks).map Task.standing).getD .idle

def cursor (world : World) (key : Key) : Nat :=
  ((Table.find? key world.tasks).map Task.cursor).getD 0

def view (world : World) : View :=
  ⟨world.log, world.memory, world.lockTimeout, world.lock, world.clock, world.standing, world.cursor⟩

end World

inductive Gain where
  | reply (bytes : Bytes) (cursor : Nat)
  | answer (answer : Except LogError Answer)
  | nothing

def Task.gain : Task → Gain
  | .session worker =>
      match worker.point with
      | .sending bytes => .reply bytes worker.cursor
      | _ => .nothing
  | .call direct =>
      match direct.point with
      | .finished answer => .answer answer
      | _ => .nothing

/-- One task's turn at the log, and the entries that are kept after it. -/
structure Turn where
  key : Key
  request : Request
  gain : Gain
  kept : List Bytes

inductive Fact where
  | asks (key : Key) (request : Request)
  | waits (key : Key) (request : Request)
  | turn (turn : Turn)
  | expires (key : Key) (request : Request)
  /-- The workers under these keys are stopped where they stand. -/
  | stops (keys : List Key)
  | seized
  | released

structure Moment where
  clock : Nat
  fact : Fact

def Fact.concerns (key : Key) : Fact → Bool
  | .asks other _ | .waits other _ | .expires other _ => key == other
  | .turn taken => key == taken.key
  | .stops keys => keys.contains key
  | .seized | .released => false

def Lock.facts (before after : Lock) : List Fact :=
  match before.holder with
  | none => []
  | some holder => if after.holder = some holder then [] else [.released]

theorem Lock.facts_of_same {before after : Lock} (same : after.holder = before.holder) :
    before.facts after = [] := by
  simp only [facts, same]
  cases before.holder <;> simp

def View.moments (view : View) (facts : List Fact) (next : View) : List Moment :=
  (facts ++ view.lock.facts next.lock).map fun fact => ⟨view.clock, fact⟩

theorem View.mem_moments {view next : View} {facts : List Fact} {moment : Moment} :
    moment ∈ view.moments facts next ↔
      moment.clock = view.clock ∧ (moment.fact ∈ facts ∨ moment.fact ∈ view.lock.facts next.lock) := by
  simp only [moments, List.mem_map, List.mem_append]
  constructor
  · rintro ⟨fact, member, rfl⟩
    exact ⟨rfl, member⟩
  · intro ⟨same, member⟩
    exact ⟨moment.fact, member, by rw [← same]⟩

theorem Lock.mem_facts {before after : Lock} {fact : Fact} :
    fact ∈ before.facts after ↔
      fact = .released ∧ before.holder ≠ none ∧ after.holder ≠ before.holder := by
  simp only [facts]
  cases before.holder with
  | none => simp
  | some holder =>
      by_cases same : after.holder = some holder
      · simp [same]
      · simp [same]

namespace World

def gain (world : World) (key : Key) : Gain :=
  ((Table.find? key world.tasks).map Task.gain).getD .nothing

def runFacts (world : World) (key : Key) (next : World) : List Fact :=
  match world.standing key, next.standing key with
  | .idle, .requesting request => [.asks key request]
  | .requesting request, .waiting _ => [.waits key request]
  | .holding request, _ => [.turn ⟨key, request, next.gain key, next.log.toList⟩]
  | .waiting request, .idle => [.expires key request]
  | _, _ => []

def lookFacts (world next : World) : List Fact :=
  match world.drain, next.drain with
  | some drain, none =>
      [.stops ((drain.records.filter fun record => !world.hasEnded record).map Record.key)]
  | _, _ => []

def facts (world : World) (action : Action) (next : World) : List Fact :=
  match action with
  | .run key => world.runFacts key next
  | .look => world.lookFacts next
  | .hold => [.seized]
  | _ => []

def moments (world : World) (action : Action) (next : World) : List Moment :=
  world.view.moments (world.facts action next) next.view

def chronicle (world : World) : List Action → List Moment
  | [] => []
  | action :: actions =>
      match world.step action with
      | none => []
      | some next => world.moments action next ++ next.chronicle actions

theorem chronicle_eq (start : World) (actions : List Action) : start.chronicle actions =
    (start.passages actions).flatMap fun passage =>
      passage.before.moments passage.action passage.after := by
  induction actions generalizing start with
  | nil => rfl
  | cons action actions ih =>
      simp only [chronicle, passages]
      cases start.step action with
      | none => rfl
      | some next => rw [List.flatMap_cons, ← ih]

theorem steps_induction {start final : World} {actions : List Action}
    (motive : List Moment → World → Prop) (first : motive [] start)
    (step : ∀ past world action next, action ∈ actions → motive past world →
      world.step action = some next → motive (past ++ world.moments action next) next)
    (ran : start.steps actions = some final) : motive (start.chronicle actions) final := by
  rw [chronicle_eq]
  refine passages_induction (fun past world => motive (past.flatMap fun passage =>
    passage.before.moments passage.action passage.after) world) first ?_ ran
  intro early action late world next split reached held stepped
  rw [List.flatMap_append, List.flatMap_singleton]
  exact step _ world action next (split ▸ List.mem_append_right early List.mem_cons_self) held stepped

variable {world : World} {key : Key}

@[simp] theorem view_report (events : List Event) : (world.report events).view = world.view := rfl

theorem standing_of_find? {task : Task} (found : Table.find? key world.tasks = some task) :
    world.standing key = task.standing := by
  simp [standing, found]

theorem cursor_of_find? {task : Task} (found : Table.find? key world.tasks = some task) :
    world.cursor key = task.cursor := by
  simp [cursor, found]

theorem standing_putTask (world : World) (key : Key) (task : Task) :
    (world.putTask key task).standing = Function.update world.standing key task.standing := by
  funext other
  by_cases same : other = key
  · subst same
    simp [standing, putTask]
  · simp [standing, putTask, Table.find?_put_other _ _ same, same]

theorem cursor_putTask (world : World) (key : Key) (task : Task) :
    (world.putTask key task).cursor = Function.update world.cursor key task.cursor := by
  funext other
  by_cases same : other = key
  · subst same
    simp [cursor, putTask]
  · simp [cursor, putTask, Table.find?_put_other _ _ same, same]

theorem view_putTask (world : World) {key : Key} {task : Task} (keeps : task.cursor = world.cursor key) :
    (world.putTask key task).view = world.view.put key task.standing := by
  simp only [view, View.put, standing_putTask, cursor_putTask, keeps, Function.update_eq_self]
  rfl

theorem put_standing {view : View} {standing : Standing} (same : view.standing key = standing) :
    view.put key standing = view := by
  simp only [View.put, ← same, Function.update_eq_self]

theorem gain_putTask (task : Task) : (world.putTask key task).gain key = task.gain := by
  simp [gain, putTask]

end World

end CommandLog
