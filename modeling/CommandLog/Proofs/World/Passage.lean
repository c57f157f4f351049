import CommandLog.World
import Mathlib.Data.List.Induction

/-!
A run as the list of the steps that it takes. Whatever a run leaves behind is read off that list, and
what every step keeps holds of all of it.
-/

namespace CommandLog

structure Passage where
  before : World
  action : Action
  after : World

namespace World

variable {start final : World} {actions : List Action}

def passages (world : World) : List Action → List Passage
  | [] => []
  | action :: actions =>
      match world.step action with
      | none => []
      | some next => ⟨world, action, next⟩ :: next.passages actions

theorem steps_append (world : World) (early late : List Action) :
    world.steps (early ++ late) = (world.steps early).bind fun next => next.steps late := by
  induction early generalizing world with
  | nil => rfl
  | cons action early ih =>
      simp only [List.cons_append, steps]
      cases world.step action with
      | none => rfl
      | some next => exact ih next

theorem steps_append_eq_some {world next : World} {early late : List Action} :
    world.steps (early ++ late) = some next ↔
      ∃ middle, world.steps early = some middle ∧ middle.steps late = some next := by
  rw [steps_append, Option.bind_eq_some_iff]

theorem steps_concat_eq_some {world next : World} {early : List Action} {action : Action} :
    world.steps (early ++ [action]) = some next ↔
      ∃ middle, world.steps early = some middle ∧ middle.step action = some next := by
  rw [steps_append_eq_some]
  simp [steps]

theorem passages_append {middle : World} {early late : List Action}
    (reached : start.steps early = some middle) :
    start.passages (early ++ late) = start.passages early ++ middle.passages late := by
  induction early generalizing start with
  | nil =>
      cases reached
      rfl
  | cons first early ih =>
      simp only [steps] at reached
      obtain ⟨second, went, reached⟩ := Option.bind_eq_some_iff.mp reached
      simp only [List.cons_append, passages, went, ih reached]

theorem passages_concat {middle next : World} {early : List Action} {action : Action}
    (reached : start.steps early = some middle) (stepped : middle.step action = some next) :
    start.passages (early ++ [action]) = start.passages early ++ [⟨middle, action, next⟩] := by
  rw [passages_append reached]
  simp [passages, stepped]

theorem action_of_mem_passages {passage : Passage} (member : passage ∈ start.passages actions) :
    passage.action ∈ actions := by
  induction actions generalizing start with
  | nil => cases member
  | cons first actions ih =>
      simp only [passages] at member
      split at member
      · cases member
      · rcases List.mem_cons.mp member with rfl | later
        · exact List.mem_cons_self
        · exact List.mem_cons_of_mem _ (ih later)

theorem passages_split {early late : List Passage} {passage : Passage}
    (split : start.passages actions = early ++ passage :: late) :
    ∃ sooner later, actions = sooner ++ passage.action :: later ∧
      start.steps sooner = some passage.before ∧ start.passages sooner = early ∧
      passage.before.step passage.action = some passage.after := by
  induction actions generalizing start early with
  | nil => simp [passages] at split
  | cons first actions ih =>
      simp only [passages] at split
      cases went : start.step first with
      | none => simp [went] at split
      | some second =>
          simp only [went] at split
          cases early with
          | nil =>
              obtain ⟨rfl, _⟩ := List.cons.inj split
              exact ⟨[], actions, rfl, rfl, rfl, went⟩
          | cons taken early =>
              obtain ⟨rfl, rest⟩ := List.cons.inj split
              obtain ⟨sooner, later, rfl, reached, same, stepped⟩ := ih rest
              refine ⟨first :: sooner, later, rfl, ?_, ?_, stepped⟩
              · simpa only [steps, went, Option.bind_some] using reached
              · simp only [passages, went, same]

theorem passages_induction (motive : List Passage → World → Prop) (first : motive [] start)
    (step : ∀ early action late world next, actions = early ++ action :: late →
      start.steps early = some world → motive (start.passages early) world →
      world.step action = some next →
      motive (start.passages early ++ [⟨world, action, next⟩]) next)
    (ran : start.steps actions = some final) : motive (start.passages actions) final := by
  have all : ∀ early late, actions = early ++ late → ∀ world, start.steps early = some world →
      motive (start.passages early) world := by
    intro early
    induction early using List.reverseRecOn with
    | nil =>
        intro _ _ world reached
        cases reached
        exact first
    | append_singleton early action ih =>
        intro late split next reached
        obtain ⟨world, before, stepped⟩ := steps_concat_eq_some.mp reached
        have split : actions = early ++ action :: late := by simpa using split
        rw [passages_concat before stepped]
        exact step early action late world next split before
          (ih (action :: late) split world before) stepped
  exact all actions [] (List.append_nil actions).symm final ran

theorem onward_induction {middle : World} {early late : List Action} (motive : World → Prop)
    (reached : start.steps early = some middle) (first : motive middle)
    (step : ∀ sooner action world next, sooner ++ [action] <+: early ++ late → action ∈ late →
      start.steps sooner = some world → motive world → world.step action = some next → motive next)
    (ran : middle.steps late = some final) : motive final := by
  refine passages_induction (fun _ world => motive world) first ?_ ran
  rintro sooner action later world next rfl went holds stepped
  refine step (early ++ sooner) action world next ⟨later, by simp⟩ (by simp) ?_ holds stepped
  exact steps_append_eq_some.mpr ⟨middle, reached, went⟩

end World

end CommandLog
