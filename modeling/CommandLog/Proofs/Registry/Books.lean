import CommandLog.Proofs.World.Lifecycle
import Mathlib.Data.List.Nodup

/-!
The books of the registry. Of every session that the registry has started they say whether it is still
there, is being drained, has been joined, or was lost by a drain that failed, and it is always one of
the four.
-/

namespace CommandLog

namespace Passage

def spawned (passage : Passage) : List Identity :=
  match passage.action with
  | .spawn key _ => (passage.after.worker? key).toList.map Worker.identity
  | _ => []

def removed (passage : Passage) : List Record :=
  match passage.action with
  | .reap => passage.before.registry.records.filter passage.before.hasDone
  | .drain _ => passage.before.registry.records
  | _ => []

/-- The records whose workers this step has joined: a reap does so with those that it takes out, and a
drain with all its own when it is over. -/
def joined (passage : Passage) : List Record :=
  match passage.action, passage.before.drain, passage.after.drain with
  | .reap, _, _ => passage.before.registry.records.filter passage.before.hasDone
  | .look, some drain, none => drain.records
  | _, _, _ => []

/-- The records that a drain has taken out and let go of, since it has failed. -/
def lost (passage : Passage) : List Record :=
  match passage.action, passage.after.drain with
  | .drain _, none => passage.before.registry.records
  | _, _ => []

def reaped (passage : Passage) : Nat :=
  match passage.action with
  | .reap => passage.before.reap.2
  | _ => 0

/-- What a drain has reported: at once when there is nothing to drain, and else in its last look. -/
def report? (passage : Passage) : Option DrainReport :=
  match passage.action with
  | .drain _ => if passage.before.registry.isEmpty then some ⟨0, 0⟩ else none
  | .look => passage.before.look.bind Prod.snd
  | _ => none

structure Apart (passage : Passage) : Prop where
  spawned : passage.spawned = []
  removed : passage.removed = []
  joined : passage.joined = []
  lost : passage.lost = []
  reaped : passage.reaped = 0
  report? : passage.report? = none

theorem apart {world next : World} {action : Action} (apart : action.tendsRegistry = false) :
    Apart ⟨world, action, next⟩ := by
  cases action <;> first | exact ⟨rfl, rfl, rfl, rfl, rfl, rfl⟩ | cases apart

end Passage

def spawned (past : List Passage) : List Identity := past.flatMap Passage.spawned

def removed (past : List Passage) : List Record := past.flatMap Passage.removed

def joined (past : List Passage) : List Record := past.flatMap Passage.joined

def lost (past : List Passage) : List Record := past.flatMap Passage.lost

section Concat

variable (past : List Passage) (passage : Passage)

theorem spawned_concat : spawned (past ++ [passage]) = spawned past ++ passage.spawned := by
  simp [spawned]

theorem removed_concat : removed (past ++ [passage]) = removed past ++ passage.removed := by
  simp [removed]

theorem joined_concat : joined (past ++ [passage]) = joined past ++ passage.joined := by
  simp [joined]

theorem lost_concat : lost (past ++ [passage]) = lost past ++ passage.lost := by
  simp [lost]

end Concat

namespace World

variable {log : Log} {lockTimeout : Duration} {readBuffer : Nat} {action : Action}
variable {actions : List Action} {world next final : World} {key : Key} {past : List Passage}
variable {worker before : Worker} {record : Record}

def underway (world : World) : List Record :=
  match world.drain with
  | some drain => drain.records
  | none => []

theorem underway_of_none (free : world.drain = none) : world.underway = [] := by
  rw [underway, free]

theorem hasDone_eq_true : world.hasDone record = true ↔
    ∃ worker, world.worker? record.key = some worker ∧ worker.session.isComplete = true := by
  simp only [hasDone]
  cases world.worker? record.key <;> simp

/-- The worker of this record is one that the registry has started. -/
def Knows (past : List Passage) (world : World) (record : Record) : Prop :=
  ∃ worker, world.worker? record.key = some worker ∧ worker.origin = .registry ∧
    worker.identity.id = record.id ∧ worker.identity ∈ spawned past

structure Books (past : List Passage) (world : World) : Prop where
  nextId : world.registry.nextId = (spawned past).length + 1
  ids : (spawned past).map Identity.id = List.range' 1 (spawned past).length
  kept : ((removed past ++ world.registry.records).map Record.id).Perm
    ((spawned past).map Identity.id)
  joins : (joined past ++ lost past ++ world.underway).Perm (removed past)
  known : ∀ record, record ∈ removed past ++ world.registry.records → Knows past world record
  ended : ∀ record, record ∈ joined past →
    ∃ worker, world.worker? record.key = some worker ∧ worker.isEnded = true
  closed : world.drain ≠ none → world.registry.records = []

theorem books_initial : Books [] (initial log lockTimeout readBuffer) := by
  refine ⟨rfl, rfl, .refl _, .refl _, ?_, ?_, ?_⟩
  · intro record member
    cases member
  · intro record member
    cases member
  · intro draining
    cases draining rfl

theorem Fates.ended (fates : world.Fates action key next) (found : world.worker? key = some before)
    (ended : before.isEnded = true) :
    ∃ after, next.worker? key = some after ∧ after.point = before.point := by
  have done : before.point.phase = .done := by
    simpa [Worker.isEnded_eq_phase] using ended
  obtain ⟨_, after, left, _, same | ⟨closing, _⟩⟩ :=
    fates.closing found (by simp [done, Phase.rank])
  · exact ⟨after, left, same⟩
  · rw [done] at closing
    cases closing

theorem Knows.step (knows : Knows past world record) (launches : action.LaunchesNew)
    (stepped : world.step action = some next) (passage : Passage) :
    Knows (past ++ [passage]) next record := by
  obtain ⟨worker, found, origin, id, started⟩ := knows
  obtain ⟨after, left, sameOrigin, identity⟩ :=
    (step_fate launches stepped record.key).keeps found
  refine ⟨after, left, sameOrigin.trans origin, by rw [identity, id], ?_⟩
  rw [identity, spawned_concat]
  exact List.mem_append_left _ started

theorem Spawned.spawned {peer : Option Net.SocketAddress} (started : world.Spawned key peer next) :
    Passage.spawned ⟨world, .spawn key peer, next⟩ = [⟨world.registry.nextId, peer⟩] := by
  simp only [Passage.spawned, started.worker]
  rfl

structure Balance (passage : Passage) : Prop where
  nextId : passage.after.registry.nextId = passage.before.registry.nextId + passage.spawned.length
  ids : passage.spawned.map Identity.id =
    List.range' passage.before.registry.nextId passage.spawned.length
  kept : ((passage.removed ++ passage.after.registry.records).map Record.id).Perm
    (passage.before.registry.records.map Record.id ++ passage.spawned.map Identity.id)
  joins : (passage.joined ++ passage.lost ++ passage.after.underway).Perm
    (passage.before.underway ++ passage.removed)
  closed : (passage.before.drain ≠ none → passage.before.registry.records = []) →
    passage.after.drain ≠ none → passage.after.registry.records = []

theorem balance_apart (other : action.tendsRegistry = false) (registry : next.registry = world.registry)
    (drain : next.drain = world.drain) : Balance ⟨world, action, next⟩ := by
  have apart : Passage.Apart ⟨world, action, next⟩ := Passage.apart other
  have underway : next.underway = world.underway := by rw [World.underway, drain, World.underway]
  refine ⟨?_, ?_, ?_, ?_, ?_⟩
  · rw [apart.spawned, registry, List.length_nil, Nat.add_zero]
  · rw [apart.spawned]
    rfl
  · rw [apart.spawned, apart.removed, registry, List.nil_append, List.map_nil, List.append_nil]
  · rw [apart.removed, apart.joined, apart.lost, underway, List.nil_append, List.nil_append,
      List.append_nil]
  · rw [registry, drain]
    exact id

theorem balance_spawn {peer : Option Net.SocketAddress} (free : world.drain = none)
    (started : world.Spawned key peer next) : Balance ⟨world, .spawn key peer, next⟩ := by
  have one := started.spawned
  have drain : next.drain = none := started.drain.trans free
  refine ⟨?_, ?_, ?_, ?_, fun _ draining => absurd drain draining⟩
  · rw [one, started.registry]
    rfl
  · rw [one]
    rfl
  · rw [one, started.registry, Registry.add, ← List.append_assoc, List.map_append]
    exact .refl _
  · rw [underway_of_none drain, underway_of_none free]
    exact .refl _

theorem balance_reap (free : world.drain = none) : Balance ⟨world, .reap, world.reap.1⟩ := by
  have after : world.reap.1.underway = [] := underway_of_none free
  have parts := List.filter_append_perm world.hasDone world.registry.records
  refine ⟨rfl, rfl, ?_, ?_, fun _ draining => absurd free draining⟩
  · exact (parts.map Record.id).trans (.of_eq (List.append_nil _).symm)
  · rw [after, underway_of_none free, List.append_nil, List.nil_append]
    exact .of_eq (List.append_nil _)

theorem BeginsDrain.lost_append_underway {grace : Duration} (begins : world.BeginsDrain grace next)
    (free : world.drain = none) :
    Passage.lost ⟨world, .drain grace, next⟩ ++ next.underway = world.registry.records := by
  cases begins with
  | empty => simp [Passage.lost, free, underway_of_none free]
  | underway => rfl
  | failed => exact List.append_nil _

theorem balance_drain {grace : Duration} (free : world.drain = none)
    (begins : world.BeginsDrain grace next) : Balance ⟨world, .drain grace, next⟩ := by
  have none_left : next.registry.records = [] := List.isEmpty_iff.mp begins.isEmpty
  refine ⟨begins.nextId, rfl, ?_, ?_, fun _ _ => none_left⟩
  · rw [none_left, List.append_nil]
    exact .of_eq (List.append_nil _).symm
  · rw [List.append_assoc, begins.lost_append_underway free, underway_of_none free]
    exact .refl _

theorem joined_endDrain {drain : Drain} (draining : world.drain = some drain) :
    Passage.joined ⟨world, .look, (world.endDrain drain.records).1⟩ = drain.records := by
  have finished : (world.endDrain drain.records).1.drain = none := rfl
  simp only [Passage.joined, draining, finished]

theorem joined_again {drain again : Drain} (draining : world.drain = some drain) :
    Passage.joined ⟨world, .look, { world with drain := some again }⟩ = [] := by
  simp only [Passage.joined, draining]

theorem balance_look {drain : Drain} {report : Option DrainReport} (draining : world.drain = some drain)
    (looks : world.Looks drain next report) : Balance ⟨world, .look, next⟩ := by
  have records : world.underway = drain.records := by rw [underway, draining]
  refine ⟨?_, rfl, ?_, ?_, ?_⟩
  · rw [looks.registry]
    rfl
  · rw [looks.registry]
    exact .of_eq (List.append_nil _).symm
  · cases looks with
    | last =>
        have free : (world.endDrain drain.records).1.drain = none := rfl
        rw [joined_endDrain draining, underway_of_none free, records]
        exact .of_eq (List.append_nil _)
    | again =>
        rw [joined_again draining, records]
        exact .of_eq (List.append_nil _).symm
  · intro closed _
    rw [looks.registry]
    exact closed (by simp [draining])

theorem step_balance (stepped : world.step action = some next) : Balance ⟨world, action, next⟩ := by
  cases step_registry stepped with
  | spawn free started => exact balance_spawn free started
  | reap free => exact balance_reap free
  | drain free begins => exact balance_drain free begins
  | look draining _ looks => exact balance_look draining looks
  | pass elapsed =>
      obtain ⟨registry, drain⟩ := registry_elapse elapsed
      exact balance_apart rfl registry drain
  | apart other registry drain => exact balance_apart other registry drain

theorem record_removed (stepped : world.step action = some next)
    (gone : record ∈ Passage.removed ⟨world, action, next⟩) : record ∈ world.registry.records := by
  cases step_registry stepped with
  | reap => exact List.mem_of_mem_filter gone
  | drain => exact gone
  | spawn | look | pass => cases gone
  | apart other =>
      rw [(Passage.apart other).removed] at gone
      cases gone

theorem record_before (stepped : world.step action = some next)
    (kept : record ∈ next.registry.records) : record ∈ world.registry.records ∨
      ∃ peer, action = .spawn record.key peer ∧ record.id = world.registry.nextId ∧
        world.Spawned record.key peer next := by
  cases step_registry stepped with
  | spawn _ started =>
      rw [started.registry] at kept
      rcases List.mem_append.mp kept with older | newest
      · exact Or.inl older
      · rw [List.mem_singleton.mp newest]
        exact Or.inr ⟨_, rfl, rfl, started⟩
  | reap => exact Or.inl (List.mem_of_mem_filter kept)
  | drain _ begins =>
      have none_left : next.registry.records = [] := List.isEmpty_iff.mp begins.isEmpty
      rw [none_left] at kept
      cases kept
  | look _ _ looks => exact Or.inl (looks.registry ▸ kept)
  | pass elapsed => exact Or.inl ((registry_elapse elapsed).1 ▸ kept)
  | apart _ registry => exact Or.inl (registry ▸ kept)

theorem ended_endDrain {records : List Record} (member : record ∈ records)
    (found : world.worker? record.key = some worker) :
    (world.endDrain records).1.worker? record.key = some worker.stopped := by
  rw [worker?_endDrain, if_pos (List.mem_map_of_mem member), found, Option.map_some]

theorem Books.known_step (books : Books past world) (launches : action.LaunchesNew)
    (stepped : world.step action = some next)
    (member : record ∈ removed (past ++ [⟨world, action, next⟩]) ++ next.registry.records) :
    Knows (past ++ [⟨world, action, next⟩]) next record := by
  have older (member : record ∈ removed past ++ world.registry.records) :
      Knows (past ++ [⟨world, action, next⟩]) next record :=
    (books.known record member).step launches stepped _
  rw [removed_concat, List.append_assoc] at member
  rcases List.mem_append.mp member with gone | member
  · exact older (List.mem_append_left _ gone)
  · rcases List.mem_append.mp member with taken | kept
    · exact older (List.mem_append_right _ (record_removed stepped taken))
    · rcases record_before stepped kept with before | ⟨peer, rfl, id, started⟩
      · exact older (List.mem_append_right _ before)
      · refine ⟨_, started.worker, rfl, id.symm, ?_⟩
        rw [spawned_concat, started.spawned]
        exact List.mem_append_right _ List.mem_cons_self

theorem Books.ended_step (books : Books past world) (launches : action.LaunchesNew)
    (published : ∀ key worker, world.worker? key = some worker → worker.Published)
    (stepped : world.step action = some next)
    (member : record ∈ joined (past ++ [⟨world, action, next⟩])) :
    ∃ worker, next.worker? record.key = some worker ∧ worker.isEnded = true := by
  rw [joined_concat] at member
  rcases List.mem_append.mp member with older | newest
  · obtain ⟨worker, found, ended⟩ := books.ended record older
    obtain ⟨after, left, same⟩ := (step_fate launches stepped record.key).ended found ended
    exact ⟨after, left, by rw [Worker.isEnded_eq_phase, same, ← Worker.isEnded_eq_phase, ended]⟩
  · cases step_registry stepped with
    | reap =>
        obtain ⟨_, done⟩ := List.mem_filter.mp newest
        obtain ⟨worker, found, complete⟩ := hasDone_eq_true.mp done
        exact ⟨worker, found, by rw [← (published _ worker found).isComplete, complete]⟩
    | look draining _ looks =>
        cases looks with
        | last =>
            rw [joined_endDrain draining] at newest
            have underway : record ∈ world.underway := by rwa [underway, draining]
            have gone := books.joins.subset (List.mem_append_right _ underway)
            obtain ⟨worker, found, _⟩ := books.known record (List.mem_append_left _ gone)
            exact ⟨_, ended_endDrain newest found, worker.isEnded_stopped⟩
        | again =>
            rw [joined_again draining] at newest
            cases newest
    | spawn | drain | pass => cases newest
    | apart other =>
        rw [(Passage.apart other).joined] at newest
        cases newest

theorem Books.step (books : Books past world) (launches : action.LaunchesNew)
    (published : ∀ key worker, world.worker? key = some worker → worker.Published)
    (stepped : world.step action = some next) : Books (past ++ [⟨world, action, next⟩]) next := by
  have balance := step_balance stepped
  -- The ids of the step go on where those of the past end.
  have nextId := balance.nextId
  have ids := balance.ids
  rw [books.nextId] at nextId ids
  refine ⟨?_, ?_, ?_, ?_, fun record => books.known_step launches stepped,
    fun record => books.ended_step launches published stepped, balance.closed books.closed⟩
  · rw [spawned_concat, List.length_append, nextId, Nat.add_right_comm]
  · rw [spawned_concat, List.map_append, books.ids, ids, List.length_append, Nat.add_comm _ 1,
      List.range'_append_1]
  · rw [spawned_concat, removed_concat, List.append_assoc, List.map_append,
      List.map_append (f := Identity.id)]
    refine (balance.kept.append_left _).trans ?_
    rw [← List.append_assoc, ← List.map_append]
    exact books.kept.append_right _
  · rw [joined_concat, lost_concat, removed_concat]
    -- What the past has lost goes before what this step has joined.
    have sorted (here gone : List Record) : (joined past ++ here ++ (lost past ++ gone)).Perm
        (joined past ++ lost past ++ (here ++ gone)) := by
      rw [List.append_assoc, List.append_assoc]
      exact (List.perm_append_comm_assoc ..).append_left _
    refine ((sorted _ _).append_right _).trans ?_
    rw [List.append_assoc]
    refine (balance.joins.append_left _).trans ?_
    rw [← List.append_assoc]
    exact books.joins.append_right _

theorem Books.nodup (books : Books past world) :
    ((removed past ++ world.registry.records).map Record.id).Nodup := by
  rw [books.kept.nodup_iff, books.ids]
  exact List.nodup_range'

theorem Books.not_joined (books : Books past world) (gone : record ∈ lost past) :
    record ∉ joined past := by
  have distinct : (removed past).Nodup := by
    have nodup := books.nodup
    rw [List.map_append] at nodup
    exact .of_map Record.id (List.nodup_append.mp nodup).1
  rw [← books.joins.nodup_iff, List.append_assoc] at distinct
  exact fun joined => (List.nodup_append.mp distinct).2.2 record joined record
    (List.mem_append_left _ gone) rfl

theorem books_run (launches : ∀ action, action ∈ actions → action.LaunchesNew)
    (ran : (initial log lockTimeout readBuffer).steps actions = some final) :
    Books ((initial log lockTimeout readBuffer).passages actions) final := by
  refine passages_induction Books books_initial ?_ ran
  rintro early action late world next rfl reached books stepped
  have launchesEarly : ∀ action, action ∈ early → action.LaunchesNew :=
    fun action member => launches action (List.mem_append_left _ member)
  exact books.step (launches action (by simp))
    (fun key worker found => published_run launchesEarly reached found) stepped

theorem books_split {early late : List Passage} {passage : Passage}
    (launches : ∀ action, action ∈ actions → action.LaunchesNew)
    (split : (initial log lockTimeout readBuffer).passages actions = early ++ passage :: late) :
    Books early passage.before ∧ Books (early ++ [passage]) passage.after ∧
      passage.before.step passage.action = some passage.after := by
  obtain ⟨sooner, later, rfl, reached, rfl, stepped⟩ := passages_split split
  have launchesSooner : ∀ action, action ∈ sooner → action.LaunchesNew :=
    fun action member => launches action (List.mem_append_left _ member)
  have before := books_run launchesSooner reached
  exact ⟨before, before.step (launches passage.action (by simp))
    (fun key worker found => published_run launchesSooner reached found) stepped, stepped⟩

end World

end CommandLog
