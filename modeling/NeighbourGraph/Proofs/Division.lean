/-
Dividing the nodes among tasks.

Carried out one partition after the other, a phase works through all nodes in order, whatever the
partitions are: `same_phase_pass` puts every phase next to one pass over the nodes. Only the
reports of how far a phase has come depend on the partitions, so a search that is not told to stop
comes to the same, with the same events but these, however many tasks share a phase.
-/

import NeighbourGraph.Proofs.Search.BrokenOff
import NeighbourGraph.Proofs.Search.Run

namespace NeighbourGraph

open NeighbourGraph.Random NeighbourGraph.Search

/-! ### Setups -/

/-- The configuration with another number of tasks and another smallest batch. -/
def Config.divided (config : Config) (concurrency minBatchSize : Nat) (tasks : concurrency ≠ 0)
    (batch : minBatchSize ≠ 0) : Config where
  toSettings := { config.toSettings with concurrency, minBatchSize }
  valid := by
    have checks := config.checks_hold
    rw [Settings.fault, Option.map_eq_none_iff, List.find?_eq_none]
    simp_all [Settings.checks]

/-- The setup of a search whose phases are shared by another number of tasks. -/
def Setup.divided (setup : Setup) (concurrency minBatchSize : Nat) (tasks : concurrency ≠ 0)
    (batch : minBatchSize ≠ 0) : Setup :=
  { setup with config := setup.config.divided concurrency minBatchSize tasks batch }

section

variable (setup : Setup) {concurrency minBatchSize : Nat} (tasks : concurrency ≠ 0)
  (batch : minBatchSize ≠ 0)

@[simp] theorem Setup.divided_nodeCount :
    (setup.divided concurrency minBatchSize tasks batch).nodeCount = setup.nodeCount := rfl

@[simp] theorem Setup.divided_stopped :
    (setup.divided concurrency minBatchSize tasks batch).stopped = setup.stopped := rfl

@[simp] theorem Setup.divided_covered :
    (setup.divided concurrency minBatchSize tasks batch).Covered ↔ setup.Covered := Iff.rfl

end

/-- The report of how far a phase has come. -/
def Event.isAdvance : Event → Bool
  | .advanced _ => true
  | _ => false

/-- The events but the reports of how far a phase has come. -/
def Log.steps (log : Log) : List Event := log.toList.filter (!·.isAdvance)

namespace Search

/-! ### States -/

/-- The same lists, the same iterations and the same events but reports. -/
structure State.Regrouped (s t : State) : Prop where
  lists : s.lists = t.lists
  rounds : s.rounds = t.rounds
  steps : s.log.steps = t.log.steps

namespace State.Regrouped

variable {s t u : State}

theorem refl (s : State) : s.Regrouped s := ⟨rfl, rfl, rfl⟩

theorem symm (h : s.Regrouped t) : t.Regrouped s := ⟨h.lists.symm, h.rounds.symm, h.steps.symm⟩

theorem trans (h : s.Regrouped t) (h' : t.Regrouped u) : s.Regrouped u :=
  ⟨h.lists.trans h'.lists, h.rounds.trans h'.rounds, h.steps.trans h'.steps⟩

/-- The same work on both sides. -/
theorem working (h : s.Regrouped t) (lists : Array NeighbourList) (events : Log) :
    (s.working lists events).Regrouped (t.working lists events) where
  lists := rfl
  rounds := h.rounds
  steps := by
    have := h.steps
    simp only [Log.steps] at this
    simp [Log.steps, this]

end State.Regrouped

/-! ### Searches -/

/-- Started in states with the same lists, both searches come to the same and log the same events
but reports. -/
def Same {α : Type} (p q : Search α) : Prop :=
  ∀ s t, s.Regrouped t → (p.exec s).1 = (q.exec t).1 ∧ (p.exec s).2.Regrouped (q.exec t).2

section

variable {ι α β : Type} {p q r : Search α}

theorem Same.symm (h : Same p q) : Same q p :=
  fun s t related => (h t s related.symm).imp Eq.symm State.Regrouped.symm

theorem Same.trans (h : Same p q) (h' : Same q r) : Same p r := by
  intro s t related
  obtain ⟨value, after⟩ := h s t related
  obtain ⟨value', after'⟩ := h' t t (.refl t)
  exact ⟨value.trans value', after.trans after'⟩

theorem same_pure {a : α} : Same (pure a : Search α) (pure a) := fun _ _ related => ⟨rfl, related⟩

theorem Same.bind {f f' : α → Search β} (h : Same p q) (rest : ∀ a, Same (f a) (f' a)) :
    Same (p >>= f) (q >>= f') := by
  intro s t related
  rw [exec_bind, exec_bind]
  obtain ⟨value, after⟩ := h s t related
  generalize p.exec s = x at value after ⊢
  generalize q.exec t = y at value after ⊢
  obtain ⟨e | a, s'⟩ := x <;> obtain ⟨e' | a', t'⟩ := y <;> cases value
  · exact ⟨rfl, after⟩
  · exact rest a s' t' after

theorem congruence_same : Congruence Same where
  pure _ := same_pure
  bind := Same.bind
  rounds f _ _ related := ⟨rfl, related.lists, congrArg f related.rounds, related.steps⟩

theorem same_record (e : Event) : Same (record e) (record e) := by
  intro s t related
  refine ⟨rfl, ?_⟩
  rw [exec_record, exec_record, State.record_eq_working, State.record_eq_working, related.lists]
  exact related.working _ _

theorem Confined.same (h : Confined p) : Same p p := by
  intro s t related
  obtain ⟨events, -, same⟩ := h s
  rw [same t related.lists.symm]
  refine ⟨rfl, ?_⟩
  rw [show (p.exec s).2 = s.working (p.exec s).2.lists events from congrArg Prod.snd (same s rfl)]
  exact related.working _ _

/-! ### Phases -/

variable {setup : Setup}

theorem same_proceed (goesOn : ∀ log, setup.stopped log = false) (name : Phase) :
    Same (proceed setup name) (pure ()) := by
  intro s t related
  simp only [proceed, exec_bind, exec_atomic, goesOn]
  exact ⟨rfl, related⟩

/-- Questions and notes make no difference to the work on a node. -/
theorem same_node (goesOn : ∀ log, setup.stopped log = false) (name : Phase) (p : Partition)
    (v : Nat) {work : Search α} (h : Same work q) :
    Same (do checkpoint setup p v name; visit name v; work) q := by
  have asked : Same (checkpoint setup p v name) (pure ()) := by
    unfold checkpoint
    split
    · exact same_proceed goesOn name
    · exact same_pure
  have visited : Same (visit name v) (pure ()) :=
    fun s t related => ⟨rfl, related.lists, related.rounds, related.steps⟩
  exact asked.bind fun _ => visited.bind fun _ => h

/-- Reports of progress make no difference to the work of a task. -/
theorem same_overNodes (goesOn : ∀ log, setup.stopped log = false) (name : Phase)
    {work : Nat → Search α} (h : ∀ v, Same (work v) (work v)) (p : Partition) :
    Same (overNodes setup name work p) (p.nodes.mapM work) := by
  have reported : Same (record (.advanced p.count)) (pure ()) := by
    refine fun s t related => ⟨rfl, related.lists, related.rounds, ?_⟩
    simpa [State.record, Log.steps, Event.isAdvance] using related.steps
  have nodes : Same (p.nodes.mapM fun v => do checkpoint setup p v name; visit name v; work v)
      (p.nodes.mapM work) := congruence_same.mapM fun v _ => same_node goesOn name p v (h v)
  have all : Same (overNodes setup name work p) (p.nodes.mapM work >>= pure) :=
    nodes.bind fun _ => reported.bind fun _ => same_pure
  rwa [bind_pure] at all

/-- Tasks that follow one another work through the nodes of all of them. -/
theorem same_tasks (goesOn : ∀ log, setup.stopped log = false) (name : Phase)
    {work : Nat → Search α} (h : ∀ v, Same (work v) (work v)) (ps : List Partition) :
    Same (do let answers ← ps.mapM (overNodes setup name work); return answers.flatten)
      ((ps.flatMap Partition.nodes).mapM work) := by
  induction ps with
  | nil => exact same_pure
  | cons p ps ih =>
    rw [List.mapM_cons, List.flatMap_cons, List.mapM_append]
    have both : Same (overNodes setup name work p >>= fun first =>
        (do let answers ← ps.mapM (overNodes setup name work); return answers.flatten) >>=
          fun rest => pure (first ++ rest)) _ :=
      (same_overNodes goesOn name h p).bind fun _ => ih.bind fun _ => same_pure
    simpa using both

/-- One pass over all nodes, in order. -/
def pass (nodeCount : Nat) (name : Phase) (work : Nat → Search α) : Search (List α) := do
  record (.started name nodeCount)
  let answers ← (List.range nodeCount).mapM work
  record (.ended name)
  return answers

/-- A phase is one pass over all nodes, whatever its partitions are. -/
theorem same_phase_pass (goesOn : ∀ log, setup.stopped log = false) (name : Phase)
    {work : Nat → Search α} (h : ∀ v, Same (work v) (work v)) :
    Same (phase setup Turns.inOrder name work) (pass setup.nodeCount name work) := by
  have nodes : setup.tasks.flatMap Partition.nodes = List.range setup.nodeCount :=
    flatMap_nodes_partitions ..
  have tasks := same_tasks goesOn name h setup.tasks
  rw [nodes] at tasks
  have all : Same (record (.started name setup.nodeCount) >>= fun _ =>
      (do
        let answers ← setup.tasks.mapM (overNodes setup name work)
        return answers.flatten) >>= fun answers =>
        record (.ended name) >>= fun _ => pure answers) (pass setup.nodeCount name work) :=
    (same_record _).bind fun _ => tasks.bind fun _ => (same_record _).bind fun _ => same_pure
  rw [phase_inOrder]
  simpa using all

/-! ### Searches under another division -/

variable {concurrency minBatchSize : Nat} {tasks : concurrency ≠ 0} {batch : minBatchSize ≠ 0}

/-- Under two divisions a phase comes to the same. -/
theorem same_phase (goesOn : ∀ log, setup.stopped log = false) (name : Phase)
    {work work' : Nat → Search α} (h : ∀ v, Same (work v) (work' v)) :
    Same (phase (setup.divided concurrency minBatchSize tasks batch) Turns.inOrder name work)
      (phase setup Turns.inOrder name work') := by
  have passes : Same (pass setup.nodeCount name work) (pass setup.nodeCount name work') :=
    (same_record _).bind fun _ => (congruence_same.mapM fun v _ => h v).bind fun _ =>
      (same_record _).bind fun _ => same_pure
  have divided : Same
      (phase (setup.divided concurrency minBatchSize tasks batch) Turns.inOrder name work)
      (pass setup.nodeCount name work) :=
    same_phase_pass (by simpa using goesOn) name fun v => (h v).trans (h v).symm
  have whole := same_phase_pass goesOn name fun v => (h v).symm.trans (h v)
  exact divided.trans (passes.trans whole.symm)

theorem same_ask (goesOn : ∀ log, setup.stopped log = false) (name : Phase) :
    Same (proceed (setup.divided concurrency minBatchSize tasks batch) name)
      (proceed setup name) :=
  Same.trans (same_proceed (by simpa using goesOn) name) (same_proceed goesOn name).symm

theorem phases_same (goesOn : ∀ log, setup.stopped log = false) :
    Phases Same (setup.divided concurrency minBatchSize tasks batch) setup .inOrder where
  toCongruence := congruence_same
  proceed := same_ask goesOn
  report _ := same_record _
  phase name _ {_} {_} {_} h := same_phase goesOn name h

theorem steps_same : Steps Same (setup.divided concurrency minBatchSize tasks batch) setup
    fun _ => True where
  toChained := congruence_same.toChained
  rules := ⟨rfl, rfl, rfl, rfl, rfl⟩
  consider v c part g := ((steps_confined setup).consider v c part g).same
  joinBoth a b part symmetric g := ((steps_confined setup).joinBoth a b part symmetric g).same
  failed _ := confined_failed.same
  listOf v := (confined_listOf v).same
  offered _ _ := same_record _
  splitNode sampled v g := (confinedWork_splitNode sampled v g).same

theorem same_descend (goesOn : ∀ log, setup.stopped log = false) (k : ListSize) :
    Same (descend (setup.divided concurrency minBatchSize tasks batch) .inOrder k)
      (descend setup .inOrder k) := by
  have extent : (setup.divided concurrency minBatchSize tasks batch).SameExtent setup :=
    ⟨⟨rfl, rfl, rfl⟩, rfl, rfl⟩
  refine (phases_same goesOn).descend steps_same (fun _ _ => trivial) extent ?_ ?_ k
  · exact fun _ v => (confined_withList v _ _).same
  · exact fun _ _ related => ⟨congrArg Except.ok related.lists, related⟩

end

/-- What a run came to but for its reports: its outcome, the account of its iterations and the
events that do not depend on partitions. -/
structure Run.Same (r r' : Run) : Prop where
  outcome : r.outcome = r'.outcome
  rounds : r.rounds = r'.rounds
  steps : r.log.steps = r'.log.steps

theorem same_run {setup : Setup} (goesOn : ∀ log, setup.stopped log = false)
    {concurrency minBatchSize : Nat} (tasks : concurrency ≠ 0) (batch : minBatchSize ≠ 0) :
    Run.Same (run (setup.divided concurrency minBatchSize tasks batch)) (run setup) := by
  have way := outset .inOrder setup
  unfold run
  generalize runUnder .inOrder setup = r at way ⊢
  cases way with
  | uncovered nodes ne =>
    have nodes' : (setup.divided concurrency minBatchSize tasks batch).metric.nodeCount = some _ :=
      nodes
    rw [runUnder_of_not_covered nodes' ne]
    exact ⟨rfl, rfl, rfl⟩
  | few covered few =>
    rw [runUnder_of_few ((setup.divided_covered tasks batch).2 covered) few]
    exact ⟨rfl, rfl, rfl⟩
  | told _ _ told => simp [goesOn] at told
  | @goesOn k covered others told size =>
    rw [runUnder_of_goesOn ((setup.divided_covered tasks batch).2 covered) others told size,
      Setup.divided_nodeCount]
    have descends : Same (descend (setup.divided concurrency minBatchSize tasks batch)
      .inOrder k) (descend setup .inOrder k) := same_descend goesOn k
    obtain ⟨outcome, after⟩ := descends (State.start setup.nodeCount k.bounded) _ (.refl _)
    generalize (descend setup .inOrder k).exec _ = r at outcome after ⊢
    generalize (descend (setup.divided concurrency minBatchSize tasks batch) .inOrder k).exec _ = r'
      at outcome after ⊢
    exact ⟨outcome, congrArg Array.toList after.rounds, after.steps⟩

end Search

/-- **How nodes are divided among tasks makes no difference**, as long as the tasks of a phase
follow one another and the search is not told to stop: for any two numbers of tasks and smallest
batches it has the same outcome, iterations that did the same, and the same events but reports of
how far a phase has come. In particular the announcements of lists and of scored candidates follow
each other in the same way. -/
theorem divided_alike (setup : Setup) (goesOn : ∀ log, setup.stopped log = false)
    {concurrency concurrency' minBatchSize minBatchSize' : Nat} (tasks : concurrency ≠ 0)
    (tasks' : concurrency' ≠ 0) (batch : minBatchSize ≠ 0) (batch' : minBatchSize' ≠ 0) :
    let r := run (setup.divided concurrency minBatchSize tasks batch)
    let r' := run (setup.divided concurrency' minBatchSize' tasks' batch')
    r.outcome = r'.outcome ∧ r.rounds = r'.rounds ∧ r.log.steps = r'.log.steps := by
  have first := same_run goesOn tasks batch
  have second := same_run goesOn tasks' batch'
  exact ⟨first.outcome.trans second.outcome.symm, first.rounds.trans second.rounds.symm,
    first.steps.trans second.steps.symm⟩

theorem fourNodes_divided_alike :
    (run (fourNodes.divided 1 4 (by decide) (by decide))).outcome.isOk = true ∧
      (run (fourNodes.divided 1 4 (by decide) (by decide))).outcome =
        (run (fourNodes.divided 4 1 (by decide) (by decide))).outcome := by
  have found : (run (fourNodes.divided 1 4 (by decide) (by decide))).outcome.isOk = true := by
    decide +kernel
  exact ⟨found, (divided_alike fourNodes (fun _ => rfl) (by decide) (by decide) (by decide)
    (by decide)).1⟩

end NeighbourGraph
