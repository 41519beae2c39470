/-
Searches ask for nothing that is not there.

For every graph, metric, filter and configuration, and however tasks take turns: every pair that is
scored consists of two distinct nodes, every list and every row of candidates that is looked up is
there, and no count is drawn from an empty range. What a graph names as targets cannot change that:
a walk keeps nodes only, lists hold nothing else, and the working sets of a node are made of what
lists hold and of nodes that have lists.
-/

import NeighbourGraph.Proofs.Failures
import NeighbourGraph.Proofs.Guarded.Agreement
import NeighbourGraph.Search.Filtered

namespace NeighbourGraph

open NeighbourGraph.Random NeighbourGraph.Search

/-! ### Maps of candidates -/

/-- There is a row for each node in every map of candidates. -/
structure Candidates.Full (c : Candidates) (nodeCount : Nat) : Prop where
  old : c.old.size = nodeCount
  new : c.new.size = nodeCount
  reverseOld : c.reverseOld.size = nodeCount
  reverseNew : c.reverseNew.size = nodeCount

theorem Candidates.full_of_parts {parts : List NeighbourList.Parts} {nodeCount : Nat}
    (length : parts.length = nodeCount) :
    Full { old := (parts.map (·.old)).toArray, new := (parts.map (·.new)).toArray } nodeCount where
  old := by simpa using length
  new := by simpa using length
  reverseOld := by simpa using length
  reverseNew := by simpa using length

theorem IsPair.symm {nodeCount a b : Nat} (h : IsPair nodeCount a b) : IsPair nodeCount b a :=
  ⟨h.2.1, h.1, h.2.2.symm⟩

namespace Guarded

section

variable {setup : Setup} {α : Type} {P : α → Prop}

/-! ### Steps -/

theorem guards_record {e : Event}
    (he : ∀ left right, e.pair? = some (left, right) → IsPair setup.nodeCount left right) :
    Guards setup.nodeCount (fun _ => True) (record e) (liftM (record e)) :=
  guards_lift (tracks_atomic (fun _ _ => rfl) (fun _ tame => tame.record he)
    fun _ _ => ⟨rfl, trivial⟩)

theorem guards_report {e : Event} (he : e.isProgress = true) :
    Guards setup.nodeCount (fun _ => True) (record e) (liftM (record e)) :=
  guards_record fun left right pair => by cases e <;> simp_all [Event.isProgress, Event.pair?]

theorem guards_visit (name : Phase) (v : Nat) :
    Guards setup.nodeCount (fun _ => True) (visit name v) (liftM (visit name v)) :=
  guards_lift (tracks_atomic (fun _ _ => rfl) (fun _ tame => tame.visit name v)
    fun _ _ => ⟨rfl, trivial⟩)

theorem guards_setRounds (f : Array (Option Tally) → Array (Option Tally)) :
    Guards setup.nodeCount (fun _ => True) (atomic fun s => ((), { s with rounds := f s.rounds }))
      (liftM (atomic fun s => ((), { s with rounds := f s.rounds }))) :=
  guards_lift (tracks_atomic (fun _ _ => rfl) (fun _ tame => tame.setRounds _)
    fun _ _ => ⟨rfl, trivial⟩)

theorem guards_failed (cause : SearchError) :
    Guards setup.nodeCount P (.failed cause) (liftM (Search.failed cause : Search α)) :=
  guards_lift (.failed cause)

theorem guards_proceed (name : Phase) :
    Guards setup.nodeCount (fun _ => True) (proceed setup name) (liftM (proceed setup name)) := by
  apply guards_lift
  refine (tracks_atomic (R := Eq) (fun _ _ => rfl) (fun _ => id) fun _ _ => rfl).bind ?_
  rintro told _ rfl
  cases told with
  | true => exact .failed _
  | false => exact .done ⟨rfl, trivial⟩

theorem guards_checkpoint (p : Partition) (v : Nat) (name : Phase) :
    Guards setup.nodeCount (fun _ => True) (checkpoint setup p v name)
      (liftM (checkpoint setup p v name)) := by
  unfold checkpoint
  split
  · exact guards_proceed name
  · exact guards_lift (.done ⟨rfl, trivial⟩)

theorem requirePair_eq {a b : Nat} (pair : IsPair setup.nodeCount a b) :
    requirePair setup a b = pure () :=
  if_pos pair

theorem guards_score (origin : Origin) {a b : Nat} (pair : IsPair setup.nodeCount a b) :
    Guards setup.nodeCount (fun _ => True) (Search.score setup origin a b)
      (score setup origin a b) := by
  unfold score
  rw [requirePair_eq pair, pure_bind]
  apply guards_lift
  refine (tracks_atomic (R := fun _ _ => True) (fun _ _ => rfl)
    (fun _ tame => tame.record (e := .scored origin a b) ?_) fun _ _ => trivial).bind ?_
  · intro _ _ _
    cases setup.metric.score a b with
    | ok x => exact .done ⟨rfl, trivial⟩
    | error cause => exact .failed _
  · rintro _ _ ⟨⟩
    exact pair

theorem guards_announce {a b : Nat} (pair : IsPair setup.nodeCount a b) (x : Float) :
    Guards setup.nodeCount (fun _ => True) (record (.considered a b x)) (announce setup a b x) := by
  unfold announce
  rw [requirePair_eq pair, pure_bind]
  refine guards_record ?_
  rintro _ _ ⟨⟩
  exact pair

/-- An action that needs the list of a node has it. -/
theorem guards_onList {v : Nat} (hv : v < setup.nodeCount) {action : State → α × State}
    (keeps : ∀ s, Tame setup.nodeCount s → Tame setup.nodeCount (action s).2)
    (gives : ∀ s, Tame setup.nodeCount s → P (action s).1) :
    Guards setup.nodeCount P (atomic action) (onList v (atomic action)) := by
  have there : ∀ s : State, Tame setup.nodeCount s → v < s.lists.size :=
    fun s tame => tame.size.symm ▸ hv
  refine .act (fun s tame => ?_) keeps fun s tame => ?_
  · rw [if_pos (there s tame)]
  · rw [if_pos (there s tame)]
    exact .done ⟨rfl, gives s tame⟩

theorem guards_listOf {v : Nat} (hv : v < setup.nodeCount) :
    Guards setup.nodeCount (fun _ => True) (listOf v) (onList v (listOf v)) :=
  guards_onList hv (fun _ => id) fun _ _ => trivial

theorem guards_dropNode (cutoff : Float) {v : Nat} (hv : v < setup.nodeCount) :
    Guards setup.nodeCount (fun _ => True) (dropNode cutoff v) (onList v (dropNode cutoff v)) := by
  refine guards_onList hv (fun s tame => tame.withList v () fun l held id hid => ?_)
    fun _ _ => trivial
  obtain ⟨e, he, rfl⟩ := List.mem_map.1 hid
  exact held e.id (List.mem_map_of_mem (List.mem_of_mem_filter he))

theorem workGuards_offer (origin : Origin) {v c : Nat} (hv : v < setup.nodeCount)
    (hc : c < setup.nodeCount) (x : Float) :
    WorkGuards setup.nodeCount (fun _ => True) (Search.offer setup origin v c x)
      (offer setup origin v c x) := by
  refine fun g => guards_onList hv (fun s tame => ?_) fun _ _ => trivial
  refine (tame.withList v (false, g) fun l held id hid => ?_).countEntered origin v c
  obtain ⟨e, he, rfl⟩ := List.mem_map.1 hid
  rcases (l.offered_add c x setup.config.perturbationRate g).mem he with he | rfl
  · exact held e.id (List.mem_map_of_mem he)
  · exact hc

theorem workGuards_consider (origin : Origin) {v c : Nat} (pair : IsPair setup.nodeCount v c) :
    WorkGuards setup.nodeCount (fun _ => True) (Search.consider setup origin v c)
      (consider setup origin v c) :=
  (workGuards_lift (guards_score origin pair)).bind fun x _ =>
    (workGuards_lift (guards_announce pair x)).bind fun _ _ =>
      (workGuards_offer origin pair.1 pair.2.1 x).bind fun _ _ => workGuards_pure trivial

/-! ### The work on a node -/

theorem workGuards_sampleCandidates (v count : Nat) :
    WorkGuards setup.nodeCount
      (fun candidates => ∀ c ∈ candidates, Sampler.IsOther setup.nodeCount v c)
      (Search.sampleCandidates setup v count) (sampleCandidates setup v count) := by
  refine (workGuards_draw (agrees_sample setup.config.sampler setup.graph v count)
    (P := fun r => ∀ candidates, r = Except.ok candidates →
      ∀ c ∈ candidates, Sampler.IsOther setup.nodeCount v c)
    (Sampler.gives_sample setup.config.sampler setup.graph v count)).bind fun r given => ?_
  cases r with
  | ok candidates => exact workGuards_pure (given candidates rfl)
  | error cause => exact workGuards_lift (guards_failed _)

theorem workGuards_tryCandidate {v c : Nat} (hv : v < setup.nodeCount)
    (other : Sampler.IsOther setup.nodeCount v c) :
    WorkGuards setup.nodeCount (fun _ => True) (Search.tryCandidate setup v c)
      (tryCandidate setup v c) := by
  unfold Search.tryCandidate tryCandidate
  split
  · exact workGuards_pure trivial
  · exact workGuards_consider .sampling ⟨hv, other.1, other.2.symm⟩

theorem workGuards_fillNode (count : Nat) {v : Nat} (hv : v < setup.nodeCount) :
    WorkGuards setup.nodeCount (fun _ => True) (Search.fillNode setup count v)
      (fillNode setup count v) :=
  (workGuards_sampleCandidates v count).bind fun _ others =>
    (WorkGuards.mapM fun c hc => workGuards_tryCandidate hv (others c hc)).bind fun _ _ =>
      (workGuards_lift (guards_listOf hv)).bind fun ids _ =>
        (workGuards_lift (guards_record (by simp [Event.pair?]))).bind fun _ _ =>
          workGuards_pure trivial

/-- What a list of nodes hands out are nodes. -/
theorem workGuards_splitNode (sampled : Nat) {v : Nat} (hv : v < setup.nodeCount) :
    WorkGuards setup.nodeCount
      (fun parts => ∀ id, id ∈ parts.old ∨ id ∈ parts.new → id < setup.nodeCount)
      (Search.splitNode sampled v) (splitNode sampled v) := by
  intro g
  have there : ∀ s : State, Tame setup.nodeCount s → ∃ l, s.lists[v]? = some l ∧ l ∈ s.lists := by
    intro s tame
    have lt : v < s.lists.size := tame.size.symm ▸ hv
    exact ⟨s.lists[v], Array.getElem?_eq_getElem lt, Array.getElem_mem lt⟩
  refine tracks_atomic (fun s tame => ?_) (fun s tame => ?_) fun s tame => ?_
  · obtain ⟨l, hl, -⟩ := there s tame
    simp only [hl, State.withList, agrees_split l sampled g]
    rfl
  · refine tame.withList v _ fun l held id hid => held id ?_
    rw [NeighbourList.ids_eq_map_neighbours] at hid ⊢
    exact (NeighbourList.sameNeighbours_split l sampled g).neighbours ▸ hid
  · obtain ⟨l, hl, mem⟩ := there s tame
    simp only [hl, State.withList, agrees_split l sampled g]
    refine ⟨rfl, fun id hid => tame.ids l mem id ?_⟩
    exact (NeighbourList.handedOut_split l sampled g).mem_ids hid

theorem workGuards_joinOne (origin : Origin) {a b : Nat} (ha : a < setup.nodeCount)
    (hb : b < setup.nodeCount) :
    WorkGuards setup.nodeCount (fun _ => True) (Search.joinOne setup origin a b)
      (joinOne setup origin a b) := by
  unfold Search.joinOne joinOne
  split
  · exact workGuards_pure trivial
  · next distinct =>
    simp only [Bool.or_eq_true, decide_eq_true_eq, not_or] at distinct
    exact workGuards_consider origin ⟨ha, hb, distinct.1⟩

theorem workGuards_joinBoth {a b : Nat} (pair : IsPair setup.nodeCount a b) :
    WorkGuards setup.nodeCount (fun _ => True) (Search.joinBoth setup a b)
      (joinBoth setup a b) := by
  unfold Search.joinBoth joinBoth
  split
  · exact workGuards_pure trivial
  · exact (workGuards_lift (guards_score .pairing pair)).bind fun x _ =>
      (workGuards_lift (guards_announce pair x)).bind fun _ _ =>
        (workGuards_lift (guards_announce pair.symm x)).bind fun _ _ =>
          (workGuards_offer .joining pair.1 pair.2.1 x).bind fun _ _ =>
            (workGuards_offer .joining pair.2.1 pair.1 x).bind fun _ _ => workGuards_pure trivial

theorem workGuards_joinPair {a b : Nat} (ha : a < setup.nodeCount) (hb : b < setup.nodeCount) :
    WorkGuards setup.nodeCount (fun _ => True) (Search.joinPair setup a b)
      (joinPair setup a b) := by
  unfold Search.joinPair joinPair
  split
  · exact workGuards_pure trivial
  · next ne =>
    split
    · exact workGuards_joinBoth ⟨ha, hb, ne⟩
    · exact (workGuards_joinOne .joining ha hb).bind fun _ _ =>
        (workGuards_joinOne .joining hb ha).bind fun _ _ => workGuards_pure trivial

theorem workGuards_joinWith {first : Nat} {others : List Nat} (hf : first < setup.nodeCount)
    (ho : ∀ x ∈ others, x < setup.nodeCount) :
    WorkGuards setup.nodeCount (fun _ => True) (Search.joinWith setup first others)
      (joinWith setup first others) :=
  (WorkGuards.mapM fun x hx => workGuards_joinPair hf (ho x hx)).bind fun _ _ =>
    workGuards_pure trivial

theorem workGuards_joinNew {v : Nat} {old new : List Nat} (hv : v < setup.nodeCount)
    (hold : ∀ x ∈ old, x < setup.nodeCount) (hnew : ∀ x ∈ new, x < setup.nodeCount) :
    WorkGuards setup.nodeCount (fun _ => True) (Search.joinNew setup v old new)
      (joinNew setup v old new) := by
  induction new with
  | nil => exact workGuards_pure trivial
  | cons first rest ih =>
    have hf := hnew first (by simp)
    have hr : ∀ x ∈ rest, x < setup.nodeCount := fun x hx => hnew x (by simp [hx])
    exact (workGuards_joinOne .joining hf hv).bind fun _ _ =>
      (workGuards_joinWith hf hr).bind fun _ _ => (workGuards_joinWith hf hold).bind fun _ _ =>
        (ih hr).bind fun _ _ => workGuards_pure trivial

theorem workGuards_joinRandom (others : 2 ≤ setup.nodeCount) {v : Nat} (hv : v < setup.nodeCount)
    (count : Nat) :
    WorkGuards setup.nodeCount (fun _ => True) (Search.joinRandom setup v count)
      (joinRandom setup v count) := by
  have pos : 0 < setup.nodeCount - 1 := by omega
  have one : WorkGuards setup.nodeCount (fun _ => True) (Search.joinOther setup v)
      (joinOther setup v) :=
    (workGuards_draw (agrees_below pos) (below_lt pos)).bind fun number lt =>
      workGuards_joinOne .chance hv (Sampler.isOther_skip lt).1
  exact (WorkGuards.mapM fun _ _ => one).bind fun _ _ => workGuards_pure trivial

theorem row_eq {m : IdMap} {v : Nat} (hv : v < m.size) : row m v = pure (m.of v) := by
  simp [row, IdMap.of, hv]

theorem workGuards_joinNode (others : 2 ≤ setup.nodeCount) {c : Candidates}
    (known : c.Known setup.nodeCount) (full : c.Full setup.nodeCount) (sampled : Nat) {v : Nat}
    (hv : v < setup.nodeCount) :
    WorkGuards setup.nodeCount (fun _ => True) (Search.joinNode setup c sampled v)
      (joinNode setup c sampled v) := by
  have nodes : ∀ {base reverse : List Nat}, (∀ x ∈ base, x < setup.nodeCount) →
      (∀ x ∈ reverse, x < setup.nodeCount) → ∀ g,
      ∀ x ∈ (Search.workingSet base reverse sampled g).1, x < setup.nodeCount :=
    fun hb hr g x hx => (mem_workingSet hx).elim (hb x) (hr x)
  unfold joinNode
  rw [row_eq (full.old ▸ hv), row_eq (full.reverseOld ▸ hv), row_eq (full.new ▸ hv),
    row_eq (full.reverseNew ▸ hv)]
  exact (workGuards_draw (agrees_workingSet _ _ _) (nodes (known.old v) (known.reverseOld v))).bind
    fun old hold => (workGuards_draw (agrees_workingSet _ _ _)
      (nodes (known.new v) (known.reverseNew v))).bind fun new hnew =>
        (workGuards_joinNew hv hold hnew).bind fun _ _ =>
          (workGuards_joinRandom others hv _).bind fun _ _ => workGuards_pure trivial

/-! ### Phases -/

theorem guards_overNodes {work : Nat → Search α} {work' : Nat → GuardedSearch α} (name : Phase)
    {p : Partition} (h : ∀ v ∈ p.nodes, Guards setup.nodeCount P (work v) (work' v)) :
    Guards setup.nodeCount (List.Forall₂ (fun _ a => P a) p.nodes)
      (Search.overNodes setup name work p) (overNodes setup name work' p) :=
  Guards.bind (Guards.mapM fun v hv => Guards.bind (guards_checkpoint p v name) fun _ _ =>
    Guards.bind (guards_visit name v) fun _ _ => h v hv) fun _ answers =>
      Guards.bind (guards_report rfl) fun _ _ => guards_pure answers

/-- A phase has an answer for each node. -/
theorem guards_phase {work : Nat → Search α} {work' : Nat → GuardedSearch α}
    (h : ∀ v < setup.nodeCount, Guards setup.nodeCount P (work v) (work' v)) (turns : Turns)
    (name : Phase) :
    Guards setup.nodeCount (fun as => as.length = setup.nodeCount ∧ ∀ a ∈ as, P a)
      (Search.phase setup turns name work) (phase setup turns name work') := by
  have nodes : (setup.tasks.map Partition.nodes).flatten = List.range setup.nodeCount :=
    flatMap_nodes_partitions ..
  have known : ∀ p ∈ setup.tasks, ∀ v ∈ p.nodes, v < setup.nodeCount := fun p hp v hv =>
    List.mem_range.1 (nodes ▸ List.mem_flatten.2 ⟨p.nodes, List.mem_map_of_mem hp, hv⟩)
  have tasks := guards_together (fun p hp => guards_overNodes name
    fun v hv => h v (known p hp v hv)) turns
  refine Guards.bind (guards_report rfl) fun _ _ => Guards.bind tasks fun answers each =>
    Guards.bind (guards_report rfl) fun _ _ => guards_pure ?_
  have all : List.Forall₂ (fun _ a => P a) (List.range setup.nodeCount) answers.flatten :=
    nodes ▸ List.rel_flatten (List.forall₂_map_left_iff.2 each)
  constructor
  · simpa using all.length_eq.symm
  · intro a ha
    obtain ⟨i, hi, rfl⟩ := List.mem_iff_getElem.1 ha
    exact all.get (all.length_eq.symm ▸ hi) hi

theorem guards_fill (turns : Turns) (stream : Stream) (count : Nat) :
    Guards setup.nodeCount (fun _ => True) (Search.fill setup turns stream count)
      (fill setup turns stream count) :=
  Guards.bind (guards_phase (fun _ hv => guards_seeded (workGuards_fillNode count hv) stream _)
    turns .initialization) fun _ _ => guards_pure trivial

/-- What is handed out for an iteration are nodes, and there is a row for each node. -/
theorem guards_candidates (turns : Turns) (stream : Stream) (sampled : Nat) :
    Guards setup.nodeCount (fun c => c.Known setup.nodeCount ∧ c.Full setup.nodeCount)
      (Search.candidates setup turns stream sampled) (candidates setup turns stream sampled) :=
  Guards.bind (guards_proceed .split) fun _ _ =>
    Guards.bind (guards_phase
      (fun _ hv => guards_seeded (workGuards_splitNode sampled hv) stream _) turns .split)
      fun _ handedOut =>
    Guards.bind (guards_proceed .reverse) fun _ _ => Guards.bind (guards_report rfl) fun _ _ =>
      Guards.bind (guards_report rfl) fun _ _ => Guards.bind (guards_report rfl) fun _ _ =>
        guards_pure ⟨Candidates.known_of_parts handedOut.1 handedOut.2,
          Candidates.full_of_parts handedOut.1⟩

theorem guards_join (others : 2 ≤ setup.nodeCount) {c : Candidates}
    (known : c.Known setup.nodeCount) (full : c.Full setup.nodeCount) (turns : Turns)
    (stream : Stream) (sampled : Nat) :
    Guards setup.nodeCount (fun _ => True) (Search.join setup turns c stream sampled)
      (join setup turns c stream sampled) :=
  Guards.bind (guards_proceed .join) fun _ _ =>
    Guards.bind (guards_phase
      (fun _ hv => guards_seeded (workGuards_joinNode others known full sampled hv) stream _)
      turns .join) fun _ _ => guards_pure trivial

/-! ### Whole searches -/

theorem guards_iteration (others : 2 ≤ setup.nodeCount) (turns : Phase → Turns) (sampled : Nat)
    (splitStream joinStream : Stream) :
    Guards setup.nodeCount (fun _ => True)
      (Search.iteration setup turns sampled splitStream joinStream)
      (iteration setup turns sampled splitStream joinStream) :=
  Guards.bind (guards_setRounds (·.push none)) fun _ _ =>
    Guards.bind (guards_candidates (turns .split) splitStream sampled) fun _ fit =>
      Guards.bind (guards_join others fit.1 fit.2 (turns .join) joinStream sampled) fun tally _ =>
        Guards.bind (guards_setRounds (·.pop.push (some tally))) fun _ _ => guards_pure trivial

theorem guards_iterate (others : 2 ≤ setup.nodeCount) (schedule : Schedule)
    (sampled threshold : Nat) (streams : Streams) (soFar : Refinement) (limit : Nat) :
    Guards setup.nodeCount (fun _ => True)
      (Search.iterate setup schedule sampled threshold streams soFar limit)
      (iterate setup schedule sampled threshold streams soFar limit) := by
  induction limit generalizing streams soFar with
  | zero => exact guards_pure trivial
  | succ limit ih =>
    refine Guards.bind (guards_iteration others _ sampled _ _) fun tally _ => ?_
    split
    · exact guards_pure trivial
    · exact ih _ _

theorem guards_applyCutoff (turns : Turns) :
    Guards setup.nodeCount (fun _ => True) (Search.applyCutoff setup turns)
      (applyCutoff setup turns) := by
  unfold Search.applyCutoff applyCutoff
  dsimp only
  split
  · exact Guards.bind (guards_proceed .cutoff) fun _ _ =>
      Guards.bind (guards_phase (fun _ hv => guards_dropNode _ hv) turns .cutoff) fun _ _ =>
        guards_pure trivial
  · exact guards_pure trivial

theorem guards_descend (others : 2 ≤ setup.nodeCount) (schedule : Schedule) (k : ListSize) :
    Guards setup.nodeCount (fun _ => True) (Search.descend setup schedule k)
      (descend setup schedule k) := by
  have refined : Guards setup.nodeCount (fun _ => True)
      (Search.refine setup schedule k setup.config.maxIterations)
      (refine setup schedule k setup.config.maxIterations) :=
    Guards.bind (guards_fill _ _ _) fun _ _ => guards_iterate others _ _ _ _ _ _
  exact Guards.bind refined fun _ _ => Guards.bind (guards_applyCutoff _) fun _ _ =>
    Guards.bind (guards_lift (P := fun _ => True) (tracks_atomic (fun _ _ => rfl) (fun _ => id)
      fun _ _ => ⟨rfl, trivial⟩)) fun _ _ => guards_pure trivial

end

end Guarded

/-! ### Runs -/

namespace Search

/-- A run that asks for nothing that is not there, and a log of pairs of distinct nodes. -/
def SafeRun (nodeCount : Nat) (guarded : Except Guarded.Fault Run) (run : Run) : Prop :=
  guarded = .ok run ∧ ∀ e ∈ run.log, ∀ left right, e.pair? = some (left, right) →
    IsPair nodeCount left right

theorem safeRun_go (schedule : Schedule) (setup : Setup) :
    SafeRun setup.nodeCount (Guarded.runUnder.go schedule setup)
      (runUnder.go schedule setup setup.nodeCount) := by
  unfold Guarded.runUnder.go runUnder.go
  by_cases few : setup.nodeCount < 2
  · rw [if_pos few, if_pos few]
    exact ⟨rfl, by simp⟩
  rw [if_neg few, if_neg few]
  by_cases told : setup.stopped #[] = true
  · rw [if_pos told, if_pos told]
    exact ⟨rfl, by simp⟩
  rw [if_neg told, if_neg told]
  cases ListSize.of setup.config.topK setup.config.sampleRate setup.nodeCount with
  | error cause => exact ⟨rfl, by simp⟩
  | ok k =>
    obtain ⟨same, tame⟩ :=
      (Guarded.guards_descend (by omega) schedule k).exec (.start setup.nodeCount k.bounded)
    simp only [same]
    generalize (descend setup schedule k).exec (.start setup.nodeCount k.bounded) = ended at tame
    obtain ⟨outcome, s⟩ := ended
    cases outcome with
    | error cause => exact ⟨rfl, tame.pairs⟩
    | ok result => exact ⟨rfl, tame.pairs⟩

theorem safeRun (schedule : Schedule) (setup : Setup) :
    SafeRun setup.nodeCount (Guarded.runUnder schedule setup) (runUnder schedule setup) := by
  unfold Guarded.runUnder runUnder
  cases setup.metric.nodeCount with
  | none => exact safeRun_go schedule setup
  | some covered =>
    dsimp only
    by_cases ne : covered ≠ setup.nodeCount
    · rw [if_pos ne, if_pos ne]
      exact ⟨rfl, by simp⟩
    · rw [if_neg ne, if_neg ne]
      exact safeRun_go schedule setup

/-- **Runs are safe.** For every setup and however tasks take turns: the guarded run has no fault
and is the run, every pair that is scored or announced with its score consists of two distinct
nodes, a search for chosen nodes logs the same, and a walk fails only where the weights of a node
have no finite sum. -/
theorem runUnder_safe (schedule : Schedule) (setup : Setup) :
    Guarded.runUnder schedule setup = .ok (runUnder schedule setup) ∧
      (∀ e ∈ (runUnder schedule setup).log, ∀ left right, e.pair? = some (left, right) →
        left < setup.nodeCount ∧ right < setup.nodeCount ∧ left ≠ right) ∧
      (∀ source target,
        (runFilteredUnder schedule setup source target).log = (runUnder schedule setup).log) ∧
      ((∀ v, Sampler.Summable setup.graph v) →
        ∀ cause, (runUnder schedule setup).outcome ≠ .error (.walk cause)) := by
  obtain ⟨guarded, pairs⟩ := safeRun schedule setup
  exact ⟨guarded, pairs, fun _ _ => rfl, fun summable => outcome_ne_walk summable schedule⟩

/-- Three nodes of a graph that names itself and nodes that are not there, and a filter that
excludes nothing. -/
def strayTargets : Setup where
  graph := .ofRows #[[⟨1, 1.0⟩, ⟨9, 1.0⟩], [⟨1, 2.0⟩, ⟨1, 0.5⟩], [⟨7, 1.0⟩]]
  metric := .ofFunction true fun _ _ => 1.0
  excluded := fun _ _ => false
  config :=
    { topK := 1, sampleRate := 1.0, maxIterations := 1, randomJoins := 1, seed := some 7
      sampler := .randomWalk, valid := by decide +kernel }

theorem strayTargets_safe :
    Guarded.runUnder .inOrder strayTargets = .ok (runUnder .inOrder strayTargets) ∧
      (runUnder .inOrder strayTargets).log.countP (·.pair?.isSome) = 23 ∧
      ∀ cause, (runUnder .inOrder strayTargets).outcome ≠ .error (.walk cause) := by
  obtain ⟨guarded, -, -, walks⟩ := runUnder_safe .inOrder strayTargets
  exact ⟨guarded, by decide +kernel, walks (Sampler.summable_ofRows (by decide +kernel))⟩

end Search

end NeighbourGraph
