/-
Graphs that were made of a checked list of edges.

Every edge was checked by itself, so the targets of such a graph are nodes and its weights are
finite and not negative. The sum that a walk draws from may still be too large for a number. That
is the only way in which a walk on such a graph can fail: where the weights of a node have a finite
sum, a draw gives one of its targets, and where all nodes have one, a run ends with a result or with
an error that has a code.
-/

import NeighbourGraph.Proofs.Adjacency
import NeighbourGraph.Proofs.Number.Sum
import NeighbourGraph.Proofs.Safety

namespace NeighbourGraph

open NeighbourGraph.Number NeighbourGraph.Random NeighbourGraph.Sampler NeighbourGraph.Search

/-! ### Rows -/

namespace Adjacency

variable {nodeCount v : Nat} {edges : List Edge} {a : Adjacency} {r : Relationship}

/-- What an accepted list of edges makes of a graph. -/
theorem of_mem_relationships (accepted : ofEdges nodeCount edges = .ok a)
    (hr : r ∈ a.toGraph.relationships v) :
    v < nodeCount ∧ r.target < nodeCount ∧ isWeight r.weight = true := by
  obtain ⟨checked, rfl⟩ := ofEdges_eq_ok_iff.1 accepted
  change r ∈ (rowsOf nodeCount edges).relationships v at hr
  rw [relationships_rowsOf fun e he => (checked e he).1] at hr
  split at hr
  · obtain ⟨e, own, rfl⟩ := List.mem_map.1 hr
    obtain ⟨he, source⟩ := List.mem_filter.1 own
    have known := checked e he
    exact ⟨of_decide_eq_true source ▸ known.1, known.2⟩
  · cases hr

/-- No weight of an accepted list is negative. -/
theorem weights_nonneg (accepted : ofEdges nodeCount edges = .ok a) (v : Nat) :
    ∀ x ∈ (a.toGraph.relationships v).map (·.weight), 0.0 ≤ x := by
  intro x hx
  obtain ⟨r, hr, rfl⟩ := List.mem_map.1 hx
  have weight := (of_mem_relationships accepted hr).2.2
  simp only [isWeight, Bool.and_eq_true, decide_eq_true_eq] at weight
  exact weight.2

end Adjacency

/-! ### Draws by weight -/

namespace Sampler

/-- Some target is the one at which the weights pass the mark. -/
theorem exists_passing {relationships : List Relationship} (mark : Float)
    (nonempty : relationships ≠ []) :
    ∃ r ∈ relationships, passing mark relationships = .some r.target := by
  induction relationships generalizing mark with
  | nil => exact absurd rfl nonempty
  | cons r rest ih =>
    cases rest with
    | nil => exact ⟨r, by simp, rfl⟩
    | cons s rest =>
      rw [passing]
      · split
        · exact ⟨r, by simp, rfl⟩
        · obtain ⟨t, ht, passes⟩ := ih (mark - r.weight) (by simp)
          exact ⟨t, by simp [ht], passes⟩
      · simp

/-- What a draw by weight gives for a node: one of its targets, if it has any. -/
def PicksTarget (relationships : List Relationship) (r : Except WalkError (Option Nat)) : Prop :=
  relationships = [] ∧ r = .ok none ∨ ∃ s ∈ relationships, r = .ok (some s.target)

theorem picksTarget_pickWeighted {relationships : List Relationship}
    (finite : (sum (relationships.map (·.weight))).isFinite = true) (g : Generator) :
    PicksTarget relationships (pickWeighted relationships g).1 := by
  cases relationships with
  | nil => exact .inl ⟨rfl, rfl⟩
  | cons r rest =>
    right
    unfold pickWeighted
    dsimp only
    rw [if_neg (by simp)]
    split
    · have lt : (below (r :: rest).length g).1 < (r :: rest).length := below_lt (by simp) g
      refine ⟨(r :: rest)[(below (r :: rest).length g).1], List.getElem_mem lt, ?_⟩
      change Except.ok ((r :: rest)[(below (r :: rest).length g).1]?.map (·.target)) = _
      rw [List.getElem?_eq_getElem lt, Option.map_some]
    · obtain ⟨s, hs, passes⟩ := exists_passing
        (realBelow (sum ((r :: rest).map (·.weight))) g).1 (List.cons_ne_nil r rest)
      exact ⟨s, hs, congrArg Except.ok passes⟩

/-- Weights that are not negative and have no finite sum make the draw fail. -/
theorem pickWeighted_error {relationships : List Relationship}
    (nonneg : ∀ x ∈ relationships.map (·.weight), 0.0 ≤ x)
    (infinite : ¬(sum (relationships.map (·.weight))).isFinite = true) (g : Generator) :
    (pickWeighted relationships g).1 = .error .weights := by
  cases relationships with
  | nil => exact absurd (by decide +kernel) infinite
  | cons r rest =>
    unfold pickWeighted
    dsimp only
    rw [if_neg (by simp), if_neg (not_le_zero (sum_nonneg nonneg) infinite), if_neg infinite]
    rfl

end Sampler

/-! ### Runs -/

/-- A run that ends with a result or with an error that has a code. -/
def Search.Run.EndsWell (r : Run) : Prop :=
  (∃ result, r.outcome = .ok result) ∨
    ∃ cause code, r.outcome = .error cause ∧ cause.code = some code

namespace Search

/-- A run without a code for its error met weights without a finite sum. -/
theorem endsWell_of_summable {schedule : Schedule} {setup : Setup}
    (summable : ∀ v, Summable setup.graph v) : (runUnder schedule setup).EndsWell := by
  cases outcome : (runUnder schedule setup).outcome with
  | ok result => exact .inl ⟨result, outcome⟩
  | error cause =>
    cases cause with
    | walk cause => exact absurd outcome (outcome_ne_walk summable schedule cause)
    | settings | cancelled | score | nodeCountMismatch => exact .inr ⟨_, _, outcome, rfl⟩

/-- **Accepted edges fail by overflow only.** On the graph of an accepted list of edges: a draw by
weight gives one of the targets of a node, or nothing if there are none, unless the weights of the
node have no finite sum; then it fails. Where the weights of all nodes have finite sums, a run has
no fault and ends with a result or with an error that has a code. -/
theorem accepted_fails_by_overflow_only {nodeCount : Nat} {edges : List Edge} {a : Adjacency}
    (accepted : Adjacency.ofEdges nodeCount edges = .ok a) :
    (∀ v g,
      (Sampler.Summable a.toGraph v →
        PicksTarget (a.toGraph.relationships v) (pickWeighted (a.toGraph.relationships v) g).1) ∧
      (¬Sampler.Summable a.toGraph v →
        (pickWeighted (a.toGraph.relationships v) g).1 = .error .weights)) ∧
    ∀ schedule setup, setup.graph = a.toGraph → (∀ v < nodeCount, Sampler.Summable a.toGraph v) →
      Guarded.runUnder schedule setup = .ok (runUnder schedule setup) ∧
        (runUnder schedule setup).EndsWell := by
  constructor
  · intro v g
    exact ⟨fun finite => picksTarget_pickWeighted finite g,
      fun infinite => pickWeighted_error (Adjacency.weights_nonneg accepted v) infinite g⟩
  · intro schedule setup graph finite
    refine ⟨(safeRun schedule setup).1, endsWell_of_summable fun v => ?_⟩
    rw [graph]
    by_cases hv : v < nodeCount
    · exact finite v hv
    · have isolated : a.toGraph.relationships v = [] :=
        List.eq_nil_iff_forall_not_mem.2 fun r hr =>
          hv (Adjacency.of_mem_relationships accepted hr).1
      rw [Sampler.Summable, isolated]
      decide +kernel

/-- Two equal edges whose weights are accepted one by one and have no finite sum. -/
def heavyEdges : List Edge := [⟨0, 1, 1.7e308⟩, ⟨0, 1, 1.7e308⟩]

/-- Two nodes with the edges given. -/
def walkedPair (edges : List Edge) : Setup where
  graph := Adjacency.toGraph ⟨Adjacency.rowsOf 2 edges⟩
  metric := .ofFunction true fun _ _ => 1.0
  excluded := .standard
  config :=
    { topK := 1, sampleRate := 1.0, maxIterations := 0, randomJoins := 0, seed := some 7
      sampler := .randomWalk, concurrency := 1, minBatchSize := 1, valid := by decide +kernel }

theorem accepted_pair :
    ∃ a, Adjacency.ofEdges 2 [⟨0, 1, 1.5⟩, ⟨0, 1, 0.0⟩] = .ok a ∧
      (∀ g, PicksTarget (a.toGraph.relationships 0)
        (pickWeighted (a.toGraph.relationships 0) g).1) ∧
      (runUnder .inOrder (walkedPair [⟨0, 1, 1.5⟩, ⟨0, 1, 0.0⟩])).EndsWell := by
  have accepted : Adjacency.ofEdges 2 [⟨0, 1, 1.5⟩, ⟨0, 1, 0.0⟩] = .ok _ :=
    Adjacency.ofEdges_eq_ok_iff.2 ⟨by decide +kernel, rfl⟩
  obtain ⟨picks, runs⟩ := accepted_fails_by_overflow_only accepted
  have finite : ∀ v < 2, Sampler.Summable (walkedPair [⟨0, 1, 1.5⟩, ⟨0, 1, 0.0⟩]).graph v := by
    unfold Sampler.Summable
    decide +kernel
  exact ⟨_, accepted, fun g => (picks 0 g).1 (finite 0 (by decide)),
    (runs .inOrder (walkedPair _) rfl finite).2⟩

/-- An accepted list of edges on which every draw by weight at a node fails, and with it the run. -/
theorem heavyEdges_crash :
    ∃ a, Adjacency.ofEdges 2 heavyEdges = .ok a ∧ (walkedPair heavyEdges).graph = a.toGraph ∧
      (∀ g, (pickWeighted (a.toGraph.relationships 0) g).1 = .error .weights) ∧
      ∃ cause, (run (walkedPair heavyEdges)).outcome = .error cause ∧ cause.code = none := by
  have accepted : Adjacency.ofEdges 2 heavyEdges = .ok ⟨Adjacency.rowsOf 2 heavyEdges⟩ :=
    Adjacency.ofEdges_eq_ok_iff.2 ⟨by decide +kernel, rfl⟩
  refine ⟨_, accepted, rfl, fun g => pickWeighted_error (Adjacency.weights_nonneg accepted 0)
    (by decide +kernel) g, ?_⟩
  have crashed : (match (run (walkedPair heavyEdges)).outcome with
      | .error cause => cause.code.isNone
      | .ok _ => false) = true := by decide +kernel
  cases outcome : (run (walkedPair heavyEdges)).outcome with
  | ok result => simp [outcome] at crashed
  | error cause => exact ⟨cause, rfl, by simpa [outcome] using crashed⟩

end Search

end NeighbourGraph
