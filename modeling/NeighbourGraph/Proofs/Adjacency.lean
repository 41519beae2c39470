/-
Graphs of edges: which lists of edges make one, and what it holds.

A list with a faulty edge is refused for the first such edge, whose source is looked at before its
target and its target before its weight. The graph of any other list holds for every node the edges
that start there, in the order of the list, and nothing else.
-/

import NeighbourGraph.Proofs.Number.Order
import NeighbourGraph.Proofs.Rows

namespace NeighbourGraph

open NeighbourGraph.Number

/-! ### Faults -/

/-- An edge between known nodes with a weight that is finite and not negative. -/
structure Edge.Sound (nodeCount : Nat) (e : Edge) : Prop where
  source : e.source < nodeCount
  target : e.target < nodeCount
  finite : e.weight.isFinite = true
  nonneg : ¬e.weight < 0.0

/-- What is to be said of an edge that is not sound. -/
inductive Edge.Faulty (nodeCount : Nat) (e : Edge) : GraphError → Prop where
  | source (out : nodeCount ≤ e.source) :
    Faulty nodeCount e (.endpointOutOfBounds e.source nodeCount)
  | target (source : e.source < nodeCount) (out : nodeCount ≤ e.target) :
    Faulty nodeCount e (.endpointOutOfBounds e.target nodeCount)
  | weight (source : e.source < nodeCount) (target : e.target < nodeCount)
    (invalid : ¬e.weight.isFinite = true ∨ e.weight < 0.0) :
    Faulty nodeCount e (.invalidWeight e.source e.target e.weight)

theorem isWeight_iff {x : Float} : isWeight x = true ↔ x.isFinite = true ∧ ¬x < 0.0 := by
  rw [isWeight, Bool.and_eq_true, decide_eq_true_eq]
  refine and_congr_right fun finite => ?_
  exact (Number.not_lt finite (by decide +kernel)).symm

theorem Edge.fault_eq_some_iff {nodeCount : Nat} {e : Edge} {cause : GraphError} :
    e.fault nodeCount = some cause ↔ e.Faulty nodeCount cause := by
  constructor
  · intro fault
    unfold Edge.fault at fault
    split at fault
    · next out =>
      cases fault
      exact .source out
    · next source =>
      split at fault
      · next out =>
        cases fault
        exact .target (by omega) out
      · next target =>
        split at fault
        · next invalid =>
          cases fault
          refine .weight (by omega) (by omega) ?_
          rw [Bool.not_eq_true', ← Bool.not_eq_true, isWeight_iff] at invalid
          tauto
        · cases fault
  · intro faulty
    unfold Edge.fault
    cases faulty with
    | source out => rw [if_pos out]
    | target source out => rw [if_neg (by omega), if_pos out]
    | weight source target invalid =>
      rw [if_neg (by omega), if_neg (by omega), if_pos]
      rw [Bool.not_eq_true', ← Bool.not_eq_true, isWeight_iff]
      tauto

theorem Edge.fault_eq_none_iff {nodeCount : Nat} {e : Edge} :
    e.fault nodeCount = none ↔
      e.source < nodeCount ∧ e.target < nodeCount ∧ isWeight e.weight = true := by
  unfold Edge.fault
  split
  · simp_all
  · split
    · simp_all
    · simp_all

theorem Edge.sound_iff {nodeCount : Nat} {e : Edge} :
    e.Sound nodeCount ↔ e.fault nodeCount = none := by
  rw [Edge.fault_eq_none_iff, isWeight_iff]
  exact ⟨fun h => ⟨h.source, h.target, h.finite, h.nonneg⟩,
    fun ⟨source, target, finite, nonneg⟩ => ⟨source, target, finite, nonneg⟩⟩

namespace Adjacency

variable {nodeCount v : Nat} {edges : List Edge} {a : Adjacency} {cause : GraphError}

/-- A list of edges is accepted if no edge of it has a fault. -/
theorem ofEdges_eq_ok_iff :
    ofEdges nodeCount edges = .ok a ↔
      (∀ e ∈ edges, e.source < nodeCount ∧ e.target < nodeCount ∧ isWeight e.weight = true) ∧
        ⟨rowsOf nodeCount edges⟩ = a := by
  simp only [← Edge.fault_eq_none_iff]
  unfold ofEdges
  split
  · next fault found =>
    obtain ⟨e, he, faulty⟩ := List.exists_of_findSome?_eq_some found
    simp only [reduceCtorEq, false_iff, not_and]
    exact fun faultless => by simp [faultless e he] at faulty
  · next found =>
    rw [List.findSome?_eq_none_iff] at found
    exact ⟨fun same => ⟨found, Except.ok.inj same⟩, fun ⟨_, same⟩ => congrArg Except.ok same⟩

/-- A list of edges is refused for its first fault. -/
theorem ofEdges_eq_error_iff :
    ofEdges nodeCount edges = .error cause ↔
      ∃ before e after, edges = before ++ e :: after ∧ e.Faulty nodeCount cause ∧
        ∀ e' ∈ before, e'.Sound nodeCount := by
  simp only [Edge.sound_iff, ← Edge.fault_eq_some_iff, ← List.findSome?_eq_some_iff]
  unfold ofEdges
  split
  · next found => rw [found, Except.error.injEq, Option.some.injEq]
  · next found => simp [found]

/-- A list of edges that makes a graph has sound edges only, and its rows are those of the graph. -/
theorem sound_of_ofEdges (accepted : ofEdges nodeCount edges = .ok a) :
    (∀ e ∈ edges, e.Sound nodeCount) ∧ a = ⟨rowsOf nodeCount edges⟩ := by
  simp only [Edge.sound_iff, Edge.fault_eq_none_iff]
  exact (ofEdges_eq_ok_iff.1 accepted).imp_right Eq.symm

/-! ### Relationships -/

/-- Below the largest id, a node has the edges that start there. -/
theorem relationships_of_ofEdges (fits : nodeCount < countLimit)
    (accepted : ofEdges nodeCount edges = .ok a) (v : Nat) :
    a.toGraph.relationships v = (ownEdges edges v).map Edge.relationship ∧
      a.degree v = (ownEdges edges v).length := by
  obtain ⟨sound, rfl⟩ := sound_of_ofEdges accepted
  have known : ∀ e ∈ edges, e.source < nodeCount := fun e he => (sound e he).source
  change (rowsOf nodeCount edges).relationships v = _ ∧ (rowsOf nodeCount edges).degree v = _
  rw [relationships_rowsOf known, degree_rowsOf known]
  by_cases last : v + 1 < countLimit
  · rw [if_pos last, if_pos last]
    exact ⟨rfl, rfl⟩
  · rw [if_neg last, if_neg last, ownEdges_eq_nil known (by omega)]
    exact ⟨rfl, rfl⟩

theorem nodeCount_of_ofEdges (accepted : ofEdges nodeCount edges = .ok a) :
    a.nodeCount = nodeCount := by
  obtain ⟨-, rfl⟩ := sound_of_ofEdges accepted
  exact congrArg (· - 1) (size_startsOf nodeCount edges)

theorem relationshipCount_of_ofEdges (accepted : ofEdges nodeCount edges = .ok a) :
    a.relationshipCount = edges.length := by
  obtain ⟨sound, rfl⟩ := sound_of_ofEdges accepted
  exact (filled_rowsOf fun e he => (sound e he).source).size_targets

/-- **A graph keeps its edges.** A list of edges over the nodes below `nodeCount` makes no graph
exactly if some edge of it is not sound, and is refused for the first of these. The graph of any
other list has for every id those relationships, in the order of the list, whose edges start there,
and counts them right: each by itself, all together, and none for an id that is no node. -/
theorem ofEdges_keeps_edges (fits : nodeCount < countLimit) (edges : List Edge) :
    ((∃ cause, ofEdges nodeCount edges = .error cause) ↔ ∃ e ∈ edges, ¬e.Sound nodeCount) ∧
    (∀ cause, ofEdges nodeCount edges = .error cause ↔
      ∃ before e after, edges = before ++ e :: after ∧ e.Faulty nodeCount cause ∧
        ∀ e' ∈ before, e'.Sound nodeCount) ∧
    ∀ a, ofEdges nodeCount edges = .ok a →
      a.nodeCount = nodeCount ∧
      (∀ v, a.toGraph.relationships v =
          (edges.filter (·.source = v)).map (fun e => ⟨e.target, e.weight⟩) ∧
        a.degree v = (a.toGraph.relationships v).length) ∧
      ((List.range nodeCount).map a.degree).sum = a.relationshipCount ∧
      a.relationshipCount = edges.length ∧
      ∀ v, nodeCount ≤ v → a.degree v = 0 ∧ a.toGraph.relationships v = [] := by
  refine ⟨?_, fun cause => ofEdges_eq_error_iff, fun a accepted => ?_⟩
  · cases made : ofEdges nodeCount edges with
    | error cause =>
      obtain ⟨before, e, after, rfl, faulty, -⟩ := ofEdges_eq_error_iff.1 made
      refine iff_of_true ⟨cause, rfl⟩ ⟨e, by simp, fun sound => ?_⟩
      rw [Edge.sound_iff, Edge.fault_eq_some_iff.2 faulty] at sound
      cases sound
    | ok a =>
      refine iff_of_false (fun ⟨_, failed⟩ => by cases failed) fun ⟨e, he, unsound⟩ => ?_
      exact unsound ((sound_of_ofEdges made).1 e he)
  · have rows := relationships_of_ofEdges fits accepted
    have known : ∀ e ∈ edges, e.source < nodeCount :=
      fun e he => ((sound_of_ofEdges accepted).1 e he).source
    refine ⟨nodeCount_of_ofEdges accepted, fun v => ⟨(rows v).1, ?_⟩, ?_,
      relationshipCount_of_ofEdges accepted, fun v hv => ?_⟩
    · rw [(rows v).1, (rows v).2, List.length_map]
    · rw [relationshipCount_of_ofEdges accepted, ← edgesBefore_eq_length known, ← sum_ownEdges]
      exact congrArg List.sum (List.map_congr_left fun v _ => (rows v).2)
    · rw [(rows v).1, (rows v).2, ownEdges_eq_nil known hv]
      exact ⟨rfl, rfl⟩

/-- Edges whose sources alternate, with a repeated edge, a loop and two nodes without edges. -/
theorem interleaved_edges_kept :
    4 < countLimit ∧
    ∃ a, ofEdges 4 [⟨2, 0, 0.5⟩, ⟨0, 3, 1.0⟩, ⟨2, 2, 2.0⟩, ⟨0, 3, 1.0⟩] = .ok a ∧
      a.toGraph.relationships 2 = [⟨0, 0.5⟩, ⟨2, 2.0⟩] ∧
      a.toGraph.relationships 1 = [] ∧
      ((List.range 4).map a.degree).sum = 4 ∧
      a.degree (countLimit - 1) = 0 := by
  have accepted : ofEdges 4 [⟨2, 0, 0.5⟩, ⟨0, 3, 1.0⟩, ⟨2, 2, 2.0⟩, ⟨0, 3, 1.0⟩] = .ok _ :=
    ofEdges_eq_ok_iff.2 ⟨by decide +kernel, rfl⟩
  have fits : 4 < countLimit := by decide
  obtain ⟨-, -, kept⟩ := ofEdges_keeps_edges fits
    [⟨2, 0, 0.5⟩, ⟨0, 3, 1.0⟩, ⟨2, 2, 2.0⟩, ⟨0, 3, 1.0⟩]
  obtain ⟨-, rows, total, length, outside⟩ := kept _ accepted
  exact ⟨fits, _, accepted, (rows 2).1, (rows 1).1, total.trans length,
    (outside (countLimit - 1) (by decide)).1⟩

end Adjacency

end NeighbourGraph
