/-
Metrics over one property per node, and their average.
-/

import NeighbourGraph.Metric.Basic
import NeighbourGraph.Metric.Kernel

namespace NeighbourGraph.Metric

open NeighbourGraph.Number

/-- The property of a node. -/
def property {α : Type} (values : Array α) (node : Nat) : Except MetricError α :=
  match values[node]? with
  | some value => .ok value
  | none => .error (.outOfBounds node)

/-- Compares numbers, all of which have to be finite. -/
def ofScalars (values : Array Float) : Except MetricError Metric :=
  match values.toList.findIdx? (fun x => !x.isFinite) with
  | some node => .error (.nonFiniteFeature node 0)
  | none => .ok
    { similarity := fun left right => do
        let l ← property values left
        let r ← property values right
        return Kernel.scalar l r
      symmetric := true
      nodeCount := some values.size }

/-- A list of ids as a set: in increasing order, each id once. -/
def idSet (ids : List Nat) : List Nat := (ids.mergeSort (· ≤ ·)).eraseReps

/-- Compares sets of ids. -/
def ofSets (kernel : Kernel.SetKernel) (sets : Array (List Nat)) : Metric :=
  let sets := sets.map idSet
  { similarity := fun left right => do
      let l ← property sets left
      let r ← property sets right
      return kernel.apply l r
    symmetric := true
    nodeCount := some sets.size }

/-! ### Averages -/

/-- The sum of the scores that metrics give a pair, or the first failure. -/
def total (left right : Nat) : List Metric → Float → Except MetricError Float
  | [], sum => .ok sum
  | m :: rest, sum => do
    let s ← m.similarity left right
    total left right rest (sum + s)

/-- The smaller of two node counts, as far as they are known. -/
def fewer : Option Nat → Option Nat → Option Nat
  | none, b => b
  | a, none => a
  | some a, some b => some (min a b)

/-- The mean of at least one metric. It is symmetric when all of them are, and covers the nodes
that all of them cover. -/
def average (components : List Metric) : Except MetricError Metric :=
  match components with
  | [] => .error .noComponents
  | _ => .ok
    { similarity := fun left right => do
        return (← total left right components 0.0) / ofCount components.length
      symmetric := components.all (·.symmetric)
      nodeCount := components.foldr (fun m count => fewer m.nodeCount count) none }

end NeighbourGraph.Metric
