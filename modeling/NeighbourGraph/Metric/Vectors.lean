/-
Feature vectors and the metric over them.

A `VectorSource` gives the features of a node. `DenseVectors` is the source whose vectors all
have one positive dimension: they lie one behind the other in one run of values, and a vector is
found by where it starts. It is built from rows or from one run of values.
-/

import NeighbourGraph.Metric.Basic
import NeighbourGraph.Metric.Kernel

namespace NeighbourGraph

open NeighbourGraph.Number

/-- Where the features of nodes come from. -/
structure VectorSource where
  count : Nat
  vector : Nat → Except MetricError (List Float32)

namespace VectorSource

/-- What was found for a node. If that is nothing, the node is out of bounds. -/
def found (node : Nat) : Option (List Float32) → Except MetricError (List Float32)
  | some features => .ok features
  | none => .error (.outOfBounds node)

/-- Rows of any length; there is no vector for a node without a row. -/
def ofRows (rows : Array (List Float32)) : VectorSource where
  count := rows.size
  vector node := found node rows[node]?

/-- The features of a node if a kernel can use them: at least one, and all finite. -/
def checked (s : VectorSource) (node : Nat) : Except MetricError (List Float32) := do
  let v ← s.vector node
  if v.isEmpty then throw .zeroLength
  match v.findIdx? (fun x => !x.isFinite) with
  | some index => throw (.nonFiniteFeature node index)
  | none => return v

end VectorSource

/-! ### Runs of values -/

/-- The values from `start` up to `stop`, if there are such. -/
def slice? (values : Array Float32) (start stop : Nat) : Option (List Float32) :=
  if start ≤ stop ∧ stop ≤ values.size then some (values.extract start stop).toList else none

/-- Rows of one length, one behind the other, are as many values as their number says. -/
theorem length_flatten_rows {dimension : Nat} {rows : List (List Float32)}
    (same : ∀ row ∈ rows, row.length = dimension) :
    rows.flatten.length = rows.length * dimension := by
  induction rows with
  | nil => simp
  | cons row rest ih =>
    have tail := ih fun row' mem => same row' (by simp [mem])
    rw [List.flatten_cons, List.length_append, tail, same row (by simp), List.length_cons,
      Nat.succ_mul, Nat.add_comm]

/-! ### Dense vectors -/

/-- Vectors of one dimension, one behind the other. -/
structure DenseVectors where
  dimension : Nat
  values : Array Float32
  dimension_pos : 0 < dimension
  /-- The last vector is as long as the others. -/
  whole : dimension ∣ values.size

namespace DenseVectors

/-- Vectors from one run of values. The dimension is positive and divides their number. -/
def ofValues (dimension : Nat) (values : List Float32) : Except MetricError DenseVectors :=
  if zero : dimension = 0 then .error .zeroLength
  else if fits : values.length % dimension = 0 then
    .ok ⟨dimension, values.toArray, Nat.pos_of_ne_zero zero, Nat.dvd_of_mod_eq_zero fits⟩
  else .error (.dimensionMismatch dimension (values.length % dimension))

/-- Vectors from rows. The first row gives the dimension, which is positive, and all other rows
have it too. -/
def ofRows (rows : List (List Float32)) : Except MetricError DenseVectors :=
  let dimension := (rows.headD []).length
  if zero : dimension = 0 then .error .zeroLength
  else match ragged : rows.find? fun row => row.length ≠ dimension with
    | some row => .error (.dimensionMismatch dimension row.length)
    | none =>
      have same : ∀ row ∈ rows, row.length = dimension := by simpa using ragged
      .ok ⟨dimension, rows.flatten.toArray, Nat.pos_of_ne_zero zero,
        rows.length, by simpa [Nat.mul_comm] using length_flatten_rows same⟩

/-- How many vectors there are. -/
def count (v : DenseVectors) : Nat := v.values.size / v.dimension

/-- The vector of a node. Where it starts has to be a count; where it ends comes round behind the
largest one. -/
def vector (v : DenseVectors) (node : Nat) : Except MetricError (List Float32) :=
  let start := node * v.dimension
  VectorSource.found node <|
    if start < countLimit then slice? v.values start ((start + v.dimension) % countLimit) else none

/-- The vectors in order. -/
def rows (v : DenseVectors) : Array (List Float32) :=
  (Array.range v.count).map fun node =>
    (v.values.extract (node * v.dimension) (node * v.dimension + v.dimension)).toList

def toSource (v : DenseVectors) : VectorSource := ⟨v.count, v.vector⟩

end DenseVectors

/-! ### The metric -/

namespace Metric

/-- Compares the vectors of two nodes. The left vector is checked before the right one. -/
def ofVectors (kernel : Kernel.VectorKernel) (source : VectorSource) : Metric where
  similarity left right := do
    let l ← source.checked left
    let r ← source.checked right
    if l.length ≠ r.length then throw (.dimensionMismatch l.length r.length)
    return kernel.apply l r
  symmetric := true
  nodeCount := some source.count

end Metric

end NeighbourGraph
