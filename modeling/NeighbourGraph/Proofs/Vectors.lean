/-
Vectors in one run of values.

Rows of one length that lie one behind the other are found by their numbers: the row `i` starts
where the `i` rows before it end. As long as the number of values is a count, no start and no end of
a row is too large to be one, so every row is found, and where there is no row nothing is.
-/

import Mathlib.Tactic.Common
import NeighbourGraph.Matrix.Basic

namespace NeighbourGraph

open NeighbourGraph.Number

/-! ### Slices -/

variable {values : Array Float32} {rows : List (List Float32)} {dimension i : Nat}

/-- A row is what stands behind the rows before it. -/
theorem take_drop_flatten (same : ∀ row ∈ rows, row.length = dimension) (own : i < rows.length) :
    (rows.flatten.drop (i * dimension)).take dimension = rows[i] := by
  induction rows generalizing i with
  | nil => cases own
  | cons row rest ih =>
    have length : row.length = dimension := same row (by simp)
    have tail : ∀ row' ∈ rest, row'.length = dimension := fun row' mem => same row' (by simp [mem])
    cases i with
    | zero => simp [← length]
    | succ i =>
      have past : (i + 1) * dimension = row.length + i * dimension := by
        rw [length, Nat.succ_mul, Nat.add_comm]
      rw [past, List.flatten_cons, List.drop_append, List.drop_of_length_le (by omega),
        List.nil_append, Nat.add_sub_cancel_left, List.getElem_cons_succ]
      exact ih tail (by simpa using own)

/-- The row of a number ends where that many rows end. -/
theorem row_end_le {n : Nat} (own : i < n) : i * dimension + dimension ≤ n * dimension := by
  rw [← Nat.succ_mul]
  exact Nat.mul_le_mul_right _ own

/-- The slice of a row. -/
theorem slice?_row (made : values.toList = rows.flatten)
    (same : ∀ row ∈ rows, row.length = dimension) (own : i < rows.length) :
    slice? values (i * dimension) (i * dimension + dimension) = some rows[i] := by
  have size : values.size = rows.length * dimension := by
    rw [← length_flatten_rows same, ← made, Array.length_toList]
  have le : i * dimension + dimension ≤ rows.length * dimension := row_end_le own
  rw [slice?, if_pos ⟨by omega, by omega⟩, Array.toList_extract, made,
    List.extract_eq_take_drop, Nat.add_sub_cancel_left, take_drop_flatten same own]

/-! ### Sources -/

/-- There is a vector for every node that is counted. -/
def VectorSource.Complete (s : VectorSource) : Prop :=
  ∀ node < s.count, ∃ features, s.vector node = .ok features

/-- A matrix whose buffer is made of rows of its dimension. -/
structure FeatureMatrix.MadeOf (m : FeatureMatrix) (rows : List (List Float32)) : Prop where
  count : m.count = rows.length
  values : m.values = rows.flatten
  same : ∀ row ∈ rows, row.length = m.dimension

theorem FeatureMatrix.MadeOf.length_values {m : FeatureMatrix} (made : m.MadeOf rows) :
    m.values.length = rows.length * m.dimension := by
  rw [made.values, length_flatten_rows made.same]

/-- The rows of a matrix are the vectors of its nodes. -/
theorem FeatureMatrix.MadeOf.vector {m : FeatureMatrix} (made : m.MadeOf rows)
    (fits : m.values.length < countLimit) {node : Nat} (own : node < rows.length) :
    m.vector node = .ok rows[node] := by
  have stop : node * m.dimension + m.dimension ≤ m.values.length :=
    made.length_values ▸ row_end_le own
  unfold FeatureMatrix.vector
  dsimp only
  rw [if_pos ⟨made.count ▸ own, by omega, by omega⟩, slice?_row made.values made.same own]
  rfl

/-- There are no other vectors in it. -/
theorem FeatureMatrix.MadeOf.vector_outside {m : FeatureMatrix} (made : m.MadeOf rows) {node : Nat}
    (out : rows.length ≤ node) : m.vector node = .error (.outOfBounds node) := by
  unfold FeatureMatrix.vector
  dsimp only
  rw [if_neg fun known => Nat.not_lt.2 out (made.count ▸ known.1)]
  rfl

theorem FeatureMatrix.MadeOf.complete {m : FeatureMatrix} (made : m.MadeOf rows)
    (fits : m.values.length < countLimit) : m.toSource.Complete := fun node counted =>
  ⟨_, made.vector fits (made.count ▸ counted : node < rows.length)⟩

theorem DenseVectors.size_values (v : DenseVectors) : v.values.size = v.count * v.dimension :=
  (Nat.div_mul_cancel v.whole).symm

theorem DenseVectors.stop_le {v : DenseVectors} {node : Nat} (own : node < v.count) :
    node * v.dimension + v.dimension ≤ v.values.size :=
  v.size_values ▸ row_end_le own

/-- No start and no end of a row is too large to be a count. -/
theorem DenseVectors.vector_eq {v : DenseVectors} (fits : v.values.size < countLimit) {node : Nat}
    (own : node < v.count) :
    v.vector node = VectorSource.found node
      (slice? v.values (node * v.dimension) (node * v.dimension + v.dimension)) := by
  have stop := stop_le own
  have positive := v.dimension_pos
  unfold DenseVectors.vector
  dsimp only
  rw [if_pos (by omega), Nat.mod_eq_of_lt (by omega)]

/-- Dense vectors have a vector for each of their nodes. -/
theorem DenseVectors.complete {v : DenseVectors} (fits : v.values.size < countLimit) :
    v.toSource.Complete := by
  intro node counted
  change ∃ features, v.vector node = .ok features
  rw [vector_eq fits counted, slice?, if_pos ⟨Nat.le_add_right _ _, stop_le counted⟩]
  exact ⟨_, rfl⟩

end NeighbourGraph
