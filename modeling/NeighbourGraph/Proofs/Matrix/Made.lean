/-
What every matrix is made of.

A builder always holds rows of the width that it knows, one behind the other: a column that it takes
has this width, and only rows of use are put behind those it has. So a matrix has a vector for every
row that it counts, whether it was read from a column, from batches or from a file.
-/

import NeighbourGraph.Proofs.Matrix.Batches

namespace NeighbourGraph.FeatureMatrix

open NeighbourGraph.Number

namespace Builder

variable {b b' : Builder} {c : VectorColumn} {column : String} {rows : List (List Float32)}

/-- These are the rows that were taken. -/
structure MadeOf (b : Builder) (rows : List (List Float32)) : Prop where
  count : b.count = rows.length
  values : b.buffer.toList = rows.flatten
  same : ∀ row ∈ rows, b.dimension = some row.length

theorem MadeOf.start : ({} : Builder).MadeOf [] := ⟨rfl, rfl, by simp⟩

/-- A column that is taken has its rows read, and the width that is known. -/
theorem read_of_push (pushed : b.push c = .ok b') :
    b.read c.width c.rows = .ok b' ∧ ∀ d, b.dimension = some d → d = c.width := by
  by_cases element : c.element = .float32
  · by_cases zeroWidth : c.width = 0
    · simp [push, element, zeroWidth, throw, throwThe, MonadExceptOf.throw, bind, Except.bind]
        at pushed
    · by_cases expected : ∀ d, b.dimension = some d → d = c.width
      · rw [push_eq_read (Nat.pos_of_ne_zero zeroWidth) ⟨element, rfl⟩ expected] at pushed
        exact ⟨pushed, expected⟩
      · push Not at expected
        obtain ⟨d, known, other⟩ := expected
        rw [push_other element known other.symm] at pushed
        cases pushed
  · simp [push, element, throw, throwThe, MonadExceptOf.throw, bind, Except.bind] at pushed

/-- A batch that is taken has such a column. -/
theorem exists_push_of_pushBatch {batch : Batch} (taken : b.pushBatch column batch = .ok b') :
    ∃ c, b.push c = .ok b' := by
  unfold pushBatch at taken
  split at taken
  · cases taken
  · obtain ⟨c, -, pushed⟩ := bind_eq_ok_iff.1 taken
    exact ⟨c, pushed⟩

/-- A column adds its rows to those taken before. -/
theorem MadeOf.push (made : b.MadeOf rows) (pushed : b.push c = .ok b') :
    ∃ more, b'.MadeOf (rows ++ more) := by
  obtain ⟨taken, expected⟩ := read_of_push pushed
  obtain ⟨buffer, read, rfl⟩ := map_eq_ok_iff.1 taken
  obtain ⟨more, present, useful, values⟩ := readRows_eq_ok read
  refine ⟨more, ?_, ?_, fun row mem => ?_⟩
  · simp [present, made.count]
  · simp [values, made.values]
  · rcases List.mem_append.1 mem with old | new
    · rw [expected _ (made.same row old)]
    · rw [(useful row new).length]

theorem MadeOf.finish (made : b.MadeOf rows) (name : String) : (b.finish name).MadeOf rows where
  count := made.count
  values := made.values
  same row mem := by simp [Builder.finish, made.same row mem]

/-- Batches add their rows one after the other. -/
theorem MadeOf.foldlM {batches : List Batch} (made : b.MadeOf rows)
    (ran : batches.foldlM (fun b batch => b.pushBatch column batch) b = .ok b') :
    ∃ rows, b'.MadeOf rows := by
  induction batches generalizing b rows with
  | nil =>
    cases ran
    exact ⟨rows, made⟩
  | cons batch batches ih =>
    obtain ⟨next, taken, ran⟩ := bind_eq_ok_iff.1 ran
    obtain ⟨c, pushed⟩ := exists_push_of_pushBatch taken
    obtain ⟨more, made⟩ := made.push pushed
    exact ih made ran

end Builder

/-! ### Matrices -/

/-- The ways to a matrix. -/
inductive Made : FeatureMatrix → Prop where
  | vectors {name : String} {v : VectorColumn} {m : FeatureMatrix}
    (made : ofVectors name v = .ok m) : Made m
  | batches {name column : String} {batches : List Batch} {m : FeatureMatrix}
    (made : ofBatches name column batches = .ok m) : Made m
  | file {name column : String} {batches : List Batch} {m : FeatureMatrix}
    (made : ofFile name column batches = .ok m) : Made m

variable {m : FeatureMatrix}

theorem madeOf_of_ofBatches {name column : String} {batches : List Batch}
    (made : ofBatches name column batches = .ok m) : ∃ rows, m.MadeOf rows := by
  obtain ⟨b, ran, finished⟩ := bind_eq_ok_iff.1 made
  cases finished
  obtain ⟨rows, made⟩ := Builder.MadeOf.start.foldlM ran
  exact ⟨rows, made.finish name⟩

/-- A matrix is made of rows of its dimension. -/
theorem Made.exists_rows (made : m.Made) : ∃ rows, m.MadeOf rows := by
  cases made with
  | @vectors name v _ made =>
    obtain ⟨b, pushed, finished⟩ := bind_eq_ok_iff.1 made
    cases finished
    obtain ⟨rows, made⟩ := Builder.MadeOf.start.push pushed
    exact ⟨_, made.finish name⟩
  | batches made => exact madeOf_of_ofBatches made
  | file made =>
    unfold ofFile at made
    dsimp only at made
    split at made
    · cases made
    · obtain ⟨v, -, made⟩ := bind_eq_ok_iff.1 made
      exact madeOf_of_ofBatches made

/-- A matrix has a vector for every node that it counts. -/
theorem Made.complete (made : m.Made) (fits : m.values.length < countLimit) :
    m.toSource.Complete := by
  obtain ⟨rows, made⟩ := made.exists_rows
  exact made.complete fits

end NeighbourGraph.FeatureMatrix
