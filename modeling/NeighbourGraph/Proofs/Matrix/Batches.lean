/-
Matrices put together from batches.

A builder reads the rows of a column behind the rows it has, and the number of a row counts all of
these. So columns of one width are read as if they were one column: how the rows are cut into
batches does not matter, neither for the matrix nor for the error that names the first row of no
use. A column of another width is refused when its turn comes.
-/

import Mathlib.Data.List.Forall2
import NeighbourGraph.Proofs.Matrix.StoredRows
import NeighbourGraph.Proofs.Outcomes
import NeighbourGraph.Proofs.Vectors

namespace NeighbourGraph.FeatureMatrix

open NeighbourGraph.Number

/-! ### Builders -/

/-- A column of binary32 values that has this width. -/
def FloatsOf (width : Nat) (c : VectorColumn) : Prop := c.element = .float32 ∧ c.width = width

/-- Why a column is refused that has another width than the columns before it. -/
def widthRefusal (expected actual : Nat) : MatrixError :=
  if actual = 0 then .width actual else .inconsistentWidth expected actual

namespace Builder

variable {b b' : Builder} {width : Nat} {c : VectorColumn} {columns : List VectorColumn}
  {all more : List (Option (List (Option Float32)))} {rows : List (List Float32)}

/-- Reads stored rows of a width. -/
def read (width : Nat) (all : List (Option (List (Option Float32)))) (b : Builder) :
    Except MatrixError Builder :=
  (readRows width b.count all b.buffer).map fun buffer =>
    { dimension := some width, count := b.count + all.length, buffer }

/-- Rows can be read in two goes. -/
theorem read_append : b.read width (all ++ more) = b.read width all >>= read width more := by
  rw [read, readRows_append, read]
  cases readRows width b.count all b.buffer with
  | error cause => rfl
  | ok buffer =>
    change Except.map _ (readRows width (b.count + all.length) more buffer) =
      Except.map _ (readRows width (b.count + all.length) more buffer)
    rw [List.length_append, Nat.add_assoc]

/-- Without rows only the width is noted. -/
theorem read_nil (known : b.dimension = some width) : b.read width [] = .ok b := by
  cases b
  cases known
  rfl

/-- A column of the width that is expected has its rows read. -/
theorem push_eq_read (positive : 0 < width) (floats : FloatsOf width c)
    (expected : ∀ d, b.dimension = some d → d = width) : b.push c = b.read width c.rows := by
  obtain ⟨element, rfl⟩ := floats
  have positive : ¬c.width = 0 := by omega
  unfold push read
  rw [if_neg (by simp [element]), if_neg positive]
  cases known : b.dimension with
  | none => cases readRows c.width b.count c.rows b.buffer <;> rfl
  | some d =>
    obtain rfl := expected d known
    simp only [ne_eq, not_true_eq_false, if_false]
    cases readRows c.width b.count c.rows b.buffer <;> rfl

theorem push_other (floats : c.element = .float32) (known : b.dimension = some width)
    (other : c.width ≠ width) : b.push c = .error (widthRefusal width c.width) := by
  unfold push widthRefusal
  rw [if_neg (by simp [floats])]
  by_cases zeroWidth : c.width = 0
  · rw [if_pos zeroWidth, if_pos zeroWidth]
    rfl
  · rw [if_neg zeroWidth, if_neg zeroWidth, known]
    simp only [ne_eq, if_pos other.symm]
    rfl

theorem dimension_of_read (ok : b.read width all = .ok b') : b'.dimension = some width := by
  obtain ⟨buffer, -, rfl⟩ := map_eq_ok_iff.1 ok
  rfl

/-- Columns of one width are read like one column. -/
theorem foldlM_push (positive : 0 < width) (floats : ∀ c ∈ columns, FloatsOf width c)
    (known : b.dimension = some width) :
    columns.foldlM push b = b.read width (columns.flatMap (·.rows)) := by
  induction columns generalizing b with
  | nil => exact (read_nil known).symm
  | cons c columns ih =>
    have expected : ∀ d, b.dimension = some d → d = width := fun d eq => by simp_all
    rw [List.foldlM_cons, push_eq_read positive (floats c (by simp)) expected, List.flatMap_cons,
      read_append]
    cases first : b.read width c.rows with
    | error cause => rfl
    | ok b' => exact ih (fun c mem => floats c (by simp [mem])) (dimension_of_read first)

/-- From the start, at least one column of the width tells the builder the width. -/
theorem foldlM_push_start (positive : 0 < width) (nonempty : columns ≠ [])
    (floats : ∀ c ∈ columns, FloatsOf width c) :
    columns.foldlM push {} = ({} : Builder).read width (columns.flatMap (·.rows)) := by
  obtain ⟨c, rest, rfl⟩ := List.exists_cons_of_ne_nil nonempty
  rw [List.foldlM_cons, push_eq_read positive (floats c (by simp)) (by simp), List.flatMap_cons,
    read_append]
  cases first : ({} : Builder).read width c.rows with
  | error cause => rfl
  | ok b' =>
    exact foldlM_push positive (fun c mem => floats c (by simp [mem])) (dimension_of_read first)

end Builder

/-! ### Matrices -/

variable {name column : String} {width : Nat} {m : FeatureMatrix}
  {all : List (Option (List (Option Float32)))} {rows : List (List Float32)}
  {columns : List VectorColumn} {batches : List Batch}

/-- What stored rows of a width come to, read all at once. -/
def ofStored (name : String) (width : Nat) (all : List (Option (List (Option Float32)))) :
    Except MatrixError FeatureMatrix :=
  (({} : Builder).read width all).map (·.finish name)

/-- The matrix of columns, one after the other. -/
def ofColumns (name : String) (columns : List VectorColumn) : Except MatrixError FeatureMatrix :=
  (columns.foldlM Builder.push {}).map (·.finish name)

theorem ofColumns_eq_ofStored (positive : 0 < width) (nonempty : columns ≠ [])
    (floats : ∀ c ∈ columns, FloatsOf width c) :
    ofColumns name columns = ofStored name width (columns.flatMap (·.rows)) := by
  rw [ofColumns, Builder.foldlM_push_start positive nonempty floats, ofStored]

/-- A column of another width ends the work, if no row before it did. -/
theorem ofColumns_other (positive : 0 < width) (nonempty : columns ≠ [])
    (floats : ∀ c ∈ columns, FloatsOf width c) {other : VectorColumn} {after : List VectorColumn}
    (element : other.element = .float32) (differs : other.width ≠ width) :
    ofColumns name (columns ++ other :: after) =
      ofStored name width (columns.flatMap (·.rows)) >>= fun _ =>
        .error (widthRefusal width other.width) := by
  rw [ofColumns, List.foldlM_append, Builder.foldlM_push_start positive nonempty floats, ofStored]
  cases read : ({} : Builder).read width (columns.flatMap (·.rows)) with
  | error cause => rfl
  | ok b =>
    change Except.map _ (b.push other >>= _) = _
    rw [Builder.push_other element (Builder.dimension_of_read read) differs]
    rfl

/-- The named column of a batch is declared as a matrix needs it, and holds this. -/
def Carries (column : String) (batch : Batch) (c : VectorColumn) : Prop :=
  ∃ declared, batch.column? column = some declared ∧ declared.vectors column = .ok c

theorem ofBatches_eq_ofColumns (carried : List.Forall₂ (Carries column) batches columns) :
    ofBatches name column batches = ofColumns name columns := by
  have fold : ∀ b : Builder, batches.foldlM (fun b batch => b.pushBatch column batch) b =
      columns.foldlM Builder.push b := by
    induction carried with
    | nil => exact fun _ => rfl
    | @cons batch c _ _ carries _ ih =>
      obtain ⟨declared, found, vectors⟩ := carries
      have pushed : ∀ b : Builder, b.pushBatch column batch = b.push c := fun b => by
        simp only [Builder.pushBatch, found, vectors]
        rfl
      intro b
      rw [List.foldlM_cons, List.foldlM_cons, pushed]
      cases b.push c with
      | error cause => rfl
      | ok b' => exact ih b'
  rw [ofBatches, fold, ofColumns]
  cases columns.foldlM Builder.push {} <;> rfl

/-- A matrix that was read from stored rows is made of these, which are all of use. -/
theorem madeOf_of_ofStored (ok : ofStored name width all = .ok m) :
    ∃ rows : List (List Float32), all = rows.map full ∧
      (∀ features ∈ rows, Useful width features) ∧ m.dimension = width ∧ m.MadeOf rows := by
  obtain ⟨b, taken, rfl⟩ := map_eq_ok_iff.1 ok
  obtain ⟨buffer, read, rfl⟩ := map_eq_ok_iff.1 taken
  obtain ⟨rows, rfl, useful, values⟩ := readRows_eq_ok read
  refine ⟨rows, rfl, useful, rfl, ?_, values, fun features mem => (useful features mem).length⟩
  change 0 + (rows.map full).length = rows.length
  rw [Nat.zero_add, List.length_map]

/-- Reading stored rows fails at the first one of no use. -/
theorem ofStored_eq_error {cause : MatrixError} (failed : ofStored name width all = .error cause) :
    ∃ (before : List (List Float32)) (stored : Option (List (Option Float32)))
        (after : List (Option (List (Option Float32)))),
      all = before.map full ++ stored :: after ∧
      (∀ features ∈ before, Useful width features) ∧
      Useless width before.length stored cause := by
  have first := readRows_eq_error (map_eq_error_iff.1 (map_eq_error_iff.1 failed))
  simpa only [Nat.zero_add] using first

/-! ### Outcomes -/

/-- A matrix of these rows: its values are theirs, and its vectors are the rows. -/
structure Keeps (m : FeatureMatrix) (width : Nat) (rows : List (List Float32)) : Prop where
  count : m.count = rows.length
  dimension : m.dimension = width
  values : m.values = rows.flatten
  length : m.values.length = rows.length * width
  finite : ∀ x ∈ m.values, x.isFinite = true
  vector : rows.length * width < countLimit →
    ∀ node (own : node < rows.length), m.vector node = .ok rows[node]
  outside : ∀ node, rows.length ≤ node → m.vector node = .error (.outOfBounds node)

/-- What rows of one width come to: a matrix of them, or the refusal of the first of no use. -/
inductive ComesTo (width : Nat) (all : List (Option (List (Option Float32)))) :
    Except MatrixError FeatureMatrix → Prop where
  | matrix {rows : List (List Float32)} {m : FeatureMatrix} (present : all = rows.map full)
    (useful : ∀ features ∈ rows, Useful width features) (keeps : m.Keeps width rows) :
    ComesTo width all (.ok m)
  | refusal {before : List (List Float32)} {stored : Option (List (Option Float32))}
    {after : List (Option (List (Option Float32)))} {cause : MatrixError}
    (split : all = before.map full ++ stored :: after)
    (useful : ∀ features ∈ before, Useful width features)
    (useless : Useless width before.length stored cause) : ComesTo width all (.error cause)

theorem comesTo_ofStored (name : String) (width : Nat)
    (all : List (Option (List (Option Float32)))) :
    ComesTo width all (ofStored name width all) := by
  cases outcome : ofStored name width all with
  | error cause =>
    obtain ⟨before, stored, after, split, useful, useless⟩ := ofStored_eq_error outcome
    exact .refusal split useful useless
  | ok m =>
    obtain ⟨rows, present, useful, rfl, made⟩ := madeOf_of_ofStored outcome
    refine .matrix present useful
      ⟨made.count, rfl, made.values, made.length_values, ?_, fun fits node own => ?_,
        fun node out => ?_⟩
    · intro x mem
      rw [made.values, List.mem_flatten] at mem
      obtain ⟨features, row, mem⟩ := mem
      exact (useful features row).finite x mem
    · exact made.vector (made.length_values ▸ fits) own
    · exact made.vector_outside out

/-- **Batches do not matter.** Rows of one width come to the same, however they are cut into columns
or batches: to a matrix that keeps them all, or to the refusal of the first row that is of no use,
under its number among all rows. If columns of this width are followed by one of another width, this
one is refused, unless a row before it was. -/
theorem batches_do_not_matter (name : String) {width : Nat} (positive : 0 < width)
    (all : List (Option (List (Option Float32)))) :
    ∃ outcome, ComesTo width all outcome ∧
      ∀ columns, columns ≠ [] → (∀ c ∈ columns, FloatsOf width c) →
        columns.flatMap (·.rows) = all →
        ofColumns name columns = outcome ∧
        (∀ column batches, List.Forall₂ (Carries column) batches columns →
          ofBatches name column batches = outcome) ∧
        ∀ other after, other.element = .float32 → other.width ≠ width →
          ofColumns name (columns ++ other :: after) =
            outcome >>= fun _ => .error (widthRefusal width other.width) := by
  refine ⟨ofStored name width all, comesTo_ofStored name width all, ?_⟩
  rintro columns nonempty floats rfl
  have columnwise : ofColumns name columns = ofStored name width (columns.flatMap (·.rows)) :=
    ofColumns_eq_ofStored positive nonempty floats
  refine ⟨columnwise, fun column batches carried => ?_, fun other after element differs => ?_⟩
  · rw [ofBatches_eq_ofColumns carried, columnwise]
  · exact ofColumns_other positive nonempty floats element differs

/-- Rows of two values. The third has a value that is not finite, and the fourth is absent. -/
def brokenRows : List (Option (List (Option Float32))) :=
  [full [1.5, -2.0], full [0.0, 3.25], full [1.0, 1.0 / 0.0], none]

/-- Rows of a width, cut into columns. -/
def columnsOf (width : Nat) (parts : List (List (Option (List (Option Float32))))) :
    List VectorColumn :=
  parts.map fun rows => { element := .float32, width, rows }

theorem floatsOf_columnsOf {width : Nat} {parts : List (List (Option (List (Option Float32))))} :
    ∀ c ∈ columnsOf width parts, FloatsOf width c := by
  intro c mem
  obtain ⟨rows, -, rfl⟩ := List.mem_map.1 mem
  exact ⟨rfl, rfl⟩

/-- Three columns, one of them empty, come to what one column comes to: the third row is refused,
and the two rows before it make a matrix, behind which a wider column is refused. -/
theorem brokenRows_in_batches :
    0 < 2 ∧
    ofColumns "m" (columnsOf 2 [brokenRows.take 1, [], brokenRows.drop 1]) =
      .error (.nonFiniteValue 2 1) ∧
    ∃ m, ofColumns "m" (columnsOf 2 [brokenRows.take 1, [], (brokenRows.take 2).drop 1]) = .ok m ∧
      m.vector 1 = .ok [0.0, 3.25] ∧ m.vector 2 = .error (.outOfBounds 2) ∧
      ofColumns "m" (columnsOf 2 [brokenRows.take 2] ++ columnsOf 3 [brokenRows]) =
        .error (.inconsistentWidth 2 3) := by
  obtain ⟨refused, -, broken⟩ := batches_do_not_matter "m" (by decide : 0 < 2) brokenRows
  obtain ⟨made, -, sound⟩ := batches_do_not_matter "m" (by decide : 0 < 2) (brokenRows.take 2)
  have refusal : .error (.nonFiniteValue 2 1) = refused :=
    (broken (columnsOf 2 [brokenRows]) (by decide) floatsOf_columnsOf rfl).1
  obtain ⟨matrix, -, wider⟩ := sound (columnsOf 2 [brokenRows.take 2]) (by decide)
    floatsOf_columnsOf rfl
  have wider := wider { element := .float32, width := 3, rows := brokenRows } [] rfl (by decide)
  have cut := (sound (columnsOf 2 [brokenRows.take 1, [], (brokenRows.take 2).drop 1]) (by decide)
    floatsOf_columnsOf rfl).1
  rw [← matrix] at cut wider
  refine ⟨by decide, ?_, _, cut.trans rfl, rfl, rfl, wider⟩
  rw [refusal]
  exact (broken _ (by decide) floatsOf_columnsOf rfl).1

end NeighbourGraph.FeatureMatrix
