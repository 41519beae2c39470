/-
Feature matrices: one vector of finite features per node, all of one dimension.

A matrix is put together column by column from batches: the values of all rows go one behind the
other into one buffer, where a row is found by its number. Rows are numbered over all batches, and
the first row that cannot be used ends the work with an error that names it.
-/

import NeighbourGraph.Matrix.Table
import NeighbourGraph.Metric.Vectors

namespace NeighbourGraph

open NeighbourGraph.Number

/-- A named matrix of features, row by row in one buffer. -/
structure FeatureMatrix where
  name : String
  /-- How many rows there are. -/
  count : Nat
  dimension : Nat
  buffer : Array Float32

namespace FeatureMatrix

/-- All values, row by row. -/
def values (m : FeatureMatrix) : List Float32 := m.buffer.toList

/-- The row of a node. Where it starts and where it ends have to be counts. -/
def vector (m : FeatureMatrix) (node : Nat) : Except MetricError (List Float32) :=
  let start := node * m.dimension
  let stop := start + m.dimension
  VectorSource.found node <|
    if node < m.count ∧ start < countLimit ∧ stop < countLimit then slice? m.buffer start stop
    else none

/-- The rows in order. -/
def rows (m : FeatureMatrix) : Array (List Float32) :=
  (Array.range m.count).map fun node =>
    (m.buffer.extract (node * m.dimension) (node * m.dimension + m.dimension)).toList

/-- The rows as the vectors of nodes. -/
def toSource (m : FeatureMatrix) : VectorSource := ⟨m.count, m.vector⟩

/-! ### Putting a matrix together -/

/-- The rows taken so far; the dimension is known once a column was taken. -/
structure Builder where
  dimension : Option Nat := none
  count : Nat := 0
  buffer : Array Float32 := #[]

/-- The features of a stored row, or why it cannot be used: absent elements come before those
that are not finite. -/
def readRow (width row : Nat) (stored : Option (List (Option Float32))) :
    Except MatrixError (List Float32) :=
  match stored with
  | none => .error (.nullRow row)
  | some elements =>
    if elements.length ≠ width then .error (.rowLength row width elements.length)
    else match elements.findIdx? Option.isNone with
      | some index => .error (.nullValue row index)
      | none =>
        let features := elements.filterMap id
        match features.findIdx? (fun x => !x.isFinite) with
        | some index => .error (.nonFiniteValue row index)
        | none => .ok features

/-- Puts stored rows behind the values of a buffer. The first one has the number `row`. -/
def readRows (width row : Nat) :
    List (Option (List (Option Float32))) → Array Float32 → Except MatrixError (Array Float32)
  | [], buffer => .ok buffer
  | stored :: rest, buffer => do
    let features ← readRow width row stored
    readRows width (row + 1) rest (buffer ++ features)

/-- Takes a column of vectors in. All columns have one width. -/
def Builder.push (b : Builder) (v : VectorColumn) : Except MatrixError Builder := do
  if v.element ≠ .float32 then throw (.elementType v.element)
  if v.width = 0 then throw (.width v.width)
  match b.dimension with
  | some expected => if expected ≠ v.width then throw (.inconsistentWidth expected v.width)
  | none => pure ()
  let buffer ← readRows v.width b.count v.rows b.buffer
  return { dimension := some v.width, count := b.count + v.rows.length, buffer }

/-- Takes the named column of a batch in. -/
def Builder.pushBatch (b : Builder) (name : String) (batch : Batch) :
    Except MatrixError Builder := do
  match batch.column? name with
  | none => throw (.columnNotFound name)
  | some c => b.push (← c.vectors name)

/-- The matrix of the rows taken. Its dimension is zero if no column was taken. -/
def Builder.finish (b : Builder) (name : String) : FeatureMatrix :=
  ⟨name, b.count, b.dimension.getD 0, b.buffer⟩

/-- The matrix of one column of vectors. -/
def ofVectors (name : String) (v : VectorColumn) : Except MatrixError FeatureMatrix := do
  return (← ({} : Builder).push v).finish name

/-- The matrix of the named column of batches. -/
def ofBatches (name column : String) (batches : List Batch) :
    Except MatrixError FeatureMatrix := do
  let built ← batches.foldlM (fun (b : Builder) batch => b.pushBatch column batch) {}
  return built.finish name

/-! ### Files -/

/-- A batch has rows in its named column. -/
def hasRows (column : String) (batch : Batch) : Bool :=
  match batch.column? column with
  | some ⟨_, _, .vectors v⟩ => !v.rows.isEmpty
  | _ => false

/-- The matrix of the named column of a file that was written as batches of one declaration. A
point in a name separates the parts of a path, so such a column is not found. The declaration is
checked whether there are rows or not; without rows nothing is taken in. -/
def ofFile (name column : String) (batches : List Batch) : Except MatrixError FeatureMatrix := do
  let declared := (batches.headD []).column? column
  match if column.contains '.' then none else declared with
  | none => throw (.columnNotFound column)
  | some c =>
    let _ ← c.vectors column
    ofBatches name column (batches.filter (hasRows column))

end FeatureMatrix

end NeighbourGraph
