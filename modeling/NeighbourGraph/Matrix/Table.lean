/-
Tables of features as they are stored: batches of named columns.

The column that a search needs holds vectors: lists of one fixed width whose elements are
binary32. Anything else is refused for a stated reason. Rows and elements may be absent in the
stored form even though no matrix accepts them.
-/

namespace NeighbourGraph

/-- The types that elements and plain columns have. -/
inductive ElementType where
  | float32
  | float64
  | int32
  | utf8
  deriving DecidableEq, Repr

def ElementType.name : ElementType → String
  | .float32 => "Float32"
  | .float64 => "Float64"
  | .int32 => "Int32"
  | .utf8 => "Utf8"

/-- A column of vectors. -/
structure VectorColumn where
  element : ElementType
  width : Nat
  /-- Elements may be absent. -/
  elementNullable : Bool := false
  rows : List (Option (List (Option Float32)))

namespace VectorColumn

/-- `length` rows from `offset` on. -/
def slice (c : VectorColumn) (offset length : Nat) : VectorColumn :=
  { c with rows := (c.rows.drop offset).take length }

end VectorColumn

/-- What a column holds. -/
inductive ColumnData where
  | vectors (column : VectorColumn)
  | plain (type : ElementType)

/-- A named column. -/
structure Column where
  name : String
  /-- Rows may be absent. -/
  nullable : Bool := false
  data : ColumnData

/-- Columns of the same rows. -/
abbrev Batch := List Column

namespace Batch

/-- The first column of a name. -/
def column? (b : Batch) (name : String) : Option Column := b.find? (·.name == name)

end Batch

/-! ### Refusals -/

/-- Why stored data gives no matrix. -/
inductive MatrixError where
  | columnNotFound (column : String)
  | columnType (column : String) (actual : ElementType)
  | nullableColumn (column : String) (nullableElement : Bool)
  | elementType (actual : ElementType)
  | width (actual : Nat)
  | nullRow (row : Nat)
  | nullValue (row index : Nat)
  | nonFiniteValue (row index : Nat)
  | rowLength (row expected actual : Nat)
  | inconsistentWidth (expected actual : Nat)
  deriving DecidableEq, Repr

def MatrixError.message : MatrixError → String
  | .columnNotFound column => s!"column `{column}` not found in Parquet schema"
  | .columnType column actual =>
    s!"column `{column}` must be a FixedSizeList<Float32, _> but found " ++ actual.name
  | .nullableColumn column nullableElement =>
    s!"column `{column}` must be non-nullable (nullable child: {nullableElement})"
  | .elementType actual => "FixedSizeList child type must be Float32 but found " ++ actual.name
  | .width actual => s!"invalid FixedSizeList dimension {actual}"
  | .nullRow row => s!"row {row} is null"
  | .nullValue row index => s!"row {row} contains null value at position {index}"
  | .nonFiniteValue row index => s!"row {row} contains non-finite value at position {index}"
  | .rowLength row expected actual =>
    s!"row {row} has length {actual} but expected {expected}"
  | .inconsistentWidth expected actual =>
    s!"inconsistent dimensions across batches: expected {expected}, got {actual}"

/-- The vectors of a column if a matrix can be made of its declaration: vectors, nothing
nullable, binary32 elements and a positive width, checked in this order. -/
def Column.vectors (c : Column) (name : String) : Except MatrixError VectorColumn :=
  match c.data with
  | .plain type => .error (.columnType name type)
  | .vectors v =>
    if c.nullable || v.elementNullable then .error (.nullableColumn name v.elementNullable)
    else if v.element ≠ .float32 then .error (.elementType v.element)
    else if v.width = 0 then .error (.width v.width)
    else .ok v

end NeighbourGraph
