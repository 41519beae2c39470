/-
Tables of comma-separated values, and how they are read.

Commas lie between the fields of a row, and a line feed, with or without a carriage return, ends a
row. A field may be put between double quotes: then it can hold any characters, and a quote in it is
written twice. Nothing but the end of the field may follow the closing quote, and a field without
quotes around it has none in it.
-/

namespace NeighbourGraph.Text.Table

/-- Where a reader is. -/
inductive Place where
  /-- In front of a row. -/
  | fresh
  /-- In front of a field that is not the first of its row. -/
  | start
  /-- In a field without quotes around it. -/
  | plain
  /-- Between the quotes of a field. -/
  | quoted
  /-- Behind a quote between quotes: the closing one, or the first of two. -/
  | closing
  /-- Behind a carriage return that ends a row. -/
  | returned
  deriving DecidableEq, Repr

/-- What a character does. -/
inductive Step where
  /-- It belongs to no field. -/
  | skip (place : Place)
  /-- It belongs to the field. -/
  | keep (place : Place)
  | endField
  | endRow
  deriving DecidableEq, Repr

/-- What ends a field outside of quotes. -/
def ending? (c : Char) : Option Step :=
  if c = ',' then some .endField
  else if c = '\n' then some .endRow
  else if c = '\r' then some (.skip .returned)
  else none

/-- What a character does at each place, if it may stand there. -/
def Place.step : Place → Char → Option Step
  | .fresh, c | .start, c =>
    some (if c = '"' then .skip .quoted else (ending? c).getD (.keep .plain))
  | .plain, c => if c = '"' then none else some ((ending? c).getD (.keep .plain))
  | .quoted, c => some (if c = '"' then .skip .closing else .keep .quoted)
  | .closing, c => if c = '"' then some (.keep .quoted) else ending? c
  | .returned, c => if c = '\n' then some .endRow else none

/-- The rows that are left where the text ends. The last row needs no line feed. -/
def Place.atEnd (field : List Char) : Place → Option (List (List String))
  | .fresh => some []
  | .start | .plain | .closing => some [[String.ofList field]]
  | .quoted | .returned => none

/-- Puts a field in front of the first row. -/
def addField (field : String) : List (List String) → List (List String)
  | [] => [[field]]
  | row :: rows => (field :: row) :: rows

/-- The rows of a text, read on from some place, from the field on of which some characters have
been read. -/
def rowsFrom : Place → List Char → List Char → Option (List (List String))
  | place, field, [] => place.atEnd field
  | place, field, c :: rest =>
    match place.step c with
    | some (.skip place) => rowsFrom place field rest
    | some (.keep place) => rowsFrom place (field ++ [c]) rest
    | some .endField => (rowsFrom .start [] rest).map (addField (String.ofList field))
    | some .endRow => (rowsFrom .fresh [] rest).map ([String.ofList field] :: ·)
    | none => none

/-- The rows of a table, if the text is one. -/
def rows? (text : String) : Option (List (List String)) := rowsFrom .fresh [] text.toList

end NeighbourGraph.Text.Table
