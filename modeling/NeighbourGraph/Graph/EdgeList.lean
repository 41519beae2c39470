/-
Edge lists as text.

Each line holds a source, a target and an optional weight, separated by tabs. Blank lines and
lines whose first character is `#` are skipped. The first malformed line is an error and is
named by its number, counted from one over all lines.
-/

import NeighbourGraph.Graph.Adjacency
import NeighbourGraph.Number.Reading
import NeighbourGraph.Text.Blank
import NeighbourGraph.Text.Line

namespace NeighbourGraph.EdgeList

open NeighbourGraph.Number NeighbourGraph.Text

/-- What is wrong with a line. -/
inductive LineFault where
  | columns (found : Nat)
  | source (text : String) (cause : CountError)
  | target (text : String) (cause : CountError)
  | weight (text : String) (cause : RealError)

def LineFault.message : LineFault → String
  | .columns found => s!"expected 2 or 3 tab-separated fields, found {found}"
  | .source text cause => "invalid source `" ++ text ++ "`: " ++ cause.message
  | .target text cause => "invalid target `" ++ text ++ "`: " ++ cause.message
  | .weight text cause => "invalid weight `" ++ text ++ "`: " ++ cause.message

/-- A malformed line. -/
structure FormatError where
  line : Nat
  fault : LineFault

/-- The columns of a line, blanks at the ends of each cut off. -/
def columns (line : List Char) : List String :=
  (line.splitOn '\t').map fun column => String.ofList (trim column)

/-- The edge of two or three columns. The columns are read from left to right. -/
def edgeOf (source target : String) (weight : Option String) : Except LineFault Edge := do
  let s ← (readCount source).mapError (.source source)
  let t ← (readCount target).mapError (.target target)
  match weight with
  | none => return { source := s, target := t }
  | some text => return ⟨s, t, ← (readReal text).mapError (.weight text)⟩

/-- The edge of a line that has no blanks at its ends. -/
def parseLine (line : List Char) : Except LineFault Edge :=
  match columns line with
  | [source, target] => edgeOf source target none
  | [source, target, weight] => edgeOf source target (some weight)
  | other => .error (.columns other.length)

/-- A line without content: blank, or a comment. -/
def isSkipped (trimmed : List Char) : Bool :=
  match trimmed with
  | [] => true
  | c :: _ => c = '#'

/-- The edges of numbered lines, up to the first malformed one. -/
def parseLines : List (List Char × Nat) → Except FormatError (List Edge)
  | [] => .ok []
  | (line, number) :: rest =>
    let content := trim line
    if isSkipped content then parseLines rest
    else match parseLine content with
      | .error fault => .error ⟨number, fault⟩
      | .ok edge => (parseLines rest).map (edge :: ·)

/-- The edges of a text. -/
def parse (text : String) : Except FormatError (List Edge) :=
  parseLines ((lines text.toList).zipIdx 1)

/-- Why an edge list gives no graph. A malformed line comes before every fault of an edge. -/
inductive Error where
  | format (cause : FormatError)
  | graph (cause : GraphError)

/-- The graph of an edge list over `nodeCount` nodes. -/
def load (text : String) (nodeCount : Nat) : Except Error Adjacency := do
  let edges ← (parse text).mapError .format
  (Adjacency.ofEdges nodeCount edges).mapError .graph

end NeighbourGraph.EdgeList
