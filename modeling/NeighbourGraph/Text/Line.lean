/-
Lines.

A line ends at a line feed, or at the end of the text if something is left there; a carriage
return before the line feed belongs to the ending.
-/

namespace NeighbourGraph.Text

/-- A line without the carriage return at its end. -/
def withoutReturn (line : List Char) : List Char :=
  match line.getLast? with
  | some '\r' => line.dropLast
  | _ => line

/-- The lines of a text without their endings. Text after the last line feed is a line of its
own and keeps a carriage return; nothing after the last line feed is no line. -/
def lines (cs : List Char) : List (List Char) :=
  let pieces := cs.splitOn '\n'
  let ended := pieces.dropLast.map withoutReturn
  match pieces.getLast? with
  | some (c :: rest) => ended ++ [c :: rest]
  | _ => ended

end NeighbourGraph.Text
