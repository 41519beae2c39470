/-
The report of a search, for readers and for programs.
-/

import NeighbourGraph.Command.Arguments
import NeighbourGraph.Summary
import NeighbourGraph.Text.Quoted

namespace NeighbourGraph.Command

open NeighbourGraph.Number NeighbourGraph.Text

/-- What a run of the program found. -/
structure Outcome where
  /-- The name of the feature source. -/
  source : String
  dimension : Nat
  result : Result

namespace Outcome

/-! ### For readers -/

/-- Some lines of facts, then a line for each relationship. -/
def humanText (o : Outcome) : String :=
  let r := o.result
  let facts :=
    [("data source", o.source),
     ("nodes", toString r.nodesCompared),
     ("dimension", toString o.dimension),
     ("iterations", toString r.iterations),
     ("converged", toString r.converged),
     ("pairs considered", toString r.pairs),
     ("relationships", toString r.size)].map fun (name, value) => name ++ ": " ++ value ++ "\n"
  let summary := match r.summary with
    | none => ""
    | some s =>
      "similarity: min " ++ fixedText 4 s.min ++ " mean " ++ fixedText 4 s.mean ++
        " p50 " ++ fixedText 4 s.p50 ++ " max " ++ fixedText 4 s.max ++ "\n"
  let rows := r.relationships.map fun x =>
    toString x.source ++ "\t" ++ toString x.target ++ "\t" ++ plainText x.similarity ++ "\n"
  String.join facts ++ summary ++ String.join rows

/-! ### For programs -/

/-- The members of an object, in order. -/
def object (members : List (String × String)) : String :=
  "\x7b" ++ String.intercalate "," (members.map fun (name, value) => quoted name ++ ":" ++ value) ++
    "\x7d"

/-- The elements of an array, in order. -/
def array (elements : List String) : String := "[" ++ String.intercalate "," elements ++ "]"

/-- A summary as an object. -/
def summaryObject (s : Summary) : String :=
  let members : List (String × Float) :=
    [("min", s.min), ("max", s.max), ("mean", s.mean), ("stdev", s.stdev), ("p50", s.p50),
     ("p75", s.p75), ("p90", s.p90), ("p95", s.p95), ("p99", s.p99), ("p100", s.p100)]
  object (members.map fun (name, value) => (name, documentText value))

/-- A relationship as an object. -/
def relationshipObject (x : SimilarityResult) : String :=
  object [("source", toString x.source), ("target", toString x.target),
    ("similarity", documentText x.similarity)]

/-- One document on one line. -/
def documentLine (o : Outcome) : String :=
  let r := o.result
  object
    [("data_source", quoted o.source),
     ("node_count", toString r.nodesCompared),
     ("dimension", toString o.dimension),
     ("ran_iterations", toString r.iterations),
     ("did_converge", toString r.converged),
     ("node_pairs_considered", toString r.pairs),
     ("relationship_count", toString r.size),
     ("summary", (r.summary.map summaryObject).getD "null"),
     ("relationships", array (r.relationships.map relationshipObject))] ++ "\n"

/-- The report in a format. -/
def text (o : Outcome) : Format → String
  | .human => o.humanText
  | .json => o.documentLine

end Outcome

end NeighbourGraph.Command
