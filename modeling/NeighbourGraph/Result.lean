/-
The result of a search: the neighbours of every node, with some facts about the run.
-/

import NeighbourGraph.NeighbourList

namespace NeighbourGraph

/-- A relationship that a search found. -/
structure SimilarityResult where
  source : Nat
  target : Nat
  similarity : Float

/-- The neighbours of every node and how they were found. -/
structure Result where
  neighbours : Array (List Neighbour)
  /-- How many iterations ran. -/
  iterations : Nat
  /-- The last iteration made few enough updates. -/
  converged : Bool
  /-- How many pairs were scored. -/
  pairs : Nat
  /-- How many nodes were compared; none if there were too few. -/
  nodesCompared : Nat

namespace Result

/-- The result over too few nodes to compare. -/
def empty (nodeCount : Nat) : Result := ⟨Array.replicate nodeCount [], 0, false, 0, 0⟩

/-- The neighbours of a node, best first; an unknown node has none. -/
def neighboursOf (r : Result) (node : Nat) : List Neighbour := r.neighbours.getD node []

/-- The similarity with which `target` is a neighbour of `source`. -/
def similarityOf (r : Result) (source target : Nat) : Option Float :=
  ((r.neighboursOf source).find? (·.id == target)).map (·.similarity)

/-- All relationships, by source and best first. -/
def relationships (r : Result) : List SimilarityResult :=
  r.neighbours.toList.zipIdx.flatMap fun (neighbours, source) =>
    neighbours.map fun n => ⟨source, n.id, n.similarity⟩

/-- How many relationships there are. -/
def size (r : Result) : Nat := r.neighbours.toList.flatten.length

end Result

end NeighbourGraph
