/-
Graphs made of edges.

The relationships of all nodes lie one behind the other, a row for every node. Two passes over the
edges make the rows. The first counts how many edges start at each node, and so says where each row
starts; the second puts every edge into the next free slot of its row. Edges with one source keep
the order in which they came.
-/

import NeighbourGraph.Graph.Basic

namespace NeighbourGraph

open NeighbourGraph.Number

/-- Rows of relationships, one behind the other. Row `i` takes the slots from `starts[i]` up to
`starts[i + 1]`, so there is one start more than there are rows. -/
structure Rows where
  starts : Array Nat
  targets : Array Nat
  weights : Array Float

namespace Rows

/-- How many rows there are. -/
def count (r : Rows) : Nat := r.starts.size - 1

/-- The id that follows an id. Ids are counts, and the first one follows the last. -/
def following (id : Nat) : Nat := (id + 1) % countLimit

/-- The first slot of a row and the one behind its last. An id without a row has no slots. -/
def slots (r : Rows) (id : Nat) : Nat × Nat :=
  match r.starts[id]?, r.starts[following id]? with
  | some first, some last => (first, last)
  | _, _ => (0, 0)

/-- How many relationships are in a row. -/
def degree (r : Rows) (id : Nat) : Nat := (r.slots id).2 - (r.slots id).1

/-- The relationships of a row in order. -/
def relationships (r : Rows) (id : Nat) : List Relationship :=
  let (first, last) := r.slots id
  List.zipWith Relationship.mk (r.targets.extract first last).toList
    (r.weights.extract first last).toList

end Rows

/-- A graph of checked edges. -/
structure Adjacency where
  rows : Rows

namespace Adjacency

/-! ### Rows of edges -/

/-- How many edges start at each node. -/
def degreesOf (nodeCount : Nat) (edges : List Edge) : Array Nat :=
  edges.foldl (fun degrees e => degrees.modify e.source (· + 1)) (Array.replicate nodeCount 0)

/-- Where the rows start that have these lengths, and where the last one ends. -/
def startsOf (degrees : Array Nat) : Array Nat := (degrees.toList.scanl (· + ·) 0).toArray

/-- Rows that are being filled, with the next free slot of each. -/
structure Filling where
  next : Array Nat
  targets : Array Nat
  weights : Array Float

/-- Puts an edge into the next free slot of its row. -/
def Filling.put (f : Filling) (e : Edge) : Filling :=
  let slot := f.next.getD e.source 0
  { next := f.next.modify e.source (· + 1)
    targets := f.targets.setIfInBounds slot e.target
    weights := f.weights.setIfInBounds slot e.weight }

/-- No edge has been put into rows with these starts. -/
def Filling.empty (nodeCount : Nat) (starts : Array Nat) (length : Nat) : Filling where
  next := starts.take nodeCount
  targets := .replicate length 0
  weights := .replicate length 0.0

/-- The edges as rows, each in the order of the list. -/
def rowsOf (nodeCount : Nat) (edges : List Edge) : Rows :=
  let starts := startsOf (degreesOf nodeCount edges)
  let filled := edges.foldl Filling.put (.empty nodeCount starts edges.length)
  { starts, targets := filled.targets, weights := filled.weights }

/-! ### Graphs of edges -/

/-- The graph of a list of edges, or what is wrong with the first edge that has a fault. -/
def ofEdges (nodeCount : Nat) (edges : List Edge) : Except GraphError Adjacency :=
  match edges.findSome? (Edge.fault nodeCount) with
  | some e => .error e
  | none => .ok ⟨rowsOf nodeCount edges⟩

/-- The graph of a list of pairs, every weight one. -/
def ofPairs (nodeCount : Nat) (pairs : List (Nat × Nat)) : Except GraphError Adjacency :=
  ofEdges nodeCount (pairs.map fun (source, target) => { source, target })

def nodeCount (a : Adjacency) : Nat := a.rows.count

/-- How many relationships there are in all. -/
def relationshipCount (a : Adjacency) : Nat := a.rows.targets.size

/-- How many relationships a node has. -/
def degree (a : Adjacency) (node : Nat) : Nat := a.rows.degree node

/-- The view a search takes. -/
def toGraph (a : Adjacency) : Graph := ⟨a.nodeCount, a.rows.relationships⟩

end Adjacency

end NeighbourGraph
