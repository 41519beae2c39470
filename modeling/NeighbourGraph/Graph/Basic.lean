/-
Graphs as a search sees them: how many nodes there are and the weighted relationships of each.

A `Graph` is a view and promises nothing: its targets may lie outside the nodes, repeat or name
the node itself. Edges are relationships together with their source, and can be checked.
-/

import NeighbourGraph.Number.Text

namespace NeighbourGraph

open NeighbourGraph.Number

/-- A relationship as seen from its source. -/
structure Relationship where
  target : Nat
  weight : Float

/-- A view of a graph. -/
structure Graph where
  nodeCount : Nat
  /-- The relationships of a node in order; an unknown node has none. -/
  relationships : Nat → List Relationship

/-- How many relationships a node has. -/
def Graph.degree (g : Graph) (node : Nat) : Nat := (g.relationships node).length

/-- Nodes without relationships. -/
def Graph.nodesOnly (nodeCount : Nat) : Graph := ⟨nodeCount, fun _ => []⟩

/-- The graph whose node `i` has the relationships of row `i`, unchecked. -/
def Graph.ofRows (rows : Array (List Relationship)) : Graph :=
  ⟨rows.size, fun node => rows.getD node []⟩

/-! ### Edges -/

/-- A directed edge. -/
structure Edge where
  source : Nat
  target : Nat
  weight : Float := 1.0

/-- An edge as seen from its source. -/
def Edge.relationship (e : Edge) : Relationship := ⟨e.target, e.weight⟩

/-- Why an edge is refused. -/
inductive GraphError where
  | endpointOutOfBounds (node nodeCount : Nat)
  | invalidWeight (source target : Nat) (weight : Float)

namespace GraphError

/-- The stable code of each cause. -/
def code : GraphError → String
  | .endpointOutOfBounds .. => "GRAPH_ENDPOINT_OUT_OF_BOUNDS"
  | .invalidWeight .. => "GRAPH_INVALID_WEIGHT"

def message : GraphError → String
  | .endpointOutOfBounds node nodeCount =>
    s!"relationship endpoint {node} is out of bounds for {nodeCount} nodes"
  | .invalidWeight source target weight =>
    s!"relationship ({source}, {target}) has invalid weight " ++ plainText weight

end GraphError

/-- A weight is finite and not negative. -/
def isWeight (x : Float) : Bool := x.isFinite && 0.0 ≤ x

/-- What is wrong with an edge over `nodeCount` nodes: its source first, then its target, then
its weight. -/
def Edge.fault (nodeCount : Nat) (e : Edge) : Option GraphError :=
  if nodeCount ≤ e.source then some (.endpointOutOfBounds e.source nodeCount)
  else if nodeCount ≤ e.target then some (.endpointOutOfBounds e.target nodeCount)
  else if !isWeight e.weight then some (.invalidWeight e.source e.target e.weight)
  else none

end NeighbourGraph
