/-
Rings: every node is linked to the nodes at most `reach` places away on either side.
-/

import NeighbourGraph.Graph.Adjacency

namespace NeighbourGraph.Ring

/-- The nodes `step` places after and before `node` on a ring of `n` nodes. -/
def across (n node step : Nat) : List (Nat × Nat) :=
  [(node, (node + step) % n), (node, (node + n - step % n) % n)]

/-- The links of a ring, node by node and by growing distance. A step around the whole ring
leads back to its node and is left out. -/
def links (n reach : Nat) : List (Nat × Nat) :=
  ((List.range n).flatMap fun node =>
    (List.range' 1 reach).flatMap (across n node)).filter fun (source, target) => source ≠ target

/-- The ring of `n` nodes. -/
def graph (n reach : Nat) : Except GraphError Adjacency := Adjacency.ofPairs n (links n reach)

end NeighbourGraph.Ring
