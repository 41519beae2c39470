/-
The candidates of an iteration.

Every list hands out the neighbours that were joined before and those that are joined for the
first time. Turned around, the same relation gives for each node the nodes that hand it out. The
working set of a node is what its list hands out, followed by a sample of the nodes that hand it
out.
-/

import NeighbourGraph.Search.Phase

namespace NeighbourGraph

open NeighbourGraph.Random

/-- For each node, the ids it is related to. -/
abbrev IdMap := Array (List Nat)

namespace IdMap

/-- Adds `node` to the list of `id`. -/
def link (m : IdMap) (node id : Nat) : IdMap := m.modify id (node :: ·)

/-- The relation turned around: the list of `u` has every `v` whose list has `u`, in increasing
order. Ids without a list are left out. -/
def reverse (m : IdMap) : IdMap :=
  m.toList.zipIdx.foldr (fun (ids, node) out => ids.foldr (fun id out => link out node id) out)
    (Array.replicate m.size [])

/-- The ids of a node. -/
def of (m : IdMap) (node : Nat) : List Nat := m.getD node []

end IdMap

/-- What the lists hand out for one iteration, and the same turned around. -/
structure Candidates where
  old : IdMap
  new : IdMap
  reverseOld : IdMap := old.reverse
  reverseNew : IdMap := new.reverse

namespace Search

/-- Lets the list of a node hand out its entries. -/
def splitNode (sampled node : Nat) : Work NeighbourList.Parts :=
  withList node (fun l => do
    let (l, parts) ← l.split sampled
    return (parts, l)) {}

/-- The candidates of one iteration. -/
def candidates (setup : Setup) (turns : Turns) (stream : Stream) (sampled : Nat) :
    Search Candidates := do
  proceed setup .split
  let parts ← phase setup turns .split fun node => seeded stream node (splitNode sampled node)
  proceed setup .reverse
  record (.started .reverse setup.nodeCount)
  record (.advanced setup.nodeCount)
  record (.ended .reverse)
  return { old := (parts.map (·.old)).toArray, new := (parts.map (·.new)).toArray }

/-! ### Working sets -/

/-- Adds to `out` the ids that are drawn with chance `sampled / length` and not there yet. A
word is taken for each id. -/
def addSample (length sampled : Nat) (out : List Nat) : List Nat → Draw (List Nat)
  | [] => return out
  | id :: rest => do
    let drawn := (← below length) < sampled
    addSample length sampled (if drawn && id ∉ out then out ++ [id] else out) rest

/-- `base` followed by a sample of `reverse`, without repeats. -/
def workingSet (base reverse : List Nat) (sampled : Nat) : Draw (List Nat) :=
  addSample reverse.length sampled base reverse

end Search

end NeighbourGraph
