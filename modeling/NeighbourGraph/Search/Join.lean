/-
The join phase.

Around every node its new neighbours are compared with the node, with each other and with its old
neighbours; whoever is near the same node is likely to be near each other. Old neighbours were
compared with each other before. Each node is also compared with some random others, which count
as scored pairs but not as updates.
-/

import NeighbourGraph.Search.Candidates

namespace NeighbourGraph.Search

open NeighbourGraph.Random

/-! ### Pairs -/

/-- Scores `candidate` for `base` and offers it to the list of `base`, unless the pair is
excluded. -/
def joinOne (setup : Setup) (origin : Origin) (base candidate : Nat) : Work Tally := do
  if base = candidate || setup.excluded base candidate then return {}
  consider setup origin base candidate

/-- Scores a pair once and offers each node to the list of the other, unless the pair is
excluded. -/
def joinBoth (setup : Setup) (first second : Nat) : Work Tally := do
  if setup.excluded first second then return {}
  let similarity ← score setup .pairing first second
  record (.considered first second similarity)
  record (.considered second first similarity)
  let a ← offer setup .joining first second similarity
  let b ← offer setup .joining second first similarity
  return { updates := a + b, pairs := 1 }

/-- Compares two nodes in both directions. A symmetric metric is asked once. -/
def joinPair (setup : Setup) (first second : Nat) : Work Tally := do
  if first = second then return {}
  if setup.metric.symmetric then joinBoth setup first second
  else
    let there ← joinOne setup .joining first second
    let back ← joinOne setup .joining second first
    return there + back

/-! ### Nodes -/

/-- Compares `first` with each of `others`. -/
def joinWith (setup : Setup) (first : Nat) (others : List Nat) : Work Tally := do
  return Tally.total (← others.mapM (joinPair setup first))

/-- Compares each new neighbour with the node, with the new neighbours after it and with the old
ones. -/
def joinNew (setup : Setup) (node : Nat) (old : List Nat) : List Nat → Work Tally
  | [] => return {}
  | first :: rest => do
    let pivot ← joinOne setup .joining first node
    let among ← joinWith setup first rest
    let across ← joinWith setup first old
    return pivot + among + across + (← joinNew setup node old rest)

/-- Compares a node with a random other one. -/
def joinOther (setup : Setup) (node : Nat) : Work Tally := do
  let other := Sampler.skip node (← draw (below (setup.nodeCount - 1)))
  joinOne setup .chance node other

/-- Compares a node with `count` random others. -/
def joinRandom (setup : Setup) (node count : Nat) : Work Tally := do
  let tallies ← (List.range count).mapM fun _ => joinOther setup node
  return { Tally.total tallies with updates := 0 }

/-- The joins around one node. -/
def joinNode (setup : Setup) (c : Candidates) (sampled node : Nat) : Work Tally := do
  let old ← draw (workingSet (c.old.of node) (c.reverseOld.of node) sampled)
  let new ← draw (workingSet (c.new.of node) (c.reverseNew.of node) sampled)
  let joined ← joinNew setup node old new
  let random ← joinRandom setup node setup.config.randomJoins
  return joined + random

/-- The joins around all nodes. -/
def join (setup : Setup) (turns : Turns) (c : Candidates) (stream : Stream) (sampled : Nat) :
    Search Tally := do
  proceed setup .join
  let tallies ← phase setup turns .join fun node =>
    seeded stream node (joinNode setup c sampled node)
  return Tally.total tallies

end NeighbourGraph.Search
