/-
The start of a search: every list takes the candidates that a sampler draws for its node.
-/

import NeighbourGraph.Search.Phase

namespace NeighbourGraph.Search

open NeighbourGraph.Random

/-- Draws the candidates of a node. -/
def sampleCandidates (setup : Setup) (node count : Nat) : Work (List Nat) := do
  match ← draw (Sampler.sample setup.config.sampler setup.graph node count) with
  | .ok candidates => return candidates
  | .error cause => Search.failed (.walk cause)

/-- Scores a candidate of a node and offers it to the node's list, unless it is excluded. -/
def tryCandidate (setup : Setup) (node candidate : Nat) : Work Tally := do
  if setup.excluded node candidate then return {}
  consider setup .sampling node candidate

/-- Fills the list of a node and announces what it holds. -/
def fillNode (setup : Setup) (count node : Nat) : Work Tally := do
  let candidates ← sampleCandidates setup node count
  let tallies ← candidates.mapM (tryCandidate setup node)
  record (.offered node (← listOf node))
  return Tally.total tallies

/-- Fills all lists. -/
def fill (setup : Setup) (turns : Turns) (stream : Stream) (count : Nat) : Search Tally := do
  let tallies ← phase setup turns .initialization fun node =>
    seeded stream node (fillNode setup count node)
  return Tally.total tallies

end NeighbourGraph.Search
