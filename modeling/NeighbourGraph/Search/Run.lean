/-
A whole search.

The lists are filled by the sampler. Then iterations follow until one of them makes no more
updates than the threshold, or their number is used up. At the end, neighbours below the cutoff
are dropped if there is one. `run` keeps the log and the account of the iterations even when the
search fails.
-/

import NeighbourGraph.Result
import NeighbourGraph.Search.Initial
import NeighbourGraph.Search.Join

namespace NeighbourGraph.Search

open NeighbourGraph.Random

/-- One iteration. -/
def iteration (setup : Setup) (turns : Phase → Turns) (sampled : Nat)
    (splitStream joinStream : Stream) : Search Tally := do
  atomic fun s => ((), { s with rounds := s.rounds.push none })
  let c ← candidates setup (turns .split) splitStream sampled
  let tally ← join setup (turns .join) c joinStream sampled
  atomic fun s => ((), { s with rounds := s.rounds.pop.push (some tally) })
  return tally

/-- What the iterations came to. -/
structure Refinement where
  iterations : Nat := 0
  converged : Bool := false
  pairs : Nat := 0

/-- Iterates `limit` times at most. -/
def iterate (setup : Setup) (schedule : Schedule) (sampled threshold : Nat) (streams : Streams)
    (soFar : Refinement) : Nat → Search Refinement
  | 0 => return soFar
  | limit + 1 => do
    let (splitStream, streams) := streams.take
    let (joinStream, streams) := streams.take
    let tally ←
      iteration setup (schedule · soFar.iterations) sampled splitStream joinStream
    let iterations := soFar.iterations + 1
    let pairs := soFar.pairs + tally.pairs
    if tally.updates ≤ threshold then return { iterations, converged := true, pairs }
    else iterate setup schedule sampled threshold streams { iterations, pairs } limit

/-- Fills the lists and iterates `limit` times at most. Nothing is dropped from the lists yet. -/
def refine (setup : Setup) (schedule : Schedule) (k : ListSize) (limit : Nat) :
    Search Refinement := do
  let (stream, streams) := ({ base := setup.seed } : Streams).take
  let filled ← fill setup (schedule .initialization 0) stream k.bounded
  let threshold := setup.config.updateThreshold setup.nodeCount
  iterate setup schedule k.sampled threshold streams { pairs := filled.pairs } limit

/-! ### The end of a search -/

/-- Drops the neighbours of a node below the cutoff. -/
def dropNode (cutoff : Float) (node : Nat) : Search Unit :=
  atomic fun s => s.withList node (fun l => ((), l.dropBelow cutoff)) ()

/-- Drops neighbours below the cutoff, if it is positive. -/
def applyCutoff (setup : Setup) (turns : Turns) : Search Unit := do
  let cutoff := setup.config.similarityCutoff
  if 0.0 < cutoff then
    proceed setup .cutoff
    let _ ← phase setup turns .cutoff (dropNode cutoff)

/-- The search over at least two nodes. -/
def descend (setup : Setup) (schedule : Schedule) (k : ListSize) : Search Result := do
  let refined ← refine setup schedule k setup.config.maxIterations
  applyCutoff setup (schedule .cutoff 0)
  let lists ← atomic fun s => (s.lists, s)
  return ⟨lists.map NeighbourList.neighbours, refined.iterations, refined.converged,
    refined.pairs, lists.size⟩

/-- An empty list for each node. -/
def emptyLists (nodeCount capacity : Nat) : Array NeighbourList :=
  (Array.range nodeCount).map fun node => { owner := node, capacity }

/-- Nothing is held and nothing done yet. -/
def State.start (nodeCount capacity : Nat) : State where
  lists := emptyLists nodeCount capacity

/-- What a search left behind. -/
structure Run where
  outcome : Except SearchError Result
  log : Log := #[]
  rounds : List (Option Tally) := []
  visits : List Visit := []

/-- Runs a search whose tasks take the given turns. A metric that covers another number of nodes
is refused, and fewer than two nodes have nothing to compare. -/
def runUnder (schedule : Schedule) (setup : Setup) : Run :=
  let nodeCount := setup.nodeCount
  match setup.metric.nodeCount with
  | some covered =>
    if covered ≠ nodeCount then { outcome := .error (.nodeCountMismatch nodeCount covered) }
    else go nodeCount
  | none => go nodeCount
where
  go (nodeCount : Nat) : Run :=
    if nodeCount < 2 then { outcome := .ok (.empty nodeCount) }
    else if setup.stopped #[] then { outcome := .error (.cancelled Phase.initialization.name) }
    else
      match ListSize.of setup.config.topK setup.config.sampleRate nodeCount with
      | .error cause => { outcome := .error (.settings cause) }
      | .ok k =>
        let (outcome, state) := (descend setup schedule k).exec (State.start nodeCount k.bounded)
        { outcome, log := state.log, rounds := state.rounds.toList, visits := state.visits.toList }

/-- Runs a search, one partition after the other. -/
def run (setup : Setup) : Run := runUnder .inOrder setup

end NeighbourGraph.Search
