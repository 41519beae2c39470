/-
Searches for chosen nodes.

A search runs over all nodes, and a second set of lists watches the candidates that it scores:
only accepted targets are kept, and only accepted sources get a list. The second lists see every
scored candidate and keep what they hold in a tie; they do not influence the search.
-/

import NeighbourGraph.Search.Run

namespace NeighbourGraph.Search

/-- Offers a scored candidate to the list of its node, if the target is accepted. -/
def watch (target : NodeFilter) (lists : Array NeighbourList) (e : Event) :
    Array NeighbourList :=
  match e.considered? with
  | none => lists
  | some (node, candidate, similarity) =>
    if target candidate then
      lists.modify node fun l => (l.addKeepingTies candidate similarity).2
    else lists

/-- The lists that have watched a log. -/
def watched (target : NodeFilter) (nodeCount capacity : Nat) (log : Log) : Array NeighbourList :=
  log.foldl (watch target) (emptyLists nodeCount capacity)

/-- The neighbours of an accepted source that reach the cutoff; other nodes have none. -/
def chosen (source : NodeFilter) (cutoff : Float) (l : NeighbourList) : List Neighbour :=
  if source l.owner then
    l.neighbours.filter fun n => cutoff ≤ 0.0 || cutoff ≤ n.similarity
  else []

/-- Runs a search whose tasks take the given turns, and keeps the relationships from accepted
sources to accepted targets. -/
def runFilteredUnder (schedule : Schedule) (setup : Setup) (source target : NodeFilter) : Run :=
  let plain := runUnder schedule setup
  let capacity := min setup.config.topK (setup.nodeCount - 1)
  let lists := watched target setup.nodeCount capacity plain.log
  { plain with
    outcome := plain.outcome.map fun r =>
      { r with neighbours := lists.map (chosen source setup.config.similarityCutoff) } }

/-- Runs a search for chosen nodes, one partition after the other. -/
def runFiltered (setup : Setup) (source target : NodeFilter) : Run :=
  runFilteredUnder .inOrder setup source target

end NeighbourGraph.Search
