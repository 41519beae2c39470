/-
What happens during a search.

A search keeps a log of its events in order. Some are announced to observers: phases and their
progress, the list a node starts with, and every scored candidate. The others serve accounts of
the work done: which pairs were scored and which candidates came into a list, each with the part
of the search that it belongs to.
-/

namespace NeighbourGraph

/-- The phases of a search. -/
inductive Phase where
  | initialization
  | split
  | reverse
  | join
  | cutoff
  deriving DecidableEq, Repr

def Phase.name : Phase → String
  | .initialization => "initialization"
  | .split => "split"
  | .reverse => "reverse"
  | .join => "join"
  | .cutoff => "cutoff"

/-- The parts of a search that score pairs. -/
inductive Origin where
  /-- Filling the lists at the start. -/
  | sampling
  /-- Joining the neighbours of a node. -/
  | joining
  /-- Joining two of them by one score for both; whoever comes in by it was joined. -/
  | pairing
  /-- Comparing a node with random others. -/
  | chance
  deriving DecidableEq, Repr

/-- An event of a search. -/
inductive Event where
  /-- A phase begins, with its volume of work. -/
  | started (phase : Phase) (volume : Nat)
  /-- An amount of the phase's work is done. -/
  | advanced (amount : Nat)
  | ended (phase : Phase)
  /-- A node starts with these neighbours. -/
  | offered (node : Nat) (ids : List Nat)
  /-- A candidate for a node was scored. -/
  | considered (node candidate : Nat) (similarity : Float)
  /-- The metric is asked for a pair. -/
  | scored (origin : Origin) (left right : Nat)
  /-- A candidate came into the list of a node. -/
  | entered (origin : Origin) (node candidate : Nat)

namespace Event

/-- Events about phases and their progress. -/
def isProgress : Event → Bool
  | .started .. | .advanced _ | .ended _ => true
  | _ => false

/-- Events that are announced to observers. -/
def isAnnounced : Event → Bool
  | .scored .. | .entered .. => false
  | _ => true

/-- The scored candidate of an event. -/
def considered? : Event → Option (Nat × Nat × Float)
  | .considered node candidate similarity => some (node, candidate, similarity)
  | _ => none

end Event

/-- The events so far, oldest first. -/
abbrev Log := Array Event

/-- A node that a task took up in a phase, and how much had been logged by then. -/
structure Visit where
  phase : Phase
  node : Nat
  since : Nat
  deriving DecidableEq, Repr

/-- The events that `counts` picks are at least `limit`. -/
def Log.reaches (counts : Event → Bool) (limit : Nat) (log : Log) : Bool :=
  limit ≤ log.countP counts

end NeighbourGraph
