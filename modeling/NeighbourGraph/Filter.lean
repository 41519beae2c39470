/-
Filters: which pairs a search may link, and which nodes take part as sources or targets.
-/

namespace NeighbourGraph

/-- Says which ordered pairs are excluded. -/
abbrev PairFilter := Nat → Nat → Bool

namespace PairFilter

/-- Excludes a node's relationship to itself and nothing else. -/
def standard : PairFilter := fun source target => source == target

/-- Excludes what `excluded` names, and every node's relationship to itself. -/
def ofFunction (excluded : Nat → Nat → Bool) : PairFilter :=
  fun source target => source == target || excluded source target

end PairFilter

/-- Says which nodes are accepted. -/
abbrev NodeFilter := Nat → Bool

/-- Accepts every node. -/
def NodeFilter.all : NodeFilter := fun _ => true

end NeighbourGraph
