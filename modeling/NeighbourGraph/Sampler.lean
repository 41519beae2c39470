/-
Samplers: the candidates a list starts from.

The uniform sampler takes other nodes at random. The walk sampler follows relationships from the
node, turning back to it now and then, and collects the nodes it meets; it leaves isolated nodes
without candidates and fills up uniformly when the walk was too short. All candidates are
distinct, known and other than the node.
-/

import NeighbourGraph.Graph.Basic
import NeighbourGraph.Random.Subset
import NeighbourGraph.Settings

namespace NeighbourGraph.Sampler

open NeighbourGraph.Number NeighbourGraph.Random

/-! ### Uniform -/

/-- The other nodes are numbered without a gap; `skip node` gives the node of a number. -/
def skip (node number : Nat) : Nat := if node ≤ number then number + 1 else number

/-- As many distinct other nodes as there are, up to `count`. -/
def uniform (nodeCount node count : Nat) : Draw (List Nat) := do
  let others := nodeCount - 1
  let amount := min count others
  if amount = 0 then return []
  return (← subset others amount).map (skip node)

/-! ### Walks -/

/-- The weights of a walked node do not add up to a finite number. -/
inductive WalkError where
  | weights
  deriving DecidableEq, Repr

/-- The chance to turn back to the start before a step. -/
def restartChance : Float := 0.15

/-- Steps of a walk per wanted candidate. -/
def stepsPerCandidate : Nat := 16

/-- The target at which the running weight passes `mark`, or the last one. -/
def passing (mark : Float) : List Relationship → Option Nat
  | [] => none
  | [r] => some r.target
  | r :: rest => if mark < r.weight then some r.target else passing (mark - r.weight) rest

/-- A target with a chance in proportion to its weight. Without any weight all targets have the
same chance. -/
def pickWeighted (relationships : List Relationship) : ExceptT WalkError Draw (Option Nat) := do
  if relationships.isEmpty then return none
  let total := sum (relationships.map (·.weight))
  if total ≤ 0.0 then
    let i ← below relationships.length
    return relationships[i]?.map (·.target)
  else if total.isFinite then return passing (← realBelow total) relationships
  else throw .weights

/-- A walk of at most `steps` steps that collects known nodes other than `start`, each once,
until there are `wanted` of them. -/
def walk (g : Graph) (start wanted : Nat) (current : Nat) (found : List Nat) :
    Nat → ExceptT WalkError Draw (List Nat)
  | 0 => return found
  | steps + 1 => do
    if wanted ≤ found.length then return found
    let position ←
      if current ≠ start then if ← chance restartChance then pure start else pure current
      else pure current
    match ← pickWeighted (g.relationships position) with
    | none => walk g start wanted start found steps
    | some next =>
      let found :=
        if next ≠ start ∧ next < g.nodeCount ∧ next ∉ found then found ++ [next] else found
      walk g start wanted next found steps

/-- Adds candidates that are not there yet until there are `wanted`. -/
def topUp (wanted : Nat) (found : List Nat) : List Nat → List Nat
  | [] => found
  | c :: rest =>
    if wanted ≤ found.length then found
    else topUp wanted (if c ∈ found then found else found ++ [c]) rest

/-- The candidates of a walk, filled up uniformly. -/
def randomWalk (g : Graph) (node count : Nat) : ExceptT WalkError Draw (List Nat) := do
  let wanted := min count (g.nodeCount - 1)
  if wanted = 0 ∨ g.degree node = 0 then return []
  let steps := min (wanted * stepsPerCandidate) countMax
  let found ← walk g node wanted node [] steps
  if wanted ≤ found.length then return found
  return topUp wanted found (← uniform g.nodeCount node wanted)

/-- The candidates of a node. -/
def sample (kind : SamplerKind) (g : Graph) (node count : Nat) :
    ExceptT WalkError Draw (List Nat) :=
  match kind with
  | .uniform => uniform g.nodeCount node count
  | .randomWalk => randomWalk g node count

end NeighbourGraph.Sampler
