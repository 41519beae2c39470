/-
Sampling behind what a buffer holds.

A caller hands a sampler a buffer and has the candidates put behind its content. The sampler counts
and compares only what it put there itself: it notes where the buffer ended and looks at nothing in
front of that place.
-/

import NeighbourGraph.Sampler

namespace NeighbourGraph.Sampler

open NeighbourGraph.Number NeighbourGraph.Random

/-- `uniform` behind the content of a buffer. -/
def uniformOnto (nodeCount node count : Nat) (out : List Nat) : Draw (List Nat) := do
  let others := nodeCount - 1
  let amount := min count others
  if amount = 0 then return out
  return out ++ (← subset others amount).map (skip node)

/-- A walk that collects behind the place `start` of a buffer. -/
def walkOnto (g : Graph) (node wanted start : Nat) (current : Nat) (out : List Nat) :
    Nat → ExceptT WalkError Draw (List Nat)
  | 0 => return out
  | steps + 1 => do
    if wanted ≤ out.length - start then return out
    let position ←
      if current ≠ node then if ← chance restartChance then pure node else pure current
      else pure current
    match ← pickWeighted (g.relationships position) with
    | none => walkOnto g node wanted start node out steps
    | some next =>
      let out :=
        if next ≠ node ∧ next < g.nodeCount ∧ next ∉ out.drop start then out ++ [next] else out
      walkOnto g node wanted start next out steps

/-- Adds candidates that are not behind the place `start` yet until there are `wanted`. -/
def topUpOnto (wanted start : Nat) (out : List Nat) : List Nat → List Nat
  | [] => out
  | c :: rest =>
    if wanted ≤ out.length - start then out
    else topUpOnto wanted start (if c ∈ out.drop start then out else out ++ [c]) rest

/-- `randomWalk` behind the content of a buffer. What fills it up is drawn into a buffer of its
own. -/
def randomWalkOnto (g : Graph) (node count : Nat) (out : List Nat) :
    ExceptT WalkError Draw (List Nat) := do
  let wanted := min count (g.nodeCount - 1)
  if wanted = 0 ∨ g.degree node = 0 then return out
  let steps := min (wanted * stepsPerCandidate) countMax
  let start := out.length
  let out ← walkOnto g node wanted start node out steps
  if wanted ≤ out.length - start then return out
  return topUpOnto wanted start out (← uniformOnto g.nodeCount node wanted [])

/-- `sample` behind the content of a buffer. -/
def sampleOnto (kind : SamplerKind) (g : Graph) (node count : Nat) (out : List Nat) :
    ExceptT WalkError Draw (List Nat) :=
  match kind with
  | .uniform => uniformOnto g.nodeCount node count out
  | .randomWalk => randomWalkOnto g node count out

end NeighbourGraph.Sampler
