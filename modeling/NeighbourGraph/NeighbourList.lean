/-
Neighbour lists: the best candidates seen for one node, best first, up to a capacity.

A candidate is refused when it is the owner or is held already. Into a full list it comes only by
being more similar than the last entry, whose place it takes; as similar as the last entry, it
comes in by chance. It is placed after every entry at least as similar as itself. Each entry
remembers whether it was handed out for joining; one that comes in has not been.
-/

import NeighbourGraph.Random.Uniform

namespace NeighbourGraph

open NeighbourGraph.Random

/-- A candidate with its similarity to the owner of a list. -/
structure Neighbour where
  id : Nat
  similarity : Float

/-- A neighbour in a list. -/
structure Entry extends Neighbour where
  /-- It was handed out for joining since it came in. -/
  explored : Bool := false

/-- The list of one node. -/
structure NeighbourList where
  owner : Nat
  capacity : Nat
  entries : List Entry := []

/-! ### The place of a candidate -/

/-- Narrows `size` places from `base` on by halves. `holds` tells whether a place comes before
the one that is sought; the places for which it holds come first. -/
def narrow (holds : Nat → Bool) (base size : Nat) : Nat :=
  if size ≤ 1 then if holds base then base + 1 else base
  else
    let half := size / 2
    narrow holds (if holds (base + half) then base + half else base) (size - half)
termination_by size

/-- The first place of `xs` for which `p` fails, where those for which it holds come first. -/
def partitionPoint {α : Type} (p : α → Bool) (xs : List α) : Nat :=
  if xs.isEmpty then 0 else narrow (fun i => xs[i]?.any p) 0 xs.length

theorem narrow_le (holds : Nat → Bool) (base size : Nat) (h : 0 < size) :
    narrow holds base size ≤ base + size := by
  induction size using Nat.strongRecOn generalizing base with
  | ind size ih =>
    rw [narrow]
    split
    · split <;> omega
    · have := ih (size - size / 2) (by omega)
        (if holds (base + size / 2) then base + size / 2 else base) (by omega)
      refine Nat.le_trans this ?_
      split <;> omega

/-- The place found is one where an entry can be put. -/
theorem partitionPoint_le {α : Type} (p : α → Bool) (xs : List α) :
    partitionPoint p xs ≤ xs.length := by
  unfold partitionPoint
  split
  · exact Nat.zero_le _
  · next h =>
    have := narrow_le (fun i => xs[i]?.any p) 0 xs.length
      (List.length_pos_iff.2 (by simpa using h))
    omega

namespace NeighbourList

/-- The ids held, best first. -/
def ids (l : NeighbourList) : List Nat := l.entries.map (·.id)

/-- The similarities held, best first. -/
def similarities (l : NeighbourList) : List Float := l.entries.map (·.similarity)

/-- What is held, best first. -/
def neighbours (l : NeighbourList) : List Neighbour := l.entries.map (·.toNeighbour)

/-- `id` is held. -/
def holds (l : NeighbourList) (id : Nat) : Bool := l.entries.any (·.id == id)

def size (l : NeighbourList) : Nat := l.entries.length

/-- The list has no room left. -/
def isFull (l : NeighbourList) : Bool := l.capacity ≤ l.size

/-- What a list makes of a candidate. -/
inductive Standing where
  /-- It cannot come in. -/
  | refused
  /-- It comes in if ties are broken in its favour. -/
  | tied
  /-- It comes in. -/
  | accepted
  deriving DecidableEq, Repr

/-- How a candidate stands against what is held. -/
def standing (l : NeighbourList) (id : Nat) (similarity : Float) : Standing :=
  if id = l.owner ∨ l.capacity = 0 ∨ l.holds id then .refused
  else if !l.isFull then .accepted
  else match l.entries.getLast? with
    | none => .refused
    | some last =>
      if last.similarity < similarity then .accepted
      else if similarity == last.similarity then .tied
      else .refused

/-- Takes a candidate in, the last entry leaving a full list. -/
def place (l : NeighbourList) (id : Nat) (similarity : Float) : NeighbourList :=
  let kept := if l.isFull then l.entries.dropLast else l.entries
  let point := partitionPoint (fun e => similarity ≤ e.similarity) kept
  { l with entries := kept.insertIdx point { id, similarity } }

/-- Whether a tie is broken in favour of the candidate. A rate of zero takes no word. -/
def breakTie (rate : Float) : Draw Bool := do
  if 0.0 < rate then return (← unit) < rate
  else return false

/-- Offers a candidate and tells whether it came in, ties broken at the given rate. -/
def add (l : NeighbourList) (id : Nat) (similarity rate : Float) :
    Draw (Bool × NeighbourList) := do
  match l.standing id similarity with
  | .refused => return (false, l)
  | .accepted => return (true, l.place id similarity)
  | .tied =>
    if ← breakTie rate then return (true, l.place id similarity)
    else return (false, l)

/-- Offers a candidate and tells whether it came in, what is held staying in a tie. -/
def addKeepingTies (l : NeighbourList) (id : Nat) (similarity : Float) : Bool × NeighbourList :=
  match l.standing id similarity with
  | .accepted => (true, l.place id similarity)
  | .refused | .tied => (false, l)

/-- Drops the entries less similar than `cutoff`. -/
def dropBelow (l : NeighbourList) (cutoff : Float) : NeighbourList :=
  { l with entries := l.entries.filter fun e => cutoff ≤ e.similarity }

/-! ### Handing out entries -/

/-- What a list hands out: the ids it handed out before and those it does for the first time. -/
structure Parts where
  old : List Nat := []
  new : List Nat := []
  deriving DecidableEq, Repr

/-- Goes through entries best first. One that was handed out before is old. Any other is new
with chance `sampled / length` and then counts as handed out. -/
def splitEntries (length sampled : Nat) : List Entry → Draw (List Entry × Parts)
  | [] => return ([], {})
  | e :: rest => do
    if e.explored then
      let (entries, parts) ← splitEntries length sampled rest
      return (e :: entries, { parts with old := e.id :: parts.old })
    else if (← below length) < sampled then
      let (entries, parts) ← splitEntries length sampled rest
      return ({ e with explored := true } :: entries, { parts with new := e.id :: parts.new })
    else
      let (entries, parts) ← splitEntries length sampled rest
      return (e :: entries, parts)

/-- Hands out the entries for one iteration. -/
def split (l : NeighbourList) (sampled : Nat) : Draw (NeighbourList × Parts) := do
  let (entries, parts) ← splitEntries l.size sampled l.entries
  return ({ l with entries }, parts)

end NeighbourList

end NeighbourGraph
