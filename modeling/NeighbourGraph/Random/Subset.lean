/-
Distinct counts below a bound, in random order.

Three methods share the work. A partial shuffle fills an array with all counts and shuffles its
front; it is used when a large part of the range is wanted. Floyd's method inserts one count for
each of the last places of the range; it is used for few counts. Rejection draws until a new
count comes; it is used for many counts of a very large range. Which one runs depends on the two
sizes only, through thresholds in binary32 arithmetic.
-/

import NeighbourGraph.Random.Uniform

namespace NeighbourGraph.Random

/-! ### Partial shuffle -/

/-- Swaps place `i` with a random place at or after it, for `steps` places from `i` on. -/
def shuffleFront (items : Array Nat) (i : Nat) : Nat → Draw (Array Nat)
  | 0 => pure items
  | steps + 1 => do
    let j ← belowHalf (items.size - i)
    shuffleFront (items.swapIfInBounds i (i + j)) (i + 1) steps

/-- The first `amount` places of a shuffle of all counts below `length`. -/
def shuffled (length amount : Nat) : Draw (List Nat) := do
  let items ← shuffleFront (Array.range length) 0 amount
  return items.toList.take amount

/-! ### Floyd's method -/

/-- Takes `drawn` in, or `last` in its place when it is there already. With `ordered` the
replacement goes before the one that was drawn twice, so that the order is random too. -/
def floydStep (ordered : Bool) (chosen : List Nat) (last drawn : Nat) : List Nat :=
  if drawn ∈ chosen then
    if ordered then chosen.insertIdx (chosen.idxOf drawn) last else chosen ++ [last]
  else chosen ++ [drawn]

/-- One count for each of the places `last, last + 1, …`, `steps` of them. -/
def floydFrom (ordered : Bool) (chosen : List Nat) (last : Nat) : Nat → Draw (List Nat)
  | 0 => pure chosen
  | steps + 1 => do
    let drawn ← belowHalf (last + 1)
    floydFrom ordered (floydStep ordered chosen last drawn) (last + 1) steps

/-- Shuffles from the back: each place from `i` down to `1` is swapped with one not after it. -/
def shuffleBack (items : Array Nat) : Nat → Draw (Array Nat)
  | 0 => pure items
  | i + 1 => do
    let j ← belowHalf (i + 2)
    shuffleBack (items.swapIfInBounds (i + 1) j) i

/-- From this amount on the order is made by a shuffle at the end. -/
def floydOrderedBelow : Nat := 50

/-- `amount` counts below `length`, one for each of the last `amount` places. -/
def floyd (length amount : Nat) : Draw (List Nat) := do
  let ordered := amount < floydOrderedBelow
  let chosen ← floydFrom ordered [] (length - amount) amount
  if ordered then return chosen
  else return (← shuffleBack chosen.toArray (amount - 1)).toList

/-! ### Rejection -/

/-- A count below `length` that is not among `chosen`, drawn until one comes. The method draws for
as long as it takes: the least such count, given when the attempts are used up, is no outcome of
it and only keeps the function total. -/
def fresh (w : Width) (length : Nat) (chosen : List Nat) : Draw Nat := do
  let attempt : Draw (Option Nat) := do
    let drawn ← belowWith w (exactZone w length) length
    return if drawn ∈ chosen then none else some drawn
  match ← retry attempt attempts with
  | some drawn => return drawn
  | none => return ((List.range length).find? (· ∉ chosen)).getD 0

/-- Adds `steps` fresh counts to `chosen`, the latest in front. -/
def rejectionFrom (w : Width) (length : Nat) (chosen : List Nat) : Nat → Draw (List Nat)
  | 0 => pure chosen
  | steps + 1 => do
    let drawn ← fresh w length chosen
    rejectionFrom w length (drawn :: chosen) steps

/-- `amount` counts below `length`, each drawn until it is new. -/
def rejection (w : Width) (length amount : Nat) : Draw (List Nat) := do
  return (← rejectionFrom w length [] amount).reverse

/-! ### The choice of method -/

inductive Method where
  | shuffle
  | floyd
  | reject (width : Width)
  deriving DecidableEq, Repr

/-- Ranges up to here are drawn from 32-bit words. -/
def halfRange : Nat := UInt32.size - 1

/-- Ranges from here on are too large for a processor's cache, and shuffling pays off later. -/
def largeRange : Nat := 500000

/-- The method for `amount` counts below `length`. -/
def methodFor (length amount : Nat) : Method :=
  let size := length.toUInt64.toFloat32
  let wanted := amount.toUInt64.toFloat32
  let large := largeRange ≤ length
  if halfRange < length then .reject .full
  else if amount < 163 then
    let slope : Float32 := if large then 8.0 / 45.0 else 1.6
    let base : Float32 := if large then 70.0 / 9.0 else 10.0
    if 11 < amount ∧ size < (base + slope * wanted) * wanted then .shuffle else .floyd
  else
    let ratio : Float32 := if large then 330.0 / 9.0 else 270.0
    if size < ratio * wanted then .shuffle else .reject .half

/-- `amount` distinct counts below `length`, in random order, for `amount ≤ length`. -/
def subset (length amount : Nat) : Draw (List Nat) :=
  match methodFor length amount with
  | .shuffle => shuffled length amount
  | .floyd => floyd length amount
  | .reject w => rejection w length amount

end NeighbourGraph.Random
