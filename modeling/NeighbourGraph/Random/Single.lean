/-
Binary32 draws: a number of a half-open range, and a standard normal number.
-/

import NeighbourGraph.Random.Uniform

namespace NeighbourGraph.Random

/-- A number of `[low, high)` in binary32: a fraction on the grid of `2 ^ -23`, stretched over
the range. Rounding can reach the end; such draws are repeated. -/
def singleBetween (low high : Float32) : Draw Float32 := do
  let attempt : Draw (Option Float32) := do
    let w ← halfWord
    let unit := Float32.ofBits ((0x3F800000 : UInt32) ||| (w >>> 9)) - 1.0
    let x := unit * (high - low) + low
    return if x < high then some x else none
  return (← retry attempt attempts).getD low

/-- `π`. -/
def singlePi : Float32 := Float32.ofBits 0x40490FDB

/-- `2 ^ -23`, the step from one to the next number. -/
def singleStep : Float32 := Float32.ofBits 0x34000000

/-- A standard normal number, from two uniform ones by the polar transformation. -/
def standardNormal : Draw Float32 := do
  let u ← singleBetween singleStep 1.0
  let v ← singleBetween 0.0 1.0
  return (-2.0 * u.log).sqrt * (2.0 * singlePi * v).cos

end NeighbourGraph.Random
