/-
Counts and the binary64 numbers they meet.

Node ids, list sizes and seeds are counts below `2 ^ 64`. Wherever a rate scales a count the
product is a binary64 number and is cut back to a count. The three conversions are named here
once: `ofCount` rounds to the nearest number (ties to even), `toCount` drops the fraction and
keeps to the range of a count, `roundUp` is the least whole number that is not smaller.
-/

namespace NeighbourGraph.Number

/-- Counts are below this bound. -/
def countLimit : Nat := UInt64.size

/-- The largest count. -/
def countMax : Nat := countLimit - 1

/-- The binary64 number nearest to a count. -/
def ofCount (n : Nat) : Float := n.toUInt64.toFloat

/-- The whole part of a number, held between `0` and `countMax`; NaN gives `0`. -/
def toCount (x : Float) : Nat := x.toUInt64.toNat

/-- From `2 ^ 53` on every binary64 number is whole. -/
def wholeFrom : Float := ofCount (1 <<< 53)

/-- The least whole number not below `x`, for `x` that is not negative. NaN stays NaN. -/
def roundUp (x : Float) : Float :=
  if x < wholeFrom then
    let whole := ofCount (toCount x)
    if whole < x then ofCount (toCount x + 1) else whole
  else x

/-! ### Sums

A sum of numbers starts from `-0.0`, the one number that changes nothing when added, so the sum
of a single number is that number, sign of zero included. -/

/-- `-0.0`. -/
def negativeZero : Float := Float.ofBits 0x8000000000000000

/-- The sum of the numbers from left to right. -/
def sum (xs : List Float) : Float := xs.foldl (· + ·) negativeZero

/-! ### Signs -/

/-- The bits of a number that is not negative are below this bound. -/
def signBit : Nat := 1 <<< 63

end NeighbourGraph.Number
