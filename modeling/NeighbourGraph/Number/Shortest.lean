/-
Shortest decimals: the fewest significant digits that read back as the same binary64 number.

A finite number is `m * 2 ^ q`. The reals that round to it form an interval around it, with ends
half a step away on either side (a quarter step below when `m` is the least normal significand),
and the ends belong to it exactly when `m` is even. `shortest` looks at the decimals with one
digit, then two, and so on up to seventeen, and takes the first grid that has a point in the
interval. Only the two neighbours of the number on a grid need to be tried, since a grid that
meets the interval has one of them in it. All comparisons are exact, in natural numbers.
-/

import NeighbourGraph.Number.Count

namespace NeighbourGraph.Number

/-- A finite binary64 number as sign, significand and binary exponent: `± m * 2 ^ q`. -/
structure Binary where
  negative : Bool
  significand : Nat
  exponent : Int
  deriving DecidableEq, Repr

/-- What sixty-four bits stand for. -/
inductive Datum where
  | finite (value : Binary)
  | infinity (negative : Bool)
  | notANumber
  deriving DecidableEq, Repr

/-- The bit in front of the fraction that normal numbers leave out. -/
def hiddenBit : Nat := 1 <<< 52

/-- The reading of a number's bits: one sign bit, eleven bits of exponent, fifty-two of
fraction. Exponent field `0` holds zeros and subnormal numbers, the full field infinities and
NaN. -/
def datum (x : Float) : Datum :=
  let bits := x.toBits.toNat
  let negative := decide (signBit ≤ bits)
  let field := bits / hiddenBit % 2048
  let fraction := bits % hiddenBit
  if field = 2047 then
    if fraction = 0 then .infinity negative else .notANumber
  else if field = 0 then .finite ⟨negative, fraction, -1074⟩
  else .finite ⟨negative, hiddenBit + fraction, (field : Int) - 1075⟩

/-- A positive decimal: `digits * 10 ^ exponent`. -/
structure Decimal where
  digits : Nat
  exponent : Int
  deriving DecidableEq, Repr

/-- Where a number halfway between two decimals of the same length goes. -/
inductive Tie where
  | up
  | toEven
  deriving DecidableEq, Repr

/-- How many decimal digits `n` has; `0` has none. -/
def digitCount (n : Nat) : Nat :=
  if n = 0 then 0 else digitCount (n / 10) + 1
termination_by n
decreasing_by omega

/-- `n` without the zeros at its end, and how many they were. Stops at `0`. -/
def dropZeros (n : Nat) : Nat × Nat :=
  if n ≠ 0 ∧ n % 10 = 0 then
    let rest := dropZeros (n / 10)
    (rest.1, rest.2 + 1)
  else (n, 0)
termination_by n
decreasing_by omega

/-- The interval of reals that round to a number, over a common denominator: its ends and the
number itself are `low`, `high` and `value` over `unit`. -/
structure Interval where
  low : Nat
  value : Nat
  high : Nat
  unit : Nat
  closed : Bool
  deriving Repr

/-- The interval of `m * 2 ^ q`, in quarters of a binary step. -/
def interval (m : Nat) (q : Int) : Interval :=
  let below := if m = hiddenBit ∧ -1074 < q then 1 else 2
  let up := 1 <<< (q - 2).toNat
  { low := (4 * m - below) * up
    value := 4 * m * up
    high := (4 * m + 2) * up
    unit := 1 <<< (2 - q).toNat
    closed := m % 2 = 0 }

/-- `10 ^ n`. -/
def tenTo (n : Nat) : Nat := Nat.pow 10 n

/-- Both sides of a comparison with `a * 10 ^ g`, scaled to natural numbers: the factor of `a`
and the factor of the numerators. -/
def gridScale (unit : Nat) (g : Int) : Nat × Nat :=
  (unit * tenTo g.toNat, tenTo (-g).toNat)

/-- `a * 10 ^ g` rounds to the number of the interval. -/
def Interval.holds (i : Interval) (g : Int) (a : Nat) : Bool :=
  let (grid, scale) := gridScale i.unit g
  let low := i.low * scale
  let high := i.high * scale
  if i.closed then low ≤ a * grid && a * grid ≤ high else low < a * grid && a * grid < high

/-- The point of the grid `10 ^ g` in the interval that is nearest to the number, if any. -/
def Interval.nearest (i : Interval) (tie : Tie) (g : Int) : Option Nat :=
  let (grid, scale) := gridScale i.unit g
  let value := i.value * scale
  let a := value / grid
  match i.holds g a, i.holds g (a + 1) with
  | true, true =>
    let down := value - a * grid
    let up := (a + 1) * grid - value
    if down < up then some a
    else if up < down then some (a + 1)
    else match tie with
      | .up => some (a + 1)
      | .toEven => some (if a % 2 = 0 then a else a + 1)
  | true, false => some a
  | false, true => some (a + 1)
  | false, false => none

/-- The exponent of the leading digit of `value / unit`. -/
def leadingExponent (value unit : Nat) : Int :=
  if unit ≤ value then (digitCount (value / unit) : Int) - 1
  else -(digitCount ((unit - 1) / value) : Int)

/-- Tries the grids from coarse to fine, `steps` of them. -/
def Interval.search (i : Interval) (tie : Tie) : Nat → Int → Option Decimal
  | 0, _ => none
  | steps + 1, g =>
    match i.nearest tie g with
    | some a => some ⟨a, g⟩
    | none => i.search tie steps (g - 1)

/-- The decimal without zeros at the end of its digits. -/
def Decimal.trimmed (d : Decimal) : Decimal :=
  let (digits, zeros) := dropZeros d.digits
  ⟨digits, d.exponent + zeros⟩

/-- The shortest decimal that reads back as `m * 2 ^ q`, for positive `m`. Seventeen digits are
always enough. -/
def shortest (tie : Tie) (m : Nat) (q : Int) : Decimal :=
  let i := interval m q
  let found := i.search tie 17 (leadingExponent i.value i.unit)
  (found.getD ⟨m, q⟩).trimmed

end NeighbourGraph.Number
