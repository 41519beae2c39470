/-
Numbers as patterns of 64 bits.

A pattern is a sign, the bits of an exponent and those of a significand. The zeros `-0.0` and `0.0`
have a pattern each, and so has every other number, but NaN has many, with either sign. Where
values are put in order it is their patterns that are compared, so one NaN is told from another.
-/

import NeighbourGraph.Number.Count

namespace NeighbourGraph.Number

/-- The bits of a binary64 number. -/
structure Pattern where
  bits : UInt64
  deriving DecidableEq, Repr

namespace Pattern

/-- The number that a pattern stands for; all patterns of NaN stand for NaN. -/
def toFloat (p : Pattern) : Float := Float.ofBits p.bits

/-- The pattern of a number. That of NaN is one without a sign. -/
def ofFloat (x : Float) : Pattern := ⟨x.toBits⟩

instance : Coe Pattern Float := ⟨toFloat⟩

end Pattern

/-! ### The total order

`totalKey` places every pattern on a line: NaN with a sign, then the negative numbers by falling
magnitude, `-0.0`, `0.0`, the positive numbers and NaN without a sign. -/

/-- The place of a pattern in the total order. -/
def totalKey (p : Pattern) : Int :=
  let bits := p.bits.toNat
  if bits < signBit then (bits : Int) else (signBit : Int) - 1 - (bits : Int)

/-- `x` stands no later than `y` in the total order. -/
def totalLe (x y : Pattern) : Bool := totalKey x ≤ totalKey y

variable {x y z : Pattern}

theorem totalLe_refl (x : Pattern) : totalLe x x = true := by simp [totalLe]

theorem totalLe_trans (hxy : totalLe x y = true) (hyz : totalLe y z = true) :
    totalLe x z = true := by
  simp only [totalLe, decide_eq_true_eq] at *
  exact Int.le_trans hxy hyz

theorem totalLe_total (x y : Pattern) : totalLe x y || totalLe y x := by
  simp only [totalLe, Bool.or_eq_true, decide_eq_true_eq]
  exact Int.le_total _ _

end NeighbourGraph.Number
