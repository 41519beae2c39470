/-
Sums of numbers that are not negative.

Rounding keeps the sign: a sum of two numbers that are not negative is neither negative nor NaN. It
may be too large for a binary64 number, and is infinite then.
-/

import Mathlib
import NeighbourGraph.Proofs.Number.Order

namespace NeighbourGraph.Number

open Float.Model Float.Model.UnpackedFloat

/-- Zero, positive or infinite: what is not negative. -/
def NonNegative : UnpackedFloat → Prop
  | .zero _ | .finite .positive .. | .infinity .positive => True
  | .notANumber | .finite .negative .. | .infinity .negative => False

/-! ### Unpacked numbers -/

theorem nonNegative_roundWithAccuracy (spec : Format) (m : ℕ) (e : ℤ) (accuracy : Accuracy) :
    NonNegative (roundWithAccuracy spec .positive m e accuracy) := by
  unfold roundWithAccuracy
  dsimp only
  split
  · trivial
  · trivial

/-- What is positive or zero stays so when it is rounded. -/
theorem nonNegative_normalize (spec : Format) {m : ℤ} (e : ℤ) (hm : 0 ≤ m) (sign : Sign) :
    NonNegative (UnpackedFloat.normalize spec m e sign) := by
  unfold UnpackedFloat.normalize
  split
  · next lt => exact absurd (compare_lt_iff_lt.1 lt) (not_lt.2 hm)
  · trivial
  · exact nonNegative_roundWithAccuracy ..

/-- Only a positive finite number comes with a significand. -/
theorem NonNegative.eq_positive {s : Sign} {m : ℕ} {e : ℤ} {pos : 0 < m}
    (h : NonNegative (.finite s m e pos)) : s = .positive := by
  cases s with
  | positive => rfl
  | negative => exact h.elim

theorem NonNegative.eq_infinity {s : Sign} (h : NonNegative (.infinity s)) : s = .positive := by
  cases s with
  | positive => rfl
  | negative => exact h.elim

theorem nonNegative_add (spec : Format) {a b : UnpackedFloat} (ha : NonNegative a)
    (hb : NonNegative b) : NonNegative (a.add spec b) := by
  cases a with
  | notANumber => exact ha.elim
  | infinity s =>
    obtain rfl := ha.eq_infinity
    cases b with
    | notANumber => exact hb.elim
    | infinity t =>
      obtain rfl := hb.eq_infinity
      trivial
    | zero | finite => trivial
  | zero s =>
    cases b with
    | notANumber => exact hb.elim
    | infinity | finite => exact hb
    | zero t => cases s <;> cases t <;> trivial
  | finite s m e pos =>
    obtain rfl := ha.eq_positive
    cases b with
    | notANumber => exact hb.elim
    | infinity => exact hb
    | zero => trivial
    | finite t m' e' pos' =>
      obtain rfl := hb.eq_positive
      exact nonNegative_normalize spec _ (Int.add_nonneg (Int.natCast_nonneg _)
        (Int.natCast_nonneg _)) _

/-! ### Packed numbers -/

/-- Packing keeps the sign, and makes no NaN of a number that has one. -/
theorem nonNegative_unpack_pack {a : UnpackedFloat} (ha : NonNegative a) :
    NonNegative (UnpackedFloat.unpack .binary64 (UnpackedFloat.pack .binary64 a)) := by
  have components : ∀ (exponent : BitVec 11) (mantissa : BitVec 52),
      (exponent = -1#11 → mantissa = 0#52) →
      NonNegative (UnpackedFloat.unpack .binary64
        (packComponents .binary64 .positive exponent mantissa)) := by
    intro exponent mantissa infinite
    unfold UnpackedFloat.unpack
    simp only [unpackSign_packComponents, unpackExponent_packComponents,
      unpackMantissa_packComponents]
    split
    · next top => rw [if_pos (infinite top)]; trivial
    · split
      · split <;> trivial
      · trivial
  cases a with
  | notANumber => exact ha.elim
  | infinity s =>
    obtain rfl := ha.eq_infinity
    exact components _ _ fun _ => rfl
  | zero s => cases s <;> trivial
  | finite s m e pos =>
    obtain rfl := ha.eq_positive
    unfold UnpackedFloat.pack
    dsimp only
    split
    · exact components _ _ fun _ => rfl
    · next small =>
      split
      · -- The largest exponent stands for infinity, and this one is smaller.
        refine components _ _ fun top => ?_
        have eq := congrArg BitVec.toNat top
        rw [BitVec.toNat_ofNat, Nat.mod_eq_of_lt (by omega)] at eq
        exact absurd eq (by
          change _ ≠ 2047
          have : (2 : ℕ) ^ 11 = 2048 := rfl
          omega)
      · exact components _ _ fun top => absurd top (by decide)

/-! ### Numbers -/

variable {x y : Float}

theorem unpack_zero : (0.0 : Float).toModel.unpack = .zero .positive := rfl

theorem zero_le_iff : 0.0 ≤ x ↔ NonNegative x.toModel.unpack := by
  rw [le_iff_compare, unpack_zero]
  cases x.toModel.unpack with
  | notANumber | zero => simp [UnpackedFloat.compare, NonNegative, Ordering.isLE]
  | infinity s | finite s m e pos =>
    cases s <;> simp [UnpackedFloat.compare, NonNegative, Ordering.isLE]

/-- A number that is not negative and not finite is above zero. -/
theorem not_le_zero (hx : 0.0 ≤ x) (infinite : ¬x.isFinite = true) : ¬x ≤ 0.0 := by
  rw [zero_le_iff] at hx
  change ¬x.toModel.unpack.isFinite = true at infinite
  rw [le_iff_compare, unpack_zero]
  cases hu : x.toModel.unpack with
  | notANumber => simp [hu, NonNegative] at hx
  | zero | finite => simp [hu, UnpackedFloat.isFinite] at infinite
  | infinity s =>
    obtain rfl := (hu ▸ hx : NonNegative (.infinity s)).eq_infinity
    simp [UnpackedFloat.compare, Ordering.isLE]

/-- A sum of two numbers that are not negative is not negative. -/
theorem add_nonneg (hx : 0.0 ≤ x) (hy : 0.0 ≤ y) : 0.0 ≤ x + y := by
  rw [zero_le_iff] at *
  exact nonNegative_unpack_pack (nonNegative_add .binary64 hx hy)

/-- The sum of numbers that are not negative is not negative. -/
theorem sum_nonneg {xs : List Float} (h : ∀ x ∈ xs, 0.0 ≤ x) : 0.0 ≤ sum xs := by
  have go : ∀ start : Float, 0.0 ≤ start → 0.0 ≤ xs.foldl (· + ·) start := by
    induction xs with
    | nil => exact fun start hs => hs
    | cons x xs ih =>
      exact fun start hs => ih (fun y hy => h y (by simp [hy])) _
        (add_nonneg hs (h x (by simp)))
  exact go negativeZero (by decide +kernel)

end NeighbourGraph.Number
