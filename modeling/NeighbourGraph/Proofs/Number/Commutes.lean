/-
What the order of two numbers does not matter for.

A product of two numbers is the same both ways. Differences the two ways are opposite, or the same
if there is nothing to turn around (NaN, or the zero that is left of equal numbers); so they have
one square and one absolute value. Rounding does not see the sign, and neither does packing.
-/

import Mathlib
import NeighbourGraph.Number.Count

namespace NeighbourGraph.Number

open Float.Model Float.Model.UnpackedFloat

/-! ### Unpacked numbers -/

/-- The same number, or the one with the other sign. -/
def UpToSign (a b : UnpackedFloat) : Prop := b = a ∨ b = a.neg

theorem sign_mul_comm (s t : Sign) : s * t = t * s := by cases s <;> cases t <;> rfl

theorem sign_neg_mul_neg (s : Sign) : -s * -s = s * s := by cases s <;> rfl

theorem unpacked_mul_comm (spec : Format) (a b : UnpackedFloat) : a.mul spec b = b.mul spec a := by
  cases a with
  | notANumber => cases b <;> rfl
  | infinity s =>
    cases b with
    | notANumber | zero => rfl
    | infinity | finite => simp only [UnpackedFloat.mul, sign_mul_comm]
  | zero s =>
    cases b with
    | notANumber | infinity => rfl
    | zero | finite => simp only [UnpackedFloat.mul, sign_mul_comm]
  | finite s m e pos =>
    cases b with
    | notANumber => rfl
    | infinity | zero => simp only [UnpackedFloat.mul, sign_mul_comm]
    | finite t m' e' pos' =>
      simp only [UnpackedFloat.mul, sign_mul_comm s, Nat.mul_comm m, Int.add_comm e]

/-- A number has one square, whatever its sign. -/
theorem UpToSign.mul_self (spec : Format) {a b : UnpackedFloat} (h : UpToSign a b) :
    b.mul spec b = a.mul spec a := by
  rcases h with rfl | rfl
  · rfl
  · cases a with
    | notANumber => rfl
    | infinity | zero | finite => simp only [UnpackedFloat.neg, UnpackedFloat.mul, sign_neg_mul_neg]

theorem UpToSign.abs {a b : UnpackedFloat} (h : UpToSign a b) : b.abs = a.abs := by
  rcases h with rfl | rfl
  · rfl
  · cases a <;> rfl

/-- Rounding does not see the sign. -/
theorem round_neg (spec : Format) (s : Sign) (m : ℕ) (e : ℤ) :
    UnpackedFloat.round spec (-s) m e = (UnpackedFloat.round spec s m e).neg := by
  unfold UnpackedFloat.round roundWithAccuracy
  dsimp only
  split <;> rfl

theorem normalize_neg (spec : Format) (m e : ℤ) :
    UpToSign (UnpackedFloat.normalize spec m e .positive)
      (UnpackedFloat.normalize spec (-m) e .positive) := by
  unfold UnpackedFloat.normalize
  rcases lt_trichotomy m 0 with h | rfl | h
  · rw [compare_lt_iff_lt.2 h, compare_gt_iff_gt.2 (by omega : -m > 0)]
    exact .inr (round_neg spec .negative _ e)
  · exact .inl rfl
  · rw [compare_gt_iff_gt.2 h, compare_lt_iff_lt.2 (by omega : -m < 0), neg_neg]
    exact .inr (round_neg spec .positive _ e)

/-- Differences the two ways. -/
theorem upToSign_sub (spec : Format) (a b : UnpackedFloat) :
    UpToSign (a.sub spec b) (b.sub spec a) := by
  cases a with
  | notANumber => cases b <;> exact .inl rfl
  | infinity s =>
    cases b with
    | notANumber => exact .inl rfl
    | infinity t => cases s <;> cases t <;> first | exact .inl rfl | exact .inr rfl
    | zero | finite => exact .inr rfl
  | zero s =>
    cases b with
    | notANumber => exact .inl rfl
    | infinity t => cases t <;> exact .inr rfl
    | zero t => cases s <;> cases t <;> first | exact .inl rfl | exact .inr rfl
    | finite t => cases t <;> exact .inr rfl
  | finite s m e pos =>
    cases b with
    | notANumber => exact .inl rfl
    | infinity t => cases t <;> exact .inr rfl
    | zero => exact .inr rfl
    | finite t m' e' pos' =>
      simp only [UnpackedFloat.sub, min_comm e' e]
      have turn (d d' : ℤ) : d' - d = -(d - d') := by omega
      rw [turn (s.apply _)]
      exact normalize_neg ..

/-! ### Packed numbers -/

/-- The sign of a packed number is a component of its own. -/
theorem unpack_packComponents_neg (spec : Format) (s : Sign) (exponent : BitVec spec.exponentBits)
    (mantissa : BitVec spec.mantissaBitsWithoutImplicit) :
    UnpackedFloat.unpack spec (packComponents spec (-s) exponent mantissa) =
      (UnpackedFloat.unpack spec (packComponents spec s exponent mantissa)).neg := by
  unfold UnpackedFloat.unpack
  simp only [unpackSign_packComponents, unpackExponent_packComponents,
    unpackMantissa_packComponents, Sign.ofBitVec_toBitVec]
  split
  · split <;> rfl
  · split
    · split <;> rfl
    · rfl

theorem UpToSign.unpack_pack (spec : Format) {a b : UnpackedFloat} (h : UpToSign a b) :
    UpToSign (UnpackedFloat.unpack spec (a.pack spec)) (UnpackedFloat.unpack spec (b.pack spec)) := by
  rcases h with rfl | rfl
  · exact .inl rfl
  · cases a with
    | notANumber => exact .inl rfl
    | infinity s | zero s => exact .inr (unpack_packComponents_neg spec s _ _)
    | finite s m e pos =>
      right
      unfold UnpackedFloat.pack UnpackedFloat.neg
      dsimp only
      split
      · exact unpack_packComponents_neg spec s _ _
      · split <;> exact unpack_packComponents_neg spec s _ _

/-! ### Numbers -/

variable (x y : Float)

protected theorem mul_comm : x * y = y * x :=
  congrArg (fun u => Float.ofModel (Float.Model.pack u)) (unpacked_mul_comm .binary64 _ _)

theorem upToSign_sub_comm : UpToSign (x - y).toModel.unpack (y - x).toModel.unpack :=
  (upToSign_sub .binary64 x.toModel.unpack y.toModel.unpack).unpack_pack .binary64

/-- The square of a difference. -/
theorem sub_mul_sub_comm : (x - y) * (x - y) = (y - x) * (y - x) :=
  congrArg (fun u => Float.ofModel (Float.Model.pack u))
    ((upToSign_sub_comm x y).mul_self .binary64).symm

/-- The distance of two numbers. -/
protected theorem abs_sub_comm : (x - y).abs = (y - x).abs :=
  congrArg (fun u => Float.ofModel (Float.Model.pack u)) (upToSign_sub_comm x y).abs.symm

end NeighbourGraph.Number
