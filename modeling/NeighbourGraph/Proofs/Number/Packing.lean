/-
Packing of binary64 numbers.

A number whose significand has 53 bits is packed as it is, if its exponent is in range. What has a
smaller exponent is packed as a very small number. So packing does not get a number above one
either, and unpacked numbers can be compared by their exponents, then by their significands.
-/

import Mathlib
import NeighbourGraph.Proofs.Number.Rounding

namespace NeighbourGraph.Number

open Float.Model Float.Model.UnpackedFloat

/-! ### What is packed -/

/-- A significand and an exponent that a number can have: the significand has all its bits, unless
the exponent is the least one. -/
structure Fits (m : ℕ) (e : ℤ) : Prop where
  short : m < 2 ^ 53
  range : -1074 ≤ e
  normal : 2 ^ 52 ≤ m ∨ e = -1074

/-- What an unpacked number looks like. -/
def Canonical : UnpackedFloat → Prop
  | .finite _ m e _ => Fits m e
  | _ => True

/-- The first bit of a normal significand is not stored. -/
theorem toNat_one_append (mantissa : BitVec 52) :
    (1#1 ++ mantissa).toNat = 2 ^ 52 + mantissa.toNat := by
  have apart := Nat.two_pow_add_eq_or_of_lt mantissa.isLt 1
  rw [Nat.mul_one] at apart
  rw [BitVec.toNat_append, apart]
  rfl

theorem canonical_unpack (b : BitVec Format.binary64.numBits) :
    Canonical (UnpackedFloat.unpack .binary64 b) := by
  unfold UnpackedFloat.unpack
  dsimp only
  have bound : (unpackMantissa b).toNat < 2 ^ 52 := (unpackMantissa b).isLt
  split
  · split <;> trivial
  · split
    · next subnormal =>
      split
      · trivial
      · rw [subnormal]
        exact ⟨bound.trans (by decide), by decide, .inr rfl⟩
    · next normal =>
      have positive : 0 < (unpackExponent b).toNat := Nat.pos_of_ne_zero fun isZero =>
        normal (BitVec.toNat_inj.1 isZero)
      have significand := toNat_one_append (unpackMantissa b)
      refine ⟨?_, ?_, .inl ?_⟩
      · omega
      · change (-1074 : ℤ) ≤ _ - ((1023 : ℕ) + (52 : ℕ))
        omega
      · omega

variable {m : ℕ} {e : ℤ} {s : Sign}

/-- Exponents are stored from one on; zero and `2047` stand for numbers without one. -/
theorem pack_finite (s : Sign) (m : ℕ) (e : ℤ) (pos : 0 < m) :
    UnpackedFloat.pack .binary64 (.finite s m e pos) =
      if 2048 ≤ (e + 1075).toNat + 1 then packedInfinity .binary64 s
      else if m.log2 = 52 then
        packComponents .binary64 s (BitVec.ofNat 11 (e + 1075).toNat) (BitVec.ofNat 52 m)
      else packComponents .binary64 s 0#11 (BitVec.ofNat 52 m) := by
  have biased : e + (Format.binary64.exponentBias : ℤ) + ((52 : ℕ) : ℤ) = e + 1075 := by
    change e + ((1023 : ℕ) : ℤ) + _ = _
    omega
  have length : m.log2 + 1 = Format.binary64.mantissaBits ↔ m.log2 = 52 := Nat.succ_inj
  unfold UnpackedFloat.pack
  dsimp only
  rw [biased]
  simp only [length]

/-! ### Normal numbers -/

/-- A number with a stored exponent has a significand of 53 bits. -/
theorem unpack_components_normal {exponent : BitVec 11} (notTop : exponent ≠ -1#11)
    (normal : exponent ≠ 0#11) (s : Sign) (mantissa : BitVec 52)
    {pos : 0 < 2 ^ 52 + mantissa.toNat} :
    UnpackedFloat.unpack .binary64 (packComponents .binary64 s exponent mantissa) =
      .finite s (2 ^ 52 + mantissa.toNat) (exponent.toNat - 1075) pos := by
  unfold UnpackedFloat.unpack
  simp only [unpackSign_packComponents, unpackExponent_packComponents,
    unpackMantissa_packComponents, Sign.ofBitVec_toBitVec, if_neg notTop, if_neg normal,
    toNat_one_append]
  rfl

/-- A normal number is packed as it is. -/
theorem unpack_pack_normal {pos : 0 < m} (length : m.log2 = 52) (range : -1074 ≤ e ∧ e ≤ 971) :
    UnpackedFloat.unpack .binary64 (UnpackedFloat.pack .binary64 (.finite s m e pos)) =
      .finite s m e pos := by
  have normal := (Nat.log2_eq_iff pos.ne').1 length
  have stored : (BitVec.ofNat 11 (e + 1075).toNat).toNat = (e + 1075).toNat := by
    rw [BitVec.toNat_ofNat]
    omega
  have rest : (BitVec.ofNat 52 m).toNat = m - 2 ^ 52 := by
    rw [BitVec.toNat_ofNat]
    omega
  have notTop : BitVec.ofNat 11 (e + 1075).toNat ≠ -1#11 := fun top => by
    have eq := congrArg BitVec.toNat top
    rw [stored] at eq
    change _ = 2047 at eq
    omega
  have other : BitVec.ofNat 11 (e + 1075).toNat ≠ 0#11 := fun isZero => by
    have eq := congrArg BitVec.toNat isZero
    rw [stored] at eq
    change _ = 0 at eq
    omega
  rw [pack_finite, if_neg (by omega), if_pos length, unpack_components_normal notTop other s _,
    UnpackedFloat.finite.injEq, stored, rest]
  · exact ⟨rfl, by omega, by omega⟩
  · omega

/-- A number without a stored exponent has the least one. -/
theorem unpack_components_subnormal (s : Sign) (mantissa : BitVec 52) :
    UnpackedFloat.unpack .binary64 (packComponents .binary64 s 0#11 mantissa) =
      if pos : 0 < mantissa.toNat then .finite s mantissa.toNat (-1074) pos else .zero s := by
  unfold UnpackedFloat.unpack
  simp only [unpackSign_packComponents, unpackExponent_packComponents,
    unpackMantissa_packComponents, Sign.ofBitVec_toBitVec]
  rw [if_neg (by decide), if_pos trivial]
  by_cases isZero : mantissa = 0#52
  · rw [dif_pos isZero, dif_neg (by simp [isZero])]
  · have pos : 0 < mantissa.toNat :=
      Nat.pos_of_ne_zero fun vanishes => isZero (BitVec.toNat_inj.1 vanishes)
    rw [dif_neg isZero, dif_pos pos]
    rfl

/-- A number is packed as it is. -/
theorem unpack_pack_fits {pos : 0 < m} (fits : Fits m e) (range : e ≤ 971) :
    UnpackedFloat.unpack .binary64 (UnpackedFloat.pack .binary64 (.finite s m e pos)) =
      .finite s m e pos := by
  by_cases normal : 2 ^ 52 ≤ m
  · exact unpack_pack_normal ((Nat.log2_eq_iff pos.ne').2 ⟨normal, fits.short⟩) ⟨fits.range, range⟩
  · obtain rfl := fits.normal.resolve_left normal
    have other : m.log2 ≠ 52 := fun length => normal ((Nat.log2_eq_iff pos.ne').1 length).1
    have stored : (BitVec.ofNat 52 m).toNat = m := by
      rw [BitVec.toNat_ofNat, Nat.mod_eq_of_lt (not_le.1 normal)]
    rw [pack_finite, if_neg (by decide), if_neg other, unpack_components_subnormal,
      dif_pos (stored.symm ▸ pos), UnpackedFloat.finite.injEq]
    exact ⟨rfl, stored, rfl⟩

/-! ### From zero to one -/

/-- What has no stored exponent is very small. -/
theorem inUnit_components_subnormal (mantissa : BitVec 52) :
    InUnit (UnpackedFloat.unpack .binary64 (packComponents .binary64 .positive 0#11 mantissa)) := by
  rw [unpack_components_subnormal]
  split
  · have bound := mantissa.isLt
    exact .positive (by decide) (bound.le.trans (Nat.pow_le_pow_right (by decide) (by decide)))
  · exact .zero _

theorem inUnit_unpack_pack {a : UnpackedFloat} (unit : InUnit a) :
    InUnit (UnpackedFloat.unpack .binary64 (UnpackedFloat.pack .binary64 a)) := by
  cases unit with
  | zero s => cases s <;> exact .zero _
  | @positive m e pos nonpos le =>
    by_cases normal : m.log2 = 52 ∧ -1074 ≤ e
    · rw [unpack_pack_normal normal.1 ⟨normal.2, by omega⟩]
      exact .positive nonpos le
    · rw [pack_finite, if_neg (by omega)]
      split
      · have unstored : (e + 1075).toNat = 0 := by omega
        rw [unstored]
        exact inUnit_components_subnormal _
      · exact inUnit_components_subnormal _

variable {x y : Float}

/-- Of positive numbers the one with the smaller exponent is smaller, then the one with the smaller
significand. -/
theorem le_of_positive {m' : ℕ} {e' : ℤ} {pos : 0 < m} {pos' : 0 < m'}
    (left : x.toModel.unpack = .finite .positive m e pos)
    (right : y.toModel.unpack = .finite .positive m' e' pos') (le : e < e' ∨ e = e' ∧ m ≤ m') :
    x ≤ y := by
  rw [le_iff_compare, left, right]
  change ((compare e e').then (compare m m')).isLE = true
  rcases le with less | ⟨rfl, le⟩
  · rw [compare_lt_iff_lt.2 less]
    rfl
  · rw [compare_eq_iff_eq.2 rfl]
    exact Nat.isLE_compare.2 le

theorem zero_le_of_inUnit (unit : InUnit x.toModel.unpack) : 0.0 ≤ x := by
  rw [zero_le_iff]
  generalize x.toModel.unpack = u at unit ⊢
  cases unit <;> trivial

theorem le_one_of_inUnit (unit : InUnit x.toModel.unpack) : x ≤ 1.0 := by
  have canonical : Canonical x.toModel.unpack := canonical_unpack _
  have one : (1.0 : Float).toModel.unpack = .finite .positive (2 ^ 52) (-52) (by decide) := rfl
  generalize unpacked : x.toModel.unpack = u at unit canonical
  cases unit with
  | zero =>
    rw [le_iff_compare, one, unpacked]
    rfl
  | @positive m e _ nonpos le =>
    have small : e < -52 ∨ e = -52 := by
      rcases canonical.normal with normal | least
      · have := (Nat.pow_le_pow_iff_right (by decide)).1 (normal.trans le)
        omega
      · omega
    refine le_of_positive unpacked one (small.imp_right fun own => ⟨own, ?_⟩)
    rw [own] at le
    exact le

end NeighbourGraph.Number
