/-
The total order of patterns.

A pattern has its place from its bits alone, and different patterns have different places, so the
total order is antisymmetric: patterns that stand no later than each other are one pattern, the sign
of zero and the payload of NaN included. The bits after the sign go up from zero through the finite
numbers to infinity, so the total order refines the order of numbers where that tells them apart. It
tells apart no other equal numbers than the two zeros.
-/

import NeighbourGraph.Number.Pattern
import NeighbourGraph.Proofs.Number.Packing

namespace NeighbourGraph.Number

open Float.Model Float.Model.UnpackedFloat

variable {x y : Pattern}

/-- Different patterns have different places. -/
theorem totalKey_injective : Function.Injective totalKey := by
  rintro ⟨bits⟩ ⟨bits'⟩ same
  have bound := bits.toNat_lt
  have bound' := bits'.toNat_lt
  have half : signBit = 2 ^ 63 := rfl
  rw [Pattern.mk.injEq, ← UInt64.toNat_inj]
  simp only [totalKey, half] at same
  split at same <;> split at same <;> omega

theorem totalLe_antisymm (le : totalLe x y = true) (ge : totalLe y x = true) : x = y := by
  simp only [totalLe, decide_eq_true_eq] at le ge
  exact totalKey_injective (Int.le_antisymm le ge)

/-! ### The bits of a number -/

/-- The number of a pattern is what its bits stand for. -/
theorem unpack_toFloat (x : Pattern) :
    x.toFloat.toModel.unpack = UnpackedFloat.unpack .binary64 x.bits.toBitVec := by
  change UnpackedFloat.unpack .binary64 (UnpackedFloat.pack .binary64
    (UnpackedFloat.unpack .binary64 x.bits.toBitVec)) = _
  rw [pack_unpack]
  split
  · next many =>
    obtain ⟨top, payload⟩ := of_decide_eq_true many
    rw [unpack_packedNaN, UnpackedFloat.unpack]
    dsimp only
    rw [if_pos top, if_neg payload]
  · rfl

variable {s t : Sign} {w w' : ℕ} {a b : UnpackedFloat}

/-- What the bits after the sign stand for. With every step they count the significand on, and a
significand that is full moves on the exponent. -/
inductive Reads (s : Sign) : ℕ → UnpackedFloat → Prop
  | zero : Reads s 0 (.zero s)
  | finite {m : ℕ} {e : ℤ} {pos : 0 < m} (fits : Fits m e) (range : e ≤ 971) :
    Reads s ((e + 1074).toNat * 2 ^ 52 + m) (.finite s m e pos)
  | infinity : Reads s (2047 * 2 ^ 52) (.infinity s)
  | notANumber (w : ℕ) : Reads s w .notANumber

/-- The bits of a number are its sign, its exponent and its significand. -/
theorem toNat_eq_parts (bits : BitVec Format.binary64.numBits) :
    bits.toNat = (unpackSign bits).toNat * 2 ^ 63 +
      ((unpackExponent bits).toNat * 2 ^ 52 + (unpackMantissa bits).toNat) := by
  have bound : bits.toNat < 2 ^ 64 := bits.isLt
  have sign : (unpackSign bits).toNat = bits.toNat / 2 ^ 63 % 2 := by
    simp [unpackSign, Format.binary64, Nat.shiftRight_eq_div_pow]
  have exponent : (unpackExponent bits).toNat = bits.toNat / 2 ^ 52 % 2 ^ 11 := by
    simp [unpackExponent, Format.binary64, Nat.shiftRight_eq_div_pow]
  have mantissa : (unpackMantissa bits).toNat = bits.toNat % 2 ^ 52 := by
    simp [unpackMantissa, Format.binary64]
  omega

theorem reads_unpack (bits : BitVec Format.binary64.numBits) :
    Reads (Sign.ofBitVec (unpackSign bits))
      ((unpackExponent bits).toNat * 2 ^ 52 + (unpackMantissa bits).toNat)
      (UnpackedFloat.unpack .binary64 bits) := by
  have bound : (unpackMantissa bits).toNat < 2 ^ 52 := (unpackMantissa bits).isLt
  have short : (unpackExponent bits).toNat < 2 ^ 11 := (unpackExponent bits).isLt
  unfold UnpackedFloat.unpack
  dsimp only
  split
  · next top =>
    split
    · next empty =>
      rw [top, empty]
      exact .infinity
    · exact .notANumber _
  · next ne =>
    have notTop : (unpackExponent bits).toNat ≠ 2047 := fun top => ne (BitVec.toNat_inj.1 top)
    split
    · next subnormal =>
      have least : (unpackExponent bits).toNat = 0 := by rw [subnormal]; rfl
      split
      · next empty =>
        rw [least, empty]
        exact .zero
      · have own : (unpackExponent bits).toNat * 2 ^ 52 + (unpackMantissa bits).toNat =
            (((unpackExponent bits).toNat : ℤ) - ((1023 : ℕ) + (52 : ℕ)) + 1 + 1074).toNat *
              2 ^ 52 + (unpackMantissa bits).toNat := by
          omega
        rw [own]
        exact .finite ⟨by omega, by omega, .inr (by omega)⟩ (by omega)
    · next normal =>
      have positive : 0 < (unpackExponent bits).toNat := Nat.pos_of_ne_zero fun isZero =>
        normal (BitVec.toNat_inj.1 isZero)
      have significand := toNat_one_append (unpackMantissa bits)
      have own : (unpackExponent bits).toNat * 2 ^ 52 + (unpackMantissa bits).toNat =
          (((unpackExponent bits).toNat : ℤ) - ((1023 : ℕ) + (52 : ℕ)) + 1074).toNat * 2 ^ 52 +
            (1#1 ++ unpackMantissa bits).toNat := by
        omega
      rw [own]
      exact .finite ⟨by omega, by omega, .inl (by omega)⟩ (by omega)

/-! ### The order of numbers -/

/-- The place of a sign and the bits after it. -/
def signedKey : Sign → ℕ → ℤ
  | .positive, w => w
  | .negative, w => -1 - w

theorem exists_totalKey (x : Pattern) :
    ∃ s w, Reads s w x.toFloat.toModel.unpack ∧ totalKey x = signedKey s w := by
  generalize number : x.bits.toBitVec = bits
  have own : x.bits.toNat = bits.toNat := congrArg BitVec.toNat number
  have half : signBit = 2 ^ 63 := rfl
  have short : (@unpackExponent .binary64 bits).toNat < 2 ^ 11 := BitVec.isLt _
  have bound : (@unpackMantissa .binary64 bits).toNat < 2 ^ 52 := BitVec.isLt _
  have unpacked : x.toFloat.toModel.unpack = UnpackedFloat.unpack .binary64 bits :=
    number ▸ unpack_toFloat x
  refine ⟨_, _, unpacked ▸ reads_unpack bits, ?_⟩
  simp only [totalKey, own, toNat_eq_parts bits, half]
  generalize @unpackSign .binary64 bits = sign
  obtain rfl | rfl : sign = 0#1 ∨ sign = 1#1 := by
    revert sign
    decide
  · have positive : Sign.ofBitVec 0#1 = .positive := rfl
    have bit : (0#1).toNat = 0 := rfl
    rw [positive, bit, signedKey, if_pos (by omega)]
    omega
  · have negative : Sign.ofBitVec 1#1 = .negative := rfl
    have one : (1#1).toNat = 1 := rfl
    rw [negative, one, signedKey, if_neg (by omega)]
    omega

/-- What stands earlier has a lower rank, unless both are zero. -/
theorem Reads.rank_lt_or_zero (ha : Reads s w a) (hb : Reads t w' b) (na : ¬a.isNaN = true)
    (nb : ¬b.isNaN = true) (less : signedKey s w < signedKey t w') :
    rank a < rank b ∨ w = 0 ∧ w' = 0 := by
  rcases ha with _ | @⟨m, e, pos, ⟨short, least, normal⟩, most⟩ | _ | _
  case notANumber => exact absurd rfl na
  all_goals rcases hb with _ | @⟨n, f, pos', ⟨short', least', normal'⟩, most'⟩ | _ | _
  case' zero.notANumber | finite.notANumber | infinity.notANumber => exact absurd rfl nb
  all_goals
    cases s <;> cases t <;>
      simp only [rank, signedKey, Prod.Lex.toLex_lt_toLex, true_and, or_true] at less ⊢ <;> omega

/-- What stands earlier is smaller, the two zeros apart. -/
theorem lt_or_zeros_of_totalKey_lt (hx : ¬x.toFloat.isNaN = true) (hy : ¬y.toFloat.isNaN = true)
    (less : totalKey x < totalKey y) :
    x.toFloat < y.toFloat ∨ x = .ofFloat negativeZero ∧ y = .ofFloat 0.0 := by
  obtain ⟨s, w, left, key⟩ := exists_totalKey x
  obtain ⟨t, w', right, key'⟩ := exists_totalKey y
  have keyNegative : totalKey (.ofFloat negativeZero) = -1 := by decide +kernel
  have keyZero : totalKey (.ofFloat 0.0) = 0 := by decide +kernel
  rw [← totalKey_injective.eq_iff, ← totalKey_injective.eq_iff, keyNegative, keyZero]
  rw [key, key'] at less ⊢
  rcases left.rank_lt_or_zero right hx hy less with lower | ⟨rfl, rfl⟩
  · exact .inl (lt_iff_place.2 ⟨not_or.2 ⟨hx, hy⟩, lower⟩)
  · cases s <;> cases t <;> simp [signedKey] at less ⊢

/-- What stands no later is no larger. -/
theorem le_of_totalLe (hx : ¬x.toFloat.isNaN = true) (hy : ¬y.toFloat.isNaN = true)
    (le : totalLe x y = true) : x.toFloat ≤ y.toFloat := by
  rw [totalLe, decide_eq_true_eq] at le
  rcases lt_or_eq_of_le le with less | same
  · rcases lt_or_zeros_of_totalKey_lt hx hy less with smaller | ⟨rfl, rfl⟩
    · exact (Number.lt_iff_le_not_ge.1 smaller).1
    · decide +kernel
  · obtain rfl := totalKey_injective same
    exact le_iff_place.2 ⟨not_or.2 ⟨hx, hy⟩, le_rfl⟩

/-- What is larger stands later. -/
theorem totalKey_lt_of_lt (less : x.toFloat < y.toFloat) : totalKey x < totalKey y := by
  obtain ⟨numbers, -⟩ := lt_iff_place.1 less
  rw [not_or] at numbers
  by_contra no
  have le : totalLe y x = true := decide_eq_true (Int.not_lt.1 no)
  exact Number.not_lt_of_le (le_of_totalLe numbers.2 numbers.1 le) less

/-- Equal numbers have one pattern, the two zeros apart. -/
theorem eq_or_zeros_of_beq (equal : (x.toFloat == y.toFloat) = true) :
    x = y ∨ (x = .ofFloat 0.0 ∧ y = .ofFloat negativeZero) ∨
      x = .ofFloat negativeZero ∧ y = .ofFloat 0.0 := by
  obtain ⟨numbers, -⟩ := beq_iff_place.1 equal
  rw [not_or] at numbers
  obtain ⟨le, ge⟩ := Number.beq_iff_le_and_ge.1 equal
  rcases lt_trichotomy (totalKey x) (totalKey y) with less | same | greater
  · have zeros := (lt_or_zeros_of_totalKey_lt numbers.1 numbers.2 less).resolve_left
      (Number.not_lt_of_le ge)
    exact .inr (.inr zeros)
  · exact .inl (totalKey_injective same)
  · have zeros := (lt_or_zeros_of_totalKey_lt numbers.2 numbers.1 greater).resolve_left
      (Number.not_lt_of_le le)
    exact .inr (.inl zeros.symm)

end NeighbourGraph.Number
