/-
Rounding of binary64 numbers.

A significand gets to the exponent that it has to have by dropping bits, and what was dropped can
make it one larger. So a number that is at most one does not get above one: one has no bits to drop.
-/

import Mathlib
import NeighbourGraph.Proofs.Number.Sum

namespace NeighbourGraph.Number

open Float.Model Float.Model.UnpackedFloat

/-! ### Dropping bits -/

/-- No bit was dropped that is not zero. -/
structure Exact (em : ExtendedMantissa) : Prop where
  round : em.roundBit = false
  sticky : em.stickyBit = false

theorem exact_ofMantissa (m : ℕ) : Exact (.ofMantissaAndAccuracy m .exact) := ⟨rfl, rfl⟩

variable {em : ExtendedMantissa} {k m n : ℕ} {e : ℤ} {s : Sign} {accuracy : Accuracy}

theorem mantissa_ofMantissaAndAccuracy (m : ℕ) (accuracy : Accuracy) :
    (ExtendedMantissa.ofMantissaAndAccuracy m accuracy).mantissa = m := by
  rcases accuracy with _ | _ | _ | _ <;> rfl

theorem shiftRight_succ (em : ExtendedMantissa) (k : ℕ) :
    em >>> (k + 1) = (em >>> k).shiftRightOne := rfl

theorem mantissa_shiftRight (em : ExtendedMantissa) (k : ℕ) :
    (em >>> k).mantissa = em.mantissa / 2 ^ k := by
  induction k with
  | zero => exact (Nat.div_one _).symm
  | succ k ih =>
    rw [shiftRight_succ, ExtendedMantissa.shiftRightOne, ih, Nat.pow_succ, Nat.div_div_eq_div_mul]

/-- Bits that are zero can be dropped. -/
theorem Exact.shiftRight (exact : Exact em) (zeros : 2 ^ k ∣ em.mantissa) : Exact (em >>> k) := by
  induction k with
  | zero => exact exact
  | succ k ih =>
    have before := ih ((Nat.pow_dvd_pow 2 (Nat.le_succ k)).trans zeros)
    have even : (em >>> k).mantissa % 2 = 0 := by
      rw [mantissa_shiftRight]
      exact Nat.mod_eq_zero_of_dvd (Nat.dvd_div_of_mul_dvd (Nat.pow_succ 2 k ▸ zeros))
    constructor
    · simp [shiftRight_succ, ExtendedMantissa.shiftRightOne, even]
    · simp [shiftRight_succ, ExtendedMantissa.shiftRightOne, before.round, before.sticky]

/-! ### Rounding up or down -/

theorem Exact.roundedMantissa (exact : Exact em) : em.roundedMantissa = em.mantissa := by
  obtain ⟨m, r, s⟩ := em
  obtain ⟨rfl, rfl⟩ := exact
  rfl

theorem le_roundedMantissa (em : ExtendedMantissa) : em.mantissa ≤ em.roundedMantissa := by
  obtain ⟨m, r, s⟩ := em
  cases r <;> cases s <;> simp only [ExtendedMantissa.roundedMantissa, ExtendedMantissa.accuracy,
    Accuracy.roundToNearestEven] <;> omega

theorem roundedMantissa_le (em : ExtendedMantissa) : em.roundedMantissa ≤ em.mantissa + 1 := by
  obtain ⟨m, r, s⟩ := em
  cases r <;> cases s <;> simp only [ExtendedMantissa.roundedMantissa, ExtendedMantissa.accuracy,
    Accuracy.roundToNearestEven] <;> omega

/-- What is below a bound, or is the bound itself, does not get above it. -/
theorem roundedMantissa_shiftRight_le
    (below : em.mantissa < n * 2 ^ k ∨ em.mantissa = n * 2 ^ k ∧ Exact em) :
    (em >>> k).roundedMantissa ≤ n := by
  rcases below with less | ⟨eq, exact⟩
  · have whole : (em >>> k).mantissa < n := by
      rw [mantissa_shiftRight]
      exact Nat.div_lt_of_lt_mul (Nat.mul_comm n _ ▸ less)
    exact (roundedMantissa_le _).trans whole
  · rw [(exact.shiftRight (eq ▸ Nat.dvd_mul_left _ n)).roundedMantissa, mantissa_shiftRight, eq,
      Nat.mul_div_cancel _ (Nat.two_pow_pos k)]

/-! ### Exponents -/

/-- How many bits are dropped to get to the exponent that a significand has to have. -/
def dropped (m : ℕ) (e : ℤ) : ℕ :=
  (Format.binary64.targetExponent (totalExponent m e) - e).toNat

theorem dropped_eq (m : ℕ) (e : ℤ) :
    dropped m e = (max (m.log2 + 1 + e - 53) (-1074) - e).toNat := rfl

/-- A significand of 53 bits keeps them all. -/
theorem dropped_normal (length : m.log2 = 52) (range : -1074 ≤ e) : dropped m e = 0 := by
  rw [dropped_eq, length]
  omega

/-- Rounding drops bits, rounds what is left, and drops one more bit if there is one too many. -/
theorem roundWithAccuracy_eq (s : Sign) (m : ℕ) (e : ℤ) (accuracy : Accuracy) :
    let k := dropped m e
    let r := (ExtendedMantissa.ofMantissaAndAccuracy m accuracy >>> k).roundedMantissa
    let k' := dropped r (e + k)
    roundWithAccuracy .binary64 s m e accuracy =
      if h : r / 2 ^ k' = 0 then .zero s
      else .finite s (r / 2 ^ k') (e + k + k') (Nat.pos_of_ne_zero h) := by
  simp only [roundWithAccuracy, shiftToTargetExponent, shiftToExponent, mantissa_shiftRight]
  rfl

/-- A significand of 53 bits is not rounded. -/
theorem roundWithAccuracy_normal {pos : 0 < m} (length : m.log2 = 52) (range : -1074 ≤ e) :
    roundWithAccuracy .binary64 s m e .exact = .finite s m e pos := by
  have kept (m : ℕ) : ExtendedMantissa.ofMantissaAndAccuracy m .exact >>> 0 = ⟨m, false, false⟩ :=
    rfl
  have rounded : ExtendedMantissa.roundedMantissa ⟨m, false, false⟩ = m := rfl
  have again : dropped m (e + (0 : ℕ)) = 0 := dropped_normal length (by omega)
  rw [roundWithAccuracy_eq]
  simp only [dropped_normal length range, kept, rounded, again]
  rw [dif_neg (by omega)]
  simp

/-- The first 53 bits of a significand. -/
theorem div_two_pow_log2 (length : 52 ≤ m.log2) :
    2 ^ 52 ≤ m / 2 ^ (m.log2 - 52) ∧ m / 2 ^ (m.log2 - 52) < 2 ^ 53 := by
  have nonzero : m ≠ 0 := by
    rintro rfl
    exact absurd length (by decide)
  obtain ⟨least, most⟩ := (Nat.log2_eq_iff nonzero).1 rfl
  constructor
  · rw [Nat.le_div_iff_mul_le (Nat.two_pow_pos _), ← Nat.pow_add, Nat.add_sub_cancel' length]
    exact least
  · rw [Nat.div_lt_iff_lt_mul (Nat.two_pow_pos _), ← Nat.pow_add]
    exact most.trans_le (Nat.pow_le_pow_right (by decide) (by omega))

/-- What bits are dropped for: an exponent that leaves 53 bits, if there is one in range. -/
theorem add_dropped (room : 52 ≤ m.log2 ∨ e ≤ -1074) :
    e + dropped m e = max (m.log2 - 52 + e) (-1074) := by
  rw [dropped_eq]
  omega

/-- At most 53 bits are left, and no fewer unless the exponent is the least one. -/
theorem div_dropped (pos : 0 < m) (room : 52 ≤ m.log2 ∨ e ≤ -1074) :
    m / 2 ^ dropped m e < 2 ^ 53 ∧ (2 ^ 52 ≤ m / 2 ^ dropped m e ∨ e + dropped m e = -1074) := by
  have goal := add_dropped room
  constructor
  · rw [Nat.div_lt_iff_lt_mul (Nat.two_pow_pos _), ← Nat.pow_add]
    exact (Nat.log2_lt pos.ne').1 (by omega)
  · by_cases least : e + dropped m e = -1074
    · exact .inr least
    · have own : dropped m e = m.log2 - 52 := by omega
      exact .inl (own ▸ (div_two_pow_log2 (by omega)).1)

/-- A longer significand is cut to 53 bits. If it is rounded up to a power of two, it has one bit
too many and loses a zero. -/
theorem roundWithAccuracy_long (length : 52 ≤ m.log2) (range : -1074 ≤ e) :
    ∃ (m' i : ℕ) (pos : 0 < m'), roundWithAccuracy .binary64 s m e accuracy =
        .finite s m' (e + (m.log2 - 52 : ℕ) + i) pos ∧ m'.log2 = 52 ∧ i ≤ 1 ∧
      m' * 2 ^ i =
        (ExtendedMantissa.ofMantissaAndAccuracy m accuracy >>> (m.log2 - 52)).roundedMantissa := by
  have bits : dropped m e = m.log2 - 52 := by
    rw [dropped_eq]
    omega
  obtain ⟨lower, upper⟩ := div_two_pow_log2 length
  rw [roundWithAccuracy_eq, bits]
  have le := le_roundedMantissa
    (ExtendedMantissa.ofMantissaAndAccuracy m accuracy >>> (m.log2 - 52))
  have ge := roundedMantissa_le
    (ExtendedMantissa.ofMantissaAndAccuracy m accuracy >>> (m.log2 - 52))
  rw [mantissa_shiftRight, mantissa_ofMantissaAndAccuracy] at le ge
  generalize ExtendedMantissa.roundedMantissa _ = r at le ge ⊢
  by_cases fits : r < 2 ^ 53
  · have own : r.log2 = 52 := (Nat.log2_eq_iff (by omega)).2 ⟨by omega, fits⟩
    have undropped : dropped r (e + (m.log2 - 52 : ℕ)) = 0 := dropped_normal own (by omega)
    simp only [undropped, Nat.pow_zero, Nat.div_one]
    rw [dif_neg (by omega)]
    exact ⟨r, 0, by omega, rfl, own, by omega, by rw [Nat.pow_zero, Nat.mul_one]⟩
  · obtain rfl : r = 2 ^ 53 := by omega
    have one : dropped (2 ^ 53) (e + (m.log2 - 52 : ℕ)) = 1 := by
      have own : (2 ^ 53).log2 = 53 := rfl
      rw [dropped_eq, own]
      omega
    simp only [one]
    rw [dif_neg (by decide)]
    exact ⟨2 ^ 52, 1, by decide, rfl, rfl, le_rfl, rfl⟩

/-! ### From zero to one -/

/-- Neither negative nor larger than one. -/
inductive InUnit : UnpackedFloat → Prop where
  | zero (s : Sign) : InUnit (.zero s)
  | positive {m : ℕ} {e : ℤ} {pos : 0 < m} (nonpos : e ≤ 0) (le : m ≤ 2 ^ (-e).toNat) :
    InUnit (.finite .positive m e pos)

theorem log2_le (le : m ≤ 2 ^ n) : m.log2 ≤ n := by
  by_cases isZero : m = 0
  · simp [isZero]
  · have bound := (Nat.log2_lt isZero).2 (le.trans_lt (Nat.pow_lt_pow_succ (by decide)))
    omega

/-- Bits are dropped of a number that is at most one until one has its own. -/
theorem add_dropped_le (le : m ≤ 2 ^ (-e).toNat) (nonpos : e ≤ 0) : e + dropped m e ≤ 0 := by
  have length := log2_le le
  rw [dropped_eq]
  omega

theorem two_pow_sub_mul (le : e + (k : ℤ) ≤ 0) :
    2 ^ (-(e + (k : ℤ))).toNat * 2 ^ k = 2 ^ (-e).toNat := by
  rw [← Nat.pow_add]
  congr 1
  omega

theorem inUnit_roundWithAccuracy (nonpos : e ≤ 0)
    (below : m < 2 ^ (-e).toNat ∨ m = 2 ^ (-e).toNat ∧ accuracy = .exact) :
    InUnit (roundWithAccuracy .binary64 .positive m e accuracy) := by
  have le : m ≤ 2 ^ (-e).toNat := by omega
  have first := add_dropped_le le nonpos
  rw [roundWithAccuracy_eq]
  generalize kept : ExtendedMantissa.ofMantissaAndAccuracy m accuracy = em
  have mantissa : em.mantissa = m := by rw [← kept, mantissa_ofMantissaAndAccuracy]
  -- With fewer bits one is a smaller significand, which is still a bound.
  have rounded : (em >>> dropped m e).roundedMantissa ≤ 2 ^ (-(e + (dropped m e : ℤ))).toNat := by
    refine roundedMantissa_shiftRight_le ?_
    rw [two_pow_sub_mul first, mantissa]
    refine below.imp_right fun ⟨eq, exact⟩ => ⟨eq, ?_⟩
    rw [← kept, exact]
    exact exact_ofMantissa m
  have second := add_dropped_le rounded first
  split
  · exact .zero _
  · refine .positive second (Nat.div_le_of_le_mul ?_)
    rw [Nat.mul_comm, two_pow_sub_mul second]
    exact rounded

end NeighbourGraph.Number
