/-
Counts that are not numbers themselves.

A number keeps 53 bits of a count. What it keeps is the count divided by the power of two that the
other bits count in, rounded to the nearest whole number and halves to the even one. So a count of
at most 53 bits is a number itself, and a longer one may become larger.
-/

import NeighbourGraph.Number.Text
import NeighbourGraph.Proofs.Number.Faithful

namespace NeighbourGraph.Number

open Float.Model Float.Model.UnpackedFloat

variable {m n : ℕ}

/-! ### Rounding to the nearest -/

/-- Of the bits that are dropped, the first is kept apart, and whether any of the others is one. -/
theorem shiftRight_exact_succ (m k : ℕ) :
    ExtendedMantissa.ofMantissaAndAccuracy m .exact >>> (k + 1) =
      ⟨m / 2 ^ (k + 1), m / 2 ^ k % 2 != 0, m % 2 ^ k != 0⟩ := by
  induction k with
  | zero =>
    have own : ExtendedMantissa.ofMantissaAndAccuracy m .exact >>> 0 = ⟨m, false, false⟩ := rfl
    rw [shiftRight_succ, own]
    simp [ExtendedMantissa.shiftRightOne, Nat.mod_one]
  | succ k ih =>
    have vanishes : m % 2 ^ (k + 1) = 0 ↔ m % 2 ^ k = 0 ∧ m / 2 ^ k % 2 = 0 := by
      rw [Nat.mod_pow_succ, Nat.add_eq_zero_iff, Nat.mul_eq_zero]
      have := Nat.two_pow_pos k
      omega
    rw [shiftRight_succ, ih, ExtendedMantissa.shiftRightOne, Nat.div_div_eq_div_mul,
      ← Nat.pow_succ]
    congr 1
    rw [Bool.eq_iff_iff]
    simp only [Bool.or_eq_true, bne_iff_ne, ne_eq, vanishes]
    tauto

/-- To drop bits and round is to divide and round to the nearest, halves to the even one. -/
theorem roundedMantissa_eq_divRound (m k : ℕ) :
    (ExtendedMantissa.ofMantissaAndAccuracy m .exact >>> k).roundedMantissa =
      divRound m (2 ^ k) := by
  cases k with
  | zero =>
    have whole : divRound m 1 = m := by simp [divRound, Nat.mod_one]
    exact whole.symm
  | succ k =>
    have rest : m % 2 ^ (k + 1) = m % 2 ^ k + 2 ^ k * (m / 2 ^ k % 2) := Nat.mod_pow_succ
    have short : m % 2 ^ k < 2 ^ k := Nat.mod_lt _ (Nat.two_pow_pos k)
    have double : 2 ^ (k + 1) = 2 * 2 ^ k := by rw [Nat.pow_succ, Nat.mul_comm]
    rw [shiftRight_exact_succ, divRound, rest, double]
    rcases Nat.mod_two_eq_zero_or_one (m / 2 ^ k) with bit | bit
    · -- The rest is less than a half.
      rw [bit, if_neg (by omega)]
      cases (m % 2 ^ k != 0) <;> rfl
    · rw [bit, Nat.mul_one]
      generalize m / (2 * 2 ^ k) = whole
      rcases Nat.eq_zero_or_pos (m % 2 ^ k) with half | more
      · -- An odd number gets one larger, an even one stays.
        rw [half]
        change whole + whole % 2 = _
        split <;> omega
      · have leftover : (m % 2 ^ k != 0) = true := bne_iff_ne.2 more.ne'
        rw [leftover, if_pos (.inl (by omega))]
        rfl

/-! ### Counts -/

/-- A count as it is once it has become a number. -/
def rounded (n : ℕ) : ℕ := divRound n (2 ^ (n.log2 - 52)) * 2 ^ (n.log2 - 52)

/-- A count of at most 53 bits stays as it is. -/
theorem rounded_eq_self (small : n ≤ 2 ^ 53) : rounded n = n := by
  rcases small.lt_or_eq with less | rfl
  · have noShift : n.log2 - 52 = 0 := by
      rcases Nat.eq_zero_or_pos n with rfl | positive
      · rfl
      · have := (Nat.log2_lt positive.ne').2 less
        omega
    simp [rounded, noShift, divRound, Nat.mod_one]
  · decide +kernel

/-- A count is at most doubled. -/
theorem rounded_le_double (pos : 0 < n) : rounded n ≤ 2 * n := by
  have unit : 2 ^ (n.log2 - 52) ≤ n :=
    (Nat.pow_le_pow_right (by decide) (Nat.sub_le _ _)).trans (Nat.log2_self_le pos.ne')
  have up (d : ℕ) : divRound n d ≤ n / d + 1 := by
    unfold divRound
    dsimp only
    split <;> omega
  calc rounded n ≤ (n / 2 ^ (n.log2 - 52) + 1) * 2 ^ (n.log2 - 52) := Nat.mul_le_mul_right _ (up _)
    _ ≤ n + 2 ^ (n.log2 - 52) := by
      rw [Nat.succ_mul]
      exact Nat.add_le_add_right (Nat.div_mul_le_self _ _) _
    _ ≤ 2 * n := by omega

theorem value_ofCount_rounded (count : n < countLimit) : value (ofCount n) = some (rounded n : ℚ) := by
  rcases le_or_gt n (2 ^ 53) with small | large
  · rw [value_ofCount small, rounded_eq_self small]
  · have nonzero : n ≠ 0 := by omega
    have long : 53 ≤ n.log2 := (Nat.le_log2 nonzero).2 large.le
    have short : n.log2 < 64 := (Nat.log2_lt nonzero).2 count
    have bits : dropped n 0 = n.log2 - 52 := by
      rw [dropped_eq]
      omega
    have unpacked := unpack_ofCount (Nat.pos_of_ne_zero nonzero) count
    rw [Nat.sub_eq_zero_of_le (by omega), Nat.pow_zero, Nat.mul_one, Nat.cast_zero, neg_zero]
      at unpacked
    have has := hasValue_round .exact (Nat.pos_of_ne_zero nonzero)
      (.inl (by omega) : 52 ≤ n.log2 ∨ (0 : ℤ) ≤ -1074) (by omega)
    rw [← unpacked, bits, roundedMantissa_eq_divRound, zero_add, zpow_natCast] at has
    rw [hasValue_iff.2 has, rounded, Nat.cast_mul, Nat.cast_pow, Nat.cast_ofNat]

theorem rounded_pos (pos : 0 < n) (count : n < countLimit) : 0 < rounded n := by
  have isZero : value 0.0 = some 0 := rfl
  exact_mod_cast (lt_iff_value isZero (value_ofCount_rounded count)).1 (zero_lt_ofCount pos count)

theorem value_one : value 1.0 = some 1 := by
  have own : value (ofCount 1) = some ((1 : ℕ) : ℚ) := value_ofCount (by norm_num)
  rwa [Nat.cast_one] at own

end NeighbourGraph.Number
