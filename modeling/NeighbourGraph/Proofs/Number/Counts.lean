/-
Counts as binary64 numbers, and their quotients.

Up to `2 ^ 53` a count is a binary64 number itself. Larger ones are rounded, but not below `2 ^ 53`.
A quotient is rounded once, and one is a binary64 number, so the quotient of a number and a larger
one is at most one.
-/

import NeighbourGraph.Proofs.Number.Packing

namespace NeighbourGraph.Number

open Float.Model Float.Model.UnpackedFloat

/-! ### Quotients -/

section

variable {m n : ℕ} {e e' : ℤ} {pos : 0 < m} {pos' : 0 < n}

/-- The smaller of two positive numbers has no larger exponent. -/
theorem le_of_compare (small : Fits m e) (large : Fits n e')
    (le : ((compare e e').then (compare m n)).isLE = true) :
    e ≤ e' ∧ m ≤ n * 2 ^ (e' - e).toNat := by
  rcases lt_trichotomy e e' with less | rfl | greater
  · -- An exponent that is not the least one goes with a significand of 53 bits.
    have normal : 2 ^ 52 ≤ n := large.normal.resolve_right (by have := small.range; omega)
    have two : 2 ^ 1 ≤ 2 ^ (e' - e).toNat := Nat.pow_le_pow_right (by decide) (by omega)
    have double : 2 ^ 52 * 2 ^ 1 ≤ n * 2 ^ (e' - e).toNat := Nat.mul_le_mul normal two
    have := small.short
    exact ⟨less.le, by omega⟩
  · rw [compare_eq_iff_eq.2 rfl] at le
    exact ⟨le_rfl, by simpa using Nat.isLE_compare.1 le⟩
  · rw [compare_gt_iff_gt.2 greater] at le
    cases le

/-- The quotient of a positive number and a larger one. -/
theorem inUnit_div (exponents : e ≤ e') (le : m ≤ n * 2 ^ (e' - e).toNat) :
    InUnit (UnpackedFloat.div .binary64 (.finite .positive m e pos)
      (.finite .positive n e' pos')) := by
  generalize goal : min (e - e') (Format.binary64.targetExponent
    (totalExponent m e - totalExponent n e')) = target
  have target_le : target ≤ e - e' := by omega
  have scaled : m <<< (e - e' - target).toNat ≤ n * 2 ^ (-target).toNat := by
    have split : (-target).toNat = (e' - e).toNat + (e - e' - target).toNat := by omega
    rw [Nat.shiftLeft_eq, split, Nat.pow_add, ← Nat.mul_assoc]
    exact Nat.mul_le_mul_right _ le
  have below : m <<< (e - e' - target).toNat / n < 2 ^ (-target).toNat ∨
      m <<< (e - e' - target).toNat / n = 2 ^ (-target).toNat ∧
        accuracyOfFraction (m <<< (e - e' - target).toNat % n) n = .exact := by
    -- Only a number that is divided by itself comes to one, and then without a remainder.
    rcases scaled.lt_or_eq with less | eq
    · exact .inl (Nat.div_lt_of_lt_mul less)
    · rw [eq, Nat.mul_div_cancel_left _ pos', Nat.mul_mod_right]
      exact .inr ⟨rfl, rfl⟩
  subst goal
  exact inUnit_roundWithAccuracy (by omega) below

end

variable {x y : Float}

theorem exists_positive (pos : 0.0 < y) (isFinite : y.isFinite = true) :
    ∃ m e pos, y.toModel.unpack = .finite .positive m e pos := by
  change y.toModel.unpack.isFinite = true at isFinite
  rw [lt_iff_compare, unpack_zero] at pos
  cases hy : y.toModel.unpack with
  | notANumber | infinity =>
    rw [hy] at isFinite
    cases isFinite
  | zero =>
    rw [hy] at pos
    cases pos
  | finite s m e positive =>
    cases s with
    | positive => exact ⟨m, e, positive, rfl⟩
    | negative =>
      rw [hy] at pos
      cases pos

/-- The quotient of a number and a larger one is not larger than one. -/
theorem div_le_one (nonneg : 0.0 ≤ x) (le : x ≤ y) (pos : 0.0 < y) (isFinite : y.isFinite = true) :
    0.0 ≤ x / y ∧ x / y ≤ 1.0 := by
  have unit : InUnit (UnpackedFloat.div .binary64 x.toModel.unpack y.toModel.unpack) := by
    obtain ⟨n, e', pos', divisor⟩ := exists_positive pos isFinite
    have large : Canonical y.toModel.unpack := canonical_unpack _
    have small : Canonical x.toModel.unpack := canonical_unpack _
    rw [zero_le_iff] at nonneg
    rw [le_iff_compare] at le
    rw [divisor] at large le ⊢
    cases dividend : x.toModel.unpack with
    | notANumber => exact (dividend ▸ nonneg : NonNegative .notANumber).elim
    | infinity s =>
      obtain rfl := (dividend ▸ nonneg : NonNegative (.infinity s)).eq_infinity
      rw [dividend] at le
      cases le
    | zero s => exact .zero _
    | finite s m e pos =>
      rw [dividend] at nonneg le small
      obtain rfl := nonneg.eq_positive
      obtain ⟨exponents, le⟩ := le_of_compare small large le
      exact inUnit_div exponents le
  have packed : InUnit (x / y).toModel.unpack := inUnit_unpack_pack unit
  exact ⟨zero_le_of_inUnit packed, le_one_of_inUnit packed⟩

/-! ### Counts -/

variable {n n' : ℕ}

/-- A count is brought to 53 bits and rounded. -/
theorem unpack_ofCount (pos : 0 < n) (count : n < countLimit) :
    (ofCount n).toModel.unpack = UnpackedFloat.unpack .binary64 (UnpackedFloat.pack .binary64
      (roundWithAccuracy .binary64 .positive (n * 2 ^ (52 - n.log2)) (-(52 - n.log2 : ℕ)) .exact)) := by
  have own : n.toUInt64.toNat = n := UInt64.toNat_ofNat_of_lt' count
  have positive : UnpackedFloat.ofNat .binary64 n =
      UnpackedFloat.round .binary64 .positive n 0 := by
    unfold UnpackedFloat.ofNat UnpackedFloat.ofInt UnpackedFloat.normalize
    rw [compare_gt_iff_gt.2 (by omega)]
    rfl
  have target : (-Format.binary64.targetExponent (totalExponent n 0)).toNat = 52 - n.log2 := by
    change (-max ((n.log2 : ℤ) + 1 + 0 - 53) (-1074)).toNat = _
    omega
  change UnpackedFloat.unpack .binary64 (UnpackedFloat.pack .binary64
    (UnpackedFloat.ofNat .binary64 n.toUInt64.toNat)) = _
  rw [own, positive, UnpackedFloat.round]
  simp only [decreaseExponent, zero_sub, target, Nat.shiftLeft_eq]

/-- A count that is small enough is a number itself. -/
theorem unpack_ofCount_small (pos : 0 < n) (small : n < 2 ^ 53) :
    ∃ pos', (ofCount n).toModel.unpack =
      .finite .positive (n * 2 ^ (52 - n.log2)) (-(52 - n.log2 : ℕ)) pos' := by
  have short : n.log2 < 53 := (Nat.log2_lt pos.ne').2 small
  obtain ⟨least, most⟩ := (Nat.log2_eq_iff pos.ne').1 rfl
  have normal : 2 ^ 52 ≤ n * 2 ^ (52 - n.log2) ∧ n * 2 ^ (52 - n.log2) < 2 ^ 53 := by
    have bits : 2 ^ n.log2 * 2 ^ (52 - n.log2) = 2 ^ 52 := by
      rw [← Nat.pow_add, Nat.add_sub_cancel' (by omega)]
    constructor
    · exact bits ▸ Nat.mul_le_mul_right _ least
    · have more : 2 ^ (n.log2 + 1) * 2 ^ (52 - n.log2) = 2 ^ 53 := by
        rw [Nat.pow_succ, Nat.mul_right_comm, bits, ← Nat.pow_succ]
      exact more ▸ Nat.mul_lt_mul_of_pos_right most (Nat.two_pow_pos _)
  have pos' : 0 < n * 2 ^ (52 - n.log2) := by omega
  have length : (n * 2 ^ (52 - n.log2)).log2 = 52 := (Nat.log2_eq_iff pos'.ne').2 normal
  have kept : roundWithAccuracy .binary64 .positive (n * 2 ^ (52 - n.log2)) (-(52 - n.log2 : ℕ))
      .exact = .finite .positive (n * 2 ^ (52 - n.log2)) (-(52 - n.log2 : ℕ)) pos' :=
    roundWithAccuracy_normal length (by omega)
  refine ⟨pos', ?_⟩
  rw [unpack_ofCount pos (small.trans (by decide)), kept, unpack_pack_normal length (by omega)]

/-- A count that is not small is rounded to a number that is not small. -/
theorem unpack_ofCount_large (large : 2 ^ 53 ≤ n) (count : n < countLimit) :
    ∃ m e pos, (ofCount n).toModel.unpack = .finite .positive m e pos ∧ 2 ^ 52 ≤ m ∧ 1 ≤ e := by
  have nonzero : n ≠ 0 := by omega
  have long : 53 ≤ n.log2 := (Nat.le_log2 nonzero).2 large
  have short : n.log2 < 64 := (Nat.log2_lt nonzero).2 count
  rw [unpack_ofCount (by omega) count, Nat.sub_eq_zero_of_le (by omega), Nat.pow_zero, Nat.mul_one]
  have cut : ∃ (m i : ℕ) (pos : 0 < m), roundWithAccuracy .binary64 .positive n (-(0 : ℕ)) .exact =
      .finite .positive m _ pos ∧ _ := roundWithAccuracy_long (by omega) (by decide)
  obtain ⟨m, i, pos, rounded, length, once, -⟩ := cut
  have normal := (Nat.log2_eq_iff pos.ne').1 length
  rw [rounded, unpack_pack_normal length (by omega)]
  exact ⟨m, _, pos, rfl, normal.1, by omega⟩

/-- Every positive count is a positive number. -/
theorem exists_unpack_ofCount (pos : 0 < n) (count : n < countLimit) :
    ∃ m e pos, (ofCount n).toModel.unpack = .finite .positive m e pos := by
  by_cases small : n < 2 ^ 53
  · obtain ⟨pos', unpacked⟩ := unpack_ofCount_small pos small
    exact ⟨_, _, pos', unpacked⟩
  · obtain ⟨m, e, pos', unpacked, -, -⟩ := unpack_ofCount_large (not_lt.1 small) count
    exact ⟨m, e, pos', unpacked⟩

theorem unpack_ofCount_zero : (ofCount 0).toModel.unpack = .zero .positive := rfl

/-! ### What a count is as a number -/

/-- The rational number that a number is, unless it is infinite or NaN. -/
def value (x : Float) : Option ℚ :=
  match x.toModel.unpack with
  | .zero _ => some 0
  | .finite s m e _ => some (s.apply m * 2 ^ e)
  | .infinity _ | .notANumber => none

theorem unpack_ofCount_limit :
    (ofCount (2 ^ 53)).toModel.unpack = .finite .positive (2 ^ 52) 1 (by decide) := rfl

theorem value_ofCount (small : n ≤ 2 ^ 53) : value (ofCount n) = some (n : ℚ) := by
  rcases small.lt_or_eq with less | rfl
  · rcases Nat.eq_zero_or_pos n with rfl | pos
    · rfl
    · obtain ⟨pos', unpacked⟩ := unpack_ofCount_small pos less
      have scaled : ((n * 2 ^ (52 - n.log2) : ℕ) : ℚ) * 2 ^ (-(52 - n.log2 : ℕ) : ℤ) = n := by
        rw [zpow_neg, zpow_natCast, Nat.cast_mul, Nat.cast_pow, Nat.cast_ofNat]
        exact mul_inv_cancel_right₀ (by positivity) _
      rw [value, unpacked]
      exact congrArg some scaled
  · rw [value, unpack_ofCount_limit]
    exact congrArg some (by norm_num [Sign.apply])

theorem zero_lt_ofCount (pos : 0 < n) (count : n < countLimit) : 0.0 < ofCount n := by
  obtain ⟨m, e, pos', unpacked⟩ := exists_unpack_ofCount pos count
  rw [lt_iff_compare, unpack_zero, unpacked]
  rfl

theorem isFinite_ofCount (count : n < countLimit) : (ofCount n).isFinite = true := by
  change (ofCount n).toModel.unpack.isFinite = true
  rcases Nat.eq_zero_or_pos n with rfl | pos
  · rfl
  · obtain ⟨m, e, pos', unpacked⟩ := exists_unpack_ofCount pos count
    rw [unpacked]
    rfl

theorem zero_le_ofCount (count : n < countLimit) : 0.0 ≤ ofCount n := by
  rw [zero_le_iff]
  rcases Nat.eq_zero_or_pos n with rfl | pos
  · rw [unpack_ofCount_zero]
    trivial
  · obtain ⟨m, e, pos', unpacked⟩ := exists_unpack_ofCount pos count
    rw [unpacked]
    trivial

/-- A count that is small enough is no larger as a number than a count that is no smaller. -/
theorem ofCount_le_ofCount (le : n ≤ n') (small : n ≤ 2 ^ 53) (count : n' < countLimit) :
    ofCount n ≤ ofCount n' := by
  rcases Nat.eq_zero_or_pos n with rfl | pos
  · exact zero_le_ofCount count
  have pos' : 0 < n' := pos.trans_le le
  by_cases less : n < 2 ^ 53
  · obtain ⟨_, unpacked⟩ := unpack_ofCount_small pos less
    have short : n.log2 < 53 := (Nat.log2_lt pos.ne').2 less
    by_cases less' : n' < 2 ^ 53
    · obtain ⟨_, unpacked'⟩ := unpack_ofCount_small pos' less'
      have short' : n'.log2 < 53 := (Nat.log2_lt pos'.ne').2 less'
      have longer : n.log2 ≤ n'.log2 :=
        (Nat.le_log2 pos'.ne').2 ((Nat.log2_self_le pos.ne').trans le)
      refine le_of_positive unpacked unpacked' ?_
      rcases longer.lt_or_eq with shorter | same
      · exact .inl (by omega)
      · rw [same]
        exact .inr ⟨rfl, Nat.mul_le_mul_right _ le⟩
    · obtain ⟨m, e, _, unpacked', -, large⟩ := unpack_ofCount_large (not_lt.1 less') count
      exact le_of_positive unpacked unpacked' (.inl (by omega))
  · obtain rfl : n = 2 ^ 53 := by omega
    obtain ⟨m, e, _, unpacked', normal, large⟩ := unpack_ofCount_large le count
    exact le_of_positive unpack_ofCount_limit unpacked' (by omega)

end NeighbourGraph.Number
