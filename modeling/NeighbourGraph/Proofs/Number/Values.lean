/-
Numbers by the rational numbers that they are.

Finite numbers compare as these do, since a larger exponent makes up for any significand. To cut a
number to a count is to round it down, and to round it up gives the least whole number that is not
below it, as long as all whole numbers are numbers.
-/

import NeighbourGraph.Proofs.Number.Counts

namespace NeighbourGraph.Number

open Float.Model Float.Model.UnpackedFloat

variable {x y : Float} {v w : ℚ} {m n : ℕ} {e e' : ℤ}

/-! ### Comparisons -/

/-- A significand of 53 bits makes up for all that have a smaller exponent. -/
theorem mul_two_zpow_lt (short : m < 2 ^ 53) (normal : 2 ^ 52 ≤ n) (less : e < e') :
    (m : ℚ) * 2 ^ e < n * 2 ^ e' := by
  have short : (m : ℚ) < 2 ^ 53 := mod_cast short
  have normal : (2 ^ 52 : ℚ) ≤ n := mod_cast normal
  calc (m : ℚ) * 2 ^ e < 2 ^ 53 * 2 ^ e := by gcongr
    _ = 2 ^ 52 * 2 ^ (e + 1) := by
      rw [zpow_add_one₀ (by norm_num)]
      ring
    _ ≤ n * 2 ^ e' := by
      gcongr
      · norm_num
      · omega

/-- A number with a smaller exponent is smaller. -/
theorem scaled_lt (small : Fits m e) (large : Fits n e') (less : e < e') :
    (m : ℚ) * 2 ^ e < n * 2 ^ e' := by
  have normal := large.normal.resolve_right (by have := small.range; omega)
  exact mul_two_zpow_lt small.short normal less

theorem compare_scaled (small : Fits m e) (large : Fits n e') :
    compare ((m : ℚ) * 2 ^ e) (n * 2 ^ e') = (compare e e').then (compare m n) := by
  rcases lt_trichotomy e e' with less | rfl | greater
  · rw [compare_lt_iff_lt.2 (scaled_lt small large less), compare_lt_iff_lt.2 less]
    rfl
  · have unit : (0 : ℚ) < 2 ^ e := by positivity
    rw [compare_eq_iff_eq.2 rfl, Ordering.eq_then]
    rcases lt_trichotomy m n with less | rfl | greater
    · rw [compare_lt_iff_lt.2 less, compare_lt_iff_lt]
      exact mul_lt_mul_of_pos_right (mod_cast less) unit
    · rw [compare_eq_iff_eq.2 rfl, compare_eq_iff_eq.2 rfl]
    · rw [compare_gt_iff_gt.2 greater, compare_gt_iff_gt]
      exact mul_lt_mul_of_pos_right (mod_cast greater) unit
  · rw [compare_gt_iff_gt.2 (scaled_lt large small greater), compare_gt_iff_gt.2 greater]
    rfl

/-- What a number with a value looks like. -/
inductive HasValue : UnpackedFloat → ℚ → Prop where
  | zero (s : Sign) : HasValue (.zero s) 0
  | positive {m : ℕ} {e : ℤ} (pos : 0 < m) (fits : Fits m e) :
    HasValue (.finite .positive m e pos) (m * 2 ^ e)
  | negative {m : ℕ} {e : ℤ} (pos : 0 < m) (fits : Fits m e) :
    HasValue (.finite .negative m e pos) (-(m * 2 ^ e))

theorem hasValue_iff : value x = some v ↔ HasValue x.toModel.unpack v := by
  have canonical : Canonical x.toModel.unpack := canonical_unpack _
  rw [value]
  generalize x.toModel.unpack = a at canonical ⊢
  cases a with
  | notANumber | infinity =>
    constructor
    · rintro ⟨⟩
    · rintro ⟨⟩
  | zero s =>
    constructor
    · rintro ⟨⟩
      exact .zero s
    · rintro ⟨⟩
      rfl
  | finite s m e pos =>
    cases s with
    | positive =>
      constructor
      · rintro ⟨⟩
        exact .positive pos canonical
      · rintro ⟨⟩
        rfl
    | negative =>
      have turned : ((Sign.negative.apply m : ℤ) : ℚ) * 2 ^ e = -(m * 2 ^ e) := by
        simp [Sign.apply]
      constructor
      · rintro ⟨⟩
        exact turned ▸ .negative pos canonical
      · rintro ⟨⟩
        exact congrArg some turned

theorem HasValue.exists_positive {a : UnpackedFloat} (has : HasValue a v) (hv : 0 < v) :
    ∃ m e pos, Fits m e ∧ a = .finite .positive m e pos ∧ v = m * 2 ^ e := by
  cases has with
  | zero => exact absurd hv (lt_irrefl 0)
  | positive pos fits => exact ⟨_, _, pos, fits, rfl, rfl⟩
  | @negative m e pos =>
    have above : (0 : ℚ) < m * 2 ^ e := by positivity
    linarith

theorem HasValue.compare_eq {a b : UnpackedFloat} (ha : HasValue a v) (hb : HasValue b w) :
    a.compare b = some (compare v w) := by
  have above {m : ℕ} (pos : 0 < m) (e : ℤ) : (0 : ℚ) < m * 2 ^ e := by positivity
  have below {m : ℕ} (pos : 0 < m) (e : ℤ) : -(m * 2 ^ e : ℚ) < 0 :=
    neg_lt_zero.2 (above pos e)
  cases ha with
  | zero s =>
    cases hb with
    | zero t => rw [compare_eq_iff_eq.2 rfl]; rfl
    | @positive n e' pos' => rw [compare_lt_iff_lt.2 (above pos' e')]; rfl
    | @negative n e' pos' => rw [compare_gt_iff_gt.2 (below pos' e')]; rfl
  | @positive m e pos fits =>
    cases hb with
    | zero t => rw [compare_gt_iff_gt.2 (above pos e)]; rfl
    | positive pos' fits' => rw [compare_scaled fits fits']; rfl
    | @negative n e' pos' =>
      rw [compare_gt_iff_gt.2 ((below pos' e').trans (above pos e))]; rfl
  | @negative m e pos fits =>
    cases hb with
    | zero t => rw [compare_lt_iff_lt.2 (below pos e)]; rfl
    | @positive n e' pos' =>
      rw [compare_lt_iff_lt.2 ((below pos e).trans (above pos' e'))]; rfl
    | negative pos' fits' => rw [compare_neg, compare_scaled fits fits']; rfl

/-- The order of numbers is that of their values. -/
theorem lt_iff_value (hx : value x = some v) (hy : value y = some w) : x < y ↔ v < w := by
  rw [lt_iff_compare, (hasValue_iff.1 hx).compare_eq (hasValue_iff.1 hy), Option.some_inj,
    compare_lt_iff_lt]

theorem le_iff_value (hx : value x = some v) (hy : value y = some w) : x ≤ y ↔ v ≤ w := by
  rw [le_iff_compare, (hasValue_iff.1 hx).compare_eq (hasValue_iff.1 hy), Option.any_some,
    ← Ordering.ne_gt_iff_isLE, compare_gt_iff_gt, not_lt]

/-! ### Whole parts -/

theorem two_zpow_eq_div (e : ℤ) : (2 : ℚ) ^ e = 2 ^ e.toNat / 2 ^ (-e).toNat := by
  rw [eq_div_iff (by positivity), ← zpow_natCast, ← zpow_natCast, ← zpow_add₀ (by norm_num)]
  congr 1
  omega

/-- A number that is cut to an integer is rounded down. -/
theorem roundToInt_positive (m : ℕ) (e : ℤ) :
    roundToInt .positive m e = (⌊(m * 2 ^ e : ℚ)⌋₊ : ℤ) := by
  have value : (m * 2 ^ e : ℚ) = (m * 2 ^ e.toNat : ℕ) / (2 ^ (-e).toNat : ℕ) := by
    rw [two_zpow_eq_div, Nat.cast_mul, mul_div_assoc]
    norm_cast
  have left : (e - 0).toNat = e.toNat := by rw [sub_zero]
  have right : (0 - (e - (e.toNat : ℤ))).toNat = (-e).toNat := by omega
  rw [value, Rat.natFloor_natCast_div_natCast]
  simp only [roundToInt, decreaseExponent, shiftToExponent, mantissa_shiftRight,
    mantissa_ofMantissaAndAccuracy, Sign.apply, left, right, Nat.shiftLeft_eq]

/-- A number that is cut to a count is rounded down, and not above the largest count. -/
theorem toCount_eq_min (hx : value x = some v) (nonneg : 0 ≤ v) :
    toCount x = min ⌊v⌋₊ countMax := by
  have whole : (x.toModel.unpack.toInt 0 (UInt64.size - 1)).toNat = ⌊v⌋₊ := by
    have has := hasValue_iff.1 hx
    generalize x.toModel.unpack = a at has
    cases has with
    | zero => simp [UnpackedFloat.toInt]
    | positive => rw [UnpackedFloat.toInt, roundToInt_positive, Int.toNat_natCast]
    | @negative m e pos =>
      have positive : (0 : ℚ) < m * 2 ^ e := by positivity
      exact absurd nonneg (not_le.2 (neg_lt_zero.2 positive))
  change (UInt64.ofNatClamp _).toNat = min ⌊v⌋₊ (UInt64.size - 1)
  rw [whole, UInt64.ofNatClamp]
  split
  · next small => exact (min_eq_left (Nat.le_pred_of_lt small)).symm
  · next large => exact (min_eq_right ((Nat.pred_le _).trans (not_lt.1 large))).symm

theorem toCount_eq_floor (hx : value x = some v) (nonneg : 0 ≤ v) (bound : v < countLimit) :
    toCount x = ⌊v⌋₊ := by
  rw [toCount_eq_min hx nonneg, min_eq_left]
  exact Nat.le_pred_of_lt ((Nat.floor_lt nonneg).2 bound)

theorem toCount_ofCount (small : n ≤ 2 ^ 53) : toCount (ofCount n) = n := by
  have bound : n < countLimit := small.trans_lt (by decide)
  rw [toCount_eq_floor (value_ofCount small) (by positivity) (mod_cast bound), Nat.floor_natCast]

/-- Rounding up gives the least count that is not below the number. -/
theorem roundUp_eq_ofCount (hx : value x = some v) (nonneg : 0 ≤ v) (small : v < 2 ^ 53) :
    roundUp x = ofCount ⌈v⌉₊ := by
  have from_ : value wholeFrom = some ((2 ^ 53 : ℕ) : ℚ) := value_ofCount le_rfl
  have cut : toCount x = ⌊v⌋₊ :=
    toCount_eq_floor hx nonneg (small.trans (by norm_num [countLimit]))
  have short : ⌊v⌋₊ < 2 ^ 53 := (Nat.floor_lt nonneg).2 (mod_cast small)
  rw [roundUp, if_pos ((lt_iff_value hx from_).2 (mod_cast small))]
  dsimp only
  rw [cut]
  have compared := lt_iff_value (value_ofCount short.le) hx
  by_cases fraction : (⌊v⌋₊ : ℚ) < v
  · rw [if_pos (compared.2 fraction),
      Nat.le_antisymm (Nat.ceil_le_floor_add_one v) (Nat.lt_ceil.2 fraction)]
  · rw [if_neg (fraction ∘ compared.1),
      Nat.le_antisymm (Nat.ceil_le.2 (not_lt.1 fraction)) (Nat.floor_le_ceil v)]

/-- Numbers from `2 ^ 53` on are whole. -/
theorem exists_natCast_of_large (hx : value x = some v) (large : 2 ^ 53 ≤ v) :
    ∃ n : ℕ, v = n := by
  obtain ⟨m, e, pos, fits, -, rfl⟩ := (hasValue_iff.1 hx).exists_positive (by linarith)
  have short : (m : ℚ) < 2 ^ 53 := mod_cast fits.short
  have whole : 0 ≤ e := by
    by_contra fraction
    have unit : (2 : ℚ) ^ e ≤ 1 := zpow_le_one_of_nonpos₀ (by norm_num) (by omega)
    have below : (m * 2 ^ e : ℚ) ≤ m := mul_le_of_le_one_right (by positivity) unit
    linarith
  obtain ⟨k, rfl⟩ := Int.eq_ofNat_of_zero_le whole
  exact ⟨m * 2 ^ k, by rw [zpow_natCast, Nat.cast_mul, Nat.cast_pow, Nat.cast_ofNat]⟩

/-- Rounding up and cutting gives the least count that is not below the number, or the largest
one. -/
theorem toCount_roundUp_eq_min (hx : value x = some v) (nonneg : 0 ≤ v) :
    toCount (roundUp x) = min ⌈v⌉₊ countMax := by
  by_cases small : v < 2 ^ 53
  · have whole : ⌈v⌉₊ ≤ 2 ^ 53 := Nat.ceil_le.2 (mod_cast small.le)
    rw [roundUp_eq_ofCount hx nonneg small, toCount_ofCount whole, min_eq_left]
    exact whole.trans (by decide)
  · have from_ : value wholeFrom = some ((2 ^ 53 : ℕ) : ℚ) := value_ofCount le_rfl
    obtain ⟨n, rfl⟩ := exists_natCast_of_large hx (not_lt.1 small)
    rw [roundUp, if_neg fun less => small (mod_cast (lt_iff_value hx from_).1 less),
      toCount_eq_min hx nonneg, Nat.floor_natCast, Nat.ceil_natCast]

end NeighbourGraph.Number
