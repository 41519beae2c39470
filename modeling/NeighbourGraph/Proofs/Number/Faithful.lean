/-
Products and quotients of counts, rounded.

An operation rounds its exact result once, and rounding does not get past a number: a number that
is no larger than the exact result is no larger than the rounded one, and one that is no smaller
stays so. Thus a product of counts that is a number itself is exact, and a quotient of counts lies
between the same whole numbers as the exact one, as long as there are numbers closer to a whole
number than the exact quotient can get.
-/

import NeighbourGraph.Proofs.Number.Values

namespace NeighbourGraph.Number

open Float.Model Float.Model.UnpackedFloat

variable {x y : Float} {v w r : ℚ} {m n d k : ℕ} {e f : ℤ} {accuracy : Accuracy}

/-! ### Rounding once -/

/-- No number `n * 2 ^ f` lies between an exact result and what it is rounded to. -/
def Faithful (v r : ℚ) : Prop :=
  ∀ (n : ℕ) (f : ℤ), n < 2 ^ 53 → -1074 ≤ f →
    (n * 2 ^ f ≤ v → n * 2 ^ f ≤ r) ∧ (v ≤ n * 2 ^ f → r ≤ n * 2 ^ f)

/-- A result that is a number is not changed. -/
theorem Faithful.eq_of_number (faithful : Faithful v r) (small : n < 2 ^ 53) (range : -1074 ≤ f)
    (own : v = n * 2 ^ f) : r = v := by
  obtain ⟨lower, upper⟩ := faithful n f small range
  exact le_antisymm ((upper own.le).trans own.ge) (own.le.trans (lower own.ge))

/-- A result keeps to the side of each number on which it is. -/
theorem Faithful.keeps_side (faithful : Faithful v r) (hx : value x = some w) (nonneg : 0 ≤ w) :
    (w ≤ v → w ≤ r) ∧ (v ≤ w → r ≤ w) := by
  have has := hasValue_iff.1 hx
  generalize x.toModel.unpack = a at has
  cases has with
  | zero => simpa using faithful 0 0 (by norm_num) (by norm_num)
  | @positive m e pos fits => exact faithful m e fits.short fits.range
  | @negative m e pos =>
    have positive : (0 : ℚ) < m * 2 ^ e := by positivity
    exact absurd nonneg (not_le.2 (neg_lt_zero.2 positive))

/-- What is left of an exact result before it is rounded. -/
structure Truncated (v : ℚ) (m : ℕ) (e : ℤ) (accuracy : Accuracy) : Prop where
  lower : m * 2 ^ e ≤ v
  upper : v < (m + 1 : ℕ) * 2 ^ e
  exact : v = m * 2 ^ e → accuracy = .exact

theorem natCast_mul_zpow_add (n k : ℕ) (e : ℤ) :
    (n : ℚ) * 2 ^ (e + k) = (n * 2 ^ k : ℕ) * 2 ^ e := by
  rw [zpow_add₀ (by norm_num), zpow_natCast, Nat.cast_mul, Nat.cast_pow, Nat.cast_ofNat]
  ring

/-- Multiples of the last bit that is kept are not got past. -/
theorem Truncated.faithful_multiple (cut : Truncated v m e accuracy) (n k : ℕ) :
    let rounded := (ExtendedMantissa.ofMantissaAndAccuracy m accuracy >>> k).roundedMantissa
    (n * 2 ^ (e + k) ≤ v → n ≤ rounded) ∧ (v ≤ n * 2 ^ (e + k) → rounded ≤ n) := by
  have unit : (0 : ℚ) < 2 ^ e := by positivity
  rw [natCast_mul_zpow_add]
  constructor
  · intro le
    have less : ((n * 2 ^ k : ℕ) : ℚ) < (m + 1 : ℕ) :=
      lt_of_mul_lt_mul_right (le.trans_lt cut.upper) unit.le
    have below : n * 2 ^ k ≤ m := Nat.lt_succ_iff.1 (mod_cast less)
    have kept := le_roundedMantissa (ExtendedMantissa.ofMantissaAndAccuracy m accuracy >>> k)
    rw [mantissa_shiftRight, mantissa_ofMantissaAndAccuracy] at kept
    exact ((Nat.le_div_iff_mul_le (Nat.two_pow_pos k)).2 below).trans kept
  · intro ge
    refine roundedMantissa_shiftRight_le ?_
    rw [mantissa_ofMantissaAndAccuracy]
    have le : (m : ℚ) ≤ (n * 2 ^ k : ℕ) := le_of_mul_le_mul_right (cut.lower.trans ge) unit
    refine (Nat.cast_le.1 le).lt_or_eq.imp_right fun eq => ⟨eq, ?_⟩
    rw [cut.exact (le_antisymm (eq ▸ ge) cut.lower)]
    exact exact_ofMantissa m

/-- What is rounded: the bits that are left, at the exponent for which the others were dropped. -/
theorem hasValue_round (accuracy : Accuracy) (pos : 0 < m) (room : 52 ≤ m.log2 ∨ e ≤ -1074)
    (top : e + m.log2 ≤ 1022) :
    HasValue (UnpackedFloat.unpack .binary64 (UnpackedFloat.pack .binary64
        (roundWithAccuracy .binary64 .positive m e accuracy)))
      ((ExtendedMantissa.ofMantissaAndAccuracy m accuracy >>> dropped m e).roundedMantissa *
        2 ^ (e + dropped m e)) := by
  have goal := add_dropped room
  obtain ⟨short, normal⟩ := div_dropped pos room
  rw [roundWithAccuracy_eq]
  have le := le_roundedMantissa
    (ExtendedMantissa.ofMantissaAndAccuracy m accuracy >>> dropped m e)
  have ge := roundedMantissa_le
    (ExtendedMantissa.ofMantissaAndAccuracy m accuracy >>> dropped m e)
  rw [mantissa_shiftRight, mantissa_ofMantissaAndAccuracy] at le ge
  generalize ExtendedMantissa.roundedMantissa _ = r at le ge ⊢
  generalize e + (dropped m e : ℤ) = t at goal normal ⊢
  rcases Nat.eq_zero_or_pos r with rfl | above
  · rw [Nat.zero_div, dif_pos rfl, Nat.cast_zero, zero_mul]
    exact .zero _
  by_cases fits : r < 2 ^ 53
  · have length : r.log2 < 53 := (Nat.log2_lt above.ne').2 fits
    have undropped : dropped r t = 0 := by
      rw [dropped_eq]
      omega
    simp only [undropped, Nat.pow_zero, Nat.div_one, Nat.cast_zero, add_zero]
    have fits : Fits r t := ⟨fits, by omega, by omega⟩
    rw [dif_neg above.ne', unpack_pack_fits fits (by omega)]
    exact .positive above fits
  · -- A bit too many is a power of two, and its last bit is zero.
    obtain rfl : r = 2 ^ 53 := by omega
    have one : dropped (2 ^ 53) t = 1 := by
      have own : (2 ^ 53).log2 = 53 := rfl
      rw [dropped_eq, own]
      omega
    have fits : Fits (2 ^ 52) (t + (1 : ℕ)) := ⟨by norm_num, by omega, .inl le_rfl⟩
    have half : (2 ^ 53 / 2 ^ 1 : ℕ) = 2 ^ 52 := rfl
    simp only [one, half]
    have same : ((2 ^ 53 : ℕ) : ℚ) * 2 ^ t = (2 ^ 52 : ℕ) * 2 ^ (t + (1 : ℕ)) := by
      rw [natCast_mul_zpow_add, ← Nat.pow_add]
    rw [dif_neg (by decide), unpack_pack_fits fits (by omega), same]
    exact .positive (by decide) fits

/-- A result with bits enough is rounded faithfully. -/
theorem Truncated.exists_rounded (cut : Truncated v m e accuracy) (pos : 0 < m)
    (room : 52 ≤ m.log2 ∨ e ≤ -1074) (top : e + m.log2 ≤ 1022) :
    ∃ r, HasValue (UnpackedFloat.unpack .binary64 (UnpackedFloat.pack .binary64
      (roundWithAccuracy .binary64 .positive m e accuracy))) r ∧ Faithful v r := by
  refine ⟨_, hasValue_round accuracy pos room top, fun n f small range => ?_⟩
  have goal := add_dropped room
  have normal := (div_dropped pos room).2
  have multiple := fun n => cut.faithful_multiple n (dropped m e)
  generalize ExtendedMantissa.roundedMantissa _ = kept at multiple ⊢
  generalize unit : e + (dropped m e : ℤ) = u at goal normal multiple ⊢
  rcases lt_or_ge f u with finer | coarser
  · -- The result has 53 bits above `u`, so what has 53 bits above a lower `f` is smaller.
    have least : ((2 ^ 52 : ℕ) : ℚ) * 2 ^ u ≤ v := by
      refine le_trans ?_ cut.lower
      rw [← unit, natCast_mul_zpow_add]
      gcongr
      exact (Nat.le_div_iff_mul_le (Nat.two_pow_pos _)).1 (normal.resolve_right (by omega))
    have smaller : (n : ℚ) * 2 ^ f < (2 ^ 52 : ℕ) * 2 ^ u := mul_two_zpow_lt small le_rfl finer
    have large := (multiple (2 ^ 52)).1 least
    refine ⟨fun _ => smaller.le.trans ?_, fun ge => absurd least (not_le.2 (ge.trans_lt smaller))⟩
    gcongr
  · obtain ⟨j, rfl⟩ := Int.le.dest coarser
    rw [natCast_mul_zpow_add]
    exact ⟨fun le => by gcongr; exact (multiple _).1 le,
      fun ge => by gcongr; exact (multiple _).2 ge⟩

/-! ### Operands -/

/-- The first bit of what is less than a power of two. -/
theorem add_log2_lt (pos : 0 < m) (bound : m * 2 ^ e < (2 : ℚ) ^ f) : e + m.log2 < f := by
  have least : ((2 ^ m.log2 : ℕ) : ℚ) ≤ m := by
    exact_mod_cast ((Nat.log2_eq_iff pos.ne').1 rfl).1
  have less : (2 : ℚ) ^ (e + m.log2) < 2 ^ f := by
    calc (2 : ℚ) ^ (e + m.log2) = (2 ^ m.log2 : ℕ) * 2 ^ e := by
          rw [add_comm, zpow_add₀ (by norm_num), zpow_natCast, Nat.cast_pow, Nat.cast_ofNat]
      _ ≤ m * 2 ^ e := by gcongr
      _ < 2 ^ f := bound
  exact (zpow_lt_zpow_iff_right₀ (by norm_num)).1 less

/-- Numbers from one to `2 ^ 53` have significands of 53 bits. -/
theorem HasValue.exists_normal {a : UnpackedFloat} (has : HasValue a v)
    (range : v ∈ Set.Ico 1 (2 ^ 53)) :
    ∃ m e pos, a = .finite .positive m e pos ∧ m.log2 = 52 ∧ v = m * 2 ^ e ∧ -52 ≤ e ∧ e ≤ 0 := by
  obtain ⟨one, short⟩ := range
  obtain ⟨m, e, pos, fits, rfl, rfl⟩ := has.exists_positive (by linarith)
  have above : -53 < e := by
    have less : (2 : ℚ) ^ (0 : ℤ) < 2 ^ (53 + e) := by
      calc (2 : ℚ) ^ (0 : ℤ) ≤ m * 2 ^ e := by rwa [zpow_zero]
        _ < 2 ^ 53 * 2 ^ e := by gcongr; exact_mod_cast fits.short
        _ = 2 ^ (53 + e) := by rw [zpow_add₀ (by norm_num)]; norm_num
    have := (zpow_lt_zpow_iff_right₀ (by norm_num)).1 less
    omega
  have normal : 2 ^ 52 ≤ m := fits.normal.resolve_right (by omega)
  have length : m.log2 = 52 := (Nat.log2_eq_iff pos.ne').2 ⟨normal, fits.short⟩
  have below : e + m.log2 < 53 := add_log2_lt pos (by exact_mod_cast short)
  exact ⟨m, e, pos, rfl, length, rfl, by omega, by omega⟩

/-! ### Operations -/

/-- A significand that is not normal goes with the least exponent, so a product of significands is
long or has a small exponent. -/
theorem Fits.product_room (fits : Fits m e) (fits' : Fits n f) (pos : 0 < m) (pos' : 0 < n) :
    52 ≤ (m * n).log2 ∨ e + f ≤ -1074 := by
  rw [Nat.le_log2 (Nat.mul_pos pos pos').ne']
  rcases fits.normal with normal | rfl
  · exact .inl (normal.trans (Nat.le_mul_of_pos_right m pos'))
  · rcases fits'.normal with normal | rfl
    · exact .inl (normal.trans (Nat.le_mul_of_pos_left n pos))
    · exact .inr (by omega)

/-- A product of positive numbers is rounded faithfully, unless it is too large for a number. -/
theorem exists_value_mul (hx : value x = some v) (hy : value y = some w) (hv : 0 < v) (hw : 0 < w)
    (bound : v * w < 2 ^ (1023 : ℤ)) : ∃ r, value (x * y) = some r ∧ Faithful (v * w) r := by
  obtain ⟨m, e, pos, fits, left, rfl⟩ := (hasValue_iff.1 hx).exists_positive hv
  obtain ⟨n, f, pos', fits', right, rfl⟩ := (hasValue_iff.1 hy).exists_positive hw
  have unpacked : (x * y).toModel.unpack = UnpackedFloat.unpack .binary64
      (UnpackedFloat.pack .binary64
        (roundWithAccuracy .binary64 .positive (m * n) (e + f) .exact)) := by
    change UnpackedFloat.unpack .binary64 (UnpackedFloat.pack .binary64
      (UnpackedFloat.mul .binary64 x.toModel.unpack y.toModel.unpack)) = _
    rw [left, right]
    rfl
  have own : (m * 2 ^ e * (n * 2 ^ f) : ℚ) = (m * n : ℕ) * 2 ^ (e + f) := by
    rw [zpow_add₀ (by norm_num), Nat.cast_mul]
    ring
  rw [own] at bound ⊢
  have cut : Truncated ((m * n : ℕ) * 2 ^ (e + f)) (m * n) (e + f) .exact := by
    refine ⟨le_rfl, ?_, fun _ => rfl⟩
    gcongr
    exact Nat.lt_succ_self _
  have positive : 0 < m * n := Nat.mul_pos pos pos'
  have top := add_log2_lt positive bound
  obtain ⟨r, has, faithful⟩ :=
    cut.exists_rounded positive (fits.product_room fits' pos pos') (by omega)
  exact ⟨r, hasValue_iff.2 (unpacked ▸ has), faithful⟩

/-- The quotient of two significands is cut to 53 or 54 bits. -/
theorem log2_quotient (length : m.log2 = 52) (length' : n.log2 = 52) (pos : 0 < m) (pos' : 0 < n) :
    52 ≤ (m * 2 ^ 53 / n).log2 ∧ (m * 2 ^ 53 / n).log2 < 54 := by
  obtain ⟨least, most⟩ := (Nat.log2_eq_iff pos.ne').1 length
  obtain ⟨least', most'⟩ := (Nat.log2_eq_iff pos'.ne').1 length'
  have lower : 2 ^ 52 ≤ m * 2 ^ 53 / n := (Nat.le_div_iff_mul_le pos').2 (by omega)
  have upper : m * 2 ^ 53 / n < 2 ^ 54 := (Nat.div_lt_iff_lt_mul pos').2 (by omega)
  exact ⟨(Nat.le_log2 (by omega)).2 lower, (Nat.log2_lt (by omega)).2 upper⟩

theorem truncated_quotient (pos : 0 < n) :
    Truncated (m * 2 ^ e / (n * 2 ^ f)) (m * 2 ^ 53 / n) (e - f - 53)
      (accuracyOfFraction (m * 2 ^ 53 % n) n) := by
  have positive : (0 : ℚ) < n := mod_cast pos
  have unit : (0 : ℚ) < 2 ^ (e - f - 53) := by positivity
  have own : (m * 2 ^ e / (n * 2 ^ f) : ℚ) = (m * 2 ^ 53 : ℕ) / n * 2 ^ (e - f - 53) := by
    have scale : (2 : ℚ) ^ e = 2 ^ (53 : ℕ) * 2 ^ f * 2 ^ (e - f - 53) := by
      rw [← zpow_natCast, ← zpow_add₀ (by norm_num), ← zpow_add₀ (by norm_num)]
      congr 1
      push_cast
      ring
    rw [scale, Nat.cast_mul, Nat.cast_pow, Nat.cast_ofNat]
    field_simp
  rw [own]
  refine ⟨?_, ?_, fun eq => ?_⟩
  · gcongr
    exact Nat.cast_div_le
  · gcongr
    rw [div_lt_iff₀ positive]
    exact_mod_cast Nat.mul_comm n _ ▸ Nat.lt_mul_div_succ (m * 2 ^ 53) pos
  · have whole := mul_right_cancel₀ unit.ne' eq
    rw [div_eq_iff positive.ne'] at whole
    have divides : m * 2 ^ 53 % n = 0 :=
      Nat.mod_eq_zero_of_dvd (Dvd.intro_left _ (by exact_mod_cast whole.symm))
    rw [divides]
    rfl

/-- A quotient is rounded faithfully. -/
theorem exists_value_div (hx : value x = some v) (hy : value y = some w)
    (hv : v ∈ Set.Ico 1 (2 ^ 53)) (hw : w ∈ Set.Ico 1 (2 ^ 53)) :
    ∃ r, value (x / y) = some r ∧ Faithful (v / w) r := by
  obtain ⟨m, e, pos, left, length, rfl, lower, upper⟩ := (hasValue_iff.1 hx).exists_normal hv
  obtain ⟨n, f, pos', right, length', rfl, lower', upper'⟩ := (hasValue_iff.1 hy).exists_normal hw
  have target : min (e - f) (Format.binary64.targetExponent
      (totalExponent m e - totalExponent n f)) = e - f - 53 := by
    change min (e - f) (max ((m.log2 : ℤ) + 1 + e - (n.log2 + 1 + f) - 53) (-1074)) = _
    omega
  have unpacked : (x / y).toModel.unpack = UnpackedFloat.unpack .binary64
      (UnpackedFloat.pack .binary64 (roundWithAccuracy .binary64 .positive (m * 2 ^ 53 / n)
        (e - f - 53) (accuracyOfFraction (m * 2 ^ 53 % n) n))) := by
    have shift : (e - f - (e - f - 53)).toNat = 53 := by omega
    have core : divCore .binary64 m e n f = (m * 2 ^ 53 / n, e - f - 53,
        accuracyOfFraction (m * 2 ^ 53 % n) n) := by
      simp only [divCore, target, shift, Nat.shiftLeft_eq]
    change UnpackedFloat.unpack .binary64 (UnpackedFloat.pack .binary64
      (UnpackedFloat.div .binary64 x.toModel.unpack y.toModel.unpack)) = _
    rw [left, right, UnpackedFloat.div, core]
    rfl
  obtain ⟨long, short⟩ := log2_quotient length length' pos pos'
  have positive : 0 < m * 2 ^ 53 / n := Nat.pos_of_ne_zero fun isZero => by
    rw [isZero] at long
    exact absurd long (by decide)
  obtain ⟨r, has, faithful⟩ := (truncated_quotient (m := m) (e := e) (f := f) pos').exists_rounded
    positive (.inl long) (by omega)
  exact ⟨r, hasValue_iff.2 (unpacked ▸ has), faithful⟩

/-! ### Counts -/

theorem mem_Ico_natCast (pos : 0 < n) (small : n < 2 ^ 53) : (n : ℚ) ∈ Set.Ico 1 (2 ^ 53) :=
  ⟨mod_cast pos, mod_cast small⟩

/-- Small counts are multiplied without an error. -/
theorem value_mul_ofCount (pos : 0 < m) (pos' : 0 < n) (small : m * n < 2 ^ 53) :
    value (ofCount m * ofCount n) = some ((m * n : ℕ) : ℚ) := by
  have left : m < 2 ^ 53 := (Nat.le_mul_of_pos_right m pos').trans_lt small
  have right : n < 2 ^ 53 := (Nat.le_mul_of_pos_left n pos).trans_lt small
  have bound : (m * n : ℚ) < 2 ^ (1023 : ℤ) := by
    calc (m * n : ℚ) < 2 ^ (53 : ℤ) := mod_cast small
      _ ≤ 2 ^ (1023 : ℤ) := zpow_le_zpow_right₀ (by norm_num) (by norm_num)
  obtain ⟨r, value, faithful⟩ := exists_value_mul (value_ofCount left.le) (value_ofCount right.le)
    (mod_cast pos) (mod_cast pos') bound
  have own : (m * n : ℚ) = (m * n : ℕ) * 2 ^ (0 : ℤ) := by
    rw [zpow_zero, mul_one, Nat.cast_mul]
  rw [value, faithful.eq_of_number small (by norm_num) own, Nat.cast_mul]

/-- A quotient by a small count lies between the same whole numbers as the exact one. -/
theorem Faithful.ceil_eq (faithful : Faithful (n / d) r) (pos : 0 < d) (divisor : d ≤ 2 ^ k)
    (small : ⌈(n / d : ℚ)⌉₊ * 2 ^ k < 2 ^ 53) : ⌈r⌉₊ = ⌈(n / d : ℚ)⌉₊ := by
  have positive : (0 : ℚ) < d := mod_cast pos
  generalize whole : ⌈(n / d : ℚ)⌉₊ = w at small
  refine le_antisymm (Nat.ceil_le.2 ?_) ?_
  · have le : (n / d : ℚ) ≤ w * 2 ^ (0 : ℤ) := by
      rw [zpow_zero, mul_one, ← whole]
      exact Nat.le_ceil _
    have short : w < 2 ^ 53 := (Nat.le_mul_of_pos_right w (Nat.two_pow_pos k)).trans_lt small
    simpa using (faithful w 0 short (by norm_num)).2 le
  · rcases Nat.eq_zero_or_pos w with rfl | above
    · exact Nat.zero_le _
    obtain ⟨u, rfl⟩ := Nat.exists_eq_succ_of_ne_zero above.ne'
    -- Past `u` the exact quotient is at least `u + 1 / d`, and `u + 1 / 2 ^ k` is a number.
    have past : u * d < n := by
      have less : (u : ℚ) < n / d := Nat.lt_ceil.1 (by omega)
      exact_mod_cast (lt_div_iff₀ positive).1 less
    have scaled : (u * 2 ^ k + 1) * d ≤ n * 2 ^ k := by
      calc (u * 2 ^ k + 1) * d = u * d * 2 ^ k + d := by ring
        _ ≤ u * d * 2 ^ k + 2 ^ k := by omega
        _ = (u * d + 1) * 2 ^ k := by ring
        _ ≤ n * 2 ^ k := Nat.mul_le_mul_right _ past
    have number : ((u * 2 ^ k + 1 : ℕ) : ℚ) * 2 ^ (-k : ℤ) ≤ n / d := by
      rw [zpow_neg, zpow_natCast, ← div_eq_mul_inv, div_le_div_iff₀ (by positivity) positive]
      exact_mod_cast scaled
    rw [Nat.succ_mul] at small
    have short : 2 ^ k < 2 ^ 53 := by omega
    have bits : k < 53 := (Nat.pow_lt_pow_iff_right (by decide)).1 short
    have least := (faithful (u * 2 ^ k + 1) (-k) (by have := Nat.two_pow_pos k; omega)
      (by omega)).1 number
    refine Nat.lt_ceil.2 (lt_of_lt_of_le ?_ least)
    rw [zpow_neg, zpow_natCast, ← div_eq_mul_inv, lt_div_iff₀ (by positivity)]
    exact_mod_cast Nat.lt_succ_self _

end NeighbourGraph.Number
