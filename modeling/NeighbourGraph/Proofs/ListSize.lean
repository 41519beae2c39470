/-
How many entries are sampled, and how many a list holds.

The share of a list that is sampled is taken of the number that the asked size becomes, not of the
size itself. A product with a share is not above this number, and rounding it up does not get above
it either. So no more is sampled than the list holds, unless the asked size is rounded up to become
a number: then a share of one samples more than was asked, if there are nodes enough.
-/

import NeighbourGraph.Proofs.Number.Nearest
import NeighbourGraph.Proofs.Settings

namespace NeighbourGraph.ListSize

open NeighbourGraph.Number Float.Model Float.Model.UnpackedFloat

variable {asked nodeCount : ℕ} {rate : Float} {v : ℚ} {k : ListSize}

/-! ### Shares -/

/-- A share is a number above zero and not above one. -/
theorem exists_value_of_isShare (share : isShare rate = true) :
    ∃ v, value rate = some v ∧ 0 < v ∧ v ≤ 1 := by
  rw [isShare, Bool.and_eq_true, decide_eq_true_eq, decide_eq_true_eq] at share
  obtain ⟨above, below⟩ := share
  have isZero : value 0.0 = some 0 := rfl
  obtain ⟨v, own⟩ : ∃ v, value rate = some v := by
    rw [lt_iff_compare, unpack_zero] at above
    rw [le_iff_compare] at below
    unfold value
    cases unpacked : rate.toModel.unpack with
    | zero | finite => exact ⟨_, rfl⟩
    | notANumber =>
      rw [unpacked] at above
      cases above
    | infinity s =>
      rw [unpacked] at above below
      cases s with
      | positive => cases below
      | negative => cases above
  exact ⟨v, own, (lt_iff_value isZero own).1 above, (le_iff_value own value_one).1 below⟩

/-- The product of a share and a count lies between the share and the count as a number. -/
theorem exists_value_share_mul (pos : 0 < asked) (count : asked < countLimit)
    (own : value rate = some v) (positive : 0 < v) (le : v ≤ 1) :
    ∃ r, value (rate * ofCount asked) = some r ∧ 0 < r ∧ r ≤ rounded asked ∧
      (v = 1 → r = rounded asked) := by
  have scaled := value_ofCount_rounded count
  have large : (1 : ℚ) ≤ rounded asked := mod_cast rounded_pos pos count
  have bound : (rounded asked : ℚ) < 2 ^ (1023 : ℤ) := by
    have double : rounded asked < 2 ^ 65 := by
      have := rounded_le_double pos
      have : countLimit = 2 ^ 64 := rfl
      omega
    calc (rounded asked : ℚ) < 2 ^ (65 : ℤ) := mod_cast double
      _ ≤ 2 ^ (1023 : ℤ) := zpow_le_zpow_right₀ (by norm_num) (by norm_num)
  have below : v * rounded asked ≤ rounded asked := mul_le_of_le_one_left (by linarith) le
  obtain ⟨r, product, faithful⟩ :=
    exists_value_mul own scaled positive (by linarith) (below.trans_lt bound)
  have least : v ≤ r :=
    (faithful.keeps_side own positive.le).1 (le_mul_of_one_le_right positive.le large)
  have side := faithful.keeps_side scaled (by linarith)
  refine ⟨r, product, positive.trans_le least, side.2 below, fun whole => ?_⟩
  rw [whole, one_mul] at side
  exact le_antisymm (side.2 le_rfl) (side.1 le_rfl)

/-! ### Sizes -/

/-- What is sampled: the product, rounded up. -/
theorem of_eq_ok (pos : 0 < asked) (share : isShare rate = true) (nodes : nodeCount < countLimit)
    (product : value (rate * ofCount asked) = some v) (nonneg : 0 ≤ v) :
    ListSize.of asked rate nodeCount =
      .ok ⟨asked, min asked (nodeCount - 1), min ⌈v⌉₊ (nodeCount - 1)⟩ := by
  have counted : nodeCount - 1 ≤ countMax := Nat.sub_le_sub_right nodes.le 1
  rw [ListSize.of, if_neg pos.ne', share, Bool.not_true, if_neg Bool.false_ne_true,
    toCount_roundUp_eq_min product nonneg]
  dsimp only
  rw [min_assoc, min_eq_right counted]

/-- **A list samples no more than was asked, as a number.** List sizes over fewer than `2 ^ 64`
nodes, for any positive size that is asked and any share. A list holds what was asked, as far as
there are other nodes. No more is sampled than there are other nodes and than the asked size is as a
number, which for a size up to `2 ^ 53` is that size; and at least one is, if there is another node.
All shares sample no more than the list holds exactly if the asked size is not rounded up, or there
are not more other nodes. -/
theorem sampled_within_rounded (pos : 0 < asked) (count : asked < countLimit)
    (nodes : nodeCount < countLimit) :
    (∀ rate, isShare rate = true → ∃ k, ListSize.of asked rate nodeCount = .ok k ∧
      k.asked = asked ∧ k.bounded = min asked (nodeCount - 1) ∧
      k.sampled ≤ rounded asked ∧ k.sampled ≤ nodeCount - 1 ∧
      (2 ≤ nodeCount → 1 ≤ k.sampled)) ∧
    ((∀ rate k, isShare rate = true → ListSize.of asked rate nodeCount = .ok k →
        k.sampled ≤ k.bounded) ↔
      rounded asked ≤ asked ∨ nodeCount - 1 ≤ asked) ∧
    (asked ≤ 2 ^ 53 → rounded asked = asked) := by
  have sizes (rate) (share : isShare rate = true) : ∃ v r : ℚ, value rate = some v ∧
      ListSize.of asked rate nodeCount =
        .ok ⟨asked, min asked (nodeCount - 1), min ⌈r⌉₊ (nodeCount - 1)⟩ ∧
      1 ≤ ⌈r⌉₊ ∧ ⌈r⌉₊ ≤ rounded asked ∧ (v = 1 → ⌈r⌉₊ = rounded asked) := by
    obtain ⟨v, own, positive, le⟩ := exists_value_of_isShare share
    obtain ⟨r, product, above, most, whole⟩ := exists_value_share_mul pos count own positive le
    refine ⟨v, r, own, of_eq_ok pos share nodes product above.le, Nat.ceil_pos.2 above,
      Nat.ceil_le.2 most, fun one => ?_⟩
    rw [whole one, Nat.ceil_natCast]
  refine ⟨fun rate share => ?_, ⟨fun fits => ?_, fun fits rate k share made => ?_⟩,
    rounded_eq_self⟩
  · obtain ⟨v, r, -, made, atLeast, most, -⟩ := sizes rate share
    exact ⟨_, made, rfl, rfl, (min_le_left _ _).trans most, min_le_right _ _, fun two => by
      rw [le_min_iff]
      omega⟩
  · obtain ⟨v, r, own, made, -, -, whole⟩ := sizes 1.0 (by decide +kernel)
    have le := fits 1.0 _ (by decide +kernel) made
    dsimp only at le
    rw [whole (Option.some.inj (own.symm.trans value_one))] at le
    omega
  · obtain ⟨v, r, -, made', -, most, -⟩ := sizes rate share
    cases made.symm.trans made'
    dsimp only
    omega

/-- Half of ten over four nodes: a list has room for three, and all three are sampled. -/
theorem tenOfFour_sampled :
    0 < 10 ∧ 10 < countLimit ∧ 4 < countLimit ∧ isShare 0.5 = true ∧ 2 ≤ 4 ∧ 10 ≤ 2 ^ 53 ∧
    ∃ k, ListSize.of 10 0.5 4 = .ok k ∧ k.bounded = 3 ∧ 1 ≤ k.sampled ∧ k.sampled ≤ k.bounded := by
  have count : 10 < countLimit := by decide
  have nodes : 4 < countLimit := by decide
  have half : isShare 0.5 = true := by decide +kernel
  obtain ⟨sizes, fits, whole⟩ := sampled_within_rounded (by decide : 0 < 10) count nodes
  obtain ⟨k, made, -, bounded, -, -, atLeast⟩ := sizes 0.5 half
  exact ⟨by decide, count, nodes, half, by decide, by decide, k, made, bounded, atLeast (by decide),
    fits.2 (.inl (whole (by decide)).le) 0.5 k half made⟩

/-- The count `2 ^ 53 + 3` lies halfway between two numbers and becomes the larger one, so a share
of one samples more than was asked and than a list holds. -/
theorem oddSize_oversampled :
    0 < 2 ^ 53 + 3 ∧ isShare 1.0 = true ∧
    ∃ k, ListSize.of (2 ^ 53 + 3) 1.0 (2 ^ 64 - 1) = .ok k ∧ k.bounded = 2 ^ 53 + 3 ∧
      k.sampled = 2 ^ 53 + 4 ∧ ¬k.sampled ≤ k.bounded :=
  ⟨by decide, by decide +kernel, _, rfl, by decide +kernel, by decide +kernel, by decide +kernel⟩

end NeighbourGraph.ListSize
