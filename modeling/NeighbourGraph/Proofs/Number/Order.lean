/-
The order of binary64 numbers.

Comparisons of numbers are those of a rank in a linear order: the class of a number first, then
its exponent, then its significand, the last two turned around for negative numbers. The two
zeros have one rank, and NaN compares with nothing. So `≤` is transitive on all numbers and total
on those that are not NaN, `<` is its strict part, and `==` is to be `≤` both ways.
-/

import Mathlib.Algebra.Order.Group.Int
import Mathlib.Algebra.Order.Group.Unbundled.Basic
import Mathlib.Data.Prod.Lex
import Mathlib.Tactic.Common
import NeighbourGraph.Number.Count

namespace NeighbourGraph.Number

open Float.Model Float.Model.UnpackedFloat

/-! ### Ranks -/

/-- The place of an unpacked number in the order. -/
def rank : UnpackedFloat → ℤ ×ₗ ℤ ×ₗ ℤ
  | .infinity .negative => toLex (-2, toLex (0, 0))
  | .finite .negative m e _ => toLex (-1, toLex (-e, -m))
  | .notANumber | .zero _ => toLex (0, toLex (0, 0))
  | .finite .positive m e _ => toLex (1, toLex (e, m))
  | .infinity .positive => toLex (2, toLex (0, 0))

theorem compare_toLex {α β : Type} [LinearOrder α] [LinearOrder β] (a c : α) (b d : β) :
    compare (toLex (a, b)) (toLex (c, d)) = (compare a c).then (compare b d) := rfl

theorem compare_neg {α : Type} [AddCommGroup α] [LinearOrder α] [IsOrderedAddMonoid α] (a b : α) :
    compare (-a) (-b) = (compare a b).swap := by
  rcases lt_trichotomy a b with less | rfl | greater
  · rw [compare_lt_iff_lt.2 less, compare_gt_iff_gt.2 (neg_lt_neg_iff.2 less)]
    rfl
  · rw [compare_eq_iff_eq.2 rfl, compare_eq_iff_eq.2 rfl]
    rfl
  · rw [compare_gt_iff_gt.2 greater, compare_lt_iff_lt.2 (neg_lt_neg_iff.2 greater)]
    rfl

theorem compare_natCast (m n : ℕ) : compare (m : ℤ) n = compare m n := by
  rcases lt_trichotomy m n with h | h | h
  · rw [compare_lt_iff_lt.2 h, compare_lt_iff_lt.2 (by omega)]
  · rw [compare_eq_iff_eq.2 h, compare_eq_iff_eq.2 (by omega)]
  · rw [compare_gt_iff_gt.2 h, compare_gt_iff_gt.2 (by omega)]

/-- Within a class the exponent decides, then the significand. -/
theorem compare_sameClass (c e e' m m' : ℤ) :
    compare (toLex (c, toLex (e, m))) (toLex (c, toLex (e', m'))) =
      (compare e e').then (compare m m') := by
  rw [compare_toLex, compare_toLex, compare_eq_iff_eq.2 rfl]
  rfl

/-- Unpacked numbers compare as their ranks do, NaN apart. -/
theorem compare_eq_compare_rank {a b : UnpackedFloat} (ha : a.isNaN = false)
    (hb : b.isNaN = false) : a.compare b = some (compare (rank a) (rank b)) := by
  cases a with
  | notANumber => cases ha
  | infinity s =>
    cases s <;> cases b with
    | notANumber => cases hb
    | infinity t => cases t <;> rfl
    | zero t => rfl
    | finite t m e h => cases t <;> rfl
  | zero s =>
    cases b with
    | notANumber => cases hb
    | infinity t => cases t <;> rfl
    | zero t => rfl
    | finite t m e h => cases t <;> rfl
  | finite s m e h =>
    cases b with
    | notANumber => cases hb
    | infinity t => cases s <;> cases t <;> rfl
    | zero t => cases s <;> rfl
    | finite t m' e' h' =>
      cases s with
      | positive =>
        cases t with
        | positive =>
          change some ((compare e e').then (compare m m')) =
            some (compare (toLex (1, toLex (e, (m : ℤ)))) (toLex (1, toLex (e', (m' : ℤ)))))
          rw [compare_sameClass, compare_natCast]
        | negative => rfl
      | negative =>
        cases t with
        | positive => rfl
        | negative =>
          change some ((compare e e').then (compare m m')).swap =
            some (compare (toLex (-1, toLex (-e, -(m : ℤ)))) (toLex (-1, toLex (-e', -(m' : ℤ)))))
          rw [compare_sameClass, compare_neg, compare_neg, compare_natCast, Ordering.swap_then]

/-- Nothing compares with NaN. -/
theorem compare_eq_none {a b : UnpackedFloat} (h : a.isNaN = true ∨ b.isNaN = true) :
    a.compare b = none := by
  rcases h with h | h
  · cases a with
    | notANumber => rfl
    | infinity | zero | finite => cases h
  · cases b with
    | notANumber => cases a <;> rfl
    | infinity | zero | finite => cases h

/-! ### Numbers -/

variable {x y z : Float}

/-- The place of a number in the order. -/
def place (x : Float) : ℤ ×ₗ ℤ ×ₗ ℤ := rank x.toModel.unpack

theorem le_iff_compare :
    x ≤ y ↔ (x.toModel.unpack.compare y.toModel.unpack).any (·.isLE) = true :=
  decide_eq_true_iff

theorem lt_iff_compare : x < y ↔ x.toModel.unpack.compare y.toModel.unpack = some .lt :=
  decide_eq_true_iff.trans beq_iff_eq

theorem beq_iff_compare :
    (x == y) = true ↔ x.toModel.unpack.compare y.toModel.unpack = some .eq :=
  beq_iff_eq (α := Option Ordering)

/-- The comparison of two numbers, by their places. -/
theorem compare_eq (x y : Float) :
    x.toModel.unpack.compare y.toModel.unpack =
      if x.isNaN ∨ y.isNaN then none else some (compare (place x) (place y)) := by
  split
  · next h => exact compare_eq_none h
  · next h =>
    rw [not_or] at h
    exact compare_eq_compare_rank (Bool.not_eq_true _ ▸ h.1) (Bool.not_eq_true _ ▸ h.2)

theorem le_iff_place : x ≤ y ↔ ¬(x.isNaN ∨ y.isNaN) ∧ place x ≤ place y := by
  rw [le_iff_compare, compare_eq]
  split <;> simp_all [← Ordering.ne_gt_iff_isLE, compare_gt_iff_gt]

theorem lt_iff_place : x < y ↔ ¬(x.isNaN ∨ y.isNaN) ∧ place x < place y := by
  rw [lt_iff_compare, compare_eq]
  split <;> simp_all [compare_lt_iff_lt]

theorem beq_iff_place : (x == y) = true ↔ ¬(x.isNaN ∨ y.isNaN) ∧ place x = place y := by
  rw [beq_iff_compare, compare_eq]
  split <;> simp_all [compare_eq_iff_eq]

protected theorem le_trans (hxy : x ≤ y) (hyz : y ≤ z) : x ≤ z := by
  rw [le_iff_place] at *
  exact ⟨by tauto, hxy.2.trans hyz.2⟩

/-- `<` is the strict part of `≤`. -/
protected theorem lt_iff_le_not_ge : x < y ↔ x ≤ y ∧ ¬y ≤ x := by
  rw [lt_iff_place, le_iff_place, le_iff_place, lt_iff_le_not_ge]
  tauto

/-- `==` is to be `≤` both ways. -/
protected theorem beq_iff_le_and_ge : (x == y) = true ↔ x ≤ y ∧ y ≤ x := by
  rw [beq_iff_place, le_iff_place, le_iff_place, le_antisymm_iff (a := place x)]
  tauto

protected theorem not_lt_of_le (h : x ≤ y) : ¬y < x :=
  fun lt => (Number.lt_iff_le_not_ge.1 lt).2 h

protected theorem lt_of_lt_of_le (hxy : x < y) (hyz : y ≤ z) : x < z := by
  obtain ⟨le, not⟩ := Number.lt_iff_le_not_ge.1 hxy
  exact Number.lt_iff_le_not_ge.2
    ⟨Number.le_trans le hyz, fun ge => not (Number.le_trans hyz ge)⟩

/-- All but NaN can be compared. -/
protected theorem le_total (hx : ¬x.isNaN = true) (hy : ¬y.isNaN = true) : x ≤ y ∨ y ≤ x := by
  rw [le_iff_place, le_iff_place]
  have := le_total (place x) (place y)
  tauto

/-! ### Finite numbers -/

theorem isNaN_of_isFinite (h : x.isFinite = true) : ¬x.isNaN = true := by
  change x.toModel.unpack.isFinite = true at h
  change ¬x.toModel.unpack.isNaN = true
  intro nan
  cases hu : x.toModel.unpack with
  | notANumber =>
    rw [hu] at h
    cases h
  | infinity | zero | finite =>
    rw [hu] at nan
    cases nan

protected theorem le_of_not_ge (hx : x.isFinite = true) (hy : y.isFinite = true)
    (h : ¬y ≤ x) : x ≤ y :=
  (Number.le_total (isNaN_of_isFinite hx) (isNaN_of_isFinite hy)).resolve_right h

protected theorem le_refl (hx : x.isFinite = true) : x ≤ x := by
  by_contra h
  exact h (Number.le_of_not_ge hx hx h)

protected theorem not_le (hx : x.isFinite = true) (hy : y.isFinite = true) :
    ¬y ≤ x ↔ x < y := by
  rw [Number.lt_iff_le_not_ge]
  exact ⟨fun h => ⟨Number.le_of_not_ge hx hy h, h⟩, And.right⟩

protected theorem not_lt (hx : x.isFinite = true) (hy : y.isFinite = true) :
    ¬x < y ↔ y ≤ x := by
  rw [← Number.not_le hx hy, not_not]

end NeighbourGraph.Number
