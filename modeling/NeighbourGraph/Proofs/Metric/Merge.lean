/-
Merging two lists of ids to count the ones they share.

A merge has a place in each list. It compares the ids that stand there, passes the smaller one, or
both if they are the same and counts them. So it ends after as many comparisons as there are ids, at
the latest, and what it counts is never more than one of the lists has. In increasing lists an id
that is passed alone is not in the other list, so there all shared ids are counted.
-/

import Mathlib.Data.Finset.Card
import NeighbourGraph.Metric.Kernel

namespace NeighbourGraph.Kernel

variable {left right : List Nat}

/-! ### What is counted -/

theorem shared_comm (left right : List Nat) : shared left right = shared right left := by
  fun_induction shared left right with
  | case1 right => cases right <;> simp [shared]
  | case2 left => cases left <;> simp [shared]
  | case3 l left r right less ih => rw [shared, if_neg (by omega), if_pos less, ih]
  | case4 l left r right _ less ih => rw [shared, if_pos less, ih]
  | case5 l left r right _ _ ih => rw [shared, if_neg (by omega), if_neg (by omega), ih]

theorem shared_le_left (left right : List Nat) : shared left right ≤ left.length := by
  fun_induction shared left right with
  | case1 | case2 => exact Nat.zero_le _
  | case3 l left r right less ih => exact ih.trans (Nat.le_succ _)
  | case4 l left r right _ less ih => exact ih
  | case5 l left r right _ _ ih => exact Nat.succ_le_succ ih

theorem shared_le_right (left right : List Nat) : shared left right ≤ right.length :=
  shared_comm left right ▸ shared_le_left right left

/-- What is smaller than the first id of an increasing list is not in it. -/
theorem notMem_of_lt_head {id first : Nat} {rest : List Nat}
    (increasing : (first :: rest).Pairwise (· < ·)) (less : id < first) :
    id ∉ (first :: rest).toFinset := by
  rw [List.mem_toFinset, List.mem_cons]
  rintro (rfl | later)
  · exact Nat.lt_irrefl _ less
  · exact Nat.lt_asymm less ((List.pairwise_cons.1 increasing).1 id later)

/-- In increasing lists all shared ids are counted. -/
theorem shared_eq_card (hl : left.Pairwise (· < ·)) (hr : right.Pairwise (· < ·)) :
    shared left right = (left.toFinset ∩ right.toFinset).card := by
  fun_induction shared left right with
  | case1 => simp
  | case2 => simp
  | case3 l left r right less ih =>
    rw [ih hl.of_cons hr, List.toFinset_cons (a := l),
      Finset.insert_inter_of_notMem (notMem_of_lt_head hr less)]
  | case4 l left r right _ less ih =>
    rw [ih hl hr.of_cons, List.toFinset_cons (a := r),
      Finset.inter_insert_of_notMem (notMem_of_lt_head hl less)]
  | case5 l left r right _ _ ih =>
    -- The id is counted once, as neither list has it again.
    obtain rfl : l = r := by omega
    have new : l ∉ left.toFinset ∩ right.toFinset := by
      rw [Finset.mem_inter, List.mem_toFinset]
      exact fun both => absurd ((List.pairwise_cons.1 hl).1 l both.1) (Nat.lt_irrefl l)
    rw [ih hl.of_cons hr.of_cons, List.toFinset_cons, List.toFinset_cons,
      ← Finset.insert_inter_distrib, Finset.card_insert_of_notMem new]

/-! ### The merge -/

/-- The places of a merge in its two lists, and how many ids it has found in both. -/
structure Merge where
  left : Nat := 0
  right : Nat := 0
  common : Nat := 0

namespace Merge

/-- One comparison. There is none if one of the lists is at its end. -/
def next (left right : List Nat) (m : Merge) : Option Merge :=
  match left[m.left]?, right[m.right]? with
  | some l, some r =>
    if l < r then some { m with left := m.left + 1 }
    else if r < l then some { m with right := m.right + 1 }
    else some ⟨m.left + 1, m.right + 1, m.common + 1⟩
  | _, _ => none

/-- A merge ends after some comparisons, having found some ids in both lists. -/
inductive Ends (left right : List Nat) : Merge → Nat → Nat → Prop where
  | here {m : Merge} (done : m.next left right = none) : Ends left right m 0 m.common
  | after {m m' : Merge} {comparisons common : Nat} (step : m.next left right = some m')
    (rest : Ends left right m' comparisons common) : Ends left right m (comparisons + 1) common

/-- How many ids are not passed. -/
def remaining (left right : List Nat) (m : Merge) : Nat :=
  (left.length - m.left) + (right.length - m.right)

/-- What is found in the end, if the ids that are not passed are merged as lists. -/
def outcome (left right : List Nat) (m : Merge) : Nat :=
  m.common + shared (left.drop m.left) (right.drop m.right)

variable {m m' : Merge}

/-- A comparison passes an id, and does not change what is found in the end. -/
theorem next_eq_some (step : m.next left right = some m') :
    m'.remaining left right < m.remaining left right ∧
      m'.outcome left right = m.outcome left right := by
  unfold next at step
  split at step
  · next l r hl hr =>
    obtain ⟨lt, rfl⟩ := List.getElem?_eq_some_iff.1 hl
    obtain ⟨lt', rfl⟩ := List.getElem?_eq_some_iff.1 hr
    unfold outcome remaining
    rw [List.drop_eq_getElem_cons lt, List.drop_eq_getElem_cons lt', shared]
    split at step
    · next less =>
      cases step
      rw [if_pos less, List.drop_eq_getElem_cons lt']
      exact ⟨by dsimp only; omega, rfl⟩
    · next not_less =>
      split at step
      · next greater =>
        cases step
        rw [if_neg not_less, if_pos greater, List.drop_eq_getElem_cons lt]
        exact ⟨by dsimp only; omega, rfl⟩
      · next not_greater =>
        cases step
        rw [if_neg not_less, if_neg not_greater]
        exact ⟨by dsimp only; omega, Nat.add_right_comm _ 1 _⟩
  · cases step

/-- At the end of a list nothing more is found. -/
theorem next_eq_none (done : m.next left right = none) : m.outcome left right = m.common := by
  unfold outcome
  by_cases ended : left.length ≤ m.left
  · rw [List.drop_of_length_le ended, shared, Nat.add_zero]
  · by_cases ended' : right.length ≤ m.right
    · rw [List.drop_of_length_le ended', shared_comm, shared, Nat.add_zero]
    · rw [next, List.getElem?_eq_getElem (by omega), List.getElem?_eq_getElem (by omega)] at done
      dsimp only at done
      split at done
      · cases done
      · split at done <;> cases done

/-- A merge ends before it runs out of ids. -/
theorem exists_ends (left right : List Nat) (m : Merge) :
    ∃ comparisons ≤ m.remaining left right,
      Ends left right m comparisons (m.outcome left right) := by
  -- Every comparison passes an id, so the ids that are left bound the comparisons.
  generalize size : m.remaining left right = n
  induction n using Nat.strong_induction_on generalizing m with
  | _ n ih =>
    cases step : m.next left right with
    | none => exact ⟨0, Nat.zero_le _, next_eq_none step ▸ .here step⟩
    | some m' =>
      obtain ⟨less, same⟩ := next_eq_some step
      obtain ⟨comparisons, le, ends⟩ := ih _ (size ▸ less) m' rfl
      exact ⟨comparisons + 1, by omega, same ▸ .after step ends⟩

end Merge

end NeighbourGraph.Kernel
