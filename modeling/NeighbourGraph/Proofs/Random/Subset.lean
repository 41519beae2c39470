/-
Subsets drawn at random are subsets: as many counts as asked for, all of them below the length and
none of them twice.

A shuffle moves the counts of the range about, so its front has none of them twice. Floyd's method
takes in the count that was drawn or, if that one is there already, the place that it is drawn for,
which is beyond all counts that are there. Rejection takes in a count that is new; should its
attempts be used up, it takes the least one that is left, and as long as fewer than all were taken
there is one.
-/

import Mathlib.Data.List.Perm.Subperm
import Mathlib.Tactic.Common
import NeighbourGraph.Random.Subset

namespace NeighbourGraph.Random

theorem belowHalf_lt {range : Nat} (pos : 0 < range) (g : Generator) :
    (belowHalf range g).1 < range :=
  belowWith_lt pos g

theorem below_lt {range : Nat} (pos : 0 < range) (g : Generator) : (below range g).1 < range :=
  belowWith_lt pos g

/-- `amount` different counts below `length`. -/
structure IsSubset (length amount : Nat) (xs : List Nat) : Prop where
  lt : ∀ x ∈ xs, x < length
  nodup : xs.Nodup
  length_eq : xs.length = amount

namespace IsSubset

variable {length amount x : Nat} {xs ys : List Nat}

theorem empty (length : Nat) : IsSubset length 0 [] := ⟨by simp, .nil, rfl⟩

theorem perm (h : IsSubset length amount xs) (p : ys.Perm xs) : IsSubset length amount ys :=
  ⟨fun x hx => h.lt x (p.mem_iff.1 hx), p.nodup_iff.2 h.nodup, p.length_eq.trans h.length_eq⟩

/-- A new count makes a larger subset. -/
theorem cons (h : IsSubset length amount xs) (lt : x < length) (new : x ∉ xs) :
    IsSubset length (amount + 1) (x :: xs) where
  lt y hy := by
    rcases List.mem_cons.1 hy with rfl | hy
    · exact lt
    · exact h.lt y hy
  nodup := List.nodup_cons.2 ⟨new, h.nodup⟩
  length_eq := congrArg (· + 1) h.length_eq

/-- Of a longer range it is a subset too. -/
theorem widen {longer : Nat} (h : IsSubset length amount xs) (le : length ≤ longer) :
    IsSubset longer amount xs :=
  ⟨fun x hx => Nat.lt_of_lt_of_le (h.lt x hx) le, h.nodup, h.length_eq⟩

/-- As long as fewer than all counts were taken, one is left. -/
theorem exists_new (h : IsSubset length amount xs) (fewer : amount < length) :
    ∃ x, x < length ∧ x ∉ xs := by
  by_contra! all
  have sub : (List.range length).Subperm xs :=
    List.nodup_range.subperm fun x hx => all x (List.mem_range.1 hx)
  have := sub.length_le
  rw [List.length_range, h.length_eq] at this
  omega

end IsSubset

/-! ### Shuffles -/

theorem swapIfInBounds_perm (items : Array Nat) (i j : Nat) :
    (items.swapIfInBounds i j).Perm items := by
  rw [Array.swapIfInBounds_def]
  split
  · split
    · exact Array.swap_perm _ _
    · exact .refl _
  · exact .refl _

theorem shuffleFront_perm (items : Array Nat) (i steps : Nat) (g : Generator) :
    (shuffleFront items i steps g).1.Perm items := by
  induction steps generalizing items i g with
  | zero => exact .refl _
  | succ steps ih =>
    rw [shuffleFront, Draw.bind_apply]
    exact (ih _ _ _).trans (swapIfInBounds_perm _ _ _)

theorem shuffleBack_perm (items : Array Nat) (i : Nat) (g : Generator) :
    (shuffleBack items i g).1.Perm items := by
  induction i generalizing items g with
  | zero => exact .refl _
  | succ i ih =>
    rw [shuffleBack, Draw.bind_apply]
    exact (ih _ _).trans (swapIfInBounds_perm _ _ _)

theorem isSubset_shuffled {length amount : Nat} (le : amount ≤ length) (g : Generator) :
    IsSubset length amount (shuffled length amount g).1 := by
  rw [shuffled, Draw.bind_apply, Draw.pure_apply]
  have perm := shuffleFront_perm (Array.range length) 0 amount g
  generalize (shuffleFront (Array.range length) 0 amount g).1 = items at perm
  have perm : items.toList.Perm (List.range length) := by
    simpa using Array.perm_iff_toList_perm.1 perm
  have whole : IsSubset length length items.toList :=
    ⟨fun x hx => List.mem_range.1 (perm.mem_iff.1 hx), perm.nodup_iff.2 List.nodup_range, by
      simpa using perm.length_eq⟩
  refine ⟨fun x hx => whole.lt x (List.mem_of_mem_take hx), whole.nodup.sublist
    (List.take_sublist _ _), ?_⟩
  rw [List.length_take, whole.length_eq, Nat.min_eq_left le]

/-! ### Floyd's method -/

theorem floydStep_perm (ordered : Bool) (chosen : List Nat) (last drawn : Nat) :
    (floydStep ordered chosen last drawn).Perm
      ((if drawn ∈ chosen then last else drawn) :: chosen) := by
  unfold floydStep
  split
  · split
    · exact List.perm_insertIdx _ _ List.idxOf_le_length
    · exact List.perm_append_singleton _ _
  · exact List.perm_append_singleton _ _

/-- The place that a count is drawn for is new, so whichever of the two is taken in is. -/
theorem isSubset_floydStep {last amount drawn : Nat} {chosen : List Nat}
    (h : IsSubset last amount chosen) (le : drawn < last + 1) (ordered : Bool) :
    IsSubset (last + 1) (amount + 1) (floydStep ordered chosen last drawn) := by
  have wider := h.widen (Nat.le_succ last)
  refine IsSubset.perm ?_ (floydStep_perm ordered chosen last drawn)
  split
  · exact wider.cons (Nat.lt_succ_self last) fun mem => Nat.lt_irrefl last (h.lt last mem)
  · next new => exact wider.cons le new

theorem isSubset_floydFrom {last amount : Nat} {chosen : List Nat}
    (h : IsSubset last amount chosen) (ordered : Bool) (steps : Nat) (g : Generator) :
    IsSubset (last + steps) (amount + steps) (floydFrom ordered chosen last steps g).1 := by
  induction steps generalizing chosen last amount g with
  | zero => exact h
  | succ steps ih =>
    rw [floydFrom, Draw.bind_apply]
    have drawn : (belowHalf (last + 1) g).1 < last + 1 := belowHalf_lt (Nat.succ_pos last) g
    have := ih (isSubset_floydStep h drawn ordered) (belowHalf (last + 1) g).2
    rwa [Nat.succ_add_eq_add_succ, Nat.succ_add_eq_add_succ] at this

theorem isSubset_floyd {length amount : Nat} (le : amount ≤ length) (g : Generator) :
    IsSubset length amount (floyd length amount g).1 := by
  have chosen : ∀ ordered g, IsSubset length amount
      (floydFrom ordered [] (length - amount) amount g).1 := by
    intro ordered g
    have := isSubset_floydFrom (.empty (length - amount)) ordered amount g
    rwa [Nat.sub_add_cancel le, Nat.zero_add] at this
  rw [floyd, Draw.bind_apply]
  split
  · exact chosen _ _
  · rw [Draw.bind_apply, Draw.pure_apply]
    apply (chosen (decide (amount < floydOrderedBelow)) g).perm
    simpa using Array.perm_iff_toList_perm.1 (shuffleBack_perm _ _ _)

/-! ### Rejection -/

/-- What is drawn until it is new is new. -/
theorem isSubset_fresh_cons {w : Width} {length amount : Nat} {chosen : List Nat}
    (h : IsSubset length amount chosen) (fewer : amount < length) (g : Generator) :
    IsSubset length (amount + 1) ((fresh w length chosen g).1 :: chosen) := by
  have pos : 0 < length := Nat.zero_lt_of_lt fewer
  rw [fresh, Draw.bind_apply]
  generalize hv : (retry _ attempts g).1 = drawn
  cases drawn with
  | some drawn =>
    have held : drawn < length ∧ drawn ∉ chosen := by
      refine retry_eq_some (P := fun drawn => drawn < length ∧ drawn ∉ chosen)
        (fun g a ha => ?_) hv
      rw [Draw.bind_apply, Draw.pure_apply] at ha
      dsimp only at ha
      split at ha
      · cases ha
      · next new =>
        cases ha
        exact ⟨belowWith_lt pos g, new⟩
    exact h.cons held.1 held.2
  | none =>
    change IsSubset length (amount + 1)
      (((List.range length).find? (· ∉ chosen)).getD 0 :: chosen)
    obtain ⟨x, lt, new⟩ := h.exists_new fewer
    cases found : (List.range length).find? (· ∉ chosen) with
    | none =>
      have := List.find?_eq_none.1 found x (List.mem_range.2 lt)
      simp [new] at this
    | some y =>
      have new : y ∉ chosen := by simpa using List.find?_some found
      exact h.cons (List.mem_range.1 (List.mem_of_find?_eq_some found)) new

theorem isSubset_rejectionFrom {w : Width} {length amount : Nat} {chosen : List Nat}
    (h : IsSubset length amount chosen) {steps : Nat} (le : amount + steps ≤ length)
    (g : Generator) :
    IsSubset length (amount + steps) (rejectionFrom w length chosen steps g).1 := by
  induction steps generalizing chosen amount g with
  | zero => exact h
  | succ steps ih =>
    rw [rejectionFrom, Draw.bind_apply]
    rw [← Nat.succ_add_eq_add_succ]
    exact ih (isSubset_fresh_cons h (by omega) g) (by omega) _

/-! ### Any method -/

/-- A random subset is one, whichever method draws it. -/
theorem isSubset_subset {length amount : Nat} (le : amount ≤ length) (g : Generator) :
    IsSubset length amount (subset length amount g).1 := by
  unfold subset
  cases methodFor length amount with
  | shuffle => exact isSubset_shuffled le g
  | floyd => exact isSubset_floyd le g
  | reject w =>
    dsimp only
    rw [rejection, Draw.bind_apply, Draw.pure_apply]
    have := isSubset_rejectionFrom (w := w) (.empty length) (by omega : 0 + amount ≤ length) g
    rw [Nat.zero_add] at this
    exact this.perm (List.reverse_perm _)

/-- Every count of a random subset is below the length. -/
theorem lt_of_mem_subset {length amount x : Nat} {g : Generator} (le : amount ≤ length)
    (h : x ∈ (subset length amount g).1) : x < length :=
  (isSubset_subset le g).lt x h

end NeighbourGraph.Random
