/-
Lists that no search can tell apart.

Two lists are alike if they hold the same ids in the same order, with similarities that
comparisons do not tell apart: the very same numbers, or numbers that are equal, which lets the
two zeros stand for each other. Offering the same candidate to both, letting both hand out entries
and cutting both off takes the same random words, gives the same answers and leaves them alike.
-/

import Mathlib.Data.List.Forall2
import NeighbourGraph.Proofs.NeighbourList.HandOut

namespace NeighbourGraph

open NeighbourGraph.Random

/-! ### Numbers -/

/-- Numbers that are related compare alike with each other. -/
structure Number.Comparable (E : Float → Float → Prop) : Prop where
  le_iff : ∀ {x x' y y'}, E x x' → E y y' → (x ≤ y ↔ x' ≤ y')

/-- Numbers that are related compare alike with all others. -/
structure Number.Congruent (E : Float → Float → Prop) : Prop extends Number.Comparable E where
  refl : ∀ x, E x x

namespace Number

theorem congruent_eq : Congruent Eq where
  refl _ := rfl
  le_iff hx hy := by rw [hx, hy]

/-- The same number, or an equal one. -/
def Equal (x y : Float) : Prop := x = y ∨ (x == y) = true

theorem congruent_equal : Congruent Equal where
  refl _ := .inl rfl
  le_iff := by
    have le : ∀ {x x'}, Equal x x' → ∀ z, (x ≤ z ↔ x' ≤ z) ∧ (z ≤ x ↔ z ≤ x') := by
      rintro x x' (rfl | eq) z
      · exact ⟨.rfl, .rfl⟩
      · obtain ⟨le, ge⟩ := Number.beq_iff_le_and_ge.1 eq
        exact ⟨⟨Number.le_trans ge, Number.le_trans le⟩,
          ⟨fun h => Number.le_trans h le, fun h => Number.le_trans h ge⟩⟩
    intro x x' y y' hx hy
    exact (le hx y).1.trans (le hy x').2

variable {E : Float → Float → Prop} {x x' y y' : Float}

theorem Comparable.lt_iff (hE : Comparable E) (hx : E x x') (hy : E y y') : x < y ↔ x' < y' := by
  rw [Number.lt_iff_le_not_ge, Number.lt_iff_le_not_ge, hE.le_iff hx hy, hE.le_iff hy hx]

theorem Comparable.beq_eq (hE : Comparable E) (hx : E x x') (hy : E y y') :
    (x == y) = (x' == y') := by
  rw [Bool.eq_iff_iff, Number.beq_iff_le_and_ge, Number.beq_iff_le_and_ge, hE.le_iff hx hy,
    hE.le_iff hy hx]

end Number

/-! ### Lists -/

/-- The same candidate, with similarities that are related. -/
structure Entry.Alike (E : Float → Float → Prop) (e e' : Entry) : Prop where
  id : e.id = e'.id
  explored : e.explored = e'.explored
  similarity : E e.similarity e'.similarity

namespace NeighbourList

/-- Lists of one owner and capacity with the same candidates in the same order. -/
structure Alike (E : Float → Float → Prop) (l l' : NeighbourList) : Prop where
  owner : l.owner = l'.owner
  capacity : l.capacity = l'.capacity
  entries : List.Forall₂ (Entry.Alike E) l.entries l'.entries

theorem forall₂_insertIdx {α β : Type} {R : α → β → Prop} {xs : List α} {ys : List β} {a : α}
    {b : β} (h : List.Forall₂ R xs ys) (r : R a b) (i : Nat) :
    List.Forall₂ R (xs.insertIdx i a) (ys.insertIdx i b) := by
  induction i generalizing xs ys with
  | zero => exact .cons r h
  | succ i ih =>
    cases h with
    | nil => exact .nil
    | cons r' h => exact .cons r' (ih h)

theorem forall₂_getLast? {α β : Type} {R : α → β → Prop} {xs : List α} {ys : List β}
    (h : List.Forall₂ R xs ys) : Option.Rel R xs.getLast? ys.getLast? := by
  have reverse := List.rel_reverse h
  rw [← List.head?_reverse, ← List.head?_reverse]
  generalize xs.reverse = as at reverse
  generalize ys.reverse = bs at reverse
  cases reverse with
  | nil => exact .none
  | cons r _ => exact .some r

/-- Predicates that agree on related elements find the same place. -/
theorem forall₂_partitionPoint {α β : Type} {R : α → β → Prop} {xs : List α} {ys : List β}
    {p : α → Bool} {q : β → Bool} (h : List.Forall₂ R xs ys) (agree : ∀ a b, R a b → p a = q b) :
    partitionPoint p xs = partitionPoint q ys := by
  have holds : (fun i : Nat => xs[i]?.any p) = fun i : Nat => ys[i]?.any q := by
    funext i
    induction h generalizing i with
    | nil => rfl
    | cons r _ ih =>
      cases i with
      | zero => simp [agree _ _ r]
      | succ i => simpa using ih i
  unfold partitionPoint
  rw [holds, h.length_eq]
  cases h <;> rfl

theorem alike_splitEntries {E : Float → Float → Prop} {es es' : List Entry}
    (h : List.Forall₂ (Entry.Alike E) es es') (length sampled : Nat) (g : Generator) :
    (splitEntries length sampled es g).1.2 = (splitEntries length sampled es' g).1.2 ∧
      (splitEntries length sampled es g).2 = (splitEntries length sampled es' g).2 ∧
      List.Forall₂ (Entry.Alike E) (splitEntries length sampled es g).1.1
        (splitEntries length sampled es' g).1.1 := by
  induction h generalizing g with
  | nil => exact ⟨rfl, rfl, .nil⟩
  | @cons e e' rest rest' first _ ih =>
    rw [splitEntries, splitEntries, ← first.explored, ← first.id]
    cases ex : e.explored with
    | true =>
      obtain ⟨parts, words, entries⟩ := ih g
      simp only [if_true, Draw.bind_apply, Draw.pure_apply]
      exact ⟨by rw [parts], words, .cons first entries⟩
    | false =>
      simp only [Bool.false_eq_true, if_false]
      rw [Draw.bind_apply, Draw.bind_apply]
      obtain ⟨parts, words, entries⟩ := ih (below length g).2
      split
      · exact ⟨by simp only [Draw.bind_apply, Draw.pure_apply, parts], words,
          .cons ⟨first.id, rfl, first.similarity⟩ entries⟩
      · exact ⟨parts, words, .cons first entries⟩

namespace Alike

variable {E : Float → Float → Prop} {l l' : NeighbourList} {x x' : Float}

theorem ids_eq (h : Alike E l l') : l.ids = l'.ids := by
  have ids : List.Forall₂ Eq l.ids l'.ids := List.rel_map (fun _ _ e => e.id) h.entries
  rwa [List.forall₂_eq_eq_eq] at ids

theorem size_eq (h : Alike E l l') : l.size = l'.size := h.entries.length_eq

theorem isFull_eq (h : Alike E l l') : l.isFull = l'.isFull := by
  simp [isFull, h.size_eq, h.capacity]

theorem holds_eq (h : Alike E l l') (id : Nat) : l.holds id = l'.holds id := by
  rw [Bool.eq_iff_iff, holds_iff, holds_iff, h.ids_eq]

/-- A candidate stands alike against both. -/
theorem standing_eq (h : Alike E l l') (hE : Number.Comparable E) (hx : E x x') (id : Nat) :
    l.standing id x = l'.standing id x' := by
  have last := forall₂_getLast? h.entries
  unfold standing
  rw [h.owner, h.capacity, h.holds_eq, h.isFull_eq]
  generalize l.entries.getLast? = a at last
  generalize l'.entries.getLast? = b at last
  cases last with
  | none => rfl
  | some r => simp only [hE.lt_iff r.similarity hx, hE.beq_eq hx r.similarity]

theorem kept (h : Alike E l l') : List.Forall₂ (Entry.Alike E) l.kept l'.kept := by
  unfold NeighbourList.kept
  rw [h.isFull_eq]
  split
  · rw [List.dropLast_eq_take, List.dropLast_eq_take, h.entries.length_eq]
    exact List.forall₂_take _ h.entries
  · exact h.entries

/-- A candidate finds the same place in both. -/
theorem place (h : Alike E l l') (hE : Number.Comparable E) (hx : E x x') (id : Nat) :
    Alike E (l.place id x) (l'.place id x') := by
  refine ⟨h.owner, h.capacity, ?_⟩
  have point : partitionPoint (fun e : Entry => decide (x ≤ e.similarity)) l.kept =
      partitionPoint (fun e : Entry => decide (x' ≤ e.similarity)) l'.kept :=
    forall₂_partitionPoint h.kept fun e e' alike =>
      decide_eq_decide.2 (hE.le_iff hx alike.similarity)
  have entries := forall₂_insertIdx (R := Entry.Alike E) (a := { id, similarity := x })
    (b := { id, similarity := x' }) h.kept ⟨rfl, rfl, hx⟩
    (partitionPoint (fun e : Entry => decide (x ≤ e.similarity)) l.kept)
  nth_rewrite 2 [point] at entries
  exact entries

/-- Offered the same candidate, both take the same words and give the same answer. -/
theorem add (h : Alike E l l') (hE : Number.Comparable E) (hx : E x x') (id : Nat) (rate : Float)
    (g : Generator) :
    (l.add id x rate g).1.1 = (l'.add id x' rate g).1.1 ∧
      (l.add id x rate g).2 = (l'.add id x' rate g).2 ∧
      Alike E (l.add id x rate g).1.2 (l'.add id x' rate g).1.2 := by
  rw [NeighbourList.add, NeighbourList.add, h.standing_eq hE hx]
  cases l'.standing id x' with
  | refused => exact ⟨rfl, rfl, h⟩
  | accepted => exact ⟨rfl, rfl, h.place hE hx id⟩
  | tied =>
    dsimp only
    rw [Draw.bind_apply, Draw.bind_apply]
    split
    · exact ⟨rfl, rfl, h.place hE hx id⟩
    · exact ⟨rfl, rfl, h⟩

/-- So they do if both keep what they hold in a tie. -/
theorem addKeepingTies (h : Alike E l l') (hE : Number.Comparable E) (hx : E x x') (id : Nat) :
    Alike E (l.addKeepingTies id x).2 (l'.addKeepingTies id x').2 := by
  rw [NeighbourList.addKeepingTies, NeighbourList.addKeepingTies, h.standing_eq hE hx]
  cases l'.standing id x' with
  | accepted => exact h.place hE hx id
  | refused | tied => exact h

/-- Both hand out the same ids. -/
theorem split (h : Alike E l l') (sampled : Nat) (g : Generator) :
    (l.split sampled g).1.2 = (l'.split sampled g).1.2 ∧
      (l.split sampled g).2 = (l'.split sampled g).2 ∧
      Alike E (l.split sampled g).1.1 (l'.split sampled g).1.1 := by
  obtain ⟨parts, words, entries⟩ := alike_splitEntries h.entries l.size sampled g
  simp only [NeighbourList.split, Draw.bind_apply, Draw.pure_apply, ← h.size_eq]
  exact ⟨parts, words, h.owner, h.capacity, entries⟩

theorem dropBelow (h : Alike E l l') (hE : Number.Congruent E) (cutoff : Float) :
    Alike E (l.dropBelow cutoff) (l'.dropBelow cutoff) := by
  refine ⟨h.owner, h.capacity, List.rel_filter (fun e e' alike => ?_) h.entries⟩
  simp only [decide_eq_true_eq]
  exact hE.le_iff (hE.refl cutoff) alike.similarity

end Alike

end NeighbourList

end NeighbourGraph
