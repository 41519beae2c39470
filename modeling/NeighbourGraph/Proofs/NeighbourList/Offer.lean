/-
What an offer does to a neighbour list.

A list either stays as it is or takes the candidate in, and `Offered` says which of the two can
happen. A `Proper` list is within its capacity and holds neither its owner nor an id twice, and
every offer keeps it so; in a `WellFormed` one the similarities are finite besides, best first, and
every offer of a finite similarity keeps it that. A list
`Settles` a candidate when it holds it, or is full of entries at least as similar. Offers never
undo that, which `Follows` records together with what they leave of the entries that were handed
out.
-/

import Mathlib.Data.List.Basic
import NeighbourGraph.NeighbourList
import NeighbourGraph.Proofs.Number.Order

namespace NeighbourGraph

open NeighbourGraph.Number NeighbourGraph.Random

/-! ### The place of a candidate -/

/-- Halving finds the end of the places that hold, where those come first. -/
theorem narrow_iff {holds : Nat → Bool} (first : ∀ i j, i ≤ j → holds j = true → holds i = true)
    {base size : Nat} (pos : 0 < size) (before : ∀ i < base, holds i = true)
    (after : ∀ i, base + size ≤ i → holds i = false) (i : Nat) :
    holds i = true ↔ i < narrow holds base size := by
  induction size using Nat.strongRecOn generalizing base with
  | ind size ih =>
    rw [narrow]
    by_cases one : size ≤ 1
    · rw [if_pos one]
      have := before i
      have := after i
      have := first i base
      have := first base i
      split <;> grind
    · rw [if_neg one]
      apply ih (size - size / 2) (by omega) (by omega)
      · intro i hi
        split at hi
        · next half => exact first i _ (by omega) half
        · exact before i hi
      · intro i hi
        split at hi
        · exact after i (by omega)
        · next half =>
          by_contra held
          exact half (first _ i (by omega) (by simpa using held))

/-- The place found splits a list into the entries for which `p` holds and the others, where
those for which it holds come first. -/
theorem take_drop_partitionPoint {α : Type} {p : α → Bool} {xs : List α}
    (first : xs.Pairwise fun a b => p b = true → p a = true) :
    xs.take (partitionPoint p xs) = xs.filter p ∧
      xs.drop (partitionPoint p xs) = xs.filter fun x => !p x := by
  have place : ∀ i, xs[i]?.any p = true ↔ i < partitionPoint p xs := by
    intro i
    unfold partitionPoint
    split
    · next h => simp_all
    · next h =>
      have pos : 0 < xs.length := List.length_pos_iff.2 (by simpa using h)
      have mono : ∀ i j : Nat, i ≤ j → xs[j]?.any p = true → xs[i]?.any p = true := by
        intro i j hij hj
        obtain ⟨y, hy, py⟩ := (Option.any_eq_true _ _).1 hj
        obtain ⟨hjl, rfl⟩ := List.getElem?_eq_some_iff.1 hy
        rcases Nat.lt_or_eq_of_le hij with hlt | rfl
        · rw [List.getElem?_eq_getElem (by omega)]
          exact List.pairwise_iff_getElem.1 first i j (by omega) hjl hlt py
        · exact hj
      exact narrow_iff mono pos (by simp)
        (fun i hi => by rw [List.getElem?_eq_none (by omega)]; rfl) i
  have taken : ∀ x ∈ xs.take (partitionPoint p xs), p x = true := by
    intro x hx
    obtain ⟨i, hi, rfl⟩ := List.mem_iff_getElem.1 hx
    rw [List.length_take] at hi
    have := (place i).2 (by omega)
    rwa [List.getElem?_eq_getElem (by omega), Option.any_some, ← List.getElem_take] at this
  have dropped : ∀ x ∈ xs.drop (partitionPoint p xs), p x = false := by
    intro x hx
    obtain ⟨i, hi, rfl⟩ := List.mem_iff_getElem.1 hx
    rw [List.length_drop] at hi
    rw [List.getElem_drop, ← Bool.not_eq_true]
    intro held
    have := (place (partitionPoint p xs + i)).1
      (by rwa [List.getElem?_eq_getElem (by omega), Option.any_some])
    omega
  have whole := List.take_append_drop (partitionPoint p xs) xs
  constructor
  · nth_rewrite 3 [← whole]
    rw [List.filter_append, List.filter_eq_self.2 taken, List.filter_eq_nil_iff.2 (by simp_all),
      List.append_nil]
  · nth_rewrite 3 [← whole]
    rw [List.filter_append, List.filter_eq_nil_iff.2 (by simp_all), List.nil_append,
      List.filter_eq_self.2 (by simp_all)]

theorem insertIdx_length_append {α : Type} (as bs : List α) (x : α) :
    (as ++ bs).insertIdx as.length x = as ++ x :: bs := by
  induction as with
  | nil => rfl
  | cons a as ih => simp [ih]

/-- Put at the place found, an entry stands between those for which `p` holds and the others. -/
theorem insertIdx_partitionPoint {α : Type} {p : α → Bool} {xs : List α}
    (first : xs.Pairwise fun a b => p b = true → p a = true) (x : α) :
    xs.insertIdx (partitionPoint p xs) x = xs.filter p ++ x :: xs.filter fun y => !p y := by
  obtain ⟨taken, dropped⟩ := take_drop_partitionPoint first
  have := insertIdx_length_append (xs.take (partitionPoint p xs))
    (xs.drop (partitionPoint p xs)) x
  rwa [List.take_append_drop, List.length_take_of_le (partitionPoint_le p xs), taken, dropped]
    at this

/-- Where values fall, those that reach a bound come first. -/
theorem filter_reaching_begins {α : Type} (value : α → Float) {xs : List α}
    (falling : xs.Pairwise fun a b => value b ≤ value a) (bound : Float) :
    (xs.filter fun x => bound ≤ value x) <+: xs := by
  have first : xs.Pairwise fun a b =>
      decide (bound ≤ value b) = true → decide (bound ≤ value a) = true :=
    falling.imp fun le reached => decide_eq_true (Number.le_trans (of_decide_eq_true reached) le)
  rw [← (take_drop_partitionPoint first).1]
  exact List.take_prefix _ _

namespace NeighbourList

/-! ### Well-formed lists -/

/-- A list within its capacity that holds neither its owner nor an id twice, whatever the
similarities. -/
structure Proper (l : NeighbourList) : Prop where
  size_le : l.size ≤ l.capacity
  owner_notMem : l.owner ∉ l.ids
  nodup : l.ids.Nodup

theorem Proper.empty (owner capacity : Nat) : Proper { owner, capacity } :=
  ⟨Nat.zero_le _, List.not_mem_nil, .nil⟩

/-- A list within its capacity that holds neither its owner nor an id twice, with finite
similarities, best first. -/
structure WellFormed (l : NeighbourList) : Prop where
  size_le : l.size ≤ l.capacity
  owner_notMem : l.owner ∉ l.ids
  nodup : l.ids.Nodup
  finite : ∀ e ∈ l.entries, e.similarity.isFinite = true
  ordered : l.entries.Pairwise fun a b => b.similarity ≤ a.similarity

theorem WellFormed.proper {l : NeighbourList} (wf : l.WellFormed) : l.Proper :=
  ⟨wf.size_le, wf.owner_notMem, wf.nodup⟩

theorem WellFormed.empty (owner capacity : Nat) : WellFormed { owner, capacity } where
  size_le := Nat.zero_le _
  owner_notMem := List.not_mem_nil
  nodup := .nil
  finite := by simp
  ordered := .nil

theorem holds_iff {l : NeighbourList} {id : Nat} : l.holds id = true ↔ id ∈ l.ids := by
  simp [holds, ids]

theorem isFull_iff {l : NeighbourList} : l.isFull = true ↔ l.capacity ≤ l.size := by
  simp [isFull]

/-- The last entry is the least similar one. -/
theorem WellFormed.last_le {l : NeighbourList} (wf : l.WellFormed) {last : Entry}
    (h : l.entries.getLast? = some last) : ∀ e ∈ l.entries, last.similarity ≤ e.similarity := by
  intro e he
  obtain ⟨front, split⟩ := List.getLast?_eq_some_iff.1 h
  have ordered := wf.ordered
  rw [split, List.pairwise_append] at ordered
  rw [split, List.mem_append, List.mem_singleton] at he
  rcases he with he | rfl
  · exact ordered.2.2 e he last (by simp)
  · exact Number.le_refl (wf.finite _ (by simp [split]))

/-! ### Offers -/

/-- What offering `id` with a similarity may do to a list: leave it as it is, or take the
candidate in. -/
inductive Offered (l : NeighbourList) (id : Nat) (similarity : Float) :
    Bool → NeighbourList → Prop
  | stayed : l.standing id similarity ≠ .accepted → Offered l id similarity false l
  | entered : l.standing id similarity ≠ .refused →
      Offered l id similarity true (l.place id similarity)

theorem offered_add (l : NeighbourList) (id : Nat) (similarity rate : Float) (g : Generator) :
    Offered l id similarity (l.add id similarity rate g).1.1 (l.add id similarity rate g).1.2 := by
  rw [add]
  cases h : l.standing id similarity with
  | refused => exact .stayed (by simp [h])
  | accepted => exact .entered (by simp [h])
  | tied =>
    dsimp only
    rw [Draw.bind_apply]
    split
    · exact .entered (by simp [h])
    · exact .stayed (by simp [h])

theorem offered_addKeepingTies (l : NeighbourList) (id : Nat) (similarity : Float) :
    Offered l id similarity (l.addKeepingTies id similarity).1
      (l.addKeepingTies id similarity).2 := by
  rw [addKeepingTies]
  cases h : l.standing id similarity with
  | refused => exact .stayed (by simp [h])
  | accepted => exact .entered (by simp [h])
  | tied => exact .stayed (by simp [h])

/-- Where no tie is broken, what is held stays in a tie. -/
theorem add_eq_addKeepingTies {rate : Float} (never : ¬0.0 < rate) (l : NeighbourList) (id : Nat)
    (similarity : Float) (g : Generator) :
    l.add id similarity rate g = (l.addKeepingTies id similarity, g) := by
  rw [add, addKeepingTies]
  cases l.standing id similarity with
  | refused | accepted => rfl
  | tied =>
    dsimp only
    rw [Draw.bind_apply, breakTie, if_neg never]
    rfl

/-- A candidate that came in was put in its place. Where no tie is broken it was accepted. -/
theorem of_entered_add (l : NeighbourList) (id : Nat) (similarity rate : Float) (g : Generator)
    (h : (l.add id similarity rate g).1.1 = true) :
    (l.add id similarity rate g).1.2 = l.place id similarity ∧
      l.standing id similarity ≠ .refused ∧
      (¬0.0 < rate → l.standing id similarity = .accepted) := by
  have offered := l.offered_add id similarity rate g
  have keeping : ¬0.0 < rate → l.standing id similarity = .accepted := by
    intro never
    rw [add_eq_addKeepingTies never, addKeepingTies] at h
    cases standing : l.standing id similarity <;> simp_all
  generalize (l.add id similarity rate g).1 = r at h offered
  obtain ⟨entered, l'⟩ := r
  cases offered with
  | stayed => cases h
  | entered new => exact ⟨rfl, new, keeping⟩

/-- A candidate that is not refused is new, and no less similar than any entry it may have to
replace. -/
theorem of_standing_ne_refused {l : NeighbourList} {id : Nat} {similarity : Float}
    (h : l.standing id similarity ≠ .refused) :
    id ≠ l.owner ∧ 0 < l.capacity ∧ id ∉ l.ids ∧
      (l.isFull = true → ∃ last, l.entries.getLast? = some last ∧
        last.similarity ≤ similarity) := by
  unfold standing at h
  split at h
  · contradiction
  · next new =>
    simp only [not_or, holds_iff] at new
    refine ⟨new.1, by omega, new.2.2, ?_⟩
    intro full
    rw [if_neg (by simp [full])] at h
    cases hl : l.entries.getLast? with
    | none => simp [hl] at h
    | some last =>
      refine ⟨last, rfl, ?_⟩
      simp only [hl] at h
      by_cases better : last.similarity < similarity
      · exact (Number.lt_iff_le_not_ge.1 better).1
      · rw [if_neg better] at h
        by_cases tie : (similarity == last.similarity) = true
        · exact (Number.beq_iff_le_and_ge.1 tie).2
        · rw [if_neg tie] at h
          contradiction

/-- A candidate that is not accepted is the owner or held, or no more similar than anything in a
full list. -/
theorem of_standing_ne_accepted {l : NeighbourList} (wf : l.WellFormed) {id : Nat}
    {similarity : Float} (finite : similarity.isFinite = true)
    (h : l.standing id similarity ≠ .accepted) :
    id = l.owner ∨ id ∈ l.ids ∨
      l.isFull = true ∧ ∀ e ∈ l.entries, similarity ≤ e.similarity := by
  unfold standing at h
  split at h
  · next known =>
    rcases known with owner | empty | held
    · exact .inl owner
    · have : l.entries = [] := List.length_eq_zero_iff.1 (by
        have := wf.size_le
        unfold size at this
        omega)
      exact .inr (.inr ⟨isFull_iff.2 (by omega), by simp [this]⟩)
    · exact .inr (.inl (holds_iff.1 held))
  · by_cases room : (!l.isFull) = true
    · rw [if_pos room] at h
      contradiction
    · refine .inr (.inr ⟨by simpa using room, ?_⟩)
      rw [if_neg room] at h
      intro e he
      cases hl : l.entries.getLast? with
      | none => simp [List.getLast?_eq_none_iff.1 hl] at he
      | some last =>
        simp only [hl] at h
        by_cases better : last.similarity < similarity
        · rw [if_pos better] at h
          contradiction
        · have mem := List.mem_of_getLast? hl
          rw [Number.not_lt (wf.finite _ mem) finite] at better
          exact Number.le_trans better (wf.last_le hl e he)

/-! ### Taking a candidate in -/

/-- The entries that stay when a candidate comes in. -/
def kept (l : NeighbourList) : List Entry :=
  if l.isFull then l.entries.dropLast else l.entries

theorem kept_sublist (l : NeighbourList) : l.kept.Sublist l.entries := by
  unfold kept
  split
  · exact List.dropLast_sublist _
  · exact .refl _

theorem place_perm (l : NeighbourList) (id : Nat) (similarity : Float) :
    (l.place id similarity).entries.Perm ({ id, similarity } :: l.kept) :=
  List.perm_insertIdx _ _ (partitionPoint_le _ _)

theorem mem_place {l : NeighbourList} {id : Nat} {similarity : Float} {e : Entry} :
    e ∈ (l.place id similarity).entries ↔ e = { id, similarity } ∨ e ∈ l.kept := by
  rw [(place_perm l id similarity).mem_iff, List.mem_cons]

theorem size_place {l : NeighbourList} (le : l.size ≤ l.capacity) (pos : 0 < l.capacity) (id : Nat)
    (similarity : Float) :
    (l.place id similarity).size = if l.isFull then l.capacity else l.size + 1 := by
  have length := (place_perm l id similarity).length_eq
  unfold kept at length
  unfold size at *
  by_cases full : l.isFull = true
  · have := isFull_iff.1 full
    unfold size at this
    rw [if_pos full, List.length_cons, List.length_dropLast] at length
    rw [if_pos full]
    omega
  · rw [if_neg full, length, if_neg full, List.length_cons]

/-- Where similarities fall, a candidate comes after the entries at least as similar. -/
theorem place_entries {l : NeighbourList}
    (ordered : l.entries.Pairwise fun a b => b.similarity ≤ a.similarity) (id : Nat)
    (similarity : Float) :
    (l.place id similarity).entries =
      (l.kept.filter fun e => similarity ≤ e.similarity) ++ { id, similarity } ::
        l.kept.filter fun e => !decide (similarity ≤ e.similarity) := by
  apply insertIdx_partitionPoint
  apply (ordered.sublist l.kept_sublist).imp
  intro a b hab hb
  simp only [decide_eq_true_eq] at *
  exact Number.le_trans hb hab

/-- A candidate keeps similarities falling if it can be compared with what is held. -/
theorem ordered_place {l : NeighbourList}
    (ordered : l.entries.Pairwise fun a b => b.similarity ≤ a.similarity) (id : Nat)
    {similarity : Float}
    (comparable : ∀ e ∈ l.kept, ¬similarity ≤ e.similarity → e.similarity ≤ similarity) :
    (l.place id similarity).entries.Pairwise fun a b => b.similarity ≤ a.similarity := by
  have kept := ordered.sublist l.kept_sublist
  rw [place_entries ordered, List.pairwise_append, List.pairwise_cons]
  refine ⟨kept.filter _, ⟨?_, kept.filter _⟩, ?_⟩
  · intro e he
    simp only [List.mem_filter, Bool.not_eq_true', decide_eq_false_iff_not] at he
    exact comparable e he.1 he.2
  · intro a ha b hb
    simp only [List.mem_filter, List.mem_cons, decide_eq_true_eq, Bool.not_eq_true',
      decide_eq_false_iff_not] at ha hb
    rcases hb with rfl | hb
    · exact ha.2
    · exact Number.le_trans (comparable b hb.1 hb.2) ha.2

theorem proper_place {l : NeighbourList} (proper : l.Proper) (similarity : Float)
    (pos : 0 < l.capacity) {id : Nat} (other : id ≠ l.owner) (new : id ∉ l.ids) :
    (l.place id similarity).Proper where
  size_le := by
    have := proper.size_le
    rw [size_place proper.size_le pos]
    change _ ≤ l.capacity
    split
    · exact Nat.le_refl _
    · next full =>
      rw [isFull_iff] at full
      omega
  owner_notMem := by
    change l.owner ∉ (l.place id similarity).entries.map (·.id)
    simp only [List.mem_map, mem_place, not_exists, not_and]
    rintro e (rfl | he)
    · exact other
    · exact fun owner => proper.owner_notMem (List.mem_map.2 ⟨e, l.kept_sublist.mem he, owner⟩)
  nodup := by
    change ((l.place id similarity).entries.map (·.id)).Nodup
    rw [((place_perm l id similarity).map _).nodup_iff, List.map_cons, List.nodup_cons]
    have sub := l.kept_sublist.map (·.id)
    exact ⟨fun held => new (sub.mem held), proper.nodup.sublist sub⟩

theorem wellFormed_place {l : NeighbourList} (wf : l.WellFormed) {id : Nat} {similarity : Float}
    (finite : similarity.isFinite = true) (pos : 0 < l.capacity) (other : id ≠ l.owner)
    (new : id ∉ l.ids) : (l.place id similarity).WellFormed :=
  have proper := proper_place wf.proper similarity pos other new
  { size_le := proper.size_le
    owner_notMem := proper.owner_notMem
    nodup := proper.nodup
    finite := by
      intro e he
      rcases mem_place.1 he with rfl | he
      · exact finite
      · exact wf.finite e (l.kept_sublist.mem he)
    ordered := ordered_place wf.ordered id fun e he =>
      Number.le_of_not_ge (wf.finite e (l.kept_sublist.mem he)) finite }

theorem Offered.owner_eq {l l' : NeighbourList} {id : Nat} {similarity : Float} {came : Bool}
    (h : Offered l id similarity came l') : l'.owner = l.owner := by
  cases h <;> rfl

theorem Offered.capacity_eq {l l' : NeighbourList} {id : Nat} {similarity : Float}
    {came : Bool} (h : Offered l id similarity came l') : l'.capacity = l.capacity := by
  cases h <;> rfl

/-- An offer of any similarity, a NaN too, keeps a list proper. -/
theorem Offered.proper {l l' : NeighbourList} {id : Nat} {similarity : Float} {came : Bool}
    (h : Offered l id similarity came l') (proper : l.Proper) : l'.Proper := by
  cases h with
  | stayed => exact proper
  | entered h =>
    obtain ⟨other, pos, new, -⟩ := of_standing_ne_refused h
    exact proper_place proper similarity pos other new

/-- No offer makes a list shorter. -/
theorem Offered.size_le {l l' : NeighbourList} {id : Nat} {similarity : Float} {came : Bool}
    (h : Offered l id similarity came l') (proper : l.Proper) : l.size ≤ l'.size := by
  cases h with
  | stayed => exact Nat.le_refl _
  | entered h =>
    rw [size_place proper.size_le (of_standing_ne_refused h).2.1]
    split
    · exact proper.size_le
    · omega

/-- An offer of a finite similarity keeps a list well-formed. -/
theorem Offered.wellFormed {l l' : NeighbourList} {id : Nat} {similarity : Float}
    {came : Bool} (h : Offered l id similarity came l') (wf : l.WellFormed)
    (finite : similarity.isFinite = true) : l'.WellFormed := by
  cases h with
  | stayed => exact wf
  | entered h =>
    obtain ⟨other, pos, new, -⟩ := of_standing_ne_refused h
    exact wellFormed_place wf finite pos other new

/-- What is held after an offer was held before, or is the candidate, not handed out yet. -/
theorem Offered.mem {l l' : NeighbourList} {id : Nat} {similarity : Float} {came : Bool}
    (h : Offered l id similarity came l') {e : Entry} (he : e ∈ l'.entries) :
    e ∈ l.entries ∨ e = { id, similarity } := by
  cases h with
  | stayed => exact .inl he
  | entered => exact (mem_place.1 he).symm.imp_left l.kept_sublist.mem

/-! ### Settled candidates -/

/-- A candidate has nothing left to gain: it is held with at least the similarity, or the list is
full of entries at least as similar. -/
def Settles (l : NeighbourList) (id : Nat) (similarity : Float) : Prop :=
  (∃ e ∈ l.entries, e.id = id ∧ similarity ≤ e.similarity) ∨
    l.isFull = true ∧ ∀ e ∈ l.entries, similarity ≤ e.similarity

theorem Settles.of_le {l : NeighbourList} {id : Nat} {x y : Float} (h : l.Settles id x)
    (le : y ≤ x) : l.Settles id y := by
  rcases h with ⟨e, he, eq, better⟩ | ⟨full, least⟩
  · exact .inl ⟨e, he, eq, Number.le_trans le better⟩
  · exact .inr ⟨full, fun e he => Number.le_trans le (least e he)⟩

/-- What is settled in a list that is not full is held. -/
theorem Settles.mem_ids {l : NeighbourList} {id : Nat} {similarity : Float}
    (h : l.Settles id similarity) (room : l.size < l.capacity) : id ∈ l.ids := by
  rcases h with ⟨e, he, rfl, -⟩ | ⟨full, -⟩
  · exact List.mem_map_of_mem he
  · rw [isFull_iff] at full
    omega

/-- A settled candidate does not come in, unless a tie is broken in its favour. -/
theorem Settles.standing_ne_accepted {l : NeighbourList} {id : Nat} {similarity : Float}
    (h : l.Settles id similarity) : l.standing id similarity ≠ .accepted := by
  unfold standing
  split
  · simp
  · next new =>
    rcases h with ⟨e, he, rfl, -⟩ | ⟨full, least⟩
    · simp only [not_or, holds_iff] at new
      exact absurd (List.mem_map_of_mem he) new.2.2
    · rw [if_neg (by simp [full])]
      cases hl : l.entries.getLast? with
      | none => simp
      | some last =>
        have le := least last (List.mem_of_getLast? hl)
        dsimp only
        rw [if_neg (Number.not_lt_of_le le)]
        split <;> simp

/-- What offers leave of a list: its owner, capacity and settled candidates, at least as many
entries, and no entry handed out that was not there before. -/
structure Follows (l l' : NeighbourList) : Prop where
  owner : l'.owner = l.owner
  capacity : l'.capacity = l.capacity
  size_le : l.size ≤ l'.size
  settles : ∀ id similarity, l.Settles id similarity → l'.Settles id similarity
  explored : ∀ e ∈ l'.entries, e.explored = true → e ∈ l.entries

theorem Follows.refl (l : NeighbourList) : Follows l l :=
  ⟨rfl, rfl, Nat.le_refl _, fun _ _ h => h, fun _ h _ => h⟩

theorem Follows.trans {l l' l'' : NeighbourList} (h : Follows l l') (h' : Follows l' l'') :
    Follows l l'' where
  owner := h'.owner.trans h.owner
  capacity := h'.capacity.trans h.capacity
  size_le := h.size_le.trans h'.size_le
  settles id similarity hs := h'.settles id similarity (h.settles id similarity hs)
  explored e he ex := h.explored e (h'.explored e he ex) ex

/-- A candidate that comes in leaves every settled one settled: the entry it replaces is the
least similar one, and no more similar than the candidate. -/
theorem settles_place {l : NeighbourList} (wf : l.WellFormed) {id : Nat} {similarity : Float}
    (h : l.standing id similarity ≠ .refused) {id' : Nat} {s : Float} (hs : l.Settles id' s) :
    (l.place id similarity).Settles id' s := by
  obtain ⟨-, pos, -, replaces⟩ := of_standing_ne_refused h
  by_cases full : l.isFull = true
  · obtain ⟨last, hlast, better⟩ := replaces full
    have least := wf.last_le hlast
    have stillFull : (l.place id similarity).isFull = true := by
      rw [isFull_iff, size_place wf.size_le pos, if_pos full]
      exact Nat.le_refl _
    -- Whatever settled the candidate before, all entries are now at least as similar, unless it
    -- is held and stays.
    have all : s ≤ last.similarity → ∀ e ∈ (l.place id similarity).entries, s ≤ e.similarity := by
      intro hs e he
      rcases mem_place.1 he with rfl | he
      · exact Number.le_trans hs better
      · exact Number.le_trans hs (least e (l.kept_sublist.mem he))
    rcases hs with ⟨e, he, rfl, hle⟩ | ⟨-, hle⟩
    · have split := List.dropLast_append_getLast? last hlast
      rw [← split, List.mem_append, List.mem_singleton] at he
      rcases he with he | rfl
      · refine .inl ⟨e, mem_place.2 (.inr ?_), rfl, hle⟩
        rwa [kept, if_pos full]
      · exact .inr ⟨stillFull, all hle⟩
    · exact .inr ⟨stillFull, all (hle last (List.mem_of_getLast? hlast))⟩
  · rcases hs with ⟨e, he, rfl, hle⟩ | ⟨isFull, -⟩
    · refine .inl ⟨e, mem_place.2 (.inr ?_), rfl, hle⟩
      rwa [kept, if_neg full]
    · contradiction

theorem Offered.follows {l l' : NeighbourList} {id : Nat} {similarity : Float} {came : Bool}
    (h : Offered l id similarity came l') (wf : l.WellFormed) : Follows l l' := by
  have size_le := h.size_le wf.proper
  cases h with
  | stayed => exact .refl l
  | entered h =>
    refine ⟨rfl, rfl, size_le, fun _ _ => settles_place wf h, ?_⟩
    intro e he ex
    rcases mem_place.1 he with rfl | he
    · cases ex
    · exact l.kept_sublist.mem he

/-- An offer settles its candidate, unless the list holds the candidate as less similar. -/
theorem Offered.settles {l l' : NeighbourList} {id : Nat} {similarity : Float} {came : Bool}
    (h : Offered l id similarity came l') (wf : l.WellFormed)
    (finite : similarity.isFinite = true) (other : id ≠ l.owner)
    (known : ∀ e ∈ l.entries, e.id = id → similarity ≤ e.similarity) :
    l'.Settles id similarity := by
  cases h with
  | stayed h =>
    rcases of_standing_ne_accepted wf finite h with owner | held | full
    · contradiction
    · obtain ⟨e, he, rfl⟩ := List.mem_map.1 held
      exact .inl ⟨e, he, rfl, known e he rfl⟩
    · exact .inr full
  | entered => exact .inl ⟨_, mem_place.2 (.inl rfl), rfl, Number.le_refl finite⟩

end NeighbourList

end NeighbourGraph
