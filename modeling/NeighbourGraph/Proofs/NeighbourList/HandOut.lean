/-
What handing out entries and the cutoff do to a neighbour list.

`HandedOut` is the relation between the entries before and after a list hands out some of them:
an entry handed out before is old, any other is new and counts as handed out from then on, or is
left for later. So no id, similarity or position changes, and whatever counts as handed out
afterwards is named among the old or the new ids. To an offer it makes no difference what was
handed out: it does the same to the `fresh` list. The cutoff only leaves entries out.
-/

import Mathlib.Data.List.InsertIdx
import NeighbourGraph.Proofs.NeighbourList.Offer

namespace NeighbourGraph.NeighbourList

open NeighbourGraph.Random

/-- The entries of a list before and after it hands out `parts`. -/
inductive HandedOut : List Entry → List Entry → Parts → Prop
  | nil : HandedOut [] [] {}
  | old {e : Entry} {before after : List Entry} {parts : Parts} : e.explored = true →
      HandedOut before after parts →
      HandedOut (e :: before) (e :: after) { parts with old := e.id :: parts.old }
  | new {e : Entry} {before after : List Entry} {parts : Parts} : e.explored = false →
      HandedOut before after parts →
      HandedOut (e :: before) ({ e with explored := true } :: after)
        { parts with new := e.id :: parts.new }
  | later {e : Entry} {before after : List Entry} {parts : Parts} : e.explored = false →
      HandedOut before after parts → HandedOut (e :: before) (e :: after) parts

theorem handedOut_splitEntries (length sampled : Nat) (entries : List Entry) (g : Generator) :
    HandedOut entries (splitEntries length sampled entries g).1.1
      (splitEntries length sampled entries g).1.2 := by
  induction entries generalizing g with
  | nil => exact .nil
  | cons e rest ih =>
    rw [splitEntries]
    cases ex : e.explored with
    | true => exact .old ex (ih g)
    | false =>
      rw [if_neg Bool.false_ne_true, Draw.bind_apply]
      split
      · exact .new ex (ih _)
      · exact .later ex (ih _)

namespace HandedOut

variable {before after : List Entry} {parts : Parts}

/-- Handing out changes no id, similarity or position. -/
theorem neighbours_eq (h : HandedOut before after parts) :
    after.map (·.toNeighbour) = before.map (·.toNeighbour) := by
  induction h with
  | nil => rfl
  | old _ _ ih | new _ _ ih | later _ _ ih => simp [ih]

/-- The old ids are those handed out before. -/
theorem mem_old (h : HandedOut before after parts) {id : Nat} :
    id ∈ parts.old ↔ ∃ e ∈ before, e.explored = true ∧ e.id = id := by
  induction h with
  | nil => simp
  | old ex _ ih => simp [ih, ex, eq_comm (a := id)]
  | new ex _ ih | later ex _ ih => simp [ih, ex]

/-- The new ids are those of entries that were not handed out before. -/
theorem mem_of_mem_new (h : HandedOut before after parts) {id : Nat} (hid : id ∈ parts.new) :
    ∃ e ∈ before, e.explored = false ∧ e.id = id := by
  induction h with
  | nil => cases hid
  | old _ _ ih | later _ _ ih => simp [ih hid]
  | new ex _ ih =>
    rcases List.mem_cons.1 hid with rfl | hid
    · simp [ex]
    · simp [ih hid]

/-- What is handed out is held. -/
theorem mem_ids (h : HandedOut before after parts) {id : Nat}
    (hid : id ∈ parts.old ∨ id ∈ parts.new) : id ∈ before.map (·.id) := by
  rcases hid with hid | hid
  · obtain ⟨e, he, -, rfl⟩ := h.mem_old.1 hid
    exact List.mem_map_of_mem he
  · obtain ⟨e, he, -, rfl⟩ := h.mem_of_mem_new hid
    exact List.mem_map_of_mem he

/-- What counts as handed out afterwards is named. -/
theorem mem_old_or_new (h : HandedOut before after parts) {e : Entry} (he : e ∈ after)
    (ex : e.explored = true) : e.id ∈ parts.old ∨ e.id ∈ parts.new := by
  induction h with
  | nil => cases he
  | old _ _ ih =>
    rcases List.mem_cons.1 he with rfl | he
    · simp
    · exact (ih he).imp_left (List.mem_cons_of_mem _)
  | new _ _ ih =>
    rcases List.mem_cons.1 he with rfl | he
    · simp
    · exact (ih he).imp_right (List.mem_cons_of_mem _)
  | later not _ ih =>
    rcases List.mem_cons.1 he with rfl | he
    · simp [ex] at not
    · exact ih he

/-- What is named counts as handed out afterwards. -/
theorem exists_explored (h : HandedOut before after parts) {id : Nat}
    (hid : id ∈ parts.old ∨ id ∈ parts.new) : ∃ e ∈ after, e.explored = true ∧ e.id = id := by
  induction h with
  | nil => simp at hid
  | old ex _ ih =>
    rw [List.mem_cons, or_assoc] at hid
    rcases hid with rfl | hid
    · simp [ex]
    · simp [ih hid]
  | new _ _ ih =>
    rw [List.mem_cons, or_left_comm] at hid
    rcases hid with rfl | hid
    · simp
    · simp [ih hid]
  | later _ _ ih => simp [ih hid]

/-- The old ids are named in the order of the list. -/
theorem old_sublist (h : HandedOut before after parts) : parts.old.Sublist (before.map (·.id)) := by
  induction h with
  | nil => exact .slnil
  | old _ _ ih => exact ih.cons_cons _
  | new _ _ ih | later _ _ ih => exact ih.cons _

/-- The new ids are named in the order of the list. -/
theorem new_sublist (h : HandedOut before after parts) : parts.new.Sublist (before.map (·.id)) := by
  induction h with
  | nil => exact .slnil
  | new _ _ ih => exact ih.cons_cons _
  | old _ _ ih | later _ _ ih => exact ih.cons _

end HandedOut

/-! ### The same neighbours -/

/-- Two lists of one owner and capacity that hold the same neighbours in the same order. -/
structure SameNeighbours (l l' : NeighbourList) : Prop where
  owner : l'.owner = l.owner
  capacity : l'.capacity = l.capacity
  neighbours : l'.neighbours = l.neighbours

theorem SameNeighbours.refl (l : NeighbourList) : SameNeighbours l l := ⟨rfl, rfl, rfl⟩

theorem SameNeighbours.trans {l l' l'' : NeighbourList} (h : SameNeighbours l l')
    (h' : SameNeighbours l' l'') : SameNeighbours l l'' :=
  ⟨h'.owner.trans h.owner, h'.capacity.trans h.capacity, h'.neighbours.trans h.neighbours⟩

theorem ids_eq_map_neighbours (l : NeighbourList) : l.ids = l.neighbours.map (·.id) := by
  simp [ids, neighbours]

theorem similarities_eq_map_neighbours (l : NeighbourList) :
    l.similarities = l.neighbours.map (·.similarity) := by
  simp [similarities, neighbours]

theorem size_eq_length_neighbours (l : NeighbourList) : l.size = l.neighbours.length := by
  simp [size, neighbours]

theorem forall_mem_neighbours {l : NeighbourList} {P : Neighbour → Prop} :
    (∀ n ∈ l.neighbours, P n) ↔ ∀ e ∈ l.entries, P e.toNeighbour := by
  simp [neighbours]

theorem exists_mem_neighbours {l : NeighbourList} {P : Neighbour → Prop} :
    (∃ n ∈ l.neighbours, P n) ↔ ∃ e ∈ l.entries, P e.toNeighbour := by
  simp [neighbours]

/-- To be well-formed is a matter of owner, capacity and neighbours. -/
theorem wellFormed_iff {l : NeighbourList} :
    l.WellFormed ↔ l.neighbours.length ≤ l.capacity ∧ l.owner ∉ l.neighbours.map (·.id) ∧
      (l.neighbours.map (·.id)).Nodup ∧ (∀ n ∈ l.neighbours, n.similarity.isFinite = true) ∧
      l.neighbours.Pairwise fun a b => b.similarity ≤ a.similarity := by
  rw [forall_mem_neighbours, ← ids_eq_map_neighbours, ← size_eq_length_neighbours, neighbours,
    List.pairwise_map]
  exact ⟨fun h => ⟨h.1, h.2, h.3, h.4, h.5⟩, fun h => ⟨h.1, h.2.1, h.2.2.1, h.2.2.2.1, h.2.2.2.2⟩⟩

theorem settles_iff {l : NeighbourList} {id : Nat} {similarity : Float} :
    l.Settles id similarity ↔ (∃ n ∈ l.neighbours, n.id = id ∧ similarity ≤ n.similarity) ∨
      l.capacity ≤ l.neighbours.length ∧ ∀ n ∈ l.neighbours, similarity ≤ n.similarity := by
  rw [exists_mem_neighbours (P := fun n => n.id = id ∧ similarity ≤ n.similarity),
    forall_mem_neighbours (P := fun n => similarity ≤ n.similarity), ← size_eq_length_neighbours,
    ← isFull_iff]
  rfl

theorem SameNeighbours.ids_eq {l l' : NeighbourList} (h : SameNeighbours l l') :
    l'.ids = l.ids := by
  rw [ids_eq_map_neighbours, h.neighbours, ids_eq_map_neighbours]

theorem SameNeighbours.size_eq {l l' : NeighbourList} (h : SameNeighbours l l') :
    l'.size = l.size := by
  rw [size_eq_length_neighbours, h.neighbours, size_eq_length_neighbours]

theorem SameNeighbours.proper {l l' : NeighbourList} (h : SameNeighbours l l')
    (proper : l.Proper) : l'.Proper where
  size_le := h.size_eq ▸ h.capacity ▸ proper.size_le
  owner_notMem := h.ids_eq ▸ h.owner ▸ proper.owner_notMem
  nodup := h.ids_eq ▸ proper.nodup

theorem SameNeighbours.wellFormed {l l' : NeighbourList} (h : SameNeighbours l l')
    (wf : l.WellFormed) : l'.WellFormed := by
  rw [wellFormed_iff] at *
  rwa [h.owner, h.capacity, h.neighbours]

theorem SameNeighbours.settles {l l' : NeighbourList} (h : SameNeighbours l l') {id : Nat}
    {similarity : Float} (hs : l.Settles id similarity) : l'.Settles id similarity := by
  rw [settles_iff] at *
  rwa [h.capacity, h.neighbours]

theorem handedOut_split (l : NeighbourList) (sampled : Nat) (g : Generator) :
    HandedOut l.entries (l.split sampled g).1.1.entries (l.split sampled g).1.2 :=
  handedOut_splitEntries l.size sampled l.entries g

theorem sameNeighbours_split (l : NeighbourList) (sampled : Nat) (g : Generator) :
    SameNeighbours l (l.split sampled g).1.1 :=
  ⟨rfl, rfl, (handedOut_split l sampled g).neighbours_eq⟩

/-! ### Forgetting what was handed out -/

/-- The list as if it had handed out nothing. -/
def fresh (l : NeighbourList) : NeighbourList :=
  { l with entries := l.neighbours.map fun n => { toNeighbour := n } }

@[simp] theorem neighbours_fresh (l : NeighbourList) : l.fresh.neighbours = l.neighbours := by
  simp [fresh, neighbours]

theorem SameNeighbours.fresh_eq {l l' : NeighbourList} (h : SameNeighbours l l') :
    l'.fresh = l.fresh := by
  rw [fresh, fresh, h.neighbours]
  cases l
  cases l'
  cases h.owner
  cases h.capacity
  rfl

theorem partitionPoint_map {α β : Type} (f : α → β) (p : β → Bool) (xs : List α) :
    partitionPoint p (xs.map f) = partitionPoint (p ∘ f) xs := by
  simp only [partitionPoint, List.isEmpty_map, List.getElem?_map, Option.any_map, List.length_map,
    Function.comp_def]

theorem standing_fresh (l : NeighbourList) (id : Nat) (similarity : Float) :
    l.fresh.standing id similarity = l.standing id similarity := by
  simp only [standing, fresh, neighbours, holds, isFull, size, List.any_map, List.length_map,
    List.getLast?_map, Function.comp_def]
  cases l.entries.getLast? <;> rfl

theorem kept_fresh (l : NeighbourList) :
    l.fresh.kept = l.kept.map fun e => { toNeighbour := e.toNeighbour } := by
  have full : l.fresh.isFull = l.isFull := by
    rw [Bool.eq_iff_iff, isFull_iff, isFull_iff, size_eq_length_neighbours, neighbours_fresh,
      ← size_eq_length_neighbours]
    rfl
  unfold kept
  rw [full]
  split <;> simp [fresh, neighbours, List.map_dropLast, Function.comp_def]

theorem place_fresh (l : NeighbourList) (id : Nat) (similarity : Float) :
    l.fresh.place id similarity = (l.place id similarity).fresh := by
  have entries : ∀ k : NeighbourList, (k.place id similarity).entries =
      k.kept.insertIdx (partitionPoint (fun e => similarity ≤ e.similarity) k.kept)
        { id, similarity } := fun _ => rfl
  calc l.fresh.place id similarity
    _ = { l with entries := (l.fresh.place id similarity).entries } := rfl
    _ = (l.place id similarity).fresh := by
      rw [entries, kept_fresh, partitionPoint_map, fresh, neighbours, entries, List.map_map,
        List.map_insertIdx]
      rfl

/-- What was handed out makes no difference to an offer. -/
theorem addKeepingTies_fresh (l : NeighbourList) (id : Nat) (similarity : Float) :
    (l.fresh.addKeepingTies id similarity).2 = (l.addKeepingTies id similarity).2.fresh := by
  simp only [addKeepingTies, standing_fresh, place_fresh]
  cases l.standing id similarity <;> rfl

/-! ### The cutoff -/

theorem dropBelow_sublist (l : NeighbourList) (cutoff : Float) :
    (l.dropBelow cutoff).entries.Sublist l.entries :=
  List.filter_sublist

theorem Proper.dropBelow {l : NeighbourList} (proper : l.Proper) (cutoff : Float) :
    (l.dropBelow cutoff).Proper where
  size_le := (l.dropBelow_sublist cutoff).length_le.trans proper.size_le
  owner_notMem h := proper.owner_notMem (((l.dropBelow_sublist cutoff).map _).mem h)
  nodup := proper.nodup.sublist ((l.dropBelow_sublist cutoff).map _)

theorem WellFormed.dropBelow {l : NeighbourList} (wf : l.WellFormed) (cutoff : Float) :
    (l.dropBelow cutoff).WellFormed :=
  have proper := wf.proper.dropBelow cutoff
  { size_le := proper.size_le
    owner_notMem := proper.owner_notMem
    nodup := proper.nodup
    finite := fun e he => wf.finite e ((l.dropBelow_sublist cutoff).mem he)
    ordered := wf.ordered.sublist (l.dropBelow_sublist cutoff) }

end NeighbourGraph.NeighbourList
