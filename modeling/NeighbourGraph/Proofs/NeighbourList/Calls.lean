/-
What calls in any order do to a neighbour list.

Candidates are offered with ties broken or not, entries are handed out, and those below a cutoff
are dropped, each call with a generator of its own. `Made` says what a single call can do, and an
invariant that every call keeps holds after any calls. So a list stays `Proper` whatever is
offered, a NaN too. Its similarities fall as long as all can be compared, and then the cutoff
leaves the beginning of a list.
-/

import NeighbourGraph.Proofs.NeighbourList.HandOut

namespace NeighbourGraph

open NeighbourGraph.Random

/-- What is asked of a list. -/
inductive Call where
  /-- Offers a candidate, ties broken at the given rate. -/
  | add (id : Nat) (similarity rate : Float)
  /-- Offers a candidate, what is held staying in a tie. -/
  | addKeepingTies (id : Nat) (similarity : Float)
  /-- Drops what is less similar than the cutoff. -/
  | dropBelow (cutoff : Float)
  /-- Hands out entries. -/
  | split (sampled : Nat)

/-- The candidate that is offered. -/
def Call.candidate? : Call → Option Neighbour
  | .add id similarity _ | .addKeepingTies id similarity => some { id, similarity }
  | .dropBelow _ | .split _ => none

namespace NeighbourList

/-- Makes a call, and tells what was handed out if it was to hand out entries. -/
def make (l : NeighbourList) : Call → Draw (Option Parts × NeighbourList)
  | .add id similarity rate => do
    let (_, l') ← l.add id similarity rate
    return (none, l')
  | .addKeepingTies id similarity => return (none, (l.addKeepingTies id similarity).2)
  | .dropBelow cutoff => return (none, l.dropBelow cutoff)
  | .split sampled => do
    let (l', parts) ← l.split sampled
    return (some parts, l')

/-- The list after calls, each made with a generator of its own. -/
def after (l : NeighbourList) : List (Call × Generator) → NeighbourList
  | [] => l
  | (call, g) :: rest => (l.make call g).1.2.after rest

variable {l l' : NeighbourList} {call : Call} {reported : Option Parts}

/-! ### One call -/

/-- What a call can do to a list, and what it reports. -/
inductive Made (l : NeighbourList) : Call → Option Parts → NeighbourList → Prop
  | offered {call : Call} {n : Neighbour} {entered : Bool} {l' : NeighbourList} :
      call.candidate? = some n → Offered l n.id n.similarity entered l' → Made l call none l'
  | dropped (cutoff : Float) : Made l (.dropBelow cutoff) none (l.dropBelow cutoff)
  | handedOut {sampled : Nat} {parts : Parts} {l' : NeighbourList} : SameNeighbours l l' →
      HandedOut l.entries l'.entries parts → Made l (.split sampled) (some parts) l'

theorem made_make (l : NeighbourList) (call : Call) (g : Generator) :
    Made l call (l.make call g).1.1 (l.make call g).1.2 := by
  cases call with
  | add id similarity rate => exact .offered rfl (l.offered_add id similarity rate g)
  | addKeepingTies id similarity => exact .offered rfl (l.offered_addKeepingTies id similarity)
  | dropBelow cutoff => exact .dropped cutoff
  | split sampled => exact .handedOut (l.sameNeighbours_split sampled g) (l.handedOut_split sampled g)

theorem Made.owner_eq (h : Made l call reported l') : l'.owner = l.owner := by
  cases h with
  | offered _ offer => exact offer.owner_eq
  | dropped => rfl
  | handedOut same => exact same.owner

theorem Made.capacity_eq (h : Made l call reported l') : l'.capacity = l.capacity := by
  cases h with
  | offered _ offer => exact offer.capacity_eq
  | dropped => rfl
  | handedOut same => exact same.capacity

/-- Every call keeps a list proper. -/
theorem Made.proper (h : Made l call reported l') (proper : l.Proper) : l'.Proper := by
  cases h with
  | offered _ offer => exact offer.proper proper
  | dropped cutoff => exact proper.dropBelow cutoff
  | handedOut same => exact same.proper proper

/-- What is held changes if and only if the candidate came in: it was not held before. -/
theorem Offered.entered_iff {id : Nat} {similarity : Float} {came : Bool}
    (h : Offered l id similarity came l') :
    came = true ↔ l'.neighbours ≠ l.neighbours := by
  cases h with
  | stayed => simp
  | entered h =>
    have new := (of_standing_ne_refused h).2.2.1
    simp only [true_iff]
    intro same
    have held : id ∈ (l.place id similarity).ids := List.mem_map_of_mem (mem_place.2 (.inl rfl))
    rw [ids_eq_map_neighbours, same, ← ids_eq_map_neighbours] at held
    exact new held

/-! ### Falling similarities -/

/-- All similarities can be compared and fall. -/
structure Falling (l : NeighbourList) : Prop where
  comparable : ∀ n ∈ l.neighbours, ¬n.similarity.isNaN = true
  ordered : l.neighbours.Pairwise fun a b => b.similarity ≤ a.similarity

theorem Falling.empty (owner capacity : Nat) : Falling { owner, capacity } :=
  ⟨by simp [neighbours], .nil⟩

theorem Offered.falling {id : Nat} {similarity : Float} {came : Bool}
    (h : Offered l id similarity came l') (falling : l.Falling)
    (comparable : ¬similarity.isNaN = true) : l'.Falling := by
  cases h with
  | stayed => exact falling
  | entered =>
    have before := forall_mem_neighbours.1 falling.comparable
    have ordered := falling.ordered
    rw [neighbours, List.pairwise_map] at ordered
    refine ⟨forall_mem_neighbours.2 fun e he => ?_, ?_⟩
    · rcases mem_place.1 he with rfl | he
      · exact comparable
      · exact before e (l.kept_sublist.mem he)
    · rw [neighbours, List.pairwise_map]
      exact ordered_place ordered id fun e he =>
        (Number.le_total comparable (before e (l.kept_sublist.mem he))).resolve_left

/-- Every call keeps similarities falling if the candidate it may offer can be compared. -/
theorem Made.falling (h : Made l call reported l') (falling : l.Falling)
    (comparable : ∀ n ∈ call.candidate?, ¬n.similarity.isNaN = true) : l'.Falling := by
  cases h with
  | offered candidate offer => exact offer.falling falling (comparable _ candidate)
  | dropped cutoff =>
    have sub := (l.dropBelow_sublist cutoff).map (·.toNeighbour)
    exact ⟨fun n hn => falling.comparable n (sub.mem hn), falling.ordered.sublist sub⟩
  | handedOut same =>
    exact ⟨same.neighbours ▸ falling.comparable, same.neighbours ▸ falling.ordered⟩

theorem filter_eq_takeWhile {α : Type} {p : α → Bool} {xs : List α}
    (first : xs.Pairwise fun a b => p b = true → p a = true) : xs.filter p = xs.takeWhile p := by
  induction first with
  | nil => rfl
  | @cons x xs before _ ih =>
    cases hx : p x with
    | true => rw [List.filter_cons_of_pos hx, List.takeWhile_cons_of_pos hx, ih]
    | false =>
      rw [List.filter_cons_of_neg (by simp [hx]), List.takeWhile_cons_of_neg (by simp [hx]),
        List.filter_eq_nil_iff]
      intro y hy held
      simp [before y hy held] at hx

/-- Where similarities fall, the cutoff leaves the beginning that reaches it. -/
theorem Falling.dropBelow_eq (falling : l.Falling) (cutoff : Float) :
    (l.dropBelow cutoff).entries = l.entries.takeWhile fun e => cutoff ≤ e.similarity := by
  have ordered := falling.ordered
  rw [neighbours, List.pairwise_map] at ordered
  apply filter_eq_takeWhile
  exact ordered.imp fun le reached => decide_eq_true (Number.le_trans (of_decide_eq_true reached) le)

/-! ### Any calls -/

/-- What each call keeps is kept by any. -/
theorem after_keeps (holds : NeighbourList → Prop) (allowed : Call → Prop)
    (kept : ∀ l call reported l', Made l call reported l' → allowed call → holds l → holds l')
    {calls : List (Call × Generator)} (all : ∀ c ∈ calls, allowed c.1) (h : holds l) :
    holds (l.after calls) := by
  induction calls generalizing l with
  | nil => exact h
  | cons c rest ih =>
    exact ih (fun c hc => all c (List.mem_cons_of_mem _ hc))
      (kept _ _ _ _ (l.made_make c.1 c.2) (all c (by simp)) h)

/-- The owner and the capacity stay, and the list is proper. -/
theorem proper_after (owner capacity : Nat) (calls : List (Call × Generator)) :
    (after { owner, capacity } calls).owner = owner ∧
      (after { owner, capacity } calls).capacity = capacity ∧
      (after { owner, capacity } calls).Proper := by
  refine after_keeps (fun l => l.owner = owner ∧ l.capacity = capacity ∧ l.Proper)
    (fun _ => True) ?_ (fun _ _ => trivial) ⟨rfl, rfl, .empty owner capacity⟩
  rintro l call reported l' made - ⟨rfl, rfl, proper⟩
  exact ⟨made.owner_eq, made.capacity_eq, made.proper proper⟩

/-- **A neighbour list keeps its representation.** After any calls, with any similarities, a NaN
too, it is within its capacity and holds neither its owner nor an id twice; an offer tells that the
candidate came in if and only if what is held changed, and never makes the list shorter. If all
similarities that were offered can be compared, those that are held fall, and the cutoff leaves just
the beginning that reaches it. -/
theorem calls_keep_representation (owner capacity : Nat) (calls : List (Call × Generator))
    {l : NeighbourList} (called : l = after { owner, capacity } calls) :
    l.size ≤ capacity ∧ owner ∉ l.ids ∧ l.ids.Nodup ∧
    (∀ (id : Nat) (similarity rate : Float) (g : Generator),
      ((l.add id similarity rate g).1.1 = true ↔
        (l.add id similarity rate g).1.2.neighbours ≠ l.neighbours) ∧
      l.size ≤ (l.add id similarity rate g).1.2.size) ∧
    (∀ (id : Nat) (similarity : Float),
      ((l.addKeepingTies id similarity).1 = true ↔
        (l.addKeepingTies id similarity).2.neighbours ≠ l.neighbours) ∧
      l.size ≤ (l.addKeepingTies id similarity).2.size) ∧
    ((∀ c ∈ calls, ∀ n ∈ c.1.candidate?, ¬n.similarity.isNaN = true) →
      l.similarities.Pairwise (fun x y => y ≤ x) ∧
      ∀ cutoff, (l.dropBelow cutoff).entries <+: l.entries ∧
        (l.dropBelow cutoff).entries = l.entries.takeWhile fun e => cutoff ≤ e.similarity) := by
  obtain ⟨ownerEq, capacityEq, proper⟩ := proper_after owner capacity calls
  rw [← called] at ownerEq capacityEq proper
  refine ⟨capacityEq ▸ proper.size_le, ownerEq ▸ proper.owner_notMem, proper.nodup, ?_, ?_, ?_⟩
  · intro id similarity rate g
    have offered := l.offered_add id similarity rate g
    exact ⟨offered.entered_iff, offered.size_le proper⟩
  · intro id similarity
    have offered := l.offered_addKeepingTies id similarity
    exact ⟨offered.entered_iff, offered.size_le proper⟩
  · intro comparable
    have falling : l.Falling := by
      rw [called]
      exact after_keeps _ (fun call => ∀ n ∈ call.candidate?, ¬n.similarity.isNaN = true)
        (fun _ _ _ _ made comparable falling => made.falling falling comparable) comparable
        (.empty owner capacity)
    refine ⟨?_, fun cutoff => ⟨?_, falling.dropBelow_eq cutoff⟩⟩
    · rw [similarities_eq_map_neighbours, List.pairwise_map]
      exact falling.ordered
    · rw [falling.dropBelow_eq]
      exact List.takeWhile_prefix _

/-- Calls of every kind, one with an infinite similarity. -/
def mixedCalls : List (Call × Generator) :=
  [(.add 1 0.5 0.0, .ofSeed 1), (.addKeepingTies 2 0.75, .ofSeed 2), (.split 1, .ofSeed 3),
    (.add 3 0.5 1.0, .ofSeed 4), (.dropBelow 0.625, .ofSeed 5), (.add 4 (1.0 / 0.0) 0.0, .ofSeed 6),
    (.addKeepingTies 2 1.0, .ofSeed 7)]

theorem mixedCalls_fall :
    (∀ c ∈ mixedCalls, ∀ n ∈ c.1.candidate?, ¬n.similarity.isNaN = true) ∧
      (after { owner := 0, capacity := 2 } mixedCalls).ids = [4, 2] ∧
      (after { owner := 0, capacity := 2 } mixedCalls).similarities.Pairwise
        (fun x y => y ≤ x) := by
  have comparable : ∀ c ∈ mixedCalls, ∀ n ∈ c.1.candidate?, ¬n.similarity.isNaN = true := by
    decide +kernel
  obtain ⟨-, -, -, -, -, fall⟩ := calls_keep_representation 0 2 mixedCalls rfl
  exact ⟨comparable, by decide +kernel, (fall comparable).1⟩

end NeighbourList

end NeighbourGraph
