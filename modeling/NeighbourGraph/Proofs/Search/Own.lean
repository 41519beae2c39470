/-
Work that changes no list but the one of its node.

Such work finds the list as it was when the phase began, whatever the work on the other nodes does
in between, so a phase of it does to every list what the work does to one.
-/

import NeighbourGraph.Proofs.Search.Sound

namespace NeighbourGraph.Search

/-- The contract of a search that changes the list of one node while others do so for the other
nodes. -/
def changingOwn (setup : Setup) (capacity : Nat) (change : Change) (node : Nat) : Contract :=
  upholding setup capacity (fun v => if v = node then .none else change)
    (fun v => if v = node then change else .none)

/-- The contract of a search that changes the lists of all nodes, while no other one changes a
list. -/
def changingEach (setup : Setup) (capacity : Nat) (change : Change) : Contract :=
  upholding setup capacity (fun _ => .none) (fun _ => change)

section

variable {setup : Setup} {capacity : Nat} {change : Change} {s : State} {α : Type}

theorem changingOwn_tolerates {v w : Nat} (ne : v ≠ w) :
    (changingOwn setup capacity change v).Tolerates (changingOwn setup capacity change w) := by
  intro s t h sound
  obtain ⟨sound', grows⟩ := h sound
  constructor
  · exact sound'
  · apply grows.imp
    intro u l l' r
    by_cases eq : u = v
    · subst eq
      simpa [ne] using r
    · split at r
      · simpa [eq] using r
      · obtain rfl : l = l' := r
        exact Change.refl _ l

theorem changingEach_covers (v : Nat) :
    (changingEach setup capacity change).Covers (changingOwn setup capacity change v) where
  rely s t h sound := by
    obtain ⟨sound', grows⟩ := h sound
    constructor
    · exact sound'
    · apply grows.imp
      intro u l l' same
      obtain rfl : l = l' := same
      exact Change.refl _ l
  guarantee s t h sound := by
    obtain ⟨sound', grows⟩ := h sound
    constructor
    · exact sound'
    · apply grows.imp
      intro u l l' r
      split at r
      · exact r
      · obtain rfl : l = l' := r
        exact Change.refl _ l
  fails _ h := h

/-- The list of a node is worked on as it was found. -/
theorem meets_withList (sound : Sound setup capacity s) {v : Nat} (hv : v < setup.nodeCount)
    {f : NeighbourList → α × NeighbourList} {otherwise : α}
    (works : ∀ l, change.rel l (f l).2 ∧
      ∀ log, l.SoundFor v capacity log → (f l).2.SoundFor v capacity log) :
    Meets (changingOwn setup capacity change v) (atomic fun s => s.withList v f otherwise)
      (fun a events t => events = [] ∧ ∃ l, s.lists[v]? = some l ∧ a = (f l).1 ∧
        t.lists[v]? = some (f l).2) s := by
  apply meets_atomic
  intro t r
  obtain ⟨l, hl, -⟩ := sound.list hv
  obtain ⟨sound, grows⟩ := r sound
  obtain ⟨l', hl', same⟩ := grows.lists v l hl
  obtain rfl : l = l' := by simpa using same
  obtain ⟨allowed, kept⟩ := works l
  have sound' := sound.setList (kept _ (sound.lists v l hl'))
  have after : (t.lists.setIfInBounds v (f l).2)[v]? = some (f l).2 := by
    simp [(Array.getElem?_eq_some_iff.1 hl').1]
  have grows' : Grows (fun w => if w = v then change else .none) t
      { t with lists := t.lists.setIfInBounds v (f l).2 } :=
    .setList hl' (by simpa using allowed)
  simp only [State.withList, hl']
  refine ⟨fun _ => ⟨sound', grows'⟩, [], (List.append_nil _).symm,
    fun u r => ⟨rfl, l, hl, rfl, ?_⟩⟩
  obtain ⟨l'', hl'', same⟩ := (r sound').2.lists v _ after
  obtain rfl : (f l).2 = l'' := by simpa using same
  exact hl''

/-- A phase that works on each list by itself. -/
theorem meets_phase_own {work : Nat → Search α} {post : Nat → Post α} {name : Phase}
    (meets : ∀ v < setup.nodeCount,
      Meets (changingOwn setup capacity change v) (work v) (post v) s) (turns : Turns) :
    Meets (changingEach setup capacity change) (phase setup turns name work)
      (Each post (List.range setup.nodeCount)) s := by
  refine (meets_phase (fun _ => upholding_heeds) meets (fun _ _ => changingOwn_tolerates)
    turns).cover ?_
  apply Contract.covers_group_of_forall
  intro c hc
  obtain ⟨v, -, rfl⟩ := List.mem_map.1 hc
  exact changingEach_covers v

end

end NeighbourGraph.Search
