/-
Local joins are complete.

After every iteration, two neighbours of a node that were both handed out have been compared:
each of them is in the list of the other, or the list of the other is full of nodes at least as
similar. The same holds of a node and a neighbour that was handed out. Later evictions, and
entries that come in while others are joined, do not undo it.
-/

import NeighbourGraph.Proofs.Search.Run

namespace NeighbourGraph.Search

open NeighbourGraph.Random

/-- `candidate` has nothing left to gain in the list of `node`: it is held, or the list is full of
nodes that are at least as similar to `node`. -/
def Saturated (setup : Setup) (s : State) (node candidate : Nat) : Prop :=
  ∃ l x, s.lists[node]? = some l ∧ setup.metric.score node candidate = .ok x ∧
    (candidate ∈ l.ids ∨ l.isFull = true ∧ ∀ e ∈ l.entries, x ≤ e.similarity)

/-- What was scored is saturated. -/
theorem Refined.saturated {setup : Setup} {capacity : Nat} {s : State}
    (h : Refined setup capacity s) (honest : setup.metric.Honest) {node candidate : Nat}
    (considered : Considers s.log.toList node candidate) : Saturated setup s node candidate := by
  obtain ⟨y, hy⟩ := considered
  obtain ⟨x, score, eq⟩ := (h.sound.genuine _ _ _ (by simpa using hy)).score_eq honest
  obtain ⟨l, hl, settles⟩ := h.settled honest _ _ _ hy
  refine ⟨l, x, hl, score, ?_⟩
  rcases settles with ⟨e, he, rfl, -⟩ | ⟨full, least⟩
  · exact .inl (List.mem_map_of_mem he)
  · refine .inr ⟨full, ?_⟩
    intro e he
    exact Number.le_trans (Number.beq_iff_le_and_ge.1 eq).2 (least e he)

/-- **Handed-out neighbours have all met.** After any number of completed iterations, neighbours
that were handed out have met each other and the node, as far as the filter allows. -/
theorem handed_out_saturated (schedule : Schedule) (setup : Setup) (limit : Nat)
    (honest : setup.metric.Honest) {refinement : Refinement} {s : State}
    (ok : refined schedule setup limit = (.ok refinement, s)) {v : Nat} {l : NeighbourList}
    (hl : s.lists[v]? = some l) {a : Entry} (ha : a ∈ l.entries) (exa : a.explored = true) :
    (setup.excluded a.id v = false → Saturated setup s a.id v) ∧
      ∀ b ∈ l.entries, b.explored = true → a ≠ b → setup.excluded a.id b.id = false →
        setup.excluded b.id a.id = false →
          Saturated setup s a.id b.id ∧ Saturated setup s b.id a.id := by
  have refined := refined_ok ok
  have sound := refined.sound.lists v l hl
  obtain ⟨pivot, compares⟩ := refined.joined v l hl a ha exa
  constructor
  · intro allowed
    have other : a.id ≠ v := fun eq =>
      sound.wellFormed.owner_notMem (sound.owner ▸ List.mem_map.2 ⟨a, ha, eq⟩)
    exact refined.saturated honest (pivot other allowed)
  · intro b hb exb ne allowed allowed'
    have distinct : a.id ≠ b.id :=
      fun eq => ne (List.inj_on_of_nodup_map sound.wellFormed.nodup ha hb eq)
    obtain ⟨there, back⟩ := compares b hb exb distinct allowed allowed'
    exact ⟨refined.saturated honest there, refined.saturated honest back⟩

theorem fourNodes_handed_out_saturated :
    Saturated fourNodes (refined .inOrder fourNodes 2).2 1 2 ∧
      Saturated fourNodes (refined .inOrder fourNodes 2).2 2 1 := by
  have ok : (refined .inOrder fourNodes 2).1.isOk = true := by decide +kernel
  have held : ((refined .inOrder fourNodes 2).2.lists[0]?.map fun l =>
      l.entries.map fun e => (e.id, e.explored)) = some [(1, true), (2, true)] := by decide +kernel
  generalize left : refined .inOrder fourNodes 2 = reached at ok held
  obtain ⟨outcome, s⟩ := reached
  obtain ⟨l, hl, entries⟩ := Option.map_eq_some_iff.1 held
  have entry : ∀ id, (id, true) ∈ [(1, true), (2, true)] →
      ∃ e ∈ l.entries, e.explored = true ∧ e.id = id := by
    intro id h
    obtain ⟨e, he, eq⟩ := List.mem_map.1 (entries ▸ h)
    exact ⟨e, he, congrArg Prod.snd eq, congrArg Prod.fst eq⟩
  obtain ⟨a, ha, exa, ida⟩ := entry 1 (by simp)
  obtain ⟨b, hb, exb, idb⟩ := entry 2 (by simp)
  cases outcome with
  | error cause => cases ok
  | ok refinement =>
    have met := (handed_out_saturated .inOrder fourNodes 2 honest_fourNodes left hl ha exa).2 b hb
      exb (fun eq => by simp [eq, idb] at ida)
    rw [ida, idb] at met
    exact met (by decide) (by decide)

end NeighbourGraph.Search
