/-
What the lists hand out for an iteration.

Each list hands out what it handed out before as old, and every entry that counts as handed out
from then on as old or new. All ids that come up are nodes, also when the relation is turned
around, and the working set of a node has all that its list handed out.
-/

import NeighbourGraph.Proofs.Search.Own

namespace NeighbourGraph

open NeighbourGraph.Random

/-! ### Ids -/

namespace IdMap

/-- All ids that a relation has are below a bound. -/
def Below (m : IdMap) (bound : Nat) : Prop := ∀ v, ∀ x ∈ m.of v, x < bound

theorem Below.link {m : IdMap} {bound : Nat} (h : m.Below bound) {node : Nat}
    (hn : node < bound) (id : Nat) : (m.link node id).Below bound := by
  intro v x hx
  have hv := h v
  unfold IdMap.link at hx
  simp only [of, Array.getD_eq_getD_getElem?, Array.getElem?_modify] at hv hx
  split at hx
  · cases hm : m[v]? with
    | none => simp [hm] at hx
    | some ids =>
      simp only [hm, Option.map_some, Option.getD_some, List.mem_cons] at hv hx
      rcases hx with rfl | hx
      · exact hn
      · exact hv x hx
  · exact hv x hx

theorem Below.foldr_link {m : IdMap} {bound : Nat} (h : m.Below bound) {node : Nat}
    (hn : node < bound) (ids : List Nat) :
    Below (ids.foldr (fun id out => out.link node id) m) bound := by
  induction ids with
  | nil => exact h
  | cons id ids ih => exact ih.link hn id

/-- Turned around, a relation has nodes for ids. -/
theorem below_reverse (m : IdMap) : m.reverse.Below m.size := by
  have empty : Below (Array.replicate m.size []) m.size := by
    intro v x hx
    simp only [of, Array.getD_eq_getD_getElem?, Array.getElem?_replicate] at hx
    split at hx <;> simp at hx
  have nodes : ∀ r ∈ m.toList.zipIdx, r.2 < m.size := fun r hr => by
    simpa using (List.mem_zipIdx hr).2.1
  unfold reverse
  generalize m.toList.zipIdx = rows at nodes
  induction rows with
  | nil => exact empty
  | cons row rows ih =>
    have rest := ih fun r hr => nodes r (by simp [hr])
    exact rest.foldr_link (nodes row (by simp)) row.1

/-! ### Rows -/

@[simp] theorem size_link (m : IdMap) (node id : Nat) : (m.link node id).size = m.size := by
  simp [link]

theorem size_foldr_link (m : IdMap) (node : Nat) (ids : List Nat) :
    Array.size (ids.foldr (fun id out => IdMap.link out node id) m) = m.size := by
  induction ids with
  | nil => rfl
  | cons id ids ih => rw [List.foldr_cons, size_link, ih]

/-- Turned around, a relation has as many rows. -/
@[simp] theorem size_reverse (m : IdMap) : m.reverse.size = m.size := by
  unfold reverse
  generalize m.toList.zipIdx = rows
  induction rows with
  | nil => simp
  | cons row rows ih => rw [List.foldr_cons, size_foldr_link, ih]

end IdMap

/-- All ids of an iteration are nodes, also those the other way round. -/
structure Candidates.Known (c : Candidates) (nodeCount : Nat) : Prop where
  old : c.old.Below nodeCount
  new : c.new.Below nodeCount
  reverseOld : c.reverseOld.Below nodeCount
  reverseNew : c.reverseNew.Below nodeCount

/-- What lists of nodes hand out are nodes, in both directions. -/
theorem Candidates.known_of_parts {parts : List NeighbourList.Parts} {nodeCount : Nat}
    (length : parts.length = nodeCount)
    (ids : ∀ p ∈ parts, ∀ id, id ∈ p.old ∨ id ∈ p.new → id < nodeCount) :
    Known { old := (parts.map (·.old)).toArray, new := (parts.map (·.new)).toArray }
      nodeCount where
  old v x hx := by
    cases hv : parts[v]? with
    | none => simp [IdMap.of, hv] at hx
    | some p => exact ids p (List.mem_of_getElem? hv) x (.inl (by simpa [IdMap.of, hv] using hx))
  new v x hx := by
    cases hv : parts[v]? with
    | none => simp [IdMap.of, hv] at hx
    | some p => exact ids p (List.mem_of_getElem? hv) x (.inr (by simpa [IdMap.of, hv] using hx))
  reverseOld := by simpa [length] using IdMap.below_reverse (parts.map (·.old)).toArray
  reverseNew := by simpa [length] using IdMap.below_reverse (parts.map (·.new)).toArray

namespace Search

/-! ### Working sets -/

/-- Behind what is there come ids that are offered, in order. -/
theorem addSample_eq_append (length sampled : Nat) (out ids : List Nat) (g : Generator) :
    ∃ kept, (addSample length sampled out ids g).1 = out ++ kept ∧ kept.Sublist ids := by
  induction ids generalizing out g with
  | nil => exact ⟨[], (List.append_nil out).symm, .slnil⟩
  | cons id rest ih =>
    rw [addSample, Draw.bind_apply]
    split
    · obtain ⟨kept, eq, sublist⟩ := ih (out ++ [id]) (below length g).2
      exact ⟨id :: kept, by rw [eq, List.append_assoc]; rfl, sublist.cons_cons id⟩
    · obtain ⟨kept, eq, sublist⟩ := ih out (below length g).2
      exact ⟨kept, eq, sublist.cons id⟩

theorem mem_addSample {length sampled : Nat} {out ids : List Nat} {g : Generator} {x : Nat}
    (h : x ∈ (addSample length sampled out ids g).1) : x ∈ out ∨ x ∈ ids := by
  obtain ⟨kept, eq, sublist⟩ := addSample_eq_append length sampled out ids g
  rw [eq] at h
  exact (List.mem_append.1 h).imp_right fun mem => sublist.subset mem

theorem subset_addSample (length sampled : Nat) (out ids : List Nat) (g : Generator) :
    out ⊆ (addSample length sampled out ids g).1 := by
  obtain ⟨kept, eq, -⟩ := addSample_eq_append length sampled out ids g
  rw [eq]
  exact List.subset_append_left out kept

/-- A working set has what the list of its node handed out. -/
theorem subset_workingSet (base reverse : List Nat) (sampled : Nat) (g : Generator) :
    base ⊆ (workingSet base reverse sampled g).1 :=
  subset_addSample reverse.length sampled base reverse g

theorem mem_workingSet {base reverse : List Nat} {sampled x : Nat} {g : Generator}
    (h : x ∈ (workingSet base reverse sampled g).1) : x ∈ base ∨ x ∈ reverse :=
  mem_addSample h

/-! ### Handing out -/

section

variable {setup : Setup} {capacity : Nat} {s t : State}

/-- The list of a node hands out entries, as it was found. -/
theorem meets_splitNode (sound : Sound setup capacity s) {v : Nat} (hv : v < setup.nodeCount)
    (stream : Stream) (sampled : Nat) :
    Meets (changingOwn setup capacity .handsOut v) (seeded stream v (splitNode sampled v))
      (fun parts events t => events = [] ∧ ∃ l l', s.lists[v]? = some l ∧
        t.lists[v]? = some l' ∧ NeighbourList.HandedOut l.entries l'.entries parts) s := by
  apply meets_seeded
  intro g
  refine (meets_withList sound hv fun l => ?_).imp ?_
  · have same := NeighbourList.sameNeighbours_split l sampled g
    exact ⟨same, fun log => same.soundFor⟩
  · rintro _ events t ⟨rfl, l, hl, rfl, hl'⟩
    exact ⟨rfl, l, _, hl, hl', NeighbourList.handedOut_split l sampled g⟩

/-- Every list hands out entries, as it was found. -/
theorem meets_split (sound : Sound setup capacity s) (turns : Turns) (stream : Stream)
    (sampled : Nat) :
    Meets (changingEach setup capacity .handsOut)
      (phase setup turns .split fun v => seeded stream v (splitNode sampled v))
      (fun parts events t => parts.length = setup.nodeCount ∧
        (∀ e ∈ events, e.isProgress = true) ∧ ∀ v < setup.nodeCount, ∃ own l l',
          parts[v]? = some own ∧ s.lists[v]? = some l ∧ t.lists[v]? = some l' ∧
            NeighbourList.HandedOut l.entries l'.entries own) s := by
  apply (meets_phase_own (fun v hv => meets_splitNode sound hv stream sampled) turns).imp
  intro parts events t each
  refine ⟨?_, ?_, ?_⟩
  · simpa using each.length_eq
  · apply each.forall_mem (fun _ => id)
    intro v _ a events h
    simp [h.1]
  · intro v hv
    obtain ⟨own, -, hown, -, -, l, l', h⟩ := each.get (List.getElem?_range hv)
    exact ⟨own, l, l', hown, h⟩

/-- What handing out for an iteration leaves of a state, and what the lists handed out. -/
structure HandsOut (setup : Setup) (capacity : Nat) (s t : State) (c : Candidates) : Prop where
  sound : Sound setup capacity t
  grows : Grows (fun _ => .handsOut) s t
  log : ∃ events, t.log.toList = s.log.toList ++ events ∧ ∀ e ∈ events, e.isProgress = true
  known : c.Known setup.nodeCount
  lists : ∀ v < setup.nodeCount, ∃ l l', s.lists[v]? = some l ∧ t.lists[v]? = some l' ∧
    NeighbourList.HandedOut l.entries l'.entries ⟨c.old.of v, c.new.of v⟩

/-- The candidates of an iteration are what the lists hand out in its split, both ways. -/
theorem exec_candidates_ok {turns : Turns} {stream : Stream} {sampled : Nat} {c : Candidates}
    (run : (candidates setup turns stream sampled).exec s = (.ok c, t)) :
    ∃ parts u, (phase setup turns .split fun v => seeded stream v (splitNode sampled v)).exec s =
        (.ok parts, u) ∧
      { old := (parts.map (·.old)).toArray, new := (parts.map (·.new)).toArray } = c ∧
      ((u.record (.started .reverse setup.nodeCount)).record (.advanced setup.nodeCount)).record
        (.ended .reverse) = t := by
  simp only [candidates, exec_bind_ok, exec_proceed_ok, exec_record, exec_pure, Prod.mk.injEq,
    Except.ok.injEq] at run
  obtain ⟨-, _, ⟨-, rfl⟩, parts, u, split, -, _, ⟨-, rfl⟩, -, _, ⟨-, rfl⟩, -, _, ⟨-, rfl⟩, -, _,
    ⟨-, rfl⟩, made, left⟩ := run
  exact ⟨parts, u, split, made, left⟩

theorem exec_candidates (sound : Sound setup capacity s) {turns : Turns} {stream : Stream}
    {sampled : Nat} {c : Candidates}
    (run : (candidates setup turns stream sampled).exec s = (.ok c, t)) :
    HandsOut setup capacity s t c := by
  obtain ⟨parts, u, split, rfl, rfl⟩ := exec_candidates_ok run
  obtain ⟨soundU, grows, events, log, length, reports, lists⟩ :=
    (meets_split sound turns stream sampled).sound_ok sound split
  have handed : ∀ v < setup.nodeCount, ∃ l l', s.lists[v]? = some l ∧ u.lists[v]? = some l' ∧
      NeighbourList.HandedOut l.entries l'.entries
        ⟨IdMap.of (parts.map (·.old)).toArray v, IdMap.of (parts.map (·.new)).toArray v⟩ := by
    intro v hv
    obtain ⟨own, l, l', hown, hl, hl', handedOut⟩ := lists v hv
    exact ⟨l, l', hl, hl', by simpa [IdMap.of, hown] using handedOut⟩
  have ids : ∀ p ∈ parts, ∀ id, id ∈ p.old ∨ id ∈ p.new → id < setup.nodeCount := by
    intro p hp id hid
    obtain ⟨v, hv⟩ := List.mem_iff_getElem?.1 hp
    have lt : v < setup.nodeCount := length ▸ (List.getElem?_eq_some_iff.1 hv).1
    obtain ⟨own, l, l', hown, hl, -, handedOut⟩ := lists v lt
    obtain rfl : p = own := Option.some.inj (hv.symm.trans hown)
    obtain ⟨e, he, rfl⟩ := List.mem_map.1 (handedOut.mem_ids hid)
    have considered := (sound.lists v l hl).considered
    rw [NeighbourList.forall_mem_neighbours] at considered
    exact (sound.genuine _ _ _ (considered e he)).other.1
  refine
    { sound := ((soundU.report rfl).report rfl).report rfl
      grows := ((grows.trans (.record ..)).trans (.record ..)).trans (.record ..)
      log := ⟨events ++ [.started .reverse setup.nodeCount, .advanced setup.nodeCount,
        .ended .reverse], by simp [State.record, log], ?_⟩
      known := Candidates.known_of_parts length ids
      lists := handed }
  intro e he
  rcases List.mem_append.1 he with he | he
  · exact reports e he
  · simp only [List.mem_cons, List.not_mem_nil, or_false] at he
    rcases he with rfl | rfl | rfl <;> rfl

end

end Search

end NeighbourGraph
