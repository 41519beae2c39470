/-
The working sets of a join.

Where each node names different other nodes, turning this around gives each node those that named
it, in increasing order, and turning it around once more what the node named, in increasing order.
A working set begins with what the list of its node handed out. What follows is drawn from the nodes
whose lists handed the node out, in their order, and nothing comes twice. So the set never has the
node itself, and if the sample is large enough it has all of both.
-/

import Mathlib.Data.List.Sort
import NeighbourGraph.Proofs.Search.Abreast

namespace NeighbourGraph

open NeighbourGraph.Random

namespace IdMap

variable {m : IdMap} {u v : Nat}

/-- Each node has different other nodes. -/
def NamesOthers (m : IdMap) : Prop :=
  ∀ v < m.size, (m.of v).Nodup ∧ ∀ id ∈ m.of v, Sampler.IsOther m.size v id

instance (m : IdMap) : Decidable m.NamesOthers :=
  inferInstanceAs (Decidable
    (∀ v < m.size, (m.of v).Nodup ∧ ∀ id ∈ m.of v, id < m.size ∧ id ≠ v))

theorem of_eq_nil (beyond : m.size ≤ v) : m.of v = [] := by
  rw [of, Array.getD_eq_getD_getElem?, Array.getElem?_eq_none beyond, Option.getD_none]

theorem lt_of_mem_of (h : u ∈ m.of v) : v < m.size := by
  by_contra beyond
  rw [of_eq_nil (Nat.le_of_not_lt beyond)] at h
  cases h

theorem NamesOthers.nodup (others : m.NamesOthers) (v : Nat) : (m.of v).Nodup := by
  by_cases known : v < m.size
  · exact (others v known).1
  · rw [of_eq_nil (Nat.le_of_not_lt known)]
    exact .nil

theorem NamesOthers.isOther (others : m.NamesOthers) (h : u ∈ m.of v) :
    Sampler.IsOther m.size v u :=
  (others v (lt_of_mem_of h)).2 u h

/-! ### Turning around -/

/-- A node comes in front of the list of each of its ids. -/
theorem getElem?_foldr_link {ids : List Nat} (nodup : ids.Nodup) (m : IdMap) (node u : Nat) :
    (ids.foldr (fun id out => link out node id) m : IdMap)[u]? =
      m[u]?.map fun row => if u ∈ ids then node :: row else row := by
  induction ids with
  | nil => simp
  | cons id rest ih =>
    obtain ⟨new, nodup⟩ := List.nodup_cons.1 nodup
    rw [List.foldr_cons, link, Array.getElem?_modify, ih nodup, Option.map_map]
    by_cases here : id = u
    · subst here
      simp [new, Function.comp_def]
    · simp [here, Ne.symm here]

/-- Where no id comes twice, the nodes that name an id come in front of its list. -/
theorem getElem?_foldr_rows {rows : List (List Nat × Nat)} (nodup : ∀ row ∈ rows, row.1.Nodup)
    (m : IdMap) (u : Nat) :
    (rows.foldr (fun (ids, node) out => ids.foldr (fun id out => link out node id) out) m :
      IdMap)[u]? = m[u]?.map fun row => (rows.filter (u ∈ ·.1)).map (·.2) ++ row := by
  induction rows with
  | nil => simp
  | cons row rows ih =>
    rw [List.foldr_cons, getElem?_foldr_link (nodup row (by simp)),
      ih fun r hr => nodup r (by simp [hr]), Option.map_map]
    congr 1
    funext list
    by_cases named : u ∈ row.1
    · simp [named]
    · simp [named]

theorem zipIdx_eq (m : IdMap) : m.toList.zipIdx = (List.range m.size).map fun v => (m.of v, v) := by
  apply List.ext_getElem?
  intro v
  by_cases known : v < m.size
  · simp [known, of]
  · simp [Nat.le_of_not_lt known]

/-- Turned around, a relation has for each node the nodes that name it, in increasing order. -/
theorem reverse_eq (others : m.NamesOthers) :
    m.reverse = (Array.range m.size).map fun u => (List.range m.size).filter (u ∈ m.of ·) := by
  apply Array.ext_getElem?
  intro u
  have nodup : ∀ row ∈ m.toList.zipIdx, row.1.Nodup := by
    intro row mem
    rw [zipIdx_eq] at mem
    obtain ⟨v, -, rfl⟩ := List.mem_map.1 mem
    exact others.nodup v
  rw [reverse, getElem?_foldr_rows nodup, zipIdx_eq, List.filter_map, List.map_map]
  by_cases known : u < m.size
  · simp [known, Function.comp_def]
  · simp [Nat.le_of_not_lt known]

theorem of_reverse (others : m.NamesOthers) (u : Nat) :
    m.reverse.of u = (List.range m.size).filter (u ∈ m.of ·) := by
  rw [of, reverse_eq others, Array.getD_eq_getD_getElem?]
  by_cases known : u < m.size
  · simp [known]
  · -- No list has an id beyond the nodes.
    have absent : ∀ v ∈ List.range m.size, ¬decide (u ∈ m.of v) = true := by
      intro v _
      simpa using fun named => known (others.isOther named).1
    rw [List.filter_eq_nil_iff.2 absent]
    simp [Nat.le_of_not_lt known]

theorem mem_reverse (others : m.NamesOthers) : v ∈ m.reverse.of u ↔ u ∈ m.of v := by
  rw [of_reverse others, List.mem_filter, List.mem_range, decide_eq_true_eq]
  exact and_iff_right_of_imp lt_of_mem_of

theorem pairwise_reverse (others : m.NamesOthers) (u : Nat) :
    (m.reverse.of u).Pairwise (· < ·) := by
  rw [of_reverse others]
  exact List.pairwise_lt_range.filter _

theorem NamesOthers.reverse (others : m.NamesOthers) : m.reverse.NamesOthers := by
  intro u _
  refine ⟨(pairwise_reverse others u).imp Nat.ne_of_lt, fun v named => ?_⟩
  have named := (mem_reverse others).1 named
  rw [size_reverse]
  exact ⟨lt_of_mem_of named, (others.isOther named).2.symm⟩

/-- A list without repetitions is put in increasing order by picking its ids from all nodes. -/
theorem filter_range_eq_mergeSort {ids : List Nat} {n : Nat} (nodup : ids.Nodup)
    (below : ∀ id ∈ ids, id < n) :
    (List.range n).filter (· ∈ ids) = ids.mergeSort (· ≤ ·) := by
  have perm : ((List.range n).filter (· ∈ ids)).Perm (ids.mergeSort (· ≤ ·)) := by
    refine .trans ?_ (List.mergeSort_perm ids _).symm
    rw [List.perm_ext_iff_of_nodup (List.nodup_range.filter _) nodup]
    intro id
    simpa using below id
  exact perm.eq_of_pairwise (fun _ _ _ _ => Nat.le_antisymm)
    ((List.pairwise_lt_range.filter _).imp Nat.le_of_lt) (List.pairwise_mergeSort' (· ≤ ·) ids)

/-- Turned around twice, a relation has the list of each node in increasing order. -/
theorem reverse_reverse (others : m.NamesOthers) :
    m.reverse.reverse = m.map fun ids => ids.mergeSort (· ≤ ·) := by
  apply Array.ext_getElem?
  intro v
  rw [reverse_eq others.reverse, size_reverse]
  simp only [mem_reverse others]
  by_cases known : v < m.size
  · have row : m.of v = m[v] := by simp [of, known]
    have sorted :=
      filter_range_eq_mergeSort (others.nodup v) fun id named => (others.isOther named).1
    rw [row] at sorted
    simp [known, row, sorted]
  · simp [Nat.le_of_not_lt known]

end IdMap

namespace Search

/-! ### Drawing -/

theorem nodup_addSample {out : List Nat} (nodup : out.Nodup) (length sampled : Nat)
    (ids : List Nat) (g : Generator) : (addSample length sampled out ids g).1.Nodup := by
  induction ids generalizing out g with
  | nil => exact nodup
  | cons id rest ih =>
    rw [addSample, Draw.bind_apply]
    split
    · next added =>
      have new : id ∉ out := (by simpa using added : _ ∧ id ∉ out).2
      exact ih (Sampler.nodup_concat nodup new) _
    · exact ih nodup _

/-- If the sample is no smaller than what there is to draw from, every id is there in the end. -/
theorem subset_addSample_of_le {length sampled : Nat} (pos : 0 < length) (le : length ≤ sampled)
    (out ids : List Nat) (g : Generator) : ids ⊆ (addSample length sampled out ids g).1 := by
  induction ids generalizing out g with
  | nil => exact List.nil_subset _
  | cons id rest ih =>
    have drawn : (below length g).1 < sampled := (below_lt pos g).trans_le le
    rw [addSample, Draw.bind_apply]
    refine List.cons_subset.2 ⟨subset_addSample _ _ _ _ _ ?_, ih _ _⟩
    by_cases held : id ∈ out
    · simp [held]
    · simp [held, drawn]

/-! ### Working sets -/

/-- What a relation and a node make of a working set: it begins with what the relation has for the
node, goes on with some of the nodes that name it, and has all of both if none is left out. -/
structure WorksOn (m : IdMap) (sampled node : Nat) (set : List Nat) : Prop where
  begins : ∃ kept, set = m.of node ++ kept ∧ kept.Sublist (m.reverse.of node)
  nodup : set.Nodup
  other : node ∉ set
  whole : (m.reverse.of node).length ≤ sampled →
    ∀ id, id ∈ set ↔ id ∈ m.of node ∨ id ∈ m.reverse.of node

theorem worksOn_workingSet {m : IdMap} (others : m.NamesOthers) (sampled v : Nat)
    (g : Generator) :
    WorksOn m sampled v (workingSet (m.of v) (m.reverse.of v) sampled g).1 where
  begins := addSample_eq_append _ _ _ _ _
  nodup := nodup_addSample (others.nodup v) _ _ _ _
  other mem := by
    rcases mem_workingSet mem with own | back
    · exact (others.isOther own).2 rfl
    · exact (others.reverse.isOther back).2 rfl
  whole le id := by
    refine ⟨mem_workingSet, fun mem => ?_⟩
    rcases mem with own | back
    · exact subset_workingSet _ _ _ _ own
    · exact subset_addSample_of_le (List.length_pos_of_mem back) le _ _ _ back

/-- **Working sets are distinct.** Turned around, a relation that gives each node different other
nodes has for each node exactly those that name it, once and in increasing order, and turned around
twice it has the list of each node in increasing order. The working set of a node is its list,
followed by some of the nodes that name it in their order. It has no node twice and not the node
itself, and if no fewer are sampled than name the node, it has all of both. -/
theorem working_sets_distinct {m : IdMap} (others : m.NamesOthers) :
    m.reverse.size = m.size ∧
    (∀ u, (m.reverse.of u).Pairwise (· < ·) ∧ ∀ v, v ∈ m.reverse.of u ↔ u ∈ m.of v) ∧
    m.reverse.reverse = m.map (fun ids => ids.mergeSort (· ≤ ·)) ∧
    ∀ (sampled v : Nat) (g : Generator),
      WorksOn m sampled v (workingSet (m.of v) (m.reverse.of v) sampled g).1 :=
  ⟨IdMap.size_reverse m,
    fun u => ⟨IdMap.pairwise_reverse others u, fun _ => IdMap.mem_reverse others⟩,
    IdMap.reverse_reverse others, worksOn_workingSet others⟩

/-- Three nodes of which two name both others. -/
def threeNodes : IdMap := #[[1, 2], [2], [1, 0]]

/-- The node that names one other and is named by both works on all three but itself. -/
theorem threeNodes_worked_on :
    threeNodes.NamesOthers ∧ threeNodes.reverse = #[[2], [0, 2], [0, 1]] ∧
    threeNodes.reverse.reverse = #[[1, 2], [2], [0, 1]] ∧ (threeNodes.reverse.of 1).length ≤ 2 ∧
    (workingSet (threeNodes.of 1) (threeNodes.reverse.of 1) 2 (.ofSeed 7)).1 = [2, 0] ∧
    ∀ id, id ∈ (workingSet (threeNodes.of 1) (threeNodes.reverse.of 1) 2 (.ofSeed 7)).1 ↔
      id ∈ [2] ∨ id ∈ [0, 2] := by
  have others : threeNodes.NamesOthers := by decide
  have few : (threeNodes.reverse.of 1).length ≤ 2 := by decide
  obtain ⟨-, -, twice, works⟩ := working_sets_distinct others
  exact ⟨others, by decide, twice.trans (by simp [threeNodes, List.mergeSort]), few,
    by decide +kernel, (works 2 1 (.ofSeed 7)).whole few⟩

/-! ### Working sets of an iteration -/

section

variable {setup : Setup} {capacity sampled : Nat} {s t : State} {c : Candidates}

/-- What lists hold are different other nodes. -/
theorem Sound.namesOthers (sound : Sound setup capacity s) {m : IdMap}
    (size : m.size = setup.nodeCount)
    (rows : ∀ v < setup.nodeCount, ∃ l, s.lists[v]? = some l ∧ (m.of v).Sublist l.ids) :
    m.NamesOthers := by
  intro v known
  obtain ⟨l, hl, sublist⟩ := rows v (size ▸ known)
  have own := sound.lists v l hl
  refine ⟨own.wellFormed.nodup.sublist sublist, fun id named => ?_⟩
  obtain ⟨e, he, rfl⟩ := List.mem_map.1 (sublist.subset named)
  have considered := NeighbourList.forall_mem_neighbours.1 own.considered e he
  exact size ▸ (sound.genuine _ _ _ considered).other

/-- The joins around a node work on such sets, of old and of new neighbours, whatever its generator
has drawn before. -/
theorem worksOn_of_candidates (sound : Sound setup capacity s) {turns : Turns} {stream : Stream}
    (run : (candidates setup turns stream sampled).exec s = (.ok c, t)) (v : Nat) (g : Generator) :
    WorksOn c.old sampled v (workingSet (c.old.of v) (c.reverseOld.of v) sampled g).1 ∧
      WorksOn c.new sampled v (workingSet (c.new.of v) (c.reverseNew.of v) sampled g).1 := by
  obtain ⟨handed, length, rfl, split⟩ := exec_candidates_split sound run
  have others (part : NeighbourList.Parts → List Nat)
      (held : ∀ (l : NeighbourList) (g : Generator), (part (l.split sampled g).1.2).Sublist l.ids) :
      IdMap.NamesOthers (handed.map part).toArray := by
    refine sound.namesOthers (by simpa using length) fun v hv => ?_
    obtain ⟨l, hl, answer, -⟩ := split v hv
    exact ⟨l, hl, by simpa [IdMap.of, answer] using held l (stream.generator v)⟩
  have old := others (·.old) fun l g => (l.handedOut_split sampled g).old_sublist
  have new := others (·.new) fun l g => (l.handedOut_split sampled g).new_sublist
  exact ⟨worksOn_workingSet old sampled v g, worksOn_workingSet new sampled v g⟩

end

end Search

end NeighbourGraph
