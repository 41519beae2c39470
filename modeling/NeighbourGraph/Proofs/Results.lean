/-
Every result is well-formed.

Each node has one list of neighbours, within the capacity, of other nodes, none of them twice, with
finite similarities, best first. That holds of searches over all nodes and for chosen ones,
whatever the graph, the metric, the filter, the settings and the turns of the tasks. A result is
then the same thing as its relationships: each pair has one at most.
-/

import NeighbourGraph.Proofs.Search.Run
import NeighbourGraph.Search.Filtered

namespace NeighbourGraph

open NeighbourGraph.Search

/-! ### Well-formed results -/

/-- Neighbours of `node`: no more than `capacity`, all of them other nodes, none twice, with finite
similarities, best first. -/
structure AreNeighbours (nodeCount capacity node : Nat) (ns : List Neighbour) : Prop where
  length_le : ns.length ≤ capacity
  node_notMem : node ∉ ns.map (·.id)
  nodup : (ns.map (·.id)).Nodup
  id_lt : ∀ n ∈ ns, n.id < nodeCount
  finite : ∀ n ∈ ns, n.similarity.isFinite = true
  ordered : ns.Pairwise fun a b => b.similarity ≤ a.similarity

theorem AreNeighbours.sublist {nodeCount capacity node : Nat} {ns ns' : List Neighbour}
    (h : AreNeighbours nodeCount capacity node ns) (sub : ns'.Sublist ns) :
    AreNeighbours nodeCount capacity node ns' where
  length_le := sub.length_le.trans h.length_le
  node_notMem := fun mem => h.node_notMem ((sub.map _).mem mem)
  nodup := h.nodup.sublist (sub.map _)
  id_lt n hn := h.id_lt n (sub.mem hn)
  finite n hn := h.finite n (sub.mem hn)
  ordered := h.ordered.sublist sub

namespace Result

/-- One list of neighbours for each node. -/
structure WellFormed (r : Result) (nodeCount capacity : Nat) : Prop where
  size : r.neighbours.size = nodeCount
  lists : ∀ v ns, r.neighbours[v]? = some ns → AreNeighbours nodeCount capacity v ns

theorem mem_relationships {r : Result} {e : SimilarityResult} :
    e ∈ r.relationships ↔ ∃ n ∈ r.neighboursOf e.source, n.id = e.target ∧
      n.similarity = e.similarity := by
  simp only [relationships, neighboursOf, List.mem_flatMap, List.mem_map, Prod.exists,
    List.mem_zipIdx_iff_getElem?, Array.getElem?_toList, Array.getD_eq_getD_getElem?]
  constructor
  · rintro ⟨ns, s, hns, n, hn, rfl⟩
    exact ⟨n, by simpa [hns] using hn, rfl, rfl⟩
  · rintro ⟨n, hn, target, similarity⟩
    cases hns : r.neighbours[e.source]? with
    | none => simp [hns] at hn
    | some ns => exact ⟨ns, e.source, hns, n, by simpa [hns] using hn, by rw [target, similarity]⟩

/-- How many relationships there are. -/
theorem length_relationships (r : Result) : r.relationships.length = r.size := by
  simp only [relationships, size, List.length_flatMap, List.length_map, List.length_flatten]
  conv_rhs => rw [← List.zipIdx_map_fst 0 r.neighbours.toList, List.map_map]
  rfl

variable {r : Result} {nodeCount capacity : Nat}

theorem WellFormed.neighboursOf (h : r.WellFormed nodeCount capacity) (v : Nat) :
    AreNeighbours nodeCount capacity v (r.neighboursOf v) := by
  rw [Result.neighboursOf, Array.getD_eq_getD_getElem?]
  cases hns : r.neighbours[v]? with
  | none => exact ⟨Nat.zero_le _, by simp, .nil, by simp, by simp, .nil⟩
  | some ns => exact h.lists v ns hns

theorem find?_id_eq_some_iff {ns : List Neighbour} (nodup : (ns.map (·.id)).Nodup) {id : Nat}
    {n : Neighbour} : ns.find? (·.id == id) = some n ↔ n ∈ ns ∧ n.id = id := by
  induction ns with
  | nil => simp
  | cons first rest ih =>
    obtain ⟨new, nodup⟩ := List.nodup_cons.1 nodup
    by_cases eq : first.id = id
    · have : ∀ m ∈ rest, m.id ≠ id := fun m hm same =>
        new (List.mem_map.2 ⟨m, hm, same.trans eq.symm⟩)
      simp [eq]
      grind
    · simp [eq, ih nodup]
      grind

/-- A similarity is looked up exactly where there is a relationship. -/
theorem WellFormed.similarityOf_eq_some_iff (h : r.WellFormed nodeCount capacity)
    {s t : Nat} {x : Float} : r.similarityOf s t = some x ↔ ⟨s, t, x⟩ ∈ r.relationships := by
  rw [mem_relationships, similarityOf, Option.map_eq_some_iff]
  simp only [find?_id_eq_some_iff (h.neighboursOf s).nodup, and_assoc]

/-- No pair has two relationships. -/
theorem WellFormed.nodup_pairs (h : r.WellFormed nodeCount capacity) :
    (r.relationships.map fun e => (e.source, e.target)).Nodup := by
  have sources : r.neighbours.toList.zipIdx.Pairwise fun a b => a.2 ≠ b.2 := by
    have : (r.neighbours.toList.zipIdx.map Prod.snd).Nodup := by
      rw [List.zipIdx_map_snd]
      exact List.nodup_range'
    exact List.pairwise_map.1 this
  rw [relationships, List.map_flatMap, List.nodup_flatMap]
  constructor
  · rintro ⟨ns, s⟩ hns
    rw [List.mem_zipIdx_iff_getElem?, Array.getElem?_toList] at hns
    have targets := (h.lists s ns hns).nodup.map (Prod.mk_right_injective s)
    simpa [Function.comp_def] using targets
  · apply sources.imp
    intro a b ne pair ha hb
    simp only [List.map_map, List.mem_map, Function.comp_apply] at ha hb
    obtain ⟨m, -, rfl⟩ := ha
    obtain ⟨n, -, eq⟩ := hb
    exact ne (congrArg Prod.fst eq).symm

end Result

namespace Search

section

variable {setup : Setup} {capacity : Nat} {s : State}

/-! ### Results of runs -/

theorem NeighbourList.SoundFor.areNeighbours {l : NeighbourList} {v : Nat} {log : Log}
    (h : l.SoundFor v capacity log)
    (genuine : ∀ v c x, Event.considered v c x ∈ log → setup.Genuine v c x) :
    AreNeighbours setup.nodeCount capacity v l.neighbours := by
  obtain ⟨length_le, node_notMem, nodup, finite, ordered⟩ :=
    NeighbourList.wellFormed_iff.1 h.wellFormed
  rw [h.capacity] at length_le
  rw [h.owner] at node_notMem
  exact ⟨length_le, node_notMem, nodup,
    fun n hn => (genuine v _ _ (h.considered n hn)).other.1, finite, ordered⟩

/-- A sound list for each node. -/
def SoundLists (nodeCount capacity : Nat) (log : Log) (lists : Array NeighbourList) : Prop :=
  lists.size = nodeCount ∧
    ∀ (v : Nat) (l : NeighbourList), lists[v]? = some l → l.SoundFor v capacity log

/-- To watch an event that was logged keeps lists sound. -/
theorem SoundLists.watch {lists : Array NeighbourList} {log : Log}
    (h : SoundLists setup.nodeCount capacity log lists) (target : NodeFilter) {e : Event}
    (he : e ∈ log) (genuine : ∀ v c x, Event.considered v c x ∈ log → setup.Genuine v c x) :
    SoundLists setup.nodeCount capacity log (watch target lists e) := by
  unfold Search.watch
  cases considered : e.considered? with
  | none => exact h
  | some scored =>
    obtain ⟨node, c, x⟩ := scored
    obtain rfl : e = .considered node c x := by
      cases e <;> simp_all [Event.considered?]
    dsimp only
    split
    · constructor
      · simp [h.1]
      · intro v l' hl'
        rw [Array.getElem?_modify] at hl'
        split at hl'
        · next eq =>
          subst eq
          obtain ⟨l, hl, rfl⟩ := Option.map_eq_some_iff.1 hl'
          exact (l.offered_addKeepingTies c x).soundFor (h.2 _ l hl) he (genuine _ _ _ he).isFinite
        · exact h.2 v l' hl'
    · exact h

/-- Lists that watched a log of genuine candidates are sound. -/
theorem soundLists_watched (target : NodeFilter) {log : Log}
    (genuine : ∀ v c x, Event.considered v c x ∈ log → setup.Genuine v c x) :
    SoundLists setup.nodeCount capacity log (watched target setup.nodeCount capacity log) := by
  have start : SoundLists setup.nodeCount capacity log (emptyLists setup.nodeCount capacity) := by
    constructor
    · exact size_emptyLists _ _
    · intro v l hl
      obtain ⟨-, rfl⟩ := getElem?_emptyLists.1 hl
      exact .empty v capacity log
  unfold watched
  rw [← Array.foldl_toList]
  generalize emptyLists setup.nodeCount capacity = lists at start
  have logged : ∀ e ∈ log.toList, e ∈ log := fun e => Array.mem_toList_iff.1
  generalize log.toList = events at logged
  induction events generalizing lists with
  | nil => exact start
  | cons e rest ih =>
    exact ih _ (start.watch target (logged e (by simp)) genuine) fun e he => logged e (by simp [he])

theorem runUnder_wellFormed {schedule : Schedule} {result : Result}
    (ok : (runUnder schedule setup).outcome = .ok result) :
    result.WellFormed setup.nodeCount setup.capacity := by
  obtain ⟨refinement, s, t, ended⟩ := runUnder_ok ok
  constructor
  · simp [ended.neighbours, ended.sound.size]
  · intro v ns hns
    rw [ended.neighbours, Array.getElem?_map, Option.map_eq_some_iff] at hns
    obtain ⟨l, hl, rfl⟩ := hns
    exact NeighbourList.SoundFor.areNeighbours (ended.sound.lists v l hl) ended.sound.genuine

/-- Whatever a run with a result scored came up for its node. -/
theorem genuine_of_logged {schedule : Schedule} {result : Result}
    (ok : (runUnder schedule setup).outcome = .ok result) :
    ∀ v c x, Event.considered v c x ∈ (runUnder schedule setup).log → setup.Genuine v c x := by
  obtain ⟨refinement, s, t, ended⟩ := runUnder_ok ok
  exact ended.logged ▸ ended.sound.genuine

/-- The result of a search for chosen nodes is that of the search over all nodes, with what the
second lists kept for the accepted sources. -/
theorem runFilteredUnder_ok {schedule : Schedule} {source target : NodeFilter} {result : Result}
    (ok : (runFilteredUnder schedule setup source target).outcome = .ok result) :
    ∃ found, (runUnder schedule setup).outcome = .ok found ∧
      result = { found with
        neighbours := (watched target setup.nodeCount setup.capacity
          (runUnder schedule setup).log).map (chosen source setup.config.similarityCutoff) } := by
  unfold runFilteredUnder at ok
  dsimp only at ok
  cases plain : (runUnder schedule setup).outcome with
  | error cause => simp [plain, Except.map] at ok
  | ok found =>
    simp only [plain, Except.map, Except.ok.injEq] at ok
    exact ⟨found, rfl, ok.symm⟩

theorem chosen_sublist (source : NodeFilter) (cutoff : Float) (l : NeighbourList) :
    (chosen source cutoff l).Sublist l.neighbours := by
  unfold chosen
  split
  · exact List.filter_sublist
  · exact List.nil_sublist _

theorem runFilteredUnder_wellFormed {schedule : Schedule} {source target : NodeFilter}
    {result : Result} (ok : (runFilteredUnder schedule setup source target).outcome = .ok result) :
    result.WellFormed setup.nodeCount setup.capacity := by
  obtain ⟨found, plain, rfl⟩ := runFilteredUnder_ok ok
  have genuine := genuine_of_logged plain
  have sound : SoundLists setup.nodeCount setup.capacity _ _ := soundLists_watched target genuine
  constructor
  · exact Array.size_map.trans sound.1
  · intro v ns hns
    obtain ⟨l, hl, rfl⟩ := Option.map_eq_some_iff.1 (Array.getElem?_map ▸ hns)
    exact (NeighbourList.SoundFor.areNeighbours (sound.2 v l hl) genuine).sublist
      (chosen_sublist source _ l)

end

/-- **Every result of a search is well-formed**, over all nodes or for chosen ones. So a similarity
is looked up exactly where there is a relationship, each pair has one at most, and the size of the
result is the number of its relationships. -/
theorem results_wellFormed (schedule : Schedule) (setup : Setup) (source target : NodeFilter)
    {result : Result} (ok : (runUnder schedule setup).outcome = .ok result ∨
      (runFilteredUnder schedule setup source target).outcome = .ok result) :
    result.WellFormed setup.nodeCount (min setup.config.topK (setup.nodeCount - 1)) ∧
      (∀ s t x, result.similarityOf s t = some x ↔ ⟨s, t, x⟩ ∈ result.relationships) ∧
      (result.relationships.map fun e => (e.source, e.target)).Nodup ∧
      result.size = result.relationships.length := by
  have wf : result.WellFormed setup.nodeCount (min setup.config.topK (setup.nodeCount - 1)) := by
    rcases ok with ok | ok
    · exact runUnder_wellFormed ok
    · exact runFilteredUnder_wellFormed ok
  exact ⟨wf, fun s t x => wf.similarityOf_eq_some_iff, wf.nodup_pairs,
    result.length_relationships.symm⟩

theorem fourNodes_results_wellFormed :
    ∃ result, (runFilteredUnder .inOrder fourNodes (· < 3) (1 < ·)).outcome = .ok result ∧
      result.WellFormed fourNodes.nodeCount
        (min fourNodes.config.topK (fourNodes.nodeCount - 1)) := by
  have ok : (runFilteredUnder .inOrder fourNodes (· < 3) (1 < ·)).outcome.isOk = true := by
    decide +kernel
  generalize outcome : (runFilteredUnder .inOrder fourNodes (· < 3) (1 < ·)).outcome = found at ok
  cases found with
  | error cause => cases ok
  | ok result =>
    exact ⟨result, rfl, (results_wellFormed .inOrder fourNodes _ _ (.inr outcome)).1⟩

end Search

end NeighbourGraph
