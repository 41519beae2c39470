/-
Excluded pairs among the neighbours of a result.

The filter is asked for ordered pairs, and a relationship is found only if its pair was allowed in
the order in which it was scored. That is the order of source and target, unless the metric is
flagged as symmetric: then a pair is scored once for both of its nodes, and the filter is asked in
one order only. So no excluded pair is found if the metric is not flagged, or if the filter does
not mind the order of a pair. A flagged metric and a filter that minds it can come to one.
-/

import NeighbourGraph.Proofs.Results

namespace NeighbourGraph.Search

section

variable {schedule : Schedule} {setup : Setup} {result : Result} {v : Nat} {n : Neighbour}

/-- Every neighbour that a search found came up for its node. -/
theorem genuine_of_mem_run (ok : (runUnder schedule setup).outcome = .ok result)
    (hn : n ∈ result.neighboursOf v) : setup.Genuine v n.id n.similarity := by
  obtain ⟨refinement, s, t, ended⟩ := runUnder_ok ok
  rw [Result.neighboursOf, Array.getD_eq_getD_getElem?, ended.neighbours, Array.getElem?_map] at hn
  cases hl : t.lists[v]? with
  | none => simp [hl] at hn
  | some l =>
    rw [hl, Option.map_some, Option.getD_some] at hn
    exact ended.sound.genuine _ _ _ ((ended.sound.lists v l hl).considered n hn)

/-- Every neighbour that a search for chosen nodes found came up for its node. -/
theorem genuine_of_mem_runFiltered {source target : NodeFilter}
    (ok : (runFilteredUnder schedule setup source target).outcome = .ok result)
    (hn : n ∈ result.neighboursOf v) : setup.Genuine v n.id n.similarity := by
  obtain ⟨found, plain, rfl⟩ := runFilteredUnder_ok ok
  have genuine := genuine_of_logged plain
  have sound : SoundLists setup.nodeCount setup.capacity _ _ := soundLists_watched target genuine
  rw [Result.neighboursOf, Array.getD_eq_getD_getElem?, Array.getElem?_map] at hn
  generalize watched target setup.nodeCount setup.capacity _ = lists at sound hn
  cases hl : lists[v]? with
  | none => simp [hl] at hn
  | some l =>
    rw [hl, Option.map_some, Option.getD_some] at hn
    have held := (chosen_sublist source _ l).mem hn
    exact genuine _ _ _ ((sound.2 v l hl).considered n held)

end

/-- **Excluded pairs stay out, at most turned around.** The pair of a source and a target in a
result was allowed by the filter in this order, or in the other one if the metric is flagged as
symmetric. So no excluded pair is found unless the metric is flagged and the filter minds the order
of a pair. -/
theorem excluded_only_turned_around (schedule : Schedule) (setup : Setup)
    (source target : NodeFilter) {result : Result}
    (ok : (runUnder schedule setup).outcome = .ok result ∨
      (runFilteredUnder schedule setup source target).outcome = .ok result)
    {v : Nat} {n : Neighbour} (hn : n ∈ result.neighboursOf v) :
    (setup.excluded v n.id = false ∨
      setup.metric.symmetric = true ∧ setup.excluded n.id v = false) ∧
    ((setup.metric.symmetric = true → ∀ a < setup.nodeCount, ∀ b < setup.nodeCount,
      setup.excluded a b = setup.excluded b a) → setup.excluded v n.id = false) := by
  have genuine : setup.Genuine v n.id n.similarity := by
    rcases ok with ok | ok
    · exact genuine_of_mem_run ok hn
    · exact genuine_of_mem_runFiltered ok hn
  rcases genuine.scored with ⟨allowed, -⟩ | ⟨symm, allowed, -⟩
  · exact ⟨.inl allowed, fun _ => allowed⟩
  · refine ⟨.inr ⟨symm, allowed⟩, fun both => ?_⟩
    rw [both symm v genuine.node_lt n.id genuine.other.1, allowed]

theorem fourNodes_find_no_excluded :
    ∃ result n, (runFilteredUnder .inOrder fourNodes (· < 3) (1 < ·)).outcome = .ok result ∧
      n ∈ result.neighboursOf 0 ∧ fourNodes.excluded 0 n.id = false := by
  have held : ((runFilteredUnder .inOrder fourNodes (· < 3) (1 < ·)).outcome.toOption.any
      fun r => !(r.neighboursOf 0).isEmpty) = true := by decide +kernel
  generalize outcome : (runFilteredUnder .inOrder fourNodes (· < 3) (1 < ·)).outcome = found at held
  cases found with
  | error cause => cases held
  | ok result =>
    obtain ⟨n, hn⟩ := List.exists_mem_of_ne_nil (result.neighboursOf 0)
      (by simpa [Except.toOption] using held)
    exact ⟨result, n, rfl, hn, (excluded_only_turned_around .inOrder fourNodes _ _ (.inr outcome)
      hn).2 fun _ a _ b _ => BEq.comm⟩

/-- Three nodes under a flagged metric, where 0 may not be a neighbour of 1 but 1 may be one of
0. -/
def lopsided : Setup where
  graph := .nodesOnly 3
  metric := .ofFunction true fun a b => if a + b = 2 then 0.9 else if a + b = 3 then 0.5 else 0.4
  excluded := .ofFunction fun source target => source == 1 && target == 0
  config :=
    { topK := 2, sampleRate := 1.0, maxIterations := 1, randomJoins := 0, seed := some 7
      valid := by decide +kernel }

/-- An excluded pair is found: 0 and 1 meet as neighbours of 2, and the filter is asked for 0 and 1
only. -/
theorem lopsided_finds_excluded :
    lopsided.excluded 1 0 = true ∧ ∃ result, (run lopsided).outcome = .ok result ∧
      (result.neighboursOf 1).map (·.id) = [2, 0] := by
  have found : (run lopsided).outcome.toOption.map
      (fun r => (r.neighboursOf 1).map (·.id)) = some [2, 0] := by decide +kernel
  refine ⟨rfl, ?_⟩
  generalize (run lopsided).outcome = outcome at found
  cases outcome with
  | error cause => cases found
  | ok result => exact ⟨result, rfl, by simpa [Except.toOption] using found⟩

end NeighbourGraph.Search
