/-
A search keeps the best of everything it scored.

Whatever the metric, the filter, the settings and the turns of the tasks, the list of each node in
front of the cutoff holds as many of the candidates that were scored for the node as it has room
for, and none that was left out is more similar than one that is held. Evictions and ties do not
change that, nor does the number of times that a candidate is offered.
-/

import Mathlib.Data.Finset.Card
import NeighbourGraph.Proofs.Search.Run

namespace NeighbourGraph.Search

open NeighbourGraph.Random

/-- The candidates that were scored for a node. -/
def candidatesOf (log : Log) (node : Nat) : Finset Nat :=
  (log.toList.filterMap fun e => match e.considered? with
    | some (v, c, _) => if v = node then some c else none
    | none => none).toFinset

theorem mem_candidatesOf {log : Log} {node c : Nat} :
    c ∈ candidatesOf log node ↔ ∃ x, Event.considered node c x ∈ log := by
  simp only [candidatesOf, List.mem_toFinset, List.mem_filterMap, Array.mem_toList_iff]
  constructor
  · rintro ⟨e, he, h⟩
    cases e with
    | considered v c' x =>
      simp only [Event.considered?, Option.ite_none_right_eq_some, Option.some.injEq] at h
      obtain ⟨rfl, rfl⟩ := h
      exact ⟨x, he⟩
    | started | advanced | ended | offered | scored | entered => simp [Event.considered?] at h
  · rintro ⟨x, hx⟩
    exact ⟨_, hx, by simp [Event.considered?]⟩

section

variable {setup : Setup} {capacity : Nat} {s : State} {v : Nat} {l : NeighbourList}

/-- A list has as many of the candidates that were scored for its node as it has room for. -/
theorem Refined.size_eq (h : Refined setup capacity s) (honest : setup.metric.Honest)
    (hl : s.lists[v]? = some l) : l.size = min capacity (candidatesOf s.log v).card := by
  have sound := h.sound.lists v l hl
  have le_capacity := sound.capacity ▸ sound.wellFormed.size_le
  have sub : l.ids.toFinset ⊆ candidatesOf s.log v := by
    intro id hid
    obtain ⟨e, he, rfl⟩ := List.mem_map.1 (List.mem_toFinset.1 hid)
    exact mem_candidatesOf.2 ⟨_, NeighbourList.forall_mem_neighbours.1 sound.considered e he⟩
  have size : l.ids.toFinset.card = l.size := by
    rw [List.toFinset_card_of_nodup sound.wellFormed.nodup]
    simp [NeighbourList.ids, NeighbourList.size]
  have le_card := size ▸ Finset.card_le_card sub
  by_cases room : l.size < capacity
  · have all : candidatesOf s.log v ⊆ l.ids.toFinset := by
      intro c hc
      obtain ⟨x, hx⟩ := mem_candidatesOf.1 hc
      obtain ⟨l', hl', settles⟩ := h.settled honest v c x (by simpa using hx)
      obtain rfl : l = l' := Option.some.inj (hl.symm.trans hl')
      exact List.mem_toFinset.2 (NeighbourList.Settles.mem_ids settles (sound.capacity ▸ room))
    have := size ▸ Finset.card_le_card all
    omega
  · omega

/-- A candidate that is left out is no more similar than any that is held. -/
theorem Refined.le_of_notMem (h : Refined setup capacity s) (honest : setup.metric.Honest)
    (hl : s.lists[v]? = some l) {c : Nat} (hc : c ∈ candidatesOf s.log v) (out : c ∉ l.ids) :
    ∃ x, setup.metric.score v c = .ok x ∧ ∀ e ∈ l.entries, x ≤ e.similarity := by
  obtain ⟨y, hy⟩ := mem_candidatesOf.1 hc
  obtain ⟨x, score, eq⟩ := (h.sound.genuine v c y hy).score_eq honest
  obtain ⟨l', hl', settles⟩ := h.settled honest v c y (by simpa using hy)
  obtain rfl : l = l' := Option.some.inj (hl.symm.trans hl')
  refine ⟨x, score, ?_⟩
  intro e he
  rcases settles with ⟨e, he, rfl, -⟩ | ⟨-, least⟩
  · exact absurd (List.mem_map_of_mem he) out
  · exact Number.le_trans (Number.beq_iff_le_and_ge.1 eq).2 (least e he)

end

/-- **The lists hold the best candidates.** In front of the cutoff, the list of a node holds the
best of all candidates that the run scored for it: as many as there is room for, each with the score
of the node and the candidate, and none less similar than one that was left out. The similarity is
the very number that the metric gives for the node and the candidate, unless a symmetric metric has
another zero for the candidate and the node. -/
theorem holds_best_of_scored (schedule : Schedule) (setup : Setup) (honest : setup.metric.Honest)
    {result : Result} (ok : (runUnder schedule setup).outcome = .ok result) {v : Nat}
    (hv : v < setup.nodeCount) :
    ∃ l, (refined schedule setup setup.config.maxIterations).2.lists[v]? = some l ∧
      l.ids.Nodup ∧
      l.size = min (min setup.config.topK (setup.nodeCount - 1))
        (candidatesOf (runUnder schedule setup).log v).card ∧
      (∀ e ∈ l.entries, e.id ∈ candidatesOf (runUnder schedule setup).log v ∧
        ∃ x, setup.metric.score v e.id = .ok x ∧ (e.similarity == x) = true ∧
          (setup.metric.symmetric = false ∨
            setup.metric.score e.id v = setup.metric.score v e.id → e.similarity = x)) ∧
      ∀ c ∈ candidatesOf (runUnder schedule setup).log v, c ∉ l.ids →
        ∃ x, setup.metric.score v c = .ok x ∧ ∀ e ∈ l.entries, ¬e.similarity < x := by
  obtain ⟨refinement, s, t, ended⟩ := runUnder_ok ok
  have refined := refined_ok ended.refined
  obtain ⟨l, hl, soundFor⟩ := refined.sound.list hv
  have scored : candidatesOf (runUnder schedule setup).log v = candidatesOf s.log v := by
    ext c
    simp only [mem_candidatesOf, ended.considered_iff]
  rw [ended.refined, scored]
  refine ⟨l, hl, soundFor.wellFormed.nodup, refined.size_eq honest hl, ?_, ?_⟩
  · intro e he
    have considered := NeighbourList.forall_mem_neighbours.1 soundFor.considered e he
    have genuine := refined.sound.genuine _ _ _ considered
    obtain ⟨x, score, eq⟩ := genuine.score_eq honest
    refine ⟨mem_candidatesOf.2 ⟨_, considered⟩, x, score, eq, ?_⟩
    intro same
    exact Except.ok.inj ((genuine.score_of_eq same).symm.trans score)
  · intro c hc out
    obtain ⟨x, score, le⟩ := refined.le_of_notMem honest hl hc out
    refine ⟨x, score, ?_⟩
    intro e he
    rw [Number.not_lt (soundFor.wellFormed.finite e he) (Metric.isFinite_of_score score)]
    exact le e he

theorem fourNodes_hold_best :
    ∃ result l, (runUnder .inOrder fourNodes).outcome = .ok result ∧
      (refined .inOrder fourNodes fourNodes.config.maxIterations).2.lists[0]? = some l ∧
      l.size = 2 ∧ (candidatesOf (runUnder .inOrder fourNodes).log 0).card = 3 ∧
      ∀ c ∈ candidatesOf (runUnder .inOrder fourNodes).log 0, c ∉ l.ids →
        ∃ x, fourNodes.metric.score 0 c = .ok x ∧ ∀ e ∈ l.entries, ¬e.similarity < x := by
  have ok : (runUnder .inOrder fourNodes).outcome.isOk = true := by decide +kernel
  have scored : (candidatesOf (runUnder .inOrder fourNodes).log 0).card = 3 := by decide +kernel
  generalize outcome : (runUnder .inOrder fourNodes).outcome = found at ok
  cases found with
  | error cause => cases ok
  | ok result =>
    obtain ⟨l, hl, -, size, -, best⟩ :=
      holds_best_of_scored .inOrder fourNodes honest_fourNodes outcome (v := 0) (by decide)
    rw [scored] at size
    exact ⟨result, l, rfl, hl, size, scored, best⟩

end NeighbourGraph.Search
