/-
The shape of a whole run.

`refined` is what a run has made of the lists in front of its cutoff, the number of its iterations
given. A run that has a result came through `refined` and the cutoff, which scores nothing; over
fewer than two nodes both do nothing.
-/

import NeighbourGraph.Proofs.Search.Iterations
import NeighbourGraph.Proofs.Search.Outset

namespace NeighbourGraph

open NeighbourGraph.Random NeighbourGraph.Search

/-- How many neighbours a list can hold in a run. -/
def Setup.capacity (setup : Setup) : Nat := min setup.config.topK (setup.nodeCount - 1)

/-- What the cutoff makes of a list. -/
def Setup.cut (setup : Setup) (l : NeighbourList) : NeighbourList :=
  if 0.0 < setup.config.similarityCutoff then l.dropBelow setup.config.similarityCutoff else l

@[simp] theorem Setup.cut_empty (setup : Setup) (owner capacity : Nat) :
    setup.cut { owner, capacity } = { owner, capacity } := by
  simp [Setup.cut, NeighbourList.dropBelow]

namespace Search

section

variable {setup : Setup} {capacity : Nat} {s t : State}

/-! ### The cutoff -/

theorem NeighbourList.SoundFor.dropBelow {l : NeighbourList} {v : Nat} {log : Log}
    (h : l.SoundFor v capacity log) (cutoff : Float) :
    (l.dropBelow cutoff).SoundFor v capacity log where
  owner := h.owner
  capacity := h.capacity
  wellFormed := h.wellFormed.dropBelow cutoff
  considered n hn := by
    obtain ⟨e, he, rfl⟩ := List.mem_map.1 hn
    exact NeighbourList.forall_mem_neighbours.1 h.considered e (List.mem_of_mem_filter he)

theorem meets_dropNode (sound : Sound setup capacity s) (cutoff : Float) {v : Nat}
    (hv : v < setup.nodeCount) :
    Meets (changingOwn setup capacity .any v) (dropNode cutoff v)
      (fun _ events t => events = [] ∧ ∃ l, s.lists[v]? = some l ∧
        t.lists[v]? = some (l.dropBelow cutoff)) s := by
  refine (meets_withList sound hv fun l =>
    ⟨trivial, fun log h => NeighbourList.SoundFor.dropBelow h cutoff⟩).imp ?_
  rintro _ events t ⟨rfl, l, hl, -, hl'⟩
  exact ⟨rfl, l, hl, hl'⟩

/-- The cutoff scores nothing and cuts the list of every node. -/
theorem meets_applyCutoff (sound : Sound setup capacity s) (turns : Turns) :
    Meets (changingEach setup capacity .any) (applyCutoff setup turns)
      (fun _ events t => (∀ e ∈ events, e.isProgress = true) ∧
        ∀ v < setup.nodeCount, t.lists[v]? = s.lists[v]?.map setup.cut) s := by
  -- What others do in between leaves the lists as they are.
  have same : ∀ {t}, (changingEach setup capacity .any).rely s t → ∀ v < setup.nodeCount,
      t.lists[v]? = s.lists[v]? := by
    intro t r v hv
    obtain ⟨l, hl, -⟩ := sound.list hv
    obtain ⟨l', hl', same⟩ := (r sound).2.lists v l hl
    rw [hl, hl', Change.none_rel.1 same]
  unfold applyCutoff
  dsimp only
  by_cases positive : 0.0 < setup.config.similarityCutoff
  · rw [if_pos positive]
    refine Meets.bind ((meets_proceed upholding_heeds .cutoff).imp ?_)
    rintro - _ t ⟨rfl, r⟩
    refine Meets.map (f := fun _ => ()) ((meets_phase_own
      (fun v => meets_dropNode (r sound).1 setup.config.similarityCutoff) turns).imp ?_)
    intro _ events u each
    constructor
    · exact each.forall_mem (fun _ => id) fun v _ a events h => by simp [h]
    · intro v hv
      obtain ⟨-, -, -, -, -, l, hl, hl'⟩ := each.get (List.getElem?_range hv)
      rw [hl', ← same r v hv, hl, Option.map_some, Setup.cut, if_pos positive]
  · rw [if_neg positive]
    intro t r
    refine ⟨by simp, fun v hv => ?_⟩
    have cut : setup.cut = id := by
      funext l
      rw [Setup.cut, if_neg positive, id]
    rw [same r v hv, cut, Option.map_id_fun, id]

end

/-! ### Runs -/

/-- What a run has made of the lists in front of its cutoff, after `limit` iterations at most. -/
def refined (schedule : Schedule) (setup : Setup) (limit : Nat) :
    Except SearchError Refinement × State :=
  if setup.nodeCount < 2 then (.ok {}, .start setup.nodeCount 0)
  else
    match ListSize.of setup.config.topK setup.config.sampleRate setup.nodeCount with
    | .error cause => (.error (.settings cause), .start setup.nodeCount 0)
    | .ok k => (refine setup schedule k limit).exec (.start setup.nodeCount k.bounded)

theorem bounded_of {asked nodeCount : Nat} {sampleRate : Float} {k : ListSize}
    (h : ListSize.of asked sampleRate nodeCount = .ok k) :
    k.bounded = min asked (nodeCount - 1) := by
  unfold ListSize.of at h
  split at h
  · cases h
  · split at h
    · cases h
    · cases h
      rfl

variable {schedule : Schedule} {setup : Setup} {limit : Nat} {refinement : Refinement}
  {s : State}

/-- All that iterations keep true holds in front of the cutoff. -/
theorem refined_ok (ok : refined schedule setup limit = (.ok refinement, s)) :
    Refined setup setup.capacity s := by
  unfold refined at ok
  by_cases few : setup.nodeCount < 2
  · rw [if_pos few] at ok
    have : setup.capacity = 0 := by
      unfold Setup.capacity
      omega
    cases ok
    exact this ▸ .start setup 0
  · rw [if_neg few] at ok
    split at ok
    · cases ok
    · next k size =>
      rw [bounded_of size] at ok
      exact exec_refine (by omega) ok

/-- What is left of a run at its end. -/
structure Ended (schedule : Schedule) (setup : Setup) (result : Result) (refinement : Refinement)
    (s t : State) : Prop where
  refined : refined schedule setup setup.config.maxIterations = (.ok refinement, s)
  sound : Sound setup setup.capacity t
  cut : 2 ≤ setup.nodeCount → (applyCutoff setup (schedule .cutoff 0)).exec s = (.ok (), t)
  log : ∃ events, t.log.toList = s.log.toList ++ events ∧ ∀ e ∈ events, e.isProgress = true
  logged : (runUnder schedule setup).log = t.log
  rounds : (runUnder schedule setup).rounds = s.rounds.toList
  lists : t.lists = s.lists.map setup.cut
  neighbours : result.neighbours = t.lists.map NeighbourList.neighbours
  iterations : result.iterations = refinement.iterations
  converged : result.converged = refinement.converged
  pairs : result.pairs = refinement.pairs
  compared : result.nodesCompared = if setup.nodeCount < 2 then 0 else setup.nodeCount

/-- All that is scored in a run is scored in front of its cutoff. -/
theorem Ended.considered_iff {result : Result} {t : State}
    (h : Ended schedule setup result refinement s t) {v c : Nat} {x : Float} :
    Event.considered v c x ∈ (runUnder schedule setup).log ↔ Event.considered v c x ∈ s.log := by
  obtain ⟨events, log, reports⟩ := h.log
  rw [h.logged, ← Array.mem_toList_iff, log, List.mem_append, Array.mem_toList_iff]
  exact or_iff_left fun hx => nomatch reports _ hx

/-- A descent that has a result refined the lists and then cut them. -/
theorem ended_of_descend {k : ListSize} {result : Result} {t : State}
    (others : ¬setup.nodeCount < 2)
    (size : ListSize.of setup.config.topK setup.config.sampleRate setup.nodeCount = .ok k)
    (ran : (descend setup schedule k).exec (.start setup.nodeCount k.bounded) = (.ok result, t))
    (logged : (runUnder schedule setup).log = t.log)
    (rounds : (runUnder schedule setup).rounds = t.rounds.toList) :
    ∃ refinement s, Ended schedule setup result refinement s t := by
  simp only [descend, exec_bind_ok, exec_atomic, exec_pure, Prod.mk.injEq, Except.ok.injEq] at ran
  obtain ⟨refinement, s, before, _, t', cut, lists, _, ⟨rfl, rfl⟩, rfl, rfl⟩ := ran
  have before : refined schedule setup setup.config.maxIterations = (.ok refinement, s) := by
    rw [refined, if_neg others, size]
    exact before
  have soundBefore := (refined_ok before).sound
  obtain ⟨sound, grows, events, log, reports, lists⟩ :=
    (meets_applyCutoff soundBefore (schedule .cutoff 0)).sound_ok soundBefore cut
  have compared : t'.lists.size = if setup.nodeCount < 2 then 0 else setup.nodeCount := by
    rw [if_neg others, sound.size]
  refine ⟨refinement, s, before, sound, fun _ => cut, ⟨events, log, reports⟩, logged,
    grows.rounds ▸ rounds, ?_, rfl, rfl, rfl, rfl, compared⟩
  apply Array.ext_getElem?
  intro v
  rw [Array.getElem?_map]
  by_cases hv : v < setup.nodeCount
  · exact lists v hv
  · rw [Array.getElem?_eq_none (sound.size ▸ Nat.le_of_not_lt hv),
      Array.getElem?_eq_none (soundBefore.size ▸ Nat.le_of_not_lt hv), Option.map_none]

/-- A run that has a result ended with it. -/
theorem runUnder_ok {result : Result} (ok : (runUnder schedule setup).outcome = .ok result) :
    ∃ refinement s t, Ended schedule setup result refinement s t := by
  have way := outset schedule setup
  generalize run : runUnder schedule setup = r at way ok
  cases way with
  | uncovered | told => cases ok
  | few _ few =>
    have ran : refined schedule setup setup.config.maxIterations =
        (.ok {}, .start setup.nodeCount 0) := by
      rw [refined, if_pos few]
    cases ok
    refine ⟨_, _, _, ran, (refined_ok ran).sound, fun _ => by omega, ⟨[], by simp, by simp⟩,
      by rw [run]; rfl, by rw [run]; rfl, ?_, ?_, rfl, rfl, rfl, (if_pos few).symm⟩
    · simp [State.start, emptyLists]
    · apply Array.ext
      · simp [Result.empty, State.start, emptyLists]
      · simp [Result.empty, State.start, emptyLists, NeighbourList.neighbours]
  | goesOn _ others _ size =>
    obtain ⟨refinement, s, ended⟩ := ended_of_descend (by omega) size (Prod.ext ok rfl)
      (congrArg Run.log run) (congrArg Run.rounds run)
    exact ⟨refinement, s, _, ended⟩

/-! ### Outcomes and a small setup -/

theorem exists_of_isOk {ε α : Type} {outcome : Except ε α} (ok : outcome.isOk = true) :
    ∃ a, outcome = .ok a := by
  cases outcome with
  | error cause => cases ok
  | ok a => exact ⟨a, rfl⟩

theorem exists_of_not_isOk {ε α : Type} {outcome : Except ε α} (notOk : outcome.isOk = false) :
    ∃ cause, outcome = .error cause := by
  cases outcome with
  | error cause => exact ⟨cause, rfl⟩
  | ok a => cases notOk

/-- Four nodes of which the first two and the last two are nearest to each other. -/
def fourNodes : Setup where
  graph := .nodesOnly 4
  metric := .ofFunction true fun a b => if a + b = 1 then 0.9 else if a + b = 5 then 0.5 else 0.1
  excluded := .standard
  config :=
    { topK := 2, sampleRate := 1.0, maxIterations := 3, randomJoins := 1, seed := some 7
      concurrency := 2, minBatchSize := 1, valid := by decide +kernel }

theorem score_fourNodes (a b : Nat) :
    fourNodes.metric.score a b =
      .ok (if a + b = 1 then 0.9 else if a + b = 5 then 0.5 else 0.1) := by
  simp only [Metric.score, fourNodes, Metric.ofFunction]
  rw [if_pos]
  split
  · decide +kernel
  · split <;> decide +kernel

theorem score_fourNodes_comm (a b : Nat) :
    fourNodes.metric.score a b = fourNodes.metric.score b a := by
  rw [score_fourNodes, score_fourNodes, Nat.add_comm]

theorem honest_fourNodes : fourNodes.metric.Honest :=
  Metric.honest_of_comm fun a b _ score => score_fourNodes_comm b a ▸ score

end Search

end NeighbourGraph
