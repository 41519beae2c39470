/-
The symmetric flag of a metric only saves scores.

Where neither the metric nor the filter minds the order of two nodes, a search whose metric is
flagged as symmetric and one whose metric is not find the same neighbours in as many iterations,
and the second one scores as many pairs as the first at least and twice as many at most.
-/

import NeighbourGraph.Proofs.Search.Flagged
import NeighbourGraph.Proofs.Search.Run

namespace NeighbourGraph

open NeighbourGraph.Random NeighbourGraph.Search

namespace Search

section

variable {E : Float → Float → Prop} {setup : Setup}

/-! ### Searches -/

/-- As many iterations, and no more pairs than the other one, which has twice as many at most. -/
structure Refinement.Saves (r r' : Refinement) : Prop where
  iterations : r.iterations = r'.iterations
  converged : r.converged = r'.converged
  le : r.pairs ≤ r'.pairs
  le_double : r'.pairs ≤ 2 * r.pairs

theorem twins_iteration (hE : Number.Congruent E) (even : setup.EvenHanded E)
    (others : 2 ≤ setup.nodeCount) (sampled : Nat) (splitStream joinStream : Stream) :
    Twins E setup.nodeCount setup.MayStop Tally.Saves
      (iteration (setup.flagged true) (fun _ => .inOrder) sampled splitStream joinStream)
      (iteration (setup.flagged false) (fun _ => .inOrder) sampled splitStream joinStream) := by
  have rounds : ∀ f f' : State → Array (Option Tally),
      Twins E setup.nodeCount setup.MayStop (fun _ _ => True)
        (atomic fun s => ((), { s with rounds := f s }))
        (atomic fun s => ((), { s with rounds := f' s })) :=
    fun f f' => twins_atomic fun _ _ alike =>
      ⟨trivial, alike.size, alike.size', alike.lists, alike.known⟩
  refine (rounds _ _).bind fun _ _ _ => (twins_candidates splitStream sampled).bind ?_
  rintro c _ ⟨rfl, known⟩
  apply (twins_join hE even others known joinStream sampled).bind
  intro tally tally' saves
  exact (rounds _ _).bind fun _ _ _ => twins_pure saves

theorem twins_iterate (hE : Number.Congruent E) (even : setup.EvenHanded E)
    (others : 2 ≤ setup.nodeCount) (sampled threshold limit : Nat) (streams : Streams)
    {soFar soFar' : Refinement} (saves : soFar.Saves soFar') :
    Twins E setup.nodeCount setup.MayStop Refinement.Saves
      (iterate (setup.flagged true) Schedule.inOrder sampled threshold streams soFar limit)
      (iterate (setup.flagged false) Schedule.inOrder sampled threshold streams soFar' limit) := by
  induction limit generalizing streams soFar soFar' with
  | zero => exact twins_pure saves
  | succ limit ih =>
    apply (twins_iteration hE even others sampled _ _).bind
    intro tally tally' h
    have le := saves.le
    have le_double := saves.le_double
    have le' := h.le
    have le_double' := h.le_double
    rw [h.updates]
    split
    · exact twins_pure ⟨by rw [saves.iterations], rfl, by dsimp only; omega, by dsimp only; omega⟩
    · exact ih _ ⟨by rw [saves.iterations], rfl, by dsimp only; omega, by dsimp only; omega⟩

theorem twins_refine (hE : Number.Congruent E) (even : setup.EvenHanded E)
    (others : 2 ≤ setup.nodeCount) (k : ListSize) (limit : Nat) :
    Twins E setup.nodeCount setup.MayStop Refinement.Saves
      (refine (setup.flagged true) Schedule.inOrder k limit)
      (refine (setup.flagged false) Schedule.inOrder k limit) :=
  (twins_fill hE even _ _).bind fun _ _ h =>
    twins_iterate hE even others _ _ _ _ ⟨rfl, rfl, h.le, h.le_double⟩

theorem twins_dropNode (hE : Number.Congruent E) (cutoff : Float) (v : Nat) :
    Twins E setup.nodeCount setup.MayStop (fun _ _ => True) (dropNode cutoff v)
      (dropNode cutoff v) := by
  apply twins_atomic
  intro s t alike
  apply alike.withList (V := fun _ _ => True) v trivial
  intro l l' alike known
  refine ⟨trivial, alike.dropBelow hE cutoff, fun id hid => known id ?_⟩
  exact (List.filter_sublist.map _).mem hid

theorem twins_applyCutoff (hE : Number.Congruent E) :
    Twins E setup.nodeCount setup.MayStop (fun _ _ => True)
      (applyCutoff (setup.flagged true) Turns.inOrder)
      (applyCutoff (setup.flagged false) Turns.inOrder) := by
  by_cases positive : 0.0 < setup.config.similarityCutoff
  · simp only [applyCutoff, Setup.flagged_config, positive, if_true]
    refine (twins_proceed .cutoff).bind fun _ _ _ => ?_
    exact (twins_phase .cutoff fun v _ => twins_dropNode hE _ v).bind fun _ _ _ =>
      twins_pure trivial
  · simp only [applyCutoff, Setup.flagged_config, positive, if_false]
    exact twins_pure trivial

end

end Search

/-- The same neighbours in the same order, with similarities that are related, found in as many
iterations, with no more pairs than the other one, which has twice as many at most. -/
structure Result.Saves (E : Float → Float → Prop) (r r' : Result) : Prop where
  neighbours : List.Forall₂ (List.Forall₂ fun n n' : Neighbour =>
    n.id = n'.id ∧ E n.similarity n'.similarity) r.neighbours.toList r'.neighbours.toList
  iterations : r.iterations = r'.iterations
  converged : r.converged = r'.converged
  nodesCompared : r.nodesCompared = r'.nodesCompared
  le : r.pairs ≤ r'.pairs
  le_double : r'.pairs ≤ 2 * r.pairs

theorem Result.Saves.empty (E : Float → Float → Prop) (n : Nat) :
    (Result.empty n).Saves E (Result.empty n) where
  neighbours := by
    rw [List.forall₂_same]
    intro ns hns
    obtain ⟨-, rfl⟩ : n ≠ 0 ∧ ns = [] := by simpa [Result.empty] using hns
    exact .nil
  iterations := rfl
  converged := rfl
  nodesCompared := rfl
  le := Nat.le_refl _
  le_double := Nat.zero_le _

/-- Where the numbers are the same, so are the neighbours. -/
theorem Result.Saves.neighbours_eq {r r' : Result} (h : r.Saves Eq r') :
    r.neighbours = r'.neighbours := by
  have same : (fun n n' : Neighbour => n.id = n'.id ∧ n.similarity = n'.similarity) = Eq := by
    funext n n'
    cases n
    cases n'
    simp
  have lists := h.neighbours
  rw [same, List.forall₂_eq_eq_eq, List.forall₂_eq_eq_eq] at lists
  exact Array.toList_inj.1 lists

namespace Search

variable {E : Float → Float → Prop} {setup : Setup}

theorem State.Alike.forall₂_lists {n : Nat} {s t : State} (h : s.Alike E n t) :
    List.Forall₂ (NeighbourList.Alike E) s.lists.toList t.lists.toList := by
  rw [List.forall₂_iff_get]
  constructor
  · simp [h.size, h.size']
  · intro v hv hv'
    exact h.lists v _ _ (by simp) (by simp)

theorem twins_descend (hE : Number.Congruent E) (even : setup.EvenHanded E)
    (others : 2 ≤ setup.nodeCount) (k : ListSize) :
    Twins E setup.nodeCount setup.MayStop (Result.Saves E)
      (descend (setup.flagged true) Schedule.inOrder k)
      (descend (setup.flagged false) Schedule.inOrder k) := by
  apply (twins_refine hE even others k _).bind
  intro refinement refinement' saves
  refine (twins_applyCutoff hE).bind fun _ _ _ => ?_
  have lists : Twins E setup.nodeCount setup.MayStop
      (fun lists lists' => List.Forall₂ (NeighbourList.Alike E) lists.toList lists'.toList)
      (atomic fun s => (s.lists, s)) (atomic fun s => (s.lists, s)) :=
    twins_atomic fun s t alike => ⟨alike.forall₂_lists, alike⟩
  refine lists.bind fun lists lists' alike => twins_pure ?_
  exact
    { neighbours := by
        simp only [Array.toList_map]
        refine List.rel_map (fun l l' h => ?_) alike
        exact List.rel_map (fun e e' h => ⟨h.id, h.similarity⟩) h.entries
      iterations := saves.iterations
      converged := saves.converged
      nodesCompared := by simpa using alike.length_eq
      le := saves.le
      le_double := saves.le_double }

theorem State.Alike.start (E : Float → Float → Prop) (n capacity : Nat) :
    (State.start n capacity).Alike E n (State.start n capacity) where
  size := size_emptyLists n capacity
  size' := size_emptyLists n capacity
  lists v l l' hl hl' := by
    obtain ⟨-, rfl⟩ := getElem?_emptyLists.1 hl
    obtain ⟨-, rfl⟩ := getElem?_emptyLists.1 hl'
    exact ⟨rfl, rfl, .nil⟩
  known v l hl := by
    obtain ⟨-, rfl⟩ := getElem?_emptyLists.1 hl
    simp [NeighbourList.ids]

/-- Runs under one flag and the other come to the same. -/
theorem agree_run (hE : Number.Congruent E) (even : setup.EvenHanded E) :
    ∃ s t, Agree E setup.nodeCount setup.MayStop (Result.Saves E)
      ((run (setup.flagged true)).outcome, s) ((run (setup.flagged false)).outcome, t) := by
  have go : ∃ s t, Agree E setup.nodeCount setup.MayStop (Result.Saves E)
      ((runUnder.go .inOrder (setup.flagged true) setup.nodeCount).outcome, s)
      ((runUnder.go .inOrder (setup.flagged false) setup.nodeCount).outcome, t) := by
    simp only [runUnder.go, Setup.flagged_stopped, Setup.flagged_config]
    by_cases few : setup.nodeCount < 2
    · simp only [few, if_true]
      exact ⟨_, _, .ok (.empty E _) (.start E _ 0)⟩
    by_cases stop : setup.stopped #[] = true
    · simp only [few, stop, if_true, if_false]
      exact ⟨.start 0 0, .start 0 0, .error _⟩
    simp only [few, stop, if_false]
    cases ListSize.of setup.config.topK setup.config.sampleRate setup.nodeCount with
    | error cause => exact ⟨.start 0 0, .start 0 0, .error _⟩
    | ok k => exact ⟨_, _, twins_descend hE even (by omega) k _ _ (.start E _ _)⟩
  simp only [run, runUnder, Setup.flagged_covered, Setup.flagged_nodeCount]
  cases setup.metric.nodeCount with
  | none => exact go
  | some covered =>
    by_cases eq : covered = setup.nodeCount
    · simpa only [ne_eq, eq, not_true, if_false] using go
    · simp only [ne_eq, eq, not_false_iff, if_true]
      exact ⟨.start 0 0, .start 0 0, .error _⟩

end Search

/-- **The symmetry flag only saves scores.** Flagged as symmetric or not, a metric leads to the same
neighbours in the same order, after as many iterations, and the flag never costs a score nor saves
more than every second one, if neither the metric nor the filter minds the order of two nodes. A
search that is never told to stop fails for the same reasons under both flags. -/
theorem symmetric_flag_only_saves_scores (setup : Setup)
    (scores : ∀ a < setup.nodeCount, ∀ b < setup.nodeCount, ∃ x y,
      setup.metric.score a b = .ok x ∧ setup.metric.score b a = .ok y ∧ (x == y) = true)
    (filter : ∀ a < setup.nodeCount, ∀ b < setup.nodeCount,
      setup.excluded a b = setup.excluded b a) :
    (∀ r r', (run (setup.flagged true)).outcome = .ok r →
      (run (setup.flagged false)).outcome = .ok r' → r.Saves Number.Equal r' ∧
        ((∀ a < setup.nodeCount, ∀ b < setup.nodeCount,
          setup.metric.score a b = setup.metric.score b a) → r.neighbours = r'.neighbours)) ∧
    ((∀ log, setup.stopped log = false) → ∀ e, (run (setup.flagged true)).outcome = .error e ↔
      (run (setup.flagged false)).outcome = .error e) := by
  have even : setup.EvenHanded Number.Equal := by
    constructor
    · intro a ha b hb
      obtain ⟨x, y, hx, hy, eq⟩ := scores a ha b hb
      exact ⟨x, y, hx, hy, .inr eq⟩
    · exact filter
  obtain ⟨s, t, agree⟩ := agree_run Number.congruent_equal even
  constructor
  · intro r r' ok ok'
    constructor
    · rw [ok, ok'] at agree
      exact agree.of_ok
    · intro same
      -- Where the scores are the same numbers, so are all similarities.
      have exact : setup.EvenHanded Eq := by
        constructor
        · intro a ha b hb
          obtain ⟨x, y, hx, hy, -⟩ := scores a ha b hb
          exact ⟨x, y, hx, hy, Except.ok.inj (hx.symm.trans ((same a ha b hb).trans hy))⟩
        · exact filter
      obtain ⟨s, t, agree⟩ := agree_run Number.congruent_eq exact
      rw [ok, ok'] at agree
      exact agree.of_ok.neighbours_eq
  · intro goesOn e
    apply agree.error_iff
    rintro ⟨log, told⟩
    simp [goesOn log] at told

theorem fourNodes_flag_only_saves_scores :
    ∃ r r', (run (fourNodes.flagged true)).outcome = .ok r ∧
      (run (fourNodes.flagged false)).outcome = .ok r' ∧ r.Saves Number.Equal r' ∧
        r.neighbours = r'.neighbours := by
  have ok : (run (fourNodes.flagged true)).outcome.isOk = true := by decide +kernel
  have ok' : (run (fourNodes.flagged false)).outcome.isOk = true := by decide +kernel
  have scores : ∀ a b, ∃ x y, fourNodes.metric.score a b = .ok x ∧
      fourNodes.metric.score b a = .ok y ∧ (x == y) = true := by
    intro a b
    have score := score_fourNodes a b
    have le := Number.le_refl (Metric.isFinite_of_score score)
    exact ⟨_, _, score, score_fourNodes_comm b a ▸ score, Number.beq_iff_le_and_ge.2 ⟨le, le⟩⟩
  have filter : ∀ a b, fourNodes.excluded a b = fourNodes.excluded b a :=
    fun a b => BEq.comm
  have both := (symmetric_flag_only_saves_scores fourNodes (fun a _ b _ => scores a b)
    fun a _ b _ => filter a b).1
  generalize outcome : (run (fourNodes.flagged true)).outcome = found at ok both
  generalize outcome' : (run (fourNodes.flagged false)).outcome = found' at ok' both
  cases found with
  | error cause => cases ok
  | ok r =>
    cases found' with
    | error cause => cases ok'
    | ok r' =>
      obtain ⟨saves, same⟩ := both r r' rfl rfl
      exact ⟨r, r', rfl, rfl, saves, same fun a _ b _ => score_fourNodes_comm a b⟩

end NeighbourGraph
