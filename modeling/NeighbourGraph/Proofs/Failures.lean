/-
Why a search fails.

A run has a result unless the metric covers another number of nodes, the search is told to stop,
two nodes that the filter allows have no score, or a walk meets weights that do not add up. The
settings are never the reason: a configuration passed all checks before.
-/

import NeighbourGraph.Proofs.Search.Outset
import NeighbourGraph.Proofs.Search.Run

namespace NeighbourGraph.Search

open NeighbourGraph.Random

section

variable {setup : Setup} {capacity : Nat} {s t : State} {e : SearchError}

theorem meets_candidates (sound : Sound setup capacity s) (turns : Turns) (stream : Stream)
    (sampled : Nat) :
    Meets (changingEach setup capacity .handsOut) (candidates setup turns stream sampled)
      (fun _ _ _ => True) s := by
  have report : ∀ (t : State) (e : Event), e.isProgress = true →
      Meets (changingEach setup capacity .handsOut) (record e) (fun _ _ _ => True) t :=
    fun t e he => meets_atomic fun u _ => ⟨fun sound => ⟨sound.report he, .record _ u e⟩, [e],
      by simp [State.record], fun _ _ => trivial⟩
  refine Meets.bind ((meets_proceed upholding_heeds .split).imp ?_)
  rintro _ _ t ⟨-, r⟩
  refine Meets.bind ((meets_split (r sound).1 turns stream sampled).imp fun _ _ u _ => ?_)
  refine Meets.bind ((meets_proceed upholding_heeds .reverse).imp fun _ _ v _ => ?_)
  refine Meets.bind ((report v _ rfl).imp fun _ _ v _ => ?_)
  refine Meets.bind ((report v _ rfl).imp fun _ _ v _ => ?_)
  exact Meets.bind ((report v _ rfl).imp fun _ _ v _ _ _ => trivial)

theorem mayFail_of_iteration (others : 2 ≤ setup.nodeCount) (h : Refined setup capacity s)
    {turns : Phase → Turns} {sampled : Nat} {splitStream joinStream : Stream}
    (run : (iteration setup turns sampled splitStream joinStream).exec s = (.error e, t)) :
    setup.MayFail e := by
  have h := h.setRounds (s.rounds.push none)
  rcases exec_iteration_error.1 run with fails | ⟨c, u, split, fails⟩
  · exact (meets_candidates h.sound _ _ _).exec_error fails
  · have handsOut := exec_candidates h.sound split
    exact (meets_join handsOut.sound others handsOut.known _ _ _).exec_error fails

theorem mayFail_of_refine (others : 2 ≤ setup.nodeCount) {schedule : Schedule} {k : ListSize}
    {limit : Nat}
    (run : (refine setup schedule k limit).exec (State.start setup.nodeCount capacity) =
      (.error e, t)) : setup.MayFail e := by
  have start := Refined.start setup capacity
  rcases exec_bind_error.1 run with fails | ⟨tally, u, filled, rest⟩
  · exact (meets_fill start.sound _ _ _).exec_error fails
  · obtain ⟨_, u, _, _, _, h, fails⟩ :=
      exec_iterate_error (refined_kept others _ _) rfl (exec_fill filled) rest
    exact mayFail_of_iteration others h fails

theorem mayFail_of_descend (others : 2 ≤ setup.nodeCount) {schedule : Schedule} {k : ListSize}
    (run : (descend setup schedule k).exec (State.start setup.nodeCount capacity) =
      (.error e, t)) : setup.MayFail e := by
  rcases exec_bind_error.1 run with fails | ⟨refinement, u, refined, rest⟩
  · exact mayFail_of_refine others fails
  · rcases exec_bind_error.1 rest with fails | ⟨-, v, -, rest⟩
    · have sound := (exec_refine others refined).sound
      exact (meets_applyCutoff sound _).exec_error fails
    · cases rest

end

/-- A run over the nodes that the metric covers fails only for a reason that a search may fail
for. -/
theorem runUnder_error {schedule : Schedule} {setup : Setup} {e : SearchError}
    (covers : ∀ covered, setup.metric.nodeCount = some covered → covered = setup.nodeCount)
    (fails : (runUnder schedule setup).outcome = .error e) : setup.MayFail e := by
  have way := outset schedule setup
  generalize runUnder schedule setup = r at way fails
  cases way with
  | uncovered nodes ne => exact absurd (covers _ nodes) ne
  | few => cases fails
  | told _ _ told =>
    cases fails
    exact .stopped #[] .initialization told
  | goesOn _ others => exact mayFail_of_descend others (Prod.ext fails rfl)

/-- Where the weights of every node add up, no walk fails. -/
theorem outcome_ne_walk {setup : Setup} (summable : ∀ v, Sampler.Summable setup.graph v)
    (schedule : Schedule) (cause : Sampler.WalkError) :
    (runUnder schedule setup).outcome ≠ .error (.walk cause) := by
  intro fails
  by_cases covered : setup.Covered
  · cases runUnder_error covered fails with
    | walk _ unsummable =>
      obtain ⟨v, infinite⟩ := unsummable
      exact infinite (summable v)
  · obtain ⟨n, nodes, ne⟩ := Setup.not_covered_iff.1 covered
    simp [runUnder_of_not_covered nodes ne] at fails

/-- No run says that its settings are out of range. -/
theorem outcome_ne_settings (schedule : Schedule) (setup : Setup) (cause : SettingsError) :
    (runUnder schedule setup).outcome ≠ .error (.settings cause) := by
  have way := outset schedule setup
  generalize runUnder schedule setup = r at way
  cases way with
  | uncovered | few | told => simp
  | goesOn _ others => exact fun fails => nomatch mayFail_of_descend others (Prod.ext fails rfl)

end NeighbourGraph.Search
