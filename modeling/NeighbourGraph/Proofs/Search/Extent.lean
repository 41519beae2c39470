/-
How far searches go.

The limit on the iterations and the cutoff make no difference to what a search does before it comes
to them: under any others, the same number of iterations makes the same of the lists. A search that
is not told to stop therefore comes to what its iterations made of the lists, less what the cutoff
drops.
-/

import NeighbourGraph.Proofs.Search.Finishes
import NeighbourGraph.Proofs.Search.Run
import NeighbourGraph.Proofs.Search.Steps

namespace NeighbourGraph

open NeighbourGraph.Random NeighbourGraph.Search

/-! ### Setups -/

/-- The configuration with another limit on the iterations and another cutoff. -/
def Config.ending (config : Config) (maxIterations : Nat) (cutoff : Float)
    (valid : cutoff.isFinite = true ∧ 0.0 ≤ cutoff) : Config where
  toSettings := { config.toSettings with maxIterations, similarityCutoff := cutoff }
  valid := by
    have checks := config.checks_hold
    rw [Settings.fault, Option.map_eq_none_iff, List.find?_eq_none]
    simp_all [Settings.checks]

/-- The setup of a search with another limit on the iterations and another cutoff. -/
def Setup.ending (setup : Setup) (maxIterations : Nat) (cutoff : Float)
    (valid : cutoff.isFinite = true ∧ 0.0 ≤ cutoff) : Setup :=
  { setup with config := setup.config.ending maxIterations cutoff valid }

section

variable (setup : Setup) {maxIterations : Nat} {cutoff : Float}
  {valid : cutoff.isFinite = true ∧ 0.0 ≤ cutoff}

namespace Search

theorem congruence_eq : Congruence fun p q => p = q where
  pure _ := rfl
  bind eq rest := by rw [eq, funext rest]
  rounds _ := rfl

theorem steps_ending : Steps (fun p q => p = q) (setup.ending maxIterations cutoff valid) setup
    fun _ => True where
  toChained := congruence_eq.toChained
  rules := ⟨rfl, rfl, rfl, rfl, rfl⟩
  consider _ _ _ _ := rfl
  joinBoth _ _ _ _ _ := rfl
  failed _ := rfl
  listOf _ := rfl
  offered _ _ := rfl
  splitNode _ _ _ := rfl

theorem phases_ending (schedule : Schedule) :
    Phases (fun p q => p = q) (setup.ending maxIterations cutoff valid) setup schedule where
  toCongruence := congruence_eq
  proceed _ := rfl
  report _ := rfl
  phase _ _ {_} {_} {_} eq := by
    rw [funext eq]
    rfl

/-- What iterations make of the lists depends neither on the limit nor on the cutoff. -/
theorem refined_ending (schedule : Schedule) (limit : Nat) :
    refined schedule (setup.ending maxIterations cutoff valid) limit =
      refined schedule setup limit := by
  have course : (setup.ending maxIterations cutoff valid).SameCourse setup := ⟨rfl, rfl, rfl⟩
  have refine_eq : ∀ k, refine (setup.ending maxIterations cutoff valid) schedule k limit =
      refine setup schedule k limit := fun k =>
    (phases_ending setup schedule).refine (steps_ending setup) (fun _ _ => trivial) course k limit
  unfold refined
  simp only [refine_eq]
  rfl

end Search

end

namespace Search

/-! ### Outcomes -/

section

variable {setup : Setup} {schedule : Schedule} {refinement : Refinement} {s : State}

/-- What is left of refined lists. -/
def Refinement.result (refinement : Refinement) (setup : Setup) (s : State) : Result where
  neighbours := s.lists.map fun l => (setup.cut l).neighbours
  iterations := refinement.iterations
  converged := refinement.converged
  pairs := refinement.pairs
  nodesCompared := if setup.nodeCount < 2 then 0 else setup.nodeCount

theorem Ended.result_eq {result : Result} {t : State}
    (h : Ended schedule setup result refinement s t) : result = refinement.result setup s := by
  have neighbours : result.neighbours = s.lists.map fun l => (setup.cut l).neighbours := by
    rw [h.neighbours, h.lists, Array.map_map]
    rfl
  obtain ⟨_, _, _, _, _⟩ := result
  cases neighbours
  cases h.iterations
  cases h.converged
  cases h.pairs
  cases h.compared
  rfl

/-- A search that is never told to stop fails only while it refines the lists. -/
theorem refined_error (goesOn : ∀ log, setup.stopped log = false) (covered : setup.Covered)
    {e : SearchError} (fails : (runUnder schedule setup).outcome = .error e) :
    (refined schedule setup setup.config.maxIterations).1 = .error e := by
  have way := outset schedule setup
  generalize runUnder schedule setup = r at way fails
  cases way with
  | uncovered nodes ne => exact absurd (covered _ nodes) ne
  | few => cases fails
  | told _ _ told => simp [goesOn] at told
  | @goesOn k _ others _ size =>
    rw [refined, if_neg (by omega), size]
    rcases exec_bind_error.1 (Prod.ext fails rfl) with first | ⟨refinement, s, -, later⟩
    · exact congrArg Prod.fst first
    · -- The cutoff and the look at the lists come to their end.
      obtain ⟨_, t, cut⟩ := (finishes_applyCutoff goesOn (schedule .cutoff 0)).exec s
      rcases exec_bind_error.1 later with second | ⟨_, u, -, look⟩
      · cases cut.symm.trans second
      · cases look

/-- A search that is never told to stop comes to what is left of its refined lists. -/
theorem outcome_eq (goesOn : ∀ log, setup.stopped log = false) (covered : setup.Covered) :
    (runUnder schedule setup).outcome =
      match refined schedule setup setup.config.maxIterations with
      | (.ok refinement, s) => .ok (refinement.result setup s)
      | (.error e, _) => .error e := by
  cases outcome : (runUnder schedule setup).outcome with
  | ok result =>
    obtain ⟨refinement, s, t, ended⟩ := runUnder_ok outcome
    rw [ended.refined, ended.result_eq]
  | error e =>
    have fails := refined_error goesOn covered outcome
    generalize refined schedule setup setup.config.maxIterations = r at fails ⊢
    obtain ⟨_, s⟩ := r
    cases fails
    rfl

end

end Search

end NeighbourGraph
