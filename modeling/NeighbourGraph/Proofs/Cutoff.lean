/-
A cutoff does nothing but filter the result.

Under a cutoff a search does what it does without one until its lists are refined, and then drops
the neighbours below it. Lists are sorted, best first, so what is left of each is its beginning,
and a cutoff that is no higher drops nothing more. A search for chosen nodes applies its cutoff to
lists of its own, which comes to the same.
-/

import NeighbourGraph.Proofs.Mirror
import NeighbourGraph.Proofs.Search.Extent

namespace NeighbourGraph

open NeighbourGraph.Search

/-! ### Cut lists -/

/-- The setup of the same search without a cutoff. -/
def Setup.uncut (setup : Setup) : Setup :=
  setup.ending setup.config.maxIterations 0.0 (by decide +kernel)

/-- A result without the neighbours less similar than `cutoff`. -/
def Result.dropBelow (r : Result) (cutoff : Float) : Result :=
  { r with neighbours := r.neighbours.map (List.filter fun n => cutoff ≤ n.similarity) }

theorem Result.neighboursOf_dropBelow (r : Result) (cutoff : Float) (v : Nat) :
    (r.dropBelow cutoff).neighboursOf v =
      (r.neighboursOf v).filter fun n => cutoff ≤ n.similarity := by
  simp only [neighboursOf, dropBelow, Array.getD_eq_getD_getElem?, Array.getElem?_map]
  cases r.neighbours[v]? <;> rfl

/-- A cutoff that is no higher leaves what reaches a higher one. -/
theorem filter_cutoff_cutoff {α : Type} (similarity : α → Float) {low high : Float}
    (le : low ≤ high) (xs : List α) :
    (xs.filter fun x => high ≤ similarity x).filter (fun x => low ≤ similarity x) =
      xs.filter fun x => high ≤ similarity x := by
  rw [List.filter_eq_self]
  intro x hx
  exact decide_eq_true (Number.le_trans le (of_decide_eq_true (List.mem_filter.1 hx).2))

theorem NeighbourList.dropBelow_dropBelow (l : NeighbourList) {low high : Float}
    (le : low ≤ high) : (l.dropBelow high).dropBelow low = l.dropBelow high := by
  simp only [dropBelow, filter_cutoff_cutoff (fun e : Entry => e.similarity) le]

theorem Result.dropBelow_dropBelow (r : Result) {low high : Float} (le : low ≤ high) :
    (r.dropBelow high).dropBelow low = r.dropBelow high := by
  simp only [dropBelow, Array.map_map, Function.comp_def,
    filter_cutoff_cutoff (fun n : Neighbour => n.similarity) le]

/-- The neighbours that reach a cutoff come first. -/
theorem Result.WellFormed.dropBelow_begins {r : Result} {nodeCount capacity : Nat}
    (wf : r.WellFormed nodeCount capacity) (cutoff : Float) (v : Nat) :
    (r.dropBelow cutoff).neighboursOf v <+: r.neighboursOf v := by
  rw [neighboursOf_dropBelow]
  exact filter_reaching_begins (fun n : Neighbour => n.similarity) (wf.neighboursOf v).ordered cutoff

/-! ### Runs with a cutoff -/

namespace Search

variable {setup : Setup} {schedule : Schedule}

theorem uncut_not_positive (setup : Setup) : ¬0.0 < setup.uncut.config.similarityCutoff := by
  have : ¬(0.0 : Float) < 0.0 := by decide +kernel
  exact this

/-- What is left of refined lists under a cutoff is what it leaves of them without one. -/
theorem result_uncut (positive : 0.0 < setup.config.similarityCutoff) (refinement : Refinement)
    (s : State) :
    refinement.result setup s =
      (refinement.result setup.uncut s).dropBelow setup.config.similarityCutoff := by
  simp only [Refinement.result, Result.dropBelow, neighbours_cut, Array.map_map, cutBelow,
    if_pos positive, if_neg (uncut_not_positive setup), Function.comp_def]
  rfl

theorem outcome_uncut (schedule : Schedule) (goesOn : ∀ log, setup.stopped log = false)
    (positive : 0.0 < setup.config.similarityCutoff) :
    (runUnder schedule setup).outcome = (runUnder schedule setup.uncut).outcome.map
      (·.dropBelow setup.config.similarityCutoff) := by
  by_cases covered : setup.Covered
  · have same : refined schedule setup.uncut setup.uncut.config.maxIterations =
        refined schedule setup setup.config.maxIterations := refined_ending setup schedule _
    have goesOn' : ∀ log, setup.uncut.stopped log = false := goesOn
    have covered' : setup.uncut.Covered := covered
    rw [outcome_eq goesOn covered, outcome_eq goesOn' covered', same]
    obtain ⟨_ | refinement, s⟩ := refined schedule setup setup.config.maxIterations
    · rfl
    · exact congrArg Except.ok (result_uncut positive refinement s)
  · obtain ⟨n, nodes, ne⟩ := Setup.not_covered_iff.1 covered
    have nodes' : setup.uncut.metric.nodeCount = some n := nodes
    rw [runUnder_of_not_covered nodes ne, runUnder_of_not_covered nodes' ne]
    rfl

/-- The cutoff scores no candidates. -/
theorem watched_uncut (target : NodeFilter) {result result' : Result}
    (ok : (runUnder schedule setup).outcome = .ok result)
    (ok' : (runUnder schedule setup.uncut).outcome = .ok result') (capacity : Nat) :
    watched target setup.nodeCount capacity (runUnder schedule setup).log =
      watched target setup.nodeCount capacity (runUnder schedule setup.uncut).log := by
  obtain ⟨refinement, s, t, ended⟩ := runUnder_ok ok
  obtain ⟨refinement', s', t', ended'⟩ := runUnder_ok ok'
  obtain ⟨events, log, reports⟩ := ended.log
  obtain ⟨events', log', reports'⟩ := ended'.log
  have same : refined schedule setup.uncut setup.uncut.config.maxIterations =
      refined schedule setup setup.config.maxIterations := refined_ending setup schedule _
  obtain rfl : s = s' :=
    congrArg Prod.snd (ended.refined.symm.trans (same.symm.trans ended'.refined))
  rw [ended.logged, ended'.logged, watched_eq_of_reports log reports,
    watched_eq_of_reports log' reports']

theorem chosen_uncut (source : NodeFilter) (positive : 0.0 < setup.config.similarityCutoff)
    (l : NeighbourList) :
    chosen source setup.config.similarityCutoff l =
      (chosen source setup.uncut.config.similarityCutoff l).filter
        fun n => setup.config.similarityCutoff ≤ n.similarity := by
  rw [chosen_eq, chosen_eq, cutBelow, cutBelow, if_pos positive, if_neg (uncut_not_positive setup)]
  split <;> rfl

theorem filtered_outcome_uncut (goesOn : ∀ log, setup.stopped log = false)
    (positive : 0.0 < setup.config.similarityCutoff) (source target : NodeFilter) :
    (runFilteredUnder schedule setup source target).outcome =
      (runFilteredUnder schedule setup.uncut source target).outcome.map
        (·.dropBelow setup.config.similarityCutoff) := by
  have plain := outcome_uncut schedule goesOn positive
  simp only [runFilteredUnder]
  cases whole : (runUnder schedule setup.uncut).outcome with
  | error e =>
    rw [whole] at plain
    rw [plain]
    rfl
  | ok result =>
    rw [whole] at plain
    have lists := watched_uncut target plain whole
      (min setup.config.topK (setup.nodeCount - 1))
    rw [plain, lists, funext (chosen_uncut source positive)]
    simp only [Except.map, Result.dropBelow, Array.map_map, Function.comp_def]
    rfl

end Search

/-- **A cutoff is a filter on the result.** A search with a positive cutoff that is not told to stop
fails as the same search without a cutoff does, and else comes to the same numbers and to what the
cutoff leaves of its lists, which is the beginning of each. So does a search for chosen nodes. What
a cutoff left is left by every cutoff that is no higher. -/
theorem cutoff_only_filters (schedule : Schedule) (setup : Setup) (source target : NodeFilter)
    (goesOn : ∀ log, setup.stopped log = false)
    (positive : 0.0 < setup.config.similarityCutoff) :
    let cutoff := setup.config.similarityCutoff
    (runUnder schedule setup).outcome =
      (runUnder schedule setup.uncut).outcome.map (·.dropBelow cutoff) ∧
    (runFilteredUnder schedule setup source target).outcome =
      (runFilteredUnder schedule setup.uncut source target).outcome.map (·.dropBelow cutoff) ∧
    (∀ whole, ((runUnder schedule setup.uncut).outcome = .ok whole ∨
        (runFilteredUnder schedule setup.uncut source target).outcome = .ok whole) →
      ∀ v, (whole.dropBelow cutoff).neighboursOf v <+: whole.neighboursOf v) ∧
    ∀ low ≤ cutoff,
      (∀ l : NeighbourList, (l.dropBelow cutoff).dropBelow low = l.dropBelow cutoff) ∧
      ∀ r : Result, (r.dropBelow cutoff).dropBelow low = r.dropBelow cutoff := by
  refine ⟨outcome_uncut schedule goesOn positive, filtered_outcome_uncut goesOn positive source target,
    ?_, fun low le => ⟨fun l => l.dropBelow_dropBelow le, fun r => r.dropBelow_dropBelow le⟩⟩
  rintro whole (ok | ok) v
  · exact (runUnder_wellFormed ok).dropBelow_begins _ v
  · exact (runFilteredUnder_wellFormed ok).dropBelow_begins _ v

/-- The four nodes with a cutoff that each has one neighbour above. -/
def selectiveNodes : Setup :=
  fourNodes.ending 3 0.3 (by decide +kernel)

theorem selectiveNodes_cutoff_filters :
    ∃ whole, (run selectiveNodes.uncut).outcome = .ok whole ∧
      (run selectiveNodes).outcome = .ok (whole.dropBelow 0.3) ∧
      (whole.neighboursOf 0).length = 2 ∧
      ((whole.dropBelow 0.3).neighboursOf 0).length = 1 := by
  have positive : 0.0 < selectiveNodes.config.similarityCutoff := by decide +kernel
  obtain ⟨cut, -⟩ := cutoff_only_filters .inOrder selectiveNodes .all .all (fun _ => rfl) positive
  have lists : ((run selectiveNodes.uncut).outcome.toOption.any fun whole =>
      (whole.neighboursOf 0).length = 2 ∧
        ((whole.dropBelow 0.3).neighboursOf 0).length = 1) = true := by
    decide +kernel
  unfold run at lists ⊢
  generalize (runUnder .inOrder selectiveNodes.uncut).outcome = whole at cut lists
  cases whole with
  | error e => cases lists
  | ok whole =>
    refine ⟨whole, rfl, cut, ?_⟩
    simpa [Except.toOption] using lists

end NeighbourGraph
