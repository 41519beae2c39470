/-
How a run sets out.

A run is a descent from empty lists, unless the metric covers other nodes than the graph has, there
is nothing to compare, or the search is told to stop before it begins. Settings that are out of
range are a fifth case of the code, but not one of a run.
-/

import NeighbourGraph.Proofs.Settings
import NeighbourGraph.Search.Run

namespace NeighbourGraph

open NeighbourGraph.Search

/-- If the metric says how many nodes it covers, they are as many as the graph has. -/
def Setup.Covered (setup : Setup) : Prop :=
  ∀ covered, setup.metric.nodeCount = some covered → covered = setup.nodeCount

theorem Setup.not_covered_iff {setup : Setup} :
    ¬setup.Covered ↔ ∃ covered, setup.metric.nodeCount = some covered ∧
      covered ≠ setup.nodeCount := by
  simp [Setup.Covered]

namespace Search

/-- The run of a search that came to this. -/
def Run.of (r : Except SearchError Result × State) : Run where
  outcome := r.1
  log := r.2.log
  rounds := r.2.rounds.toList
  visits := r.2.visits.toList

section

variable {schedule : Schedule} {setup : Setup}

theorem runUnder_of_covered (covered : setup.Covered) :
    runUnder schedule setup = runUnder.go schedule setup setup.nodeCount := by
  unfold runUnder
  cases nodes : setup.metric.nodeCount with
  | none => rfl
  | some n => simp [covered n nodes]

theorem runUnder_of_not_covered {n : Nat} (nodes : setup.metric.nodeCount = some n)
    (ne : n ≠ setup.nodeCount) :
    runUnder schedule setup = { outcome := .error (.nodeCountMismatch setup.nodeCount n) } := by
  simp [runUnder, nodes, ne]

/-- Over fewer than two nodes there is nothing to find. -/
theorem runUnder_of_few (covered : setup.Covered) (few : setup.nodeCount < 2) :
    runUnder schedule setup = { outcome := .ok (.empty setup.nodeCount) } := by
  rw [runUnder_of_covered covered, runUnder.go, if_pos few]

theorem runUnder_of_told (covered : setup.Covered) (others : 2 ≤ setup.nodeCount)
    (told : setup.stopped #[] = true) :
    runUnder schedule setup = { outcome := .error (.cancelled Phase.initialization.name) } := by
  rw [runUnder_of_covered covered, runUnder.go, if_neg (by omega), if_pos told]

/-- Over at least two nodes that the metric covers, a run is a descent. -/
theorem runUnder_of_goesOn (covered : setup.Covered) (others : 2 ≤ setup.nodeCount)
    (goesOn : setup.stopped #[] = false) {k : ListSize}
    (size : ListSize.of setup.config.topK setup.config.sampleRate setup.nodeCount = .ok k) :
    runUnder schedule setup =
      .of ((descend setup schedule k).exec (.start setup.nodeCount k.bounded)) := by
  rw [runUnder_of_covered covered, runUnder.go, if_neg (by omega), if_neg (by simp [goesOn])]
  simp only [size]
  rfl

end

/-- How a run sets out, and what it comes to. -/
inductive Outset (schedule : Schedule) (setup : Setup) : Run → Prop
  | uncovered {n : Nat} : setup.metric.nodeCount = some n → n ≠ setup.nodeCount →
      Outset schedule setup { outcome := .error (.nodeCountMismatch setup.nodeCount n) }
  | few : setup.Covered → setup.nodeCount < 2 →
      Outset schedule setup { outcome := .ok (.empty setup.nodeCount) }
  | told : setup.Covered → 2 ≤ setup.nodeCount → setup.stopped #[] = true →
      Outset schedule setup { outcome := .error (.cancelled Phase.initialization.name) }
  | goesOn {k : ListSize} : setup.Covered → 2 ≤ setup.nodeCount → setup.stopped #[] = false →
      ListSize.of setup.config.topK setup.config.sampleRate setup.nodeCount = .ok k →
      Outset schedule setup
        (.of ((descend setup schedule k).exec (.start setup.nodeCount k.bounded)))

theorem outset (schedule : Schedule) (setup : Setup) :
    Outset schedule setup (runUnder schedule setup) := by
  by_cases covered : setup.Covered
  · by_cases few : setup.nodeCount < 2
    · exact runUnder_of_few covered few ▸ .few covered few
    have others : 2 ≤ setup.nodeCount := by omega
    cases told : setup.stopped #[] with
    | true => exact runUnder_of_told covered others told ▸ .told covered others told
    | false =>
      obtain ⟨k, size⟩ := ListSize.of_config setup.config setup.nodeCount
      exact runUnder_of_goesOn covered others told size ▸ .goesOn covered others told size
  · obtain ⟨n, nodes, ne⟩ := Setup.not_covered_iff.1 covered
    exact runUnder_of_not_covered nodes ne ▸ .uncovered nodes ne

end Search

end NeighbourGraph
