/-
What a configuration promises: all of its settings are within their ranges, so the sizes of lists
can be told from them.
-/

import NeighbourGraph.Proofs.Number.Order
import NeighbourGraph.Settings

namespace NeighbourGraph

namespace Config

/-- All checks hold of a configuration. -/
theorem checks_hold (config : Config) : ∀ check ∈ config.checks, check.1 = true := by
  have faultless := config.valid
  rw [Settings.fault, Option.map_eq_none_iff, List.find?_eq_none] at faultless
  simpa using faultless

theorem topK_ne_zero (config : Config) : config.topK ≠ 0 := by
  simpa using config.checks_hold (decide (config.topK ≠ 0), .topK config.topK)
    (by simp [Settings.checks])

theorem isShare_sampleRate (config : Config) : isShare config.sampleRate = true :=
  config.checks_hold (isShare config.sampleRate, .sampleRate config.sampleRate)
    (by simp [Settings.checks])

theorem isFinite_similarityCutoff (config : Config) :
    config.similarityCutoff.isFinite = true ∧ 0.0 ≤ config.similarityCutoff := by
  simpa using config.checks_hold
    (config.similarityCutoff.isFinite && decide (0.0 ≤ config.similarityCutoff),
      .similarityCutoff config.similarityCutoff)
    (by simp [Settings.checks])

/-- The cutoff is positive or lets every similarity pass. -/
theorem cutoff_le_zero_iff (config : Config) :
    config.similarityCutoff ≤ 0.0 ↔ ¬0.0 < config.similarityCutoff :=
  (Number.not_lt (by decide +kernel) config.isFinite_similarityCutoff.1).symm

end Config

/-- A configuration has list sizes over any number of nodes. -/
theorem ListSize.of_config (config : Config) (nodeCount : Nat) :
    ∃ k, ListSize.of config.topK config.sampleRate nodeCount = .ok k := by
  simp [ListSize.of, config.topK_ne_zero, config.isShare_sampleRate]

end NeighbourGraph
