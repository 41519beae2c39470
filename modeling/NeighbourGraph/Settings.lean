/-
The settings of a search and their checks.

`Settings` is what a caller asks for, with defaults for what is left out. `Config` is a setting
that passed every check; only `Settings.build` makes one, and it names the first check that
fails, in the order of `Settings.fault`.
-/

import NeighbourGraph.Number.Text

namespace NeighbourGraph

open NeighbourGraph.Number

/-- How the lists are filled before the first iteration. -/
inductive SamplerKind where
  | uniform
  | randomWalk
  deriving DecidableEq, Repr

def SamplerKind.name : SamplerKind → String
  | .uniform => "uniform"
  | .randomWalk => "random-walk"

/-- What is asked of a search. -/
structure Settings where
  /-- Neighbours kept per node. -/
  topK : Nat := 10
  /-- The share of each list sampled in an iteration. -/
  sampleRate : Float := 0.5
  /-- Convergence threshold, as a share of the possible updates. -/
  deltaThreshold : Float := 0.001
  maxIterations : Nat := 100
  /-- Random comparisons per node and iteration. -/
  randomJoins : Nat := 10
  /-- The chance that a candidate as similar as the last neighbour takes its place. -/
  perturbationRate : Float := 0.0
  /-- Neighbours less similar than this are dropped at the end. -/
  similarityCutoff : Float := 0.0
  sampler : SamplerKind := .uniform
  seed : Option Nat := none
  /-- How many tasks share a phase. -/
  concurrency : Nat := 4
  /-- The smallest number of nodes given to a task. -/
  minBatchSize : Nat := 1000
  deriving BEq

/-- A setting out of its range, with the value it was given. -/
inductive SettingsError where
  | topK (got : Nat)
  | sampleRate (got : Float)
  | deltaThreshold (got : Float)
  | perturbationRate (got : Float)
  | similarityCutoff (got : Float)
  | concurrency (got : Nat)
  | minBatchSize (got : Nat)

namespace SettingsError

/-- The stable code of each cause. -/
def code : SettingsError → String
  | .topK _ => "KNN_INVALID_TOP_K"
  | .sampleRate _ => "KNN_INVALID_SAMPLE_RATE"
  | .deltaThreshold _ => "KNN_INVALID_DELTA_THRESHOLD"
  | .perturbationRate _ => "KNN_INVALID_PERTURBATION_RATE"
  | .similarityCutoff _ => "KNN_INVALID_SIMILARITY_CUTOFF"
  | .concurrency _ => "KNN_INVALID_CONCURRENCY"
  | .minBatchSize _ => "KNN_INVALID_MIN_BATCH_SIZE"

def message : SettingsError → String
  | .topK got => s!"top_k must be at least 1 (got {got})"
  | .sampleRate got => "sample_rate must be in (0.0, 1.0] (got " ++ plainText got ++ ")"
  | .deltaThreshold got => "delta_threshold must be in (0.0, 1.0] (got " ++ plainText got ++ ")"
  | .perturbationRate got =>
    "perturbation_rate must be in [0.0, 1.0] (got " ++ plainText got ++ ")"
  | .similarityCutoff got =>
    "similarity_cutoff must be finite and non-negative (got " ++ plainText got ++ ")"
  | .concurrency got => s!"concurrency must be at least 1 (got {got})"
  | .minBatchSize got => s!"min_batch_size must be at least 1 (got {got})"

end SettingsError

/-- `x` is in `(0, 1]`. -/
def isShare (x : Float) : Bool := 0.0 < x && x ≤ 1.0

/-- `x` is in `[0, 1]`. -/
def isChance (x : Float) : Bool := 0.0 ≤ x && x ≤ 1.0

namespace Settings

/-- The checks, first to last, each with the error it raises. -/
def checks (s : Settings) : List (Bool × SettingsError) :=
  [(s.topK ≠ 0, .topK s.topK),
   (isShare s.sampleRate, .sampleRate s.sampleRate),
   (isShare s.deltaThreshold, .deltaThreshold s.deltaThreshold),
   (isChance s.perturbationRate, .perturbationRate s.perturbationRate),
   (s.similarityCutoff.isFinite && 0.0 ≤ s.similarityCutoff, .similarityCutoff s.similarityCutoff),
   (s.concurrency ≠ 0, .concurrency s.concurrency),
   (s.minBatchSize ≠ 0, .minBatchSize s.minBatchSize)]

/-- The error of the first check that fails. -/
def fault (s : Settings) : Option SettingsError :=
  (s.checks.find? fun check => !check.1).map (·.2)

end Settings

/-- Settings that passed every check. -/
structure Config extends Settings where
  valid : toSettings.fault = none

/-- The configuration, or the first check that failed. -/
def Settings.build (s : Settings) : Except SettingsError Config :=
  match h : s.fault with
  | some e => .error e
  | none => .ok ⟨s, h⟩

/-- The defaults pass every check. -/
def Config.standard : Config := ⟨{}, by decide +kernel⟩

/-- How many updates an iteration over `nodeCount` nodes may make and still count as
converged: the share `deltaThreshold` of the updates that sampling makes possible. -/
def Settings.updateThreshold (s : Settings) (nodeCount : Nat) : Nat :=
  let possible := roundUp (s.sampleRate * ofCount s.topK * ofCount nodeCount)
  toCount (s.deltaThreshold * possible)

/-! ### List sizes -/

/-- The list sizes of a run: what was asked, how many other nodes there are to hold, and how
many entries an iteration samples. -/
structure ListSize where
  asked : Nat
  bounded : Nat
  sampled : Nat
  deriving DecidableEq, Repr

/-- The list sizes over `nodeCount` nodes. -/
def ListSize.of (asked : Nat) (sampleRate : Float) (nodeCount : Nat) :
    Except SettingsError ListSize :=
  if asked = 0 then .error (.topK asked)
  else if !isShare sampleRate then .error (.sampleRate sampleRate)
  else
    let others := nodeCount - 1
    .ok
      { asked
        bounded := min asked others
        sampled := min (toCount (roundUp (sampleRate * ofCount asked))) others }

end NeighbourGraph
