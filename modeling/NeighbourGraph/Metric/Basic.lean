/-
Metrics: how similar two nodes are.

A metric scores an ordered pair of nodes or says why it cannot. It may promise that the order of
the pair does not matter, and it may know how many nodes it covers. `Metric.score` is the score
a search accepts: it names the pair on failure and refuses scores that are not finite.
-/

namespace NeighbourGraph

/-- Why a metric gives no score. -/
inductive MetricError where
  | outOfBounds (node : Nat)
  | dimensionMismatch (left right : Nat)
  | zeroLength
  | nonFiniteFeature (node index : Nat)
  | noComponents
  | custom (text : String)
  deriving DecidableEq, Repr

namespace MetricError

/-- The stable code of each cause. -/
def code : MetricError → String
  | .outOfBounds _ => "SIMILARITY_OUT_OF_BOUNDS"
  | .dimensionMismatch .. => "SIMILARITY_DIMENSION_MISMATCH"
  | .zeroLength => "SIMILARITY_ZERO_LENGTH"
  | .nonFiniteFeature .. => "SIMILARITY_NON_FINITE_FEATURE"
  | .noComponents => "SIMILARITY_NO_COMPONENTS"
  | .custom _ => "SIMILARITY_CUSTOM"

def message : MetricError → String
  | .outOfBounds node => s!"node {node} is out of bounds"
  | .dimensionMismatch left right => s!"dimension mismatch: left={left}, right={right}"
  | .zeroLength => "feature vectors must have positive dimension"
  | .nonFiniteFeature node index => s!"node {node} has a non-finite feature at index {index}"
  | .noComponents => "an averaged similarity needs at least one component"
  | .custom text => s!"similarity metric failed: {text}"

end MetricError

/-- A similarity of ordered pairs of nodes. -/
structure Metric where
  similarity : Nat → Nat → Except MetricError Float
  /-- The order of a pair does not matter. -/
  symmetric : Bool
  /-- How many nodes are covered, where that is known. -/
  nodeCount : Option Nat

/-- Why a pair has no score. -/
inductive ScoreError where
  | failed (left right : Nat) (cause : MetricError)
  | nonFinite (left right : Nat)
  deriving DecidableEq, Repr

namespace ScoreError

/-- The stable code of each cause. -/
def code : ScoreError → String
  | .failed .. => "KNN_SIMILARITY_FAILURE"
  | .nonFinite .. => "KNN_NON_FINITE_SIMILARITY"

/-- The code of the metric's own error. -/
def metricCode : ScoreError → Option String
  | .failed _ _ cause => some cause.code
  | .nonFinite .. => none

def message : ScoreError → String
  | .failed left right cause => s!"similarity of ({left}, {right}) failed: " ++ cause.message
  | .nonFinite left right =>
    s!"similarity metric returned a non-finite value for ({left}, {right})"

end ScoreError

namespace Metric

/-- The score of a pair, always finite. -/
def score (m : Metric) (left right : Nat) : Except ScoreError Float :=
  match m.similarity left right with
  | .error cause => .error (.failed left right cause)
  | .ok s => if s.isFinite then .ok s else .error (.nonFinite left right)

/-- The metric of a function that covers any node. -/
def ofFunction (symmetric : Bool) (f : Nat → Nat → Float) : Metric :=
  ⟨fun left right => .ok (f left right), symmetric, none⟩

/-- An accepted score is finite. -/
theorem isFinite_of_score {m : Metric} {left right : Nat} {s : Float}
    (h : m.score left right = .ok s) : s.isFinite = true := by
  unfold score at h
  split at h
  · cases h
  · split at h <;> cases h
    assumption

end Metric

end NeighbourGraph
