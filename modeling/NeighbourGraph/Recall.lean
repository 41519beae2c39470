/-
Recall: how much of the true nearest neighbours a search found.

The truth is found by scoring every other node and putting the scores in total order, bit for bit.
Measurements are kept as records and written as a table of comma-separated values under a fixed
header.
-/

import NeighbourGraph.Metric.Basic
import NeighbourGraph.Number.Pattern
import NeighbourGraph.Number.Text
import NeighbourGraph.Result
import NeighbourGraph.Settings

namespace NeighbourGraph.Recall

open NeighbourGraph.Number

/-- The raw scores of pairs of nodes, each given bit for bit, or the failure to score. -/
def Scores : Type := Nat → Nat → Except MetricError Pattern

/-- The scores of a metric. NaN from it is the one without a sign. -/
def Scores.ofMetric (metric : Metric) : Scores := fun left right =>
  (metric.similarity left right).map .ofFloat

instance : Coe Metric Scores := ⟨Scores.ofMetric⟩

/-- A node with its score for a query. -/
structure Scored where
  id : Nat
  similarity : Pattern

/-- The more similar node comes first, the smaller id among equals. -/
def Scored.before (a b : Scored) : Bool :=
  let (x, y) := (totalKey a.similarity, totalKey b.similarity)
  y < x || (x == y && a.id ≤ b.id)

/-- The scores of all other nodes for a query, or the first failure. -/
def scoreAll (scores : Scores) (query : Nat) : List Nat → Except MetricError (List Scored)
  | [] => .ok []
  | id :: rest => do
    let similarity ← scores query id
    return ⟨id, similarity⟩ :: (← scoreAll scores query rest)

/-- The `k` nodes most similar to a query, best first. -/
def nearest (scores : Scores) (nodeCount query k : Nat) : Except MetricError (List Nat) := do
  let others := (List.range nodeCount).filter (· ≠ query)
  let scored ← scoreAll scores query others
  return ((scored.mergeSort Scored.before).take k).map (·.id)

/-- How many of the true neighbours were found. -/
structure Score where
  hits : Nat := 0
  total : Nat := 0
  deriving DecidableEq, Repr

namespace Score

instance : Add Score := ⟨fun a b => ⟨a.hits + b.hits, a.total + b.total⟩⟩

/-- The share that was found; nothing of nothing is zero. -/
def fraction (s : Score) : Float :=
  if s.total = 0 then 0.0 else ofCount s.hits / ofCount s.total

end Score

/-- The score of one query against its true neighbours. -/
def scoreOf (result : Result) (query : Nat) (truth : List Nat) : Score :=
  ⟨(result.neighboursOf query).countP fun n => n.id ∈ truth, truth.length⟩

/-- The score over queries, the truth taken over the nodes that were compared. -/
def measure (result : Result) (scores : Scores) (queries : List Nat) (k : Nat) :
    Except MetricError Score :=
  queries.foldlM (fun score query => do
    let truth ← nearest scores result.nodesCompared query k
    return score + scoreOf result query truth) {}

/-! ### Labels -/

/-- What a measurement varies. -/
inductive Label where
  | quality (points topK : Nat) (sampler : SamplerKind)
  | scaling (points threads : Nat)
  deriving DecidableEq, Repr

def Label.text : Label → String
  | .quality points topK sampler => s!"n={points},k={topK}," ++ sampler.name
  | .scaling points threads => s!"n={points},threads={threads}"

/-! ### Records -/

/-- A measurement. -/
structure Record where
  label : String
  score : Score
  iterations : Nat
  pairs : Nat

/-- The names of the columns. -/
def header : String :=
  "label,recall_hits,recall_total,recall_fraction,ran_iterations,node_pairs_considered\n"

/-- A record as a line: the label between quotes, the fraction with six places. -/
def Record.line (r : Record) : String :=
  "\"" ++ r.label ++ "\"," ++ toString r.score.hits ++ "," ++ toString r.score.total ++ "," ++
    fixedText 6 r.score.fraction ++ "," ++ toString r.iterations ++ "," ++ toString r.pairs ++ "\n"

/-- The table of records, in order. -/
def table (records : List Record) : String := header ++ String.join (records.map Record.line)

end NeighbourGraph.Recall
