/-
A summary of similarities: extremes, mean, spread and percentiles.

The values are put in total order first, bit for bit, so the summary does not depend on the order
in which they come. A percentile is a value itself: the one at the nearest rank at or above the
share.
-/

import NeighbourGraph.Number.Pattern
import NeighbourGraph.Number.Reading
import NeighbourGraph.Result

namespace NeighbourGraph

open NeighbourGraph.Number

/-- A summary of at least one value. All but the mean and the spread are values. -/
structure Summary where
  min : Pattern
  max : Pattern
  mean : Float
  stdev : Float
  p50 : Pattern
  p75 : Pattern
  p90 : Pattern
  p95 : Pattern
  p99 : Pattern
  p100 : Pattern

namespace Summary

/-- The rank of a percentile among `count` values, from one on. -/
def rank (percent : Float) (count : Nat) : Nat :=
  let exact := toCount (roundUp (percent * ofCount count / 100.0))
  Max.max 1 (Min.min exact count)

/-- What stands in for a value where there is none. -/
def missing : Pattern := .ofFloat nan

/-- The value at a percentile, given the values in order. -/
def percentile (sorted : Array Pattern) (percent : Float) : Pattern :=
  sorted.getD (rank percent sorted.size - 1) missing

/-- The summary of values, given bit for bit; there is none of nothing. -/
def ofPatterns (values : List Pattern) : Option Summary :=
  if values.isEmpty then none
  else
    let sorted := values.mergeSort totalLe
    let value := percentile sorted.toArray
    let count := ofCount sorted.length
    let mean := sum (sorted.map (·.toFloat)) / count
    let variance := sum (sorted.map fun x => (x.toFloat - mean) * (x.toFloat - mean)) / count
    some
      { min := sorted.headD missing
        max := sorted.getLastD missing
        mean
        stdev := variance.sqrt
        p50 := value 50.0
        p75 := value 75.0
        p90 := value 90.0
        p95 := value 95.0
        p99 := value 99.0
        p100 := value 100.0 }

/-- The summary of numbers. -/
def ofValues (values : List Float) : Option Summary := ofPatterns (values.map .ofFloat)

end Summary

/-- The summary of all similarities of a result. -/
def Result.summary (r : Result) : Option Summary :=
  Summary.ofValues (r.relationships.map (·.similarity))

end NeighbourGraph
