/-
The partitions of a phase have every node once, in order.
-/

import Mathlib.Data.List.Nodup
import NeighbourGraph.Partition

namespace NeighbourGraph

/-- Consecutive pieces of `batch` nodes, each cut off at `nodeCount`, make up all nodes as far as
they reach. -/
theorem flatMap_nodes_eq (nodeCount batch pieces : Nat) :
    ((List.range pieces).map fun i =>
      (⟨i * batch, min batch (nodeCount - i * batch)⟩ : Partition)).flatMap Partition.nodes =
      List.range (min (pieces * batch) nodeCount) := by
  induction pieces with
  | zero => simp
  | succ pieces ih =>
    rw [List.range_succ, List.map_append, List.flatMap_append, ih, Nat.succ_mul]
    rcases Nat.le_total nodeCount (pieces * batch) with le | le
    · simp [Partition.nodes, Nat.sub_eq_zero_of_le le, Nat.min_eq_right le,
        Nat.min_eq_right (Nat.le_add_right_of_le le)]
    · have append : List.range' 0 (pieces * batch) ++ List.range' (0 + pieces * batch)
          (min batch (nodeCount - pieces * batch)) = _ := List.range'_append_1
      have : min (pieces * batch + batch) nodeCount =
          pieces * batch + min batch (nodeCount - pieces * batch) := by omega
      simpa [Partition.nodes, this, Nat.min_eq_left le, List.range_eq_range'] using append

theorem flatMap_nodes_partitions (concurrency nodeCount minBatchSize : Nat) :
    (partitions concurrency nodeCount minBatchSize).flatMap Partition.nodes =
      List.range nodeCount := by
  have reach := le_ceilDiv_mul nodeCount (batchSize_pos concurrency nodeCount minBatchSize)
  rw [partitions, flatMap_nodes_eq, Nat.min_eq_right reach]

/-- No two partitions have a node in common. -/
theorem disjoint_partitions (concurrency nodeCount minBatchSize : Nat) :
    (partitions concurrency nodeCount minBatchSize).Pairwise fun p q =>
      p.nodes.Disjoint q.nodes := by
  have nodup : (List.range nodeCount).Nodup := List.nodup_range
  rw [← flatMap_nodes_partitions concurrency nodeCount minBatchSize, List.nodup_flatMap] at nodup
  exact nodup.2

end NeighbourGraph
