/-
Partitions: consecutive nodes that one task works through, in order.

`partitions` cuts `0, 1, …, nodeCount - 1` into as many equal pieces as there are tasks, but into
none smaller than the least batch; the last piece takes what is left.
-/

namespace NeighbourGraph

/-- `count` nodes from `start` on. -/
structure Partition where
  start : Nat
  count : Nat
  deriving DecidableEq, Repr

namespace Partition

/-- The first node after the partition. -/
def stop (p : Partition) : Nat := p.start + p.count

/-- The nodes in order. -/
def nodes (p : Partition) : List Nat := List.range' p.start p.count

end Partition

/-- `n / d` rounded up, for positive `d`. -/
def ceilDiv (n d : Nat) : Nat := (n + (d - 1)) / d

theorem le_ceilDiv_mul (n : Nat) {d : Nat} (hd : 0 < d) : n ≤ ceilDiv n d * d := by
  have := Nat.lt_div_mul_add hd (a := n + (d - 1))
  unfold ceilDiv
  omega

theorem ceilDiv_mul_lt (n : Nat) {d : Nat} (hd : 0 < d) : ceilDiv n d * d < n + d := by
  have := Nat.div_mul_le_self (n + (d - 1)) d
  unfold ceilDiv
  omega

/-- How many nodes each partition but the last one has. -/
def batchSize (concurrency nodeCount minBatchSize : Nat) : Nat :=
  max (max (ceilDiv nodeCount (max concurrency 1)) minBatchSize) 1

theorem batchSize_pos (concurrency nodeCount minBatchSize : Nat) :
    0 < batchSize concurrency nodeCount minBatchSize := by
  unfold batchSize
  omega

/-- The partitions of `nodeCount` nodes, in order. -/
def partitions (concurrency nodeCount minBatchSize : Nat) : List Partition :=
  let batch := batchSize concurrency nodeCount minBatchSize
  (List.range (ceilDiv nodeCount batch)).map fun i =>
    ⟨i * batch, min batch (nodeCount - i * batch)⟩

end NeighbourGraph
