/-
Partitions tile the nodes.

The size of a partition is a quotient rounded up, and so is the number of partitions. Rounding up
twice makes no more partitions than there are tasks: as many pieces of that size as there are tasks
reach all nodes. No piece starts or ends behind the last node, so all of these are counts if the
number of nodes is one.
-/

import Mathlib.Data.Rat.Floor
import NeighbourGraph.Number.Count
import NeighbourGraph.Proofs.Partition

namespace NeighbourGraph

open NeighbourGraph.Number

/-! ### Rounding up -/

section

variable {n d k : ℕ}

/-- `n / d` rounded up is the least number of pieces of `d` that reach `n`. -/
theorem ceilDiv_le_iff (hd : 0 < d) : ceilDiv n d ≤ k ↔ n ≤ k * d := by
  constructor
  · intro le
    exact (le_ceilDiv_mul n hd).trans (Nat.mul_le_mul_right d le)
  · intro le
    have less : ceilDiv n d * d < (k + 1) * d := by
      have := ceilDiv_mul_lt n hd
      rw [Nat.succ_mul]
      omega
    exact Nat.le_of_lt_succ (Nat.lt_of_mul_lt_mul_right less)

theorem lt_ceilDiv_iff (hd : 0 < d) : k < ceilDiv n d ↔ k * d < n := by
  rw [← not_le, ceilDiv_le_iff hd, not_le]

/-- The quotient is the rational one. -/
theorem ceilDiv_eq_natCeil (n : ℕ) (hd : 0 < d) : ceilDiv n d = ⌈(n : ℚ) / d⌉₊ := by
  refine eq_of_forall_ge_iff fun k => ?_
  rw [ceilDiv_le_iff hd, Nat.ceil_le, div_le_iff₀ (Nat.cast_pos.2 hd), ← Nat.cast_mul, Nat.cast_le]

end

/-! ### Pieces -/

variable {concurrency nodeCount minBatchSize : ℕ} {p : Partition}

/-- A partition is a piece that starts in front of the last node and is cut off behind it. -/
theorem mem_partitions : p ∈ partitions concurrency nodeCount minBatchSize ↔
    ∃ i, i * batchSize concurrency nodeCount minBatchSize < nodeCount ∧
      p = ⟨i * batchSize concurrency nodeCount minBatchSize,
        min (batchSize concurrency nodeCount minBatchSize)
          (nodeCount - i * batchSize concurrency nodeCount minBatchSize)⟩ := by
  have pos := batchSize_pos concurrency nodeCount minBatchSize
  simp only [partitions, List.mem_map, List.mem_range, lt_ceilDiv_iff pos, eq_comm (a := p)]

/-- A partition with another one behind it is a whole piece. -/
theorem count_of_mem_dropLast
    (hp : p ∈ (partitions concurrency nodeCount minBatchSize).dropLast) :
    p.count = batchSize concurrency nodeCount minBatchSize := by
  have pos := batchSize_pos concurrency nodeCount minBatchSize
  rw [partitions, ← List.map_dropLast, List.dropLast_eq_take, List.length_range,
    List.take_range] at hp
  obtain ⟨i, hi, rfl⟩ := List.mem_map.1 hp
  rw [List.mem_range] at hi
  have next : (i + 1) * batchSize concurrency nodeCount minBatchSize < nodeCount :=
    (lt_ceilDiv_iff pos).1 (by omega)
  rw [Nat.succ_mul] at next
  dsimp only
  omega

/-- There are no more partitions than tasks: the pieces of all tasks reach all nodes. -/
theorem length_partitions_le (concurrency nodeCount minBatchSize : ℕ) :
    (partitions concurrency nodeCount minBatchSize).length ≤ max concurrency 1 := by
  have tasks : 0 < max concurrency 1 := by omega
  have share : ceilDiv nodeCount (max concurrency 1) ≤
      batchSize concurrency nodeCount minBatchSize := by
    unfold batchSize
    omega
  rw [partitions, List.length_map, List.length_range, ceilDiv_le_iff (batchSize_pos ..),
    Nat.mul_comm, ← ceilDiv_le_iff tasks]
  exact share

/-- The size of a partition is a count. -/
theorem batchSize_lt_countLimit (nodes : nodeCount < countLimit)
    (batch : minBatchSize < countLimit) :
    batchSize concurrency nodeCount minBatchSize < countLimit := by
  have tasks : 0 < max concurrency 1 := by omega
  have share : ceilDiv nodeCount (max concurrency 1) ≤ nodeCount :=
    (ceilDiv_le_iff tasks).2 (Nat.le_mul_of_pos_right nodeCount tasks)
  have one : 1 < countLimit := by decide
  unfold batchSize
  omega

/-- **The partitions tile the nodes.** Their nodes one after the other are all nodes in order, none
is empty, all but the last have the size of a batch and the last has no more, and there are no more
of them than tasks. The size of a batch, the first nodes and the ends are counts. -/
theorem partitions_tile (concurrency nodeCount minBatchSize : ℕ) (nodes : nodeCount < countLimit)
    (batch : minBatchSize < countLimit) :
    let ps := partitions concurrency nodeCount minBatchSize
    let size := max (max ⌈(nodeCount : ℚ) / (max concurrency 1 : ℕ)⌉₊ minBatchSize) 1
    ps.flatMap Partition.nodes = List.range nodeCount ∧
      (∀ p ∈ ps, p.nodes ≠ []) ∧
      (∀ p ∈ ps.dropLast, p.nodes.length = size) ∧
      (∀ p ∈ ps.getLast?, p.nodes.length ≤ size) ∧
      ps.length ≤ max concurrency 1 ∧
      batchSize concurrency nodeCount minBatchSize = size ∧ size < countLimit ∧
      ∀ p ∈ ps, p.start < countLimit ∧ p.stop < countLimit := by
  intro ps size
  have pos := batchSize_pos concurrency nodeCount minBatchSize
  have same : batchSize concurrency nodeCount minBatchSize = size := by
    rw [batchSize, ceilDiv_eq_natCeil _ (by omega)]
  have length (p : Partition) : p.nodes.length = p.count := List.length_range'
  refine ⟨flatMap_nodes_partitions _ _ _, fun p hp => ?_, fun p hp => ?_, fun p hp => ?_,
    length_partitions_le _ _ _, same, ?_, fun p hp => ?_⟩
  · obtain ⟨i, hi, rfl⟩ := mem_partitions.1 hp
    rw [← List.length_pos_iff, length]
    dsimp only
    omega
  · rw [length, ← same, count_of_mem_dropLast hp]
  · obtain ⟨i, hi, rfl⟩ := mem_partitions.1 (List.mem_of_getLast? hp)
    rw [length, ← same]
    exact Nat.min_le_left _ _
  · rw [← same]
    exact batchSize_lt_countLimit nodes batch
  · obtain ⟨i, hi, rfl⟩ := mem_partitions.1 hp
    rw [Partition.stop]
    dsimp only
    omega

theorem mostNodes_tiled : countMax < countLimit ∧ 0 < countLimit ∧
    (partitions 3 countMax 0).flatMap Partition.nodes = List.range countMax ∧
    ∀ p ∈ partitions 3 countMax 0, p.start < countLimit ∧ p.stop < countLimit := by
  have tiled := partitions_tile 3 countMax 0 (by decide) (by decide)
  exact ⟨by decide, by decide, tiled.1, tiled.2.2.2.2.2.2.2⟩

end NeighbourGraph
