/-
Scores of sets.

Ids are put in increasing order, each id once, before they are merged. So the scores of two lists of
ids are quotients of the numbers of elements that two sets have: it does not matter how the ids are
ordered, or how often they are repeated. Lists that are merged as they are can have other scores,
but never more shared ids than one of them is long, and no score outside of zero and one.
-/

import Mathlib
import NeighbourGraph.Metric.Properties
import NeighbourGraph.Proofs.Metric.Merge
import NeighbourGraph.Proofs.Number.Counts

namespace NeighbourGraph.Metric

open NeighbourGraph.Number Kernel

/-! ### Lists of ids as sets -/

variable {ids ids' : List Nat}

/-- Of a run of equal ids the first is kept. -/
theorem eraseReps_eq_destutter (ids : List Nat) : ids.eraseReps = ids.destutter (· ≠ ·) := by
  have loop : ∀ (ids : List Nat) (id : Nat) (kept : List Nat),
      List.eraseRepsBy.loop (· == ·) id ids kept =
        kept.reverse ++ ids.destutter' (· ≠ ·) id := by
    intro ids
    induction ids with
    | nil => simp [List.eraseRepsBy.loop]
    | cons next ids ih =>
      intro id kept
      by_cases same : id = next
      · simp [List.eraseRepsBy.loop, same, ih]
      · have differ : (id == next) = false := by simpa using same
        simp [List.eraseRepsBy.loop, differ, same, ih]
  cases ids with
  | nil => rfl
  | cons id ids => exact loop ids id []

theorem idSet_eq_dedup (ids : List Nat) : idSet ids = (ids.mergeSort (· ≤ ·)).dedup := by
  rw [idSet, eraseReps_eq_destutter,
    (List.pairwise_mergeSort' (· ≤ ·) ids).destutter_eq_dedup]

theorem nodup_idSet (ids : List Nat) : (idSet ids).Nodup :=
  idSet_eq_dedup ids ▸ List.nodup_dedup _

theorem pairwise_idSet (ids : List Nat) : (idSet ids).Pairwise (· < ·) := by
  have sorted : (idSet ids).Pairwise (· ≤ ·) :=
    idSet_eq_dedup ids ▸ (List.pairwise_mergeSort' (· ≤ ·) ids).sublist (List.dedup_sublist _)
  exact (sorted.and (nodup_idSet ids)).imp fun both => lt_of_le_of_ne both.1 both.2

theorem toFinset_idSet (ids : List Nat) : (idSet ids).toFinset = ids.toFinset := by
  ext id
  simp [idSet_eq_dedup]

theorem length_idSet (ids : List Nat) : (idSet ids).length = ids.toFinset.card := by
  rw [← toFinset_idSet, List.toFinset_card_of_nodup (nodup_idSet ids)]

/-- Only the elements of a list matter for the set that it stands for. -/
theorem idSet_congr (same : ids.toFinset = ids'.toFinset) : idSet ids = idSet ids' := by
  have perm : (idSet ids).Perm (idSet ids') :=
    (List.perm_ext_iff_of_nodup (nodup_idSet ids) (nodup_idSet ids')).2 fun id => by
      rw [← List.mem_toFinset, ← List.mem_toFinset, toFinset_idSet, toFinset_idSet, same]
  exact perm.eq_of_pairwise (fun _ _ _ _ less more => absurd less (Nat.lt_asymm more))
    (pairwise_idSet ids) (pairwise_idSet ids')

/-! ### Scores -/

theorem shared_idSet (ids ids' : List Nat) :
    shared (idSet ids) (idSet ids') = (ids.toFinset ∩ ids'.toFinset).card := by
  rw [shared_eq_card (pairwise_idSet ids) (pairwise_idSet ids'), toFinset_idSet, toFinset_idSet]

theorem jaccard_idSet (ids ids' : List Nat) :
    jaccard (idSet ids) (idSet ids') =
      ratio (ids.toFinset ∩ ids'.toFinset).card (ids.toFinset ∪ ids'.toFinset).card := by
  have both := Finset.card_union_add_card_inter ids.toFinset ids'.toFinset
  unfold jaccard
  dsimp only
  rw [shared_idSet, length_idSet, length_idSet, ← both, Nat.add_sub_cancel]

theorem overlap_idSet (ids ids' : List Nat) :
    overlap (idSet ids) (idSet ids') =
      ratio (ids.toFinset ∩ ids'.toFinset).card (min ids.toFinset.card ids'.toFinset.card) := by
  rw [overlap, shared_idSet, length_idSet, length_idSet]

/-- A quotient of a count and a larger one is between zero and one. -/
theorem ratio_unit {part whole : Nat} (le : part ≤ whole) (small : part ≤ 2 ^ 53)
    (count : whole < countLimit) : 0.0 ≤ ratio part whole ∧ ratio part whole ≤ 1.0 := by
  unfold ratio
  split
  · exact ⟨Number.le_refl (by decide +kernel), by decide +kernel⟩
  · next nonzero =>
    exact div_le_one (zero_le_ofCount (le.trans_lt count)) (ofCount_le_ofCount le small count)
      (zero_lt_ofCount (Nat.pos_of_ne_zero nonzero) count) (isFinite_ofCount count)

/-- No lists have a score outside of zero and one, in whatever order they are. -/
theorem kernel_unit (kernel : SetKernel) {left right : List Nat} (hl : left.length ≤ 2 ^ 53)
    (hr : right.length ≤ 2 ^ 53) :
    0.0 ≤ kernel.apply left right ∧ kernel.apply left right ≤ 1.0 := by
  have le := shared_le_left left right
  have le' := shared_le_right left right
  have bound : 2 ^ 53 + 2 ^ 53 < countLimit := by decide
  cases kernel with
  | jaccard => exact ratio_unit (by omega) (by omega) (by omega)
  | overlap => exact ratio_unit (by omega) (by omega) (by omega)

/-- Lists that stand for the same sets give the same metric. -/
theorem ofSets_congr (kernel : SetKernel) {sets sets' : Array (List Nat)}
    (same : sets.map List.toFinset = sets'.map List.toFinset) :
    ofSets kernel sets = ofSets kernel sets' := by
  have size : sets.size = sets'.size := by simpa using congrArg Array.size same
  have idSets : sets.map idSet = sets'.map idSet := by
    refine Array.ext (by simp [size]) fun node known known' => ?_
    have elements : (sets.map List.toFinset)[node]? = (sets'.map List.toFinset)[node]? := by
      rw [same]
    simp only [Array.size_map] at known known'
    simp only [Array.getElem?_map, Array.getElem?_eq_getElem known,
      Array.getElem?_eq_getElem known', Option.map_some, Option.some.injEq] at elements
    rw [Array.getElem_map, Array.getElem_map, idSet_congr elements]
  unfold ofSets
  rw [idSets]

theorem similarity_ofSets (kernel : SetKernel) {sets : Array (List Nat)} {a b : Nat}
    (known : a < sets.size) (known' : b < sets.size) :
    (ofSets kernel sets).similarity a b = .ok (kernel.apply (idSet sets[a]) (idSet sets[b])) := by
  have found (node : Nat) (known : node < sets.size) :
      property (sets.map idSet) node = .ok (idSet sets[node]) := by simp [property, known]
  unfold ofSets
  dsimp only
  rw [found a known, found b known']
  rfl

/-- **Sets are scored by their cardinality.** The scores of sets are the quotients of the numbers of
their elements, whatever lists they are given as: numbers up to `2 ^ 53` are exact, and nothing over
nothing is zero. Any two lists can be merged. The merge ends, it does not find more ids than the
shorter list has, all ids together are at least those of the longer one, and the score is between
zero and one. -/
theorem sets_scored_by_cardinality :
    (∀ (sets : Array (List Nat)) (a b : Nat) (known : a < sets.size) (known' : b < sets.size),
      let A := sets[a].toFinset
      let B := sets[b].toFinset
      (ofSets .jaccard sets).similarity a b = .ok (ratio (A ∩ B).card (A ∪ B).card) ∧
        (ofSets .overlap sets).similarity a b =
          .ok (ratio (A ∩ B).card (min A.card B.card))) ∧
    (∀ n ≤ 2 ^ 53, value (ofCount n) = some (n : ℚ)) ∧
    (∀ (kernel : SetKernel) (sets sets' : Array (List Nat)),
      sets.map List.toFinset = sets'.map List.toFinset →
      ofSets kernel sets = ofSets kernel sets') ∧
    ∀ left right : List Nat,
      (∃ comparisons ≤ left.length + right.length,
        Merge.Ends left right {} comparisons (shared left right)) ∧
      shared left right ≤ min left.length right.length ∧
      max left.length right.length ≤ left.length + right.length - shared left right ∧
      (left.length ≤ 2 ^ 53 → right.length ≤ 2 ^ 53 → ∀ kernel : SetKernel,
        0.0 ≤ kernel.apply left right ∧ kernel.apply left right ≤ 1.0) := by
  refine ⟨fun sets a b known known' => ⟨?_, ?_⟩, fun n => value_ofCount, fun kernel sets sets' =>
    ofSets_congr kernel, fun left right => ⟨?_, ?_, ?_, fun hl hr kernel => ?_⟩⟩
  · rw [similarity_ofSets _ known known', SetKernel.apply, jaccard_idSet]
  · rw [similarity_ofSets _ known known', SetKernel.apply, overlap_idSet]
  · obtain ⟨comparisons, le, ends⟩ := Merge.exists_ends left right {}
    have found : ({} : Merge).outcome left right = shared left right := Nat.zero_add _
    exact ⟨comparisons, le, found ▸ ends⟩
  · exact Nat.le_min.2 ⟨shared_le_left left right, shared_le_right left right⟩
  · have := shared_le_left left right
    have := shared_le_right left right
    omega
  · exact kernel_unit kernel hl hr

/-- Two lists of ids, in no order and with repetitions. -/
def repeatedIds : Array (List Nat) := #[[3, 1, 3, 2], [2, 4, 3, 2]]

theorem repeatedIds_scored :
    (ofSets .jaccard repeatedIds).similarity 0 1 = .ok 0.5 ∧
      ofSets .overlap repeatedIds = ofSets .overlap #[[1, 2, 3], [4, 3, 2]] ∧
      jaccard [3, 1, 3, 2] [2, 4, 3, 2] ≤ 1.0 := by
  obtain ⟨scores, -, same, lists⟩ := sets_scored_by_cardinality
  obtain ⟨half, -⟩ := scores repeatedIds 0 1 (by decide) (by decide)
  have common : (repeatedIds[0].toFinset ∩ repeatedIds[1].toFinset).card = 2 := by decide
  have all : (repeatedIds[0].toFinset ∪ repeatedIds[1].toFinset).card = 4 := by decide
  have quotient : ratio 2 4 = 0.5 := by decide +kernel
  refine ⟨?_, same _ _ _ (by decide +kernel), ?_⟩
  · rw [half, common, all, quotient]
  · exact ((lists _ _).2.2.2 (by decide) (by decide) .jaccard).2

end NeighbourGraph.Metric
