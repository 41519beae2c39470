/-
A summary depends on what the values are, and not on where they stand.

The total order has one way to arrange patterns, NaN with and without a sign included. So the
summary of a list is that of each of its permutations, bit for bit: its sums run over one sequence.
A percentile is a value that is told by counting: with `k` the least count that makes up the share,
fewer than `k` values stand before it and at least `k` no later. The rank is found by a product, a
quotient and a rounding of numbers; up to `2 ^ 46` values it is the exact one, and in range before
it is held there.
-/

import NeighbourGraph.Proofs.Number.Faithful
import NeighbourGraph.Proofs.Number.TotalOrder
import NeighbourGraph.Summary

namespace NeighbourGraph.Summary

open NeighbourGraph.Number

/-! ### The smallest of some values -/

/-- `x` is the `k`-th smallest of the values, from one on: fewer than `k` of them stand before it,
and at least `k` no later. -/
structure IsKthSmallest (values : List Pattern) (k : ℕ) (x : Pattern) : Prop where
  mem : x ∈ values
  before : values.countP (fun y => !totalLe x y) < k
  upTo : k ≤ values.countP (fun y => totalLe y x)

variable {values values' : List Pattern} {k k' q : ℕ} {x y : Pattern}

/-- Later ones stand later. -/
theorem IsKthSmallest.mono (hx : IsKthSmallest values k x) (hy : IsKthSmallest values k' y)
    (le : k ≤ k') : totalLe x y = true := by
  by_contra after
  -- What stands no later than `y` stands before `x`.
  have fewer : values.countP (fun z => totalLe z y) ≤
      values.countP (fun z => !totalLe x z) := by
    refine List.countP_mono_left fun z _ zy => ?_
    rw [Bool.not_eq_true']
    exact Bool.eq_false_of_not_eq_true fun xz => after (totalLe_trans xz zy)
  have := hx.before
  have := hy.upTo
  omega

theorem IsKthSmallest.unique (hx : IsKthSmallest values k x) (hy : IsKthSmallest values k y) :
    x = y :=
  totalLe_antisymm (hx.mono hy le_rfl) (hy.mono hx le_rfl)

theorem IsKthSmallest.perm (same : values.Perm values') (h : IsKthSmallest values k x) :
    IsKthSmallest values' k x :=
  ⟨same.subset h.mem, same.countP_eq _ ▸ h.before, same.countP_eq _ ▸ h.upTo⟩

/-! ### Values in order -/

theorem pairwise_sorted (values : List Pattern) :
    (values.mergeSort totalLe).Pairwise (totalLe · ·) := by
  have trans (x y z : Pattern) : totalLe x y = true → totalLe y z = true → totalLe x z = true :=
    totalLe_trans
  exact List.pairwise_mergeSort trans totalLe_total values

/-- There is one way to arrange values. -/
theorem sorted_eq_of_perm (same : values'.Perm values) :
    values'.mergeSort totalLe = values.mergeSort totalLe :=
  List.Perm.eq_of_pairwise (fun _ _ _ _ => totalLe_antisymm) (pairwise_sorted _)
    (pairwise_sorted _)
    ((List.mergeSort_perm _ _).trans (same.trans (List.mergeSort_perm _ _).symm))

theorem isKthSmallest_getElem {sorted : List Pattern} (ordered : sorted.Pairwise (totalLe · ·))
    {i : ℕ} (bound : i < sorted.length) : IsKthSmallest sorted (i + 1) sorted[i] := by
  have split : sorted.take i ++ sorted[i] :: sorted.drop (i + 1) = sorted := by
    rw [← List.drop_eq_getElem_cons bound, List.take_append_drop]
  rw [← split, List.pairwise_append] at ordered
  obtain ⟨-, last, first⟩ := ordered
  have later {y : Pattern} (hy : y ∈ sorted.drop (i + 1)) : totalLe sorted[i] y = true :=
    List.rel_of_pairwise_cons last hy
  have earlier {y : Pattern} (hy : y ∈ sorted.take i) : totalLe y sorted[i] = true :=
    first y hy _ List.mem_cons_self
  have size : (sorted.take i).length = i := List.length_take_of_le bound.le
  generalize sorted[i] = x at split later earlier ⊢
  refine ⟨split ▸ List.mem_append_right _ List.mem_cons_self, ?_, ?_⟩
  · have nothing : (x :: sorted.drop (i + 1)).countP (fun y => !totalLe x y) = 0 := by
      rw [List.countP_eq_zero]
      rintro y hy
      rcases List.mem_cons.1 hy with rfl | hy
      · simp [totalLe_refl]
      · simp [later hy]
    have := List.countP_le_length (p := fun y => !totalLe x y) (l := sorted.take i)
    rw [← split, List.countP_append, nothing]
    omega
  · have all : (sorted.take i).countP (fun y => totalLe y x) = i := by
      rw [List.countP_eq_length.2 fun y hy => earlier hy, size]
    rw [← split, List.countP_append, all,
      List.countP_cons_of_pos (p := fun y => totalLe y x) (totalLe_refl x)]
    omega

/-- The values in order are the smallest, the second smallest, and so on. -/
theorem isKthSmallest_getD (least : 1 ≤ k) (le : k ≤ values.length) (default : Pattern) :
    IsKthSmallest values k ((values.mergeSort totalLe).getD (k - 1) default) := by
  have bound : k - 1 < (values.mergeSort totalLe).length := by
    rw [List.length_mergeSort]
    omega
  have own := (isKthSmallest_getElem (pairwise_sorted values) bound).perm
    (List.mergeSort_perm _ _)
  rw [Nat.sub_add_cancel least] at own
  rwa [List.getD_eq_getElem _ _ bound]

theorem isKthSmallest_headD (nonempty : values ≠ []) (default : Pattern) :
    IsKthSmallest values 1 ((values.mergeSort totalLe).headD default) := by
  rw [List.headD_eq_getD]
  exact isKthSmallest_getD le_rfl (List.length_pos_iff.2 nonempty) default

theorem isKthSmallest_getLastD (nonempty : values ≠ []) (default : Pattern) :
    IsKthSmallest values values.length ((values.mergeSort totalLe).getLastD default) := by
  rw [List.getLastD_eq_getLast?, List.getLast?_eq_getElem?, ← List.getD_eq_getElem?_getD,
    List.length_mergeSort]
  exact isKthSmallest_getD (List.length_pos_iff.2 nonempty) le_rfl default

/-! ### Ranks -/

/-- How many of `n` values make up `q` percent of them, at least. -/
def share (q n : ℕ) : ℕ := ⌈(q * n : ℚ) / 100⌉₊

variable {n : ℕ}

theorem share_pos (pos : 0 < q) (nonempty : 0 < n) : 1 ≤ share q n :=
  Nat.ceil_pos.2 (by positivity)

theorem share_le (le : q ≤ 100) : share q n ≤ n := by
  refine Nat.ceil_le.2 ?_
  rw [div_le_iff₀ (by norm_num), mul_comm]
  gcongr
  exact_mod_cast le

theorem share_mono {q' : ℕ} (le : q ≤ q') : share q n ≤ share q' n := by
  unfold share
  gcongr

theorem share_hundred : share 100 n = n := by
  rw [share, Nat.cast_ofNat, mul_div_cancel_left₀ _ (by norm_num), Nat.ceil_natCast]

/-- The rank is right before it is held in range. -/
theorem toCount_roundUp (pos : 0 < q) (le : q ≤ 100) (nonempty : 0 < n) (short : n < 2 ^ 46) :
    toCount (roundUp (ofCount q * ofCount n / 100.0)) = share q n := by
  have product : q * n < 2 ^ 53 := by
    calc q * n ≤ 100 * n := Nat.mul_le_mul_right n le
      _ < 2 ^ 53 := by omega
  have hundred : (100.0 : Float) = ofCount 100 := rfl
  obtain ⟨r, quotient, faithful⟩ := exists_value_div (value_mul_ofCount pos nonempty product)
    (hundred ▸ value_ofCount (by norm_num)) (mem_Ico_natCast (Nat.mul_pos pos nonempty) product)
    (mem_Ico_natCast (by norm_num) (by norm_num))
  have own : ⌈((q * n : ℕ) / (100 : ℕ) : ℚ)⌉₊ = share q n := by
    rw [share, Nat.cast_mul, Nat.cast_ofNat]
  have small : share q n < 2 ^ 46 := (share_le le).trans_lt short
  have ceil : ⌈r⌉₊ = share q n := by
    rw [faithful.ceil_eq (k := 7) (by norm_num) (by norm_num) (by omega), own]
  have nonneg : 0 ≤ r := by
    have zero : value (ofCount 0) = some ((0 : ℕ) : ℚ) := value_ofCount (by norm_num)
    exact_mod_cast (faithful.keeps_side zero (by norm_num)).1 (by positivity)
  rw [toCount_roundUp_eq_min quotient nonneg, ceil, min_eq_left]
  exact small.le.trans (by decide)

theorem rank_eq_share (pos : 0 < q) (le : q ≤ 100) (nonempty : 0 < n) (short : n < 2 ^ 46) :
    rank (ofCount q) n = share q n := by
  have least := share_pos pos nonempty
  have most := share_le (n := n) le
  rw [rank, toCount_roundUp pos le nonempty short]
  omega

theorem isKthSmallest_percentile (pos : 0 < q) (le : q ≤ 100) (nonempty : values ≠ [])
    (short : values.length < 2 ^ 46) : IsKthSmallest values (share q values.length)
      (percentile (values.mergeSort totalLe).toArray (ofCount q)) := by
  have length : 0 < values.length := List.length_pos_iff.2 nonempty
  rw [percentile, List.size_toArray, List.length_mergeSort, rank_eq_share pos le length short]
  simpa using isKthSmallest_getD (share_pos pos length) (share_le le) missing

/-! ### Summaries -/

/-- The percentiles of a summary, each with its percentage. -/
def percentiles (s : Summary) : List (ℕ × Pattern) :=
  [(50, s.p50), (75, s.p75), (90, s.p90), (95, s.p95), (99, s.p99), (100, s.p100)]

/-- The percentages of the percentiles. -/
def percentages : List ℕ := [50, 75, 90, 95, 99, 100]

theorem percentage_range (hq : q ∈ percentages) : 0 < q ∧ q ≤ 100 := by
  revert q
  decide

/-- Every permutation of the values has the same summary. -/
theorem ofPatterns_perm (same : values'.Perm values) : ofPatterns values' = ofPatterns values := by
  rw [ofPatterns, ofPatterns, same.isEmpty_eq, sorted_eq_of_perm same]

/-- What a summary takes from the values in order. -/
theorem exists_ofPatterns (nonempty : values ≠ []) :
    ∃ s, ofPatterns values = some s ∧
      s.percentiles = percentages.map (fun q =>
        (q, percentile (values.mergeSort totalLe).toArray (ofCount q))) ∧
      s.min = (values.mergeSort totalLe).headD missing ∧
      s.max = (values.mergeSort totalLe).getLastD missing := by
  rw [ofPatterns, if_neg (by simpa using nonempty)]
  exact ⟨_, rfl, rfl, rfl, rfl⟩

/-- **A summary is a function of the multiset of its values**, bit for bit: permutations are put in
one sequence, so even where the mean and the spread are NaN they come from the same sums. Each
percentile is the value at the nearest rank, which is in range before it is held there. The values
of a summary ascend, in the total order and, without NaN, as numbers. -/
theorem summary_of_multiset (values : List Pattern) (nonempty : values ≠ [])
    (short : values.length < 2 ^ 46) :
    ∃ s, ofPatterns values = some s ∧
      (∀ values', values'.Perm values →
        ofPatterns values' = some s ∧ values'.mergeSort totalLe = values.mergeSort totalLe) ∧
      (∀ p ∈ s.percentiles,
        1 ≤ share p.1 values.length ∧ share p.1 values.length ≤ values.length ∧
        toCount (roundUp (ofCount p.1 * ofCount values.length / 100.0)) =
          share p.1 values.length ∧
        rank (ofCount p.1) values.length = share p.1 values.length ∧
        IsKthSmallest values (share p.1 values.length) p.2) ∧
      IsKthSmallest values 1 s.min ∧ IsKthSmallest values values.length s.max ∧
      (s.min :: s.percentiles.map Prod.snd).Pairwise (totalLe · ·) ∧ s.p100 = s.max ∧
      ((∀ x ∈ values, ¬x.toFloat.isNaN = true) →
        (s.min :: s.percentiles.map Prod.snd).Pairwise (·.toFloat ≤ ·.toFloat)) := by
  obtain ⟨s, made, percentile, first, last⟩ := exists_ofPatterns nonempty
  have length : 0 < values.length := List.length_pos_iff.2 nonempty
  have least : IsKthSmallest values 1 s.min := first ▸ isKthSmallest_headD nonempty missing
  have most : IsKthSmallest values values.length s.max :=
    last ▸ isKthSmallest_getLastD nonempty missing
  have range : ∀ p ∈ s.percentiles, 0 < p.1 ∧ p.1 ≤ 100 := by
    rw [percentile, List.forall_mem_map]
    exact fun q => percentage_range
  have smallest : ∀ p ∈ s.percentiles, IsKthSmallest values (share p.1 values.length) p.2 := by
    rw [percentile, List.forall_mem_map]
    intro q hq
    obtain ⟨pos, le⟩ := percentage_range hq
    exact isKthSmallest_percentile pos le nonempty short
  have ascending : (s.min :: s.percentiles.map Prod.snd).Pairwise (totalLe · ·) := by
    have larger : s.percentiles.Pairwise (·.1 ≤ ·.1) := by simp [percentiles]
    rw [List.pairwise_cons, List.forall_mem_map, List.pairwise_map]
    exact ⟨fun p hp => least.mono (smallest p hp) (share_pos (range p hp).1 length),
      larger.imp_of_mem fun hp hq le => (smallest _ hp).mono (smallest _ hq) (share_mono le)⟩
  refine ⟨s, made, fun values' same => ⟨(ofPatterns_perm same).trans made, sorted_eq_of_perm same⟩,
    fun p hp => ?_, least, most, ascending, ?_, fun numbers => ?_⟩
  · obtain ⟨pos, le⟩ := range p hp
    exact ⟨share_pos pos length, share_le le, toCount_roundUp pos le length short,
      rank_eq_share pos le length short, smallest p hp⟩
  · have whole := smallest (100, s.p100) (by simp [percentiles])
    rw [share_hundred] at whole
    exact whole.unique most
  · have mem : ∀ x ∈ s.min :: s.percentiles.map Prod.snd, x ∈ values := by
      rw [List.forall_mem_cons, List.forall_mem_map]
      exact ⟨least.mem, fun p hp => (smallest p hp).mem⟩
    exact ascending.imp_of_mem fun hx hy =>
      le_of_totalLe (numbers _ (mem _ hx)) (numbers _ (mem _ hy))

/-- Both zeros, a value twice, and NaN without a sign and with one. -/
def mixedValues : List Pattern :=
  [.ofFloat nan, .ofFloat 0.5, .ofFloat 0.0, .ofFloat negativeZero, .ofFloat 0.5,
    ⟨0xFFF8000000000000⟩]

/-- NaN with a sign comes first among the values and NaN without one comes last, in whatever order
they are given. -/
theorem mixedValues_summary :
    mixedValues ≠ [] ∧ mixedValues.length < 2 ^ 46 ∧
      ∃ s, ofPatterns mixedValues = some s ∧ ofPatterns mixedValues.reverse = some s ∧
        s.min = ⟨0xFFF8000000000000⟩ ∧ s.p50 = .ofFloat 0.0 ∧ s.p100 = .ofFloat nan := by
  have nonempty : mixedValues ≠ [] := by decide
  have short : mixedValues.length < 2 ^ 46 := by decide
  obtain ⟨s, made, perm, smallest, least, most, -, last, -⟩ :=
    summary_of_multiset mixedValues nonempty short
  obtain ⟨-, -, -, -, median⟩ := smallest (50, s.p50) (by simp [percentiles])
  have third : share 50 mixedValues.length = 3 := by
    norm_num [share, mixedValues, Nat.ceil_eq_iff]
  have first : IsKthSmallest mixedValues 1 ⟨0xFFF8000000000000⟩ :=
    ⟨by simp [mixedValues], by decide +kernel, by decide +kernel⟩
  have zero : IsKthSmallest mixedValues 3 (.ofFloat 0.0) :=
    ⟨by simp [mixedValues], by decide +kernel, by decide +kernel⟩
  have sixth : IsKthSmallest mixedValues mixedValues.length (.ofFloat nan) :=
    ⟨by simp [mixedValues], by decide +kernel, by decide +kernel⟩
  exact ⟨nonempty, short, s, made, (perm _ (List.reverse_perm _)).1, least.unique first,
    (third ▸ median).unique zero, last.trans (most.unique sixth)⟩

end NeighbourGraph.Summary
