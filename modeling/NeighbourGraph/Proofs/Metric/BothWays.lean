/-
Scores of a pair, both ways.

Every kernel treats its two sides alike: turned around, the same products, squares of differences
and shared ids come up, in the same order, and sums only depend on that. So a built-in metric that
says that the order of a pair does not matter gives both orders the same score, or none.
-/

import NeighbourGraph.Proofs.Metric.BuiltIn
import NeighbourGraph.Proofs.Metric.Merge
import NeighbourGraph.Proofs.Number.Commutes
import NeighbourGraph.Proofs.Search.Sound

namespace NeighbourGraph

open NeighbourGraph.Number

/-! ### Kernels -/

namespace Kernel

/-- The moments of a pair of sequences that is turned around. -/
def Moments.swap (m : Moments) : Moments := ⟨m.cross, m.right, m.left⟩

theorem Moments.add_swap (m : Moments) (pair : Float × Float) :
    m.swap.add pair.swap = (m.add pair).swap := by
  simp only [add, swap, Prod.fst_swap, Prod.snd_swap, Number.mul_comm pair.2 pair.1]

theorem moments_swap (left right : List Float) : moments right left = (moments left right).swap := by
  have fold : ∀ (pairs : List (Float × Float)) (m : Moments),
      (pairs.map Prod.swap).foldl Moments.add m.swap = (pairs.foldl Moments.add m).swap := by
    intro pairs
    induction pairs with
    | nil => exact fun _ => rfl
    | cons pair pairs ih =>
      intro m
      rw [List.map_cons, List.foldl_cons, List.foldl_cons, m.add_swap, ih]
  rw [moments, moments, ← List.zip_swap left right]
  exact fold _ {}

theorem Moments.cosine_swap (m : Moments) : m.swap.cosine = m.cosine := by
  rw [cosine, cosine, Bool.or_comm, Number.mul_comm]
  rfl

theorem cosine_comm (left right : List Float32) : cosine left right = cosine right left := by
  rw [cosine, cosine, moments_swap (widened left), Moments.cosine_swap]

/-- The squares of the differences of two sequences. -/
def squares (left right : List Float) : List Float :=
  (left.zip right).map fun pair => (pair.1 - pair.2) * (pair.1 - pair.2)

theorem squares_comm (left right : List Float) : squares left right = squares right left := by
  rw [squares, squares, ← List.zip_swap, List.map_map]
  exact List.map_congr_left fun pair _ => sub_mul_sub_comm pair.2 pair.1

theorem euclidean_eq (left right : List Float32) :
    euclidean left right = 1.0 / (1.0 + (sum (squares (widened left) (widened right))).sqrt) := rfl

theorem euclidean_comm (left right : List Float32) :
    euclidean left right = euclidean right left := by
  rw [euclidean_eq, euclidean_eq, squares_comm]

theorem pearson_comm (left right : List Float32) : pearson left right = pearson right left := by
  unfold pearson
  rw [Nat.min_comm]
  dsimp only
  rw [moments_swap, Moments.cosine_swap]

theorem VectorKernel.apply_comm (kernel : VectorKernel) (left right : List Float32) :
    kernel.apply left right = kernel.apply right left := by
  cases kernel with
  | cosine => exact cosine_comm left right
  | euclidean => exact euclidean_comm left right
  | pearson => exact pearson_comm left right

theorem scalar_comm (left right : Float) : scalar left right = scalar right left := by
  rw [scalar, scalar, Number.abs_sub_comm]

theorem SetKernel.apply_comm (kernel : SetKernel) (left right : List Nat) :
    kernel.apply left right = kernel.apply right left := by
  cases kernel with
  | jaccard =>
    change Kernel.jaccard left right = Kernel.jaccard right left
    rw [Kernel.jaccard, Kernel.jaccard, shared_comm, Nat.add_comm]
  | overlap =>
    change Kernel.overlap left right = Kernel.overlap right left
    rw [Kernel.overlap, Kernel.overlap, shared_comm, Nat.min_comm]

end Kernel

/-! ### Metrics -/

/-- What a pair and the same pair turned around come to: one score, or none at all. -/
inductive Agree : Except MetricError Float → Except MetricError Float → Prop where
  | scored (s : Float) : Agree (.ok s) (.ok s)
  | refused (cause cause' : MetricError) : Agree (.error cause) (.error cause')

namespace Metric

/-- The order of a pair does not matter, if the metric says so. -/
def SameBothWays (m : Metric) : Prop :=
  m.symmetric = true → ∀ a b, Agree (m.similarity a b) (m.similarity b a)

variable {m : Metric}

/-- Two things are fetched, and then compared if both are there. -/
theorem agree_of_fetched {α : Type} (left right : Except MetricError α)
    {compare : α → α → Except MetricError Float}
    (agree : ∀ l r, Agree (compare l r) (compare r l)) :
    Agree (left >>= fun l => right >>= compare l) (right >>= fun l => left >>= compare l) := by
  cases left with
  | error cause => cases right <;> exact .refused _ _
  | ok l =>
    cases right with
    | error cause => exact .refused _ _
    | ok r => exact agree l r

theorem agree_of_comm {α : Type} {compare : α → α → Float}
    (comm : ∀ l r, compare l r = compare r l) (l r : α) :
    Agree (.ok (compare l r)) (.ok (compare r l)) := comm l r ▸ .scored _

theorem sameBothWays_of_ofScalars {values : Array Float} (made : ofScalars values = .ok m) :
    m.SameBothWays := by
  unfold ofScalars at made
  split at made
  · cases made
  · cases made
    exact fun _ a b => agree_of_fetched _ _ (agree_of_comm Kernel.scalar_comm)

theorem sameBothWays_ofSets (kernel : Kernel.SetKernel) (sets : Array (List Nat)) :
    (ofSets kernel sets).SameBothWays :=
  fun _ _ _ => agree_of_fetched _ _ (agree_of_comm kernel.apply_comm)

theorem sameBothWays_ofVectors (kernel : Kernel.VectorKernel) (s : VectorSource) :
    (ofVectors kernel s).SameBothWays := by
  intro _ a b
  rw [similarity_ofVectors, similarity_ofVectors]
  refine agree_of_fetched _ _ fun l r => ?_
  by_cases same : l.length = r.length
  · rw [if_neg (not_not.2 same), if_neg (not_not.2 same.symm)]
    exact agree_of_comm kernel.apply_comm l r
  · rw [if_pos same, if_pos (Ne.symm same)]
    exact .refused _ _

theorem agree_total {components : List Metric} {a b : Nat}
    (each : ∀ c ∈ components, Agree (c.similarity a b) (c.similarity b a)) (sum : Float) :
    Agree (total a b components sum) (total b a components sum) := by
  induction components generalizing sum with
  | nil => exact .scored sum
  | cons c rest ih =>
    have first := each c (by simp)
    rw [total, total]
    generalize c.similarity a b = x at first
    generalize c.similarity b a = y at first
    cases first with
    | scored s => exact ih (fun c mem => each c (by simp [mem])) (sum + s)
    | refused => exact .refused _ _

theorem sameBothWays_of_average {components : List Metric}
    (each : ∀ c ∈ components, c.SameBothWays) (made : average components = .ok m) :
    m.SameBothWays := by
  obtain ⟨-, rfl⟩ := average_eq_ok made
  intro symm a b
  have each : ∀ c ∈ components, Agree (c.similarity a b) (c.similarity b a) :=
    fun c mem => each c mem (List.all_eq_true.1 symm c mem) a b
  have summed := agree_total each 0.0
  dsimp only
  generalize total a b components 0.0 = x at summed
  generalize total b a components 0.0 = y at summed
  cases summed with
  | scored s => exact .scored _
  | refused => exact .refused _ _

/-- The function of a metric does not depend on the order of a pair, if it is said to be so. -/
def Even (symmetric : Bool) (f : Nat → Nat → Float) : Prop :=
  symmetric = true → ∀ a b, f a b = f b a

theorem BuiltIn.sameBothWays {Source : VectorSource → Prop} (builtIn : m.BuiltIn Source Even) :
    m.SameBothWays := by
  induction builtIn with
  | scalars made => exact sameBothWays_of_ofScalars made
  | sets kernel lists => exact sameBothWays_ofSets kernel lists
  | vectors kernel => exact sameBothWays_ofVectors kernel _
  | function even => exact fun symm => agree_of_comm (even symm)
  | average _ made ih => exact sameBothWays_of_average ih made

/-- What both orders agree on is a score of both. -/
theorem SameBothWays.honest (same : m.SameBothWays) : m.Honest := by
  intro symm a b x scored
  have finite := isFinite_of_score scored
  have agree := same symm a b
  rw [score] at scored ⊢
  generalize m.similarity a b = s at scored agree
  generalize m.similarity b a = s' at agree
  cases agree with
  | refused => cases scored
  | scored y =>
    dsimp only at scored ⊢
    split at scored
    · next accepted =>
      cases scored
      have le := Number.le_refl finite
      exact ⟨x, by rw [if_pos accepted], Number.beq_iff_le_and_ge.2 ⟨le, le⟩⟩
    · cases scored

end Metric

/-- **A symmetric metric keeps its word.** Where a built-in metric says that the order of a pair
does not matter it does not, whatever vectors are compared: both orders fail, or both have the same
score. So a search can use one score for both. -/
theorem order_of_pair_kept {Source : VectorSource → Prop} {m : Metric}
    (builtIn : m.BuiltIn Source Metric.Even) :
    (m.symmetric = true → ∀ a b, Agree (m.similarity a b) (m.similarity b a)) ∧ m.Honest :=
  ⟨builtIn.sameBothWays, builtIn.sameBothWays.honest⟩

theorem nestedAverage_both_ways :
    ∃ m s, nestedAverage true (fun a b => if a = b then 1.0 else 0.25) = .ok m ∧
      m.symmetric = true ∧ m.similarity 0 1 = .ok s ∧ m.similarity 1 0 = .ok s ∧
      Agree (m.similarity 1 2) (m.similarity 2 1) := by
  have made : ∃ m, nestedAverage true (fun a b => if a = b then 1.0 else 0.25) = .ok m ∧
      m.symmetric = true ∧ (m.similarity 0 1).isOk = true :=
    ⟨_, rfl, by decide +kernel, by decide +kernel⟩
  obtain ⟨m, made, symm, ok⟩ := made
  have even : Metric.Even true fun a b => if a = b then 1.0 else 0.25 :=
    fun _ a b => by simp only [eq_comm]
  have builtIn : m.BuiltIn (fun _ => True) Metric.Even := builtIn_nestedAverage trivial even made
  have same := (order_of_pair_kept builtIn).1 symm
  have agree := same 0 1
  cases first : m.similarity 0 1 with
  | error cause =>
    rw [first] at ok
    cases ok
  | ok s =>
    rw [first] at agree
    generalize second : m.similarity 1 0 = r at agree
    cases agree
    exact ⟨m, s, made, symm, first, second, same 1 2⟩

end NeighbourGraph
