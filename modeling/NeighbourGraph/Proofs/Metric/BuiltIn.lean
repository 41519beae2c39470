/-
Built-in metrics, and the node counts that they promise.

A metric compares numbers, sets or vectors, applies a function, or is the average of such metrics.
If it knows how many nodes it covers, then none of these is out of bounds. An average knows the
smallest of the counts that its parts know; parts that know none are never out of bounds at all. So
a search, which only compares nodes of its graph, does not meet a node that is out of bounds.
-/

import NeighbourGraph.Metric.Properties
import NeighbourGraph.Proofs.Failures
import NeighbourGraph.Proofs.Matrix.Made
import NeighbourGraph.Search.Filtered

namespace NeighbourGraph

open NeighbourGraph.Number

/-- Metrics that are put together from vectors of these sources and from these functions, each with
its word on whether the order of a pair matters. Averages can be nested. -/
inductive Metric.BuiltIn (Source : VectorSource → Prop)
    (Function : Bool → (Nat → Nat → Float) → Prop) : Metric → Prop where
  | scalars {values : Array Float} {m : Metric} (made : ofScalars values = .ok m) :
    BuiltIn Source Function m
  | sets (kernel : Kernel.SetKernel) (sets : Array (List Nat)) :
    BuiltIn Source Function (ofSets kernel sets)
  | vectors (kernel : Kernel.VectorKernel) {source : VectorSource} (kind : Source source) :
    BuiltIn Source Function (ofVectors kernel source)
  | function {symmetric : Bool} {f : Nat → Nat → Float} (kind : Function symmetric f) :
    BuiltIn Source Function (ofFunction symmetric f)
  | average {components : List Metric} {m : Metric}
    (each : ∀ c ∈ components, BuiltIn Source Function c) (made : average components = .ok m) :
    BuiltIn Source Function m

/-- The stores of vectors. The number of their values is a count. -/
inductive VectorSource.Stored : VectorSource → Prop where
  | dense {v : DenseVectors} (fits : v.values.size < countLimit) : Stored v.toSource
  | matrix {m : FeatureMatrix} (made : m.Made) (fits : m.values.length < countLimit) :
    Stored m.toSource

theorem VectorSource.Stored.complete {s : VectorSource} (stored : s.Stored) : s.Complete := by
  cases stored with
  | dense fits => exact DenseVectors.complete fits
  | matrix made fits => exact made.complete fits

namespace Metric

/-- The node is one of those that the metric covers, as far as it knows. -/
def Counts (m : Metric) (node : Nat) : Prop := ∀ n, m.nodeCount = some n → node < n

/-- No node that is counted is out of bounds. -/
def Covers (m : Metric) : Prop :=
  ∀ a b, m.Counts a → m.Counts b → ∀ node, m.similarity a b ≠ .error (.outOfBounds node)

variable {m : Metric} {a b : Nat} {cause : MetricError}

/-! ### Properties of nodes -/

theorem exists_property {α : Type} {values : Array α} (known : a < values.size) :
    ∃ value, property values a = .ok value :=
  ⟨values[a], by simp [property, known]⟩

/-- Two properties, if both are there, are compared. -/
theorem covers_of_properties {α : Type} {values : Array α} {compare : α → α → Float}
    (similarity : ∀ a b, m.similarity a b = do
      let l ← property values a
      let r ← property values b
      return compare l r)
    (count : m.nodeCount = some values.size) : m.Covers := by
  intro a b counted counted' node
  obtain ⟨l, left⟩ := exists_property (counted _ count)
  obtain ⟨r, right⟩ := exists_property (counted' _ count)
  rw [similarity, left, right]
  intro failed
  cases failed

theorem covers_of_ofScalars {values : Array Float} (made : ofScalars values = .ok m) :
    m.Covers := by
  unfold ofScalars at made
  split at made
  · cases made
  · cases made
    exact covers_of_properties (fun _ _ => rfl) rfl

theorem covers_ofSets (kernel : Kernel.SetKernel) (sets : Array (List Nat)) :
    (ofSets kernel sets).Covers :=
  covers_of_properties (fun _ _ => rfl) rfl

/-! ### Vectors -/

/-- A vector is found, and then looked at. -/
theorem checked_eq (s : VectorSource) (node : Nat) :
    s.checked node = s.vector node >>= fun v =>
      if v.isEmpty then .error .zeroLength
      else match v.findIdx? (fun x => !x.isFinite) with
        | some index => .error (.nonFiniteFeature node index)
        | none => .ok v := by
  unfold VectorSource.checked
  cases s.vector node with
  | error cause => rfl
  | ok v => cases v <;> rfl

/-- Two vectors of use are compared if they have one length. -/
theorem similarity_ofVectors (kernel : Kernel.VectorKernel) (s : VectorSource) (a b : Nat) :
    (ofVectors kernel s).similarity a b = s.checked a >>= fun l => s.checked b >>= fun r =>
      if l.length ≠ r.length then .error (.dimensionMismatch l.length r.length)
      else .ok (kernel.apply l r) := by
  unfold ofVectors
  dsimp only
  cases s.checked a with
  | error cause => rfl
  | ok l =>
    cases s.checked b with
    | error cause => rfl
    | ok r =>
      change ite _ _ _ = ite _ _ _
      split <;> rfl

/-- A vector that is there can be of no use, but it is not out of bounds. -/
theorem checked_ne_outOfBounds {s : VectorSource} (complete : s.Complete) (known : a < s.count)
    (node : Nat) : s.checked a ≠ .error (.outOfBounds node) := by
  obtain ⟨features, found⟩ := complete a known
  intro failed
  rw [checked_eq, found] at failed
  change ite _ _ _ = _ at failed
  split at failed
  · cases failed
  · split at failed <;> cases failed

theorem covers_ofVectors (kernel : Kernel.VectorKernel) {s : VectorSource}
    (complete : s.Complete) : (ofVectors kernel s).Covers := by
  intro a b counted counted' node failed
  rw [similarity_ofVectors] at failed
  rcases bind_eq_error_iff.1 failed with left | ⟨l, -, failed⟩
  · exact checked_ne_outOfBounds complete (counted _ rfl) node left
  · rcases bind_eq_error_iff.1 failed with right | ⟨r, -, failed⟩
    · exact checked_ne_outOfBounds complete (counted' _ rfl) node right
    · split at failed <;> cases failed

/-! ### Averages -/

/-- A sum of scores fails as one of the metrics does. -/
theorem exists_of_total_eq_error {components : List Metric} {sum : Float}
    (failed : total a b components sum = .error cause) :
    ∃ c ∈ components, c.similarity a b = .error cause := by
  induction components generalizing sum with
  | nil => cases failed
  | cons c rest ih =>
    rcases bind_eq_error_iff.1 failed with first | ⟨s, -, later⟩
    · exact ⟨c, by simp, first⟩
    · obtain ⟨c', mem, failed⟩ := ih later
      exact ⟨c', by simp [mem], failed⟩

theorem average_eq_ok {components : List Metric} (made : average components = .ok m) :
    components ≠ [] ∧ m =
      { similarity := fun left right => do
          return (← total left right components 0.0) / ofCount components.length
        symmetric := components.all (·.symmetric)
        nodeCount := components.foldr (fun m count => fewer m.nodeCount count) none } := by
  cases components with
  | nil => cases made
  | cons c rest => exact ⟨by simp, (Except.ok.inj made).symm⟩

/-- The smallest of the counts that are known is no larger than any of them. -/
theorem exists_fewest_le {components : List Metric} {c : Metric} (mem : c ∈ components) {n : Nat}
    (known : c.nodeCount = some n) :
    ∃ fewest ≤ n,
      components.foldr (fun m count => fewer m.nodeCount count) none = some fewest := by
  induction components with
  | nil => cases mem
  | cons c' rest ih =>
    rw [List.foldr_cons]
    rcases List.mem_cons.1 mem with rfl | later
    · rw [known]
      cases rest.foldr (fun m count => fewer m.nodeCount count) none with
      | none => exact ⟨n, le_rfl, rfl⟩
      | some k => exact ⟨min n k, min_le_left n k, rfl⟩
    · obtain ⟨fewest, le, eq⟩ := ih later
      rw [eq]
      cases c'.nodeCount with
      | none => exact ⟨fewest, le, rfl⟩
      | some k => exact ⟨min k fewest, (min_le_right k fewest).trans le, rfl⟩

/-- A node that an average counts is counted by all of its parts. -/
theorem Counts.of_average {components : List Metric} (made : average components = .ok m)
    (counted : m.Counts a) {c : Metric} (mem : c ∈ components) : c.Counts a := by
  intro n known
  obtain ⟨fewest, le, eq⟩ := exists_fewest_le mem known
  obtain ⟨-, rfl⟩ := average_eq_ok made
  exact (counted fewest eq).trans_le le

theorem covers_of_average {components : List Metric} (each : ∀ c ∈ components, c.Covers)
    (made : average components = .ok m) : m.Covers := by
  intro a b counted counted' node failed
  -- The division does not fail, so one of the parts does, for which both nodes are counted.
  have parts : ∃ c ∈ components, c.similarity a b = .error (.outOfBounds node) := by
    obtain ⟨-, rfl⟩ := average_eq_ok made
    rcases bind_eq_error_iff.1 failed with summed | ⟨sum, -, divided⟩
    · exact exists_of_total_eq_error summed
    · cases divided
  obtain ⟨c, mem, failed⟩ := parts
  exact each c mem a b (counted.of_average made mem) (counted'.of_average made mem) node failed

/-! ### All of them -/

/-- Built-in metrics over sources that have the vectors they count keep their promise. -/
theorem BuiltIn.covers {Source : VectorSource → Prop}
    {Function : Bool → (Nat → Nat → Float) → Prop} (builtIn : m.BuiltIn Source Function)
    (complete : ∀ s, Source s → s.Complete) : m.Covers := by
  induction builtIn with
  | scalars made => exact covers_of_ofScalars made
  | sets kernel lists => exact covers_ofSets kernel lists
  | vectors kernel kind => exact covers_ofVectors kernel (complete _ kind)
  | function =>
    intro _ _ _ _ _ failed
    cases failed
  | average _ made ih => exact covers_of_average ih made

end Metric

namespace Search

/-- A search over a metric that keeps its promise does not fail for a node out of bounds. -/
theorem outcome_ne_outOfBounds {setup : Setup} (covers : setup.metric.Covers) (schedule : Schedule)
    (left right node : Nat) :
    (runUnder schedule setup).outcome ≠ .error (.score (.failed left right (.outOfBounds node))) := by
  intro fails
  by_cases covered : setup.Covered
  · cases runUnder_error covered fails with
    | @score l r _ known other _ scored =>
      have counts (v : Nat) (lt : v < setup.nodeCount) : setup.metric.Counts v :=
        fun n nodes => covered n nodes ▸ lt
      have outside : setup.metric.similarity l r = .error (.outOfBounds node) := by
        rw [Metric.score] at scored
        split at scored
        · cases scored
          assumption
        · split at scored <;> cases scored
      exact covers l r (counts l known) (counts r other.1) node outside
  · obtain ⟨n, nodes, ne⟩ := Setup.not_covered_iff.1 covered
    simp [runUnder_of_not_covered nodes ne] at fails

end Search

/-- **Metrics keep to their node counts.** A built-in metric that knows how many nodes it covers is
never out of bounds for two of them. Searches with built-in metrics never fail for a node out of
bounds, whatever their graph. -/
theorem node_count_is_kept {m : Metric} (builtIn : m.BuiltIn VectorSource.Stored fun _ _ => True) :
    (∀ n, m.nodeCount = some n → ∀ a < n, ∀ b < n, ∀ node,
      m.similarity a b ≠ .error (.outOfBounds node)) ∧
    ∀ (schedule : Schedule) (setup : Setup), setup.metric = m →
      ∀ left right node, let failure := SearchError.score (.failed left right (.outOfBounds node))
        (Search.runUnder schedule setup).outcome ≠ .error failure ∧
        ∀ source target,
          (Search.runFilteredUnder schedule setup source target).outcome ≠ .error failure := by
  have covers : m.Covers := builtIn.covers fun _ => VectorSource.Stored.complete
  refine ⟨fun n nodes a known b known' node => ?_, ?_⟩
  · have counts (v : Nat) (lt : v < n) : m.Counts v := fun k nodes' => by simp_all
    exact covers a b (counts a known) (counts b known') node
  · rintro schedule setup rfl left right node
    have plain := Search.outcome_ne_outOfBounds covers schedule left right node
    exact ⟨plain, fun source target failed => plain (map_eq_error_iff.1 failed)⟩

/-- The vectors of two nodes. -/
def twoVectors : DenseVectors := ⟨2, #[3.0, 4.0, 6.0, 8.0], by decide, 2, by decide⟩

/-- The average of numbers, vectors, and an average of sets and a function. Only two nodes have all
of these. -/
def nestedAverage (symmetric : Bool) (f : Nat → Nat → Float) : Except MetricError Metric := do
  let numbers ← Metric.ofScalars #[0.0, 1.0, 3.0]
  let inner ← Metric.average
    [Metric.ofFunction symmetric f, Metric.ofSets .jaccard #[[2, 1, 2], [3, 2], [], [7]]]
  Metric.average [numbers, Metric.ofVectors .cosine twoVectors.toSource, inner]

theorem builtIn_nestedAverage {Source : VectorSource → Prop}
    {Function : Bool → (Nat → Nat → Float) → Prop} {symmetric : Bool} {f : Nat → Nat → Float}
    (vectors : Source twoVectors.toSource) (function : Function symmetric f) {m : Metric}
    (made : nestedAverage symmetric f = .ok m) : m.BuiltIn Source Function := by
  obtain ⟨numbers, scalars, made⟩ := bind_eq_ok_iff.1 made
  obtain ⟨inner, nested, outer⟩ := bind_eq_ok_iff.1 made
  have inner : inner.BuiltIn Source Function := by
    refine .average (fun c mem => ?_) nested
    simp only [List.mem_cons, List.not_mem_nil, or_false] at mem
    rcases mem with rfl | rfl
    · exact .function function
    · exact .sets _ _
  refine .average (fun c mem => ?_) outer
  simp only [List.mem_cons, List.not_mem_nil, or_false] at mem
  rcases mem with rfl | rfl | rfl
  · exact .scalars scalars
  · exact .vectors _ vectors
  · exact inner

theorem nestedAverage_keeps_count :
    ∃ m, nestedAverage false (fun _ _ => 0.25) = .ok m ∧ m.nodeCount = some 2 ∧
      (∀ node, m.similarity 1 0 ≠ .error (.outOfBounds node)) ∧
      m.similarity 1 2 = .error (.outOfBounds 2) ∧
      ∀ left right node,
        (Search.run { Search.fourNodes with graph := .nodesOnly 2, metric := m }).outcome ≠
          .error (.score (.failed left right (.outOfBounds node))) := by
  have made : ∃ m, nestedAverage false (fun _ _ => 0.25) = .ok m ∧ m.nodeCount = some 2 ∧
      m.similarity 1 2 = .error (.outOfBounds 2) := ⟨_, rfl, by decide +kernel, rfl⟩
  obtain ⟨m, made, count, missing⟩ := made
  have builtIn : m.BuiltIn VectorSource.Stored fun _ _ => True :=
    builtIn_nestedAverage (.dense (by decide)) trivial made
  obtain ⟨kept, searches⟩ := node_count_is_kept builtIn
  refine ⟨m, made, count, kept 2 count 1 (by decide) 0 (by decide), missing,
    fun left right node => (searches .inOrder _ rfl left right node).1⟩

end NeighbourGraph
