/-
What samplers put behind the content of a buffer.

Behind a buffer a sampler does what it does with an empty one, so the content stays and makes no
difference. The uniform sampler gives as many other nodes as are asked for or as there are: `skip`
numbers the other nodes without a gap. A walk that does not fail gives as many if its node has
relationships. Those that it met itself can be reached along relationships; the others were drawn
to fill up.
-/

import Mathlib.Data.Set.Function
import Mathlib.Logic.Relation
import NeighbourGraph.Proofs.AcceptedEdges
import NeighbourGraph.Sampler.Buffer

namespace NeighbourGraph

open NeighbourGraph.Random

/-! ### Reaching -/

/-- A relationship leads from one id to another. -/
def Graph.Links (graph : Graph) (source target : Nat) : Prop :=
  ∃ r ∈ graph.relationships source, r.target = target

/-- Relationships lead from one id to another, one after the other. -/
def Graph.Reaches (graph : Graph) : Nat → Nat → Prop := Relation.ReflTransGen graph.Links

namespace Sampler

/-- `amount` different nodes other than `node`. -/
structure AreOthers (nodeCount node amount : Nat) (ids : List Nat) : Prop where
  nodup : ids.Nodup
  other : ∀ id ∈ ids, IsOther nodeCount node id
  length_eq : ids.length = amount

/-! ### Behind a buffer -/

/-- What follows a draw that did not fail. -/
theorem bind_apply_of_ok {α β : Type} {d : ExceptT WalkError Draw α}
    {f : α → ExceptT WalkError Draw β} {g : Generator} {a : α} (h : (d g).1 = .ok a) :
    (d >>= f) g = f a (d g).2 := by
  change ExceptT.bindCont f (d g).1 (d g).2 = _
  rw [h]
  rfl

theorem map_apply {α β : Type} (f : α → β) (d : ExceptT WalkError Draw α) (g : Generator) :
    ((f <$> d) g).1 = (d g).1.map f := by
  rw [map_eq_pure_bind]
  change ((ExceptT.bindCont (fun a => pure (f a)) (d g).1 : Draw (Except WalkError β))
    (d g).2).1 = _
  cases (d g).1 with
  | ok a => rfl
  | error cause => rfl

theorem uniformOnto_eq (nodeCount node count : Nat) (out : List Nat) :
    uniformOnto nodeCount node count out = (out ++ ·) <$> uniform nodeCount node count := by
  unfold uniformOnto uniform
  dsimp only
  split
  · simp
  · simp

theorem walkOnto_eq (graph : Graph) (node wanted current steps : Nat) (out found : List Nat) :
    walkOnto graph node wanted out.length current (out ++ found) steps =
      (out ++ ·) <$> walk graph node wanted current found steps := by
  induction steps generalizing current found with
  | zero => simp [walkOnto, walk]
  | succ steps ih =>
    rw [walkOnto, walk, List.length_append, Nat.add_sub_cancel_left]
    split
    · simp
    · extract_lets onto goOn
      have goesOn : ∀ position, onto position = (out ++ ·) <$> goOn position := by
        intro position
        simp only [onto, goOn, map_bind, List.drop_left]
        refine bind_congr fun next => ?_
        cases next with
        | none => exact ih node found
        | some next =>
          dsimp only
          rw [← ih]
          split
          · rw [List.append_assoc]
          · rfl
      split
      · rw [map_bind]
        refine bind_congr fun turns => ?_
        split
        · rw [pure_bind, pure_bind, goesOn]
        · rw [pure_bind, pure_bind, goesOn]
      · rw [pure_bind, pure_bind, goesOn]

theorem topUpOnto_eq (wanted : Nat) (out found drawn : List Nat) :
    topUpOnto wanted out.length (out ++ found) drawn = out ++ topUp wanted found drawn := by
  induction drawn generalizing found with
  | nil => rfl
  | cons c rest ih =>
    rw [topUpOnto, topUp, List.length_append, Nat.add_sub_cancel_left, List.drop_left]
    split
    · rfl
    · rw [← ih]
      split
      · rfl
      · rw [List.append_assoc]

theorem randomWalkOnto_eq (graph : Graph) (node count : Nat) (out : List Nat) :
    randomWalkOnto graph node count out = (out ++ ·) <$> randomWalk graph node count := by
  unfold randomWalkOnto randomWalk
  dsimp only
  split
  · simp
  · have walks := walkOnto_eq graph node (min count (graph.nodeCount - 1)) node
      (min (min count (graph.nodeCount - 1) * stepsPerCandidate) Number.countMax) out []
    rw [List.append_nil] at walks
    rw [walks, map_bind, bind_map_left]
    refine bind_congr fun found => ?_
    rw [List.length_append, Nat.add_sub_cancel_left]
    split
    · simp
    · simp [uniformOnto_eq, topUpOnto_eq]

/-- Behind the content of a buffer a sampler puts what it gives by itself. -/
theorem sampleOnto_eq (kind : SamplerKind) (graph : Graph) (node count : Nat) (out : List Nat) :
    sampleOnto kind graph node count out = (out ++ ·) <$> sample kind graph node count := by
  cases kind with
  | uniform =>
    change (liftM (uniformOnto graph.nodeCount node count out) : ExceptT WalkError Draw _) = _
    rw [uniformOnto_eq, liftM_map]
    rfl
  | randomWalk => exact randomWalkOnto_eq graph node count out

/-! ### Uniform -/

/-- The numbers below the number of the other nodes stand for these nodes, one for each. -/
theorem bijOn_skip {nodeCount node : Nat} (known : node < nodeCount) :
    Set.BijOn (skip node) (Set.Iio (nodeCount - 1)) {id | IsOther nodeCount node id} := by
  refine ⟨fun number lt => isOther_skip lt, (skip_injective node).injOn, ?_⟩
  rintro id ⟨lt, other⟩
  by_cases before : id < node
  · refine ⟨id, ?_, ?_⟩
    · change id < nodeCount - 1
      omega
    · rw [skip, if_neg (by omega)]
  · refine ⟨id - 1, ?_, ?_⟩
    · change id - 1 < nodeCount - 1
      omega
    · rw [skip, if_pos (by omega)]
      omega

theorem length_uniform (nodeCount node count : Nat) (g : Generator) :
    (uniform nodeCount node count g).1.length = min count (nodeCount - 1) := by
  unfold uniform
  by_cases nothing : min count (nodeCount - 1) = 0
  · rw [if_pos nothing]
    exact nothing.symm
  · rw [if_neg nothing, Draw.bind_apply, Draw.pure_apply, List.length_map]
    exact (isSubset_subset (Nat.min_le_right count (nodeCount - 1)) g).length_eq

theorem areOthers_uniform (nodeCount node count : Nat) (g : Generator) :
    AreOthers nodeCount node (min count (nodeCount - 1)) (uniform nodeCount node count g).1 where
  nodup := (enough_uniform nodeCount node count g).1
  other _ := isOther_of_mem_uniform
  length_eq := length_uniform nodeCount node count g

/-! ### Walks -/

section

variable {graph : Graph} {node wanted : Nat}

/-- A step follows a relationship. -/
theorem gives_pickWeighted (summable : ∀ v, Summable graph v) (v : Nat) :
    Gives (fun next => ∀ t ∈ next, graph.Links v t) (pickWeighted (graph.relationships v)) := by
  intro g next picked t ht
  obtain rfl : next = some t := ht
  rcases picksTarget_pickWeighted (summable v) g with ⟨-, unpicked⟩ | ⟨r, hr, picks⟩
  · rw [picked] at unpicked
    cases unpicked
  · rw [picked] at picks
    cases picks
    exact ⟨r, hr, rfl⟩

/-- What a walk met: different other nodes, no more than wanted, all of them reached. -/
structure Met (graph : Graph) (node wanted : Nat) (found : List Nat) : Prop where
  nodup : found.Nodup
  other : ∀ id ∈ found, IsOther graph.nodeCount node id
  length_le : found.length ≤ wanted
  reached : ∀ id ∈ found, graph.Reaches node id

theorem Met.concat {found : List Nat} {next : Nat} (met : Met graph node wanted found)
    (other : IsOther graph.nodeCount node next) (reached : graph.Reaches node next)
    (new : next ∉ found) (short : found.length < wanted) :
    Met graph node wanted (found ++ [next]) where
  nodup := nodup_concat met.nodup new
  other := by simpa [or_imp, forall_and] using ⟨met.other, other⟩
  length_le := by simpa using short
  reached := by simpa [or_imp, forall_and] using ⟨met.reached, reached⟩

theorem gives_walk_met (summable : ∀ v, Summable graph v) (steps : Nat) :
    Gives (Met graph node wanted) (walk graph node wanted node [] steps) := by
  refine gives_walk_within (Q := graph.Reaches node) ?_ ?_ .refl .refl
    ⟨.nil, by simp, by simp, by simp⟩
  · intro v there g next picked t ht
    exact there.tail (gives_pickWeighted summable v g next picked t ht)
  · exact fun found next other reached new short met => met.concat other reached new short

/-- A walk over weights that add up comes to its end. -/
theorem exists_walk_eq_ok (summable : ∀ v, Summable graph v) (node wanted steps : Nat)
    (g : Generator) :
    ∃ found, (walk graph node wanted node [] steps g).1 = .ok found := by
  cases walked : (walk graph node wanted node [] steps g).1 with
  | ok found => exact ⟨found, rfl⟩
  | error cause =>
    obtain ⟨v, infinite⟩ := failsOnlyIf_walk graph node wanted node steps [] g cause walked
    exact absurd (summable v) infinite

/-! ### Filling up -/

theorem length_topUp_le {found : List Nat} (le : found.length ≤ wanted) (drawn : List Nat) :
    (topUp wanted found drawn).length ≤ wanted := by
  induction drawn generalizing found with
  | nil => exact le
  | cons c rest ih =>
    rw [topUp]
    split
    · exact le
    · next short =>
      apply ih
      split
      · exact le
      · rw [List.length_append]
        exact Nat.lt_of_not_le short

theorem prefix_topUp (found drawn : List Nat) : found <+: topUp wanted found drawn := by
  induction drawn generalizing found with
  | nil => exact List.prefix_refl found
  | cons c rest ih =>
    rw [topUp]
    split
    · exact List.prefix_refl found
    · refine .trans ?_ (ih _)
      split
      · exact List.prefix_refl found
      · exact List.prefix_append found [c]

theorem Met.areOthers_topUp {found drawn : List Nat} (met : Met graph node wanted found)
    (drew : AreOthers graph.nodeCount node wanted drawn) :
    AreOthers graph.nodeCount node wanted (topUp wanted found drawn) where
  nodup := nodup_topUp met.nodup drawn
  other := isOther_of_mem_topUp met.other drew.other
  length_eq := Nat.le_antisymm (length_topUp_le met.length_le drawn)
    (le_length_topUp drew.nodup drew.length_eq.ge found)

/-- A walk that met `found` is filled up to other nodes as many as are asked for or as there
are. -/
theorem exists_randomWalk_eq (summable : ∀ v, Summable graph v) (linked : graph.degree node ≠ 0)
    {count : Nat} {g : Generator} {found : List Nat}
    (walked : (walk graph node (min count (graph.nodeCount - 1)) node []
      (min (min count (graph.nodeCount - 1) * stepsPerCandidate) Number.countMax) g).1 =
        .ok found) :
    ∃ added, (randomWalk graph node count g).1 = .ok (found ++ added) ∧
      AreOthers graph.nodeCount node (min count (graph.nodeCount - 1)) (found ++ added) := by
  have met := gives_walk_met summable _ g found walked
  unfold randomWalk
  dsimp only
  by_cases nothing : min count (graph.nodeCount - 1) = 0
  · -- Nothing is wanted, so there is nothing that the walk can have met.
    rw [nothing] at met ⊢
    obtain rfl := List.length_eq_zero_iff.1 (Nat.le_zero.1 met.length_le)
    exact ⟨[], rfl, .nil, by simp, rfl⟩
  · rw [if_neg (by simp [nothing, linked]), bind_apply_of_ok walked]
    split
    · next reached =>
      rw [← List.append_nil found] at met
      exact ⟨[], by rw [List.append_nil]; rfl, met.nodup, met.other,
        Nat.le_antisymm met.length_le (by simpa using reached)⟩
    · have drew := areOthers_uniform graph.nodeCount node (min count (graph.nodeCount - 1))
        (walk graph node (min count (graph.nodeCount - 1)) node []
          (min (min count (graph.nodeCount - 1) * stepsPerCandidate) Number.countMax) g).2
      rw [Nat.min_eq_left (Nat.min_le_right _ _)] at drew
      obtain ⟨added, eq⟩ := prefix_topUp found _
      exact ⟨added, congrArg Except.ok eq.symm, eq ▸ met.areOthers_topUp drew⟩

end

/-! ### Samplers -/

/-- **Samplers append different other nodes.** Behind any content of a buffer, for a node of a graph
whose weights add up. The uniform sampler puts different other nodes, as many as are asked for or as
there are, which stand for the numbers that were drawn one by one. A walk puts nothing for a node
without relationships, and for others as many, of which relationships lead to all that it met
itself. Both put what they give by themselves. -/
theorem samplers_append {graph : Graph} {node : Nat} (known : node < graph.nodeCount)
    (summable : ∀ v, Summable graph v) (count : Nat) (g : Generator) (out : List Nat) :
    (∀ kind, sampleOnto kind graph node count out = (out ++ ·) <$> sample kind graph node count) ∧
    (∃ ids, (sampleOnto .uniform graph node count out g).1 = .ok (out ++ ids) ∧
      AreOthers graph.nodeCount node (min count (graph.nodeCount - 1)) ids) ∧
    Set.BijOn (skip node) (Set.Iio (graph.nodeCount - 1)) {id | IsOther graph.nodeCount node id} ∧
    (graph.degree node = 0 → (sampleOnto .randomWalk graph node count out g).1 = .ok out) ∧
    (graph.degree node ≠ 0 → ∃ walked added,
      (sampleOnto .randomWalk graph node count out g).1 = .ok (out ++ (walked ++ added)) ∧
      AreOthers graph.nodeCount node (min count (graph.nodeCount - 1)) (walked ++ added) ∧
      (walkOnto graph node (min count (graph.nodeCount - 1)) out.length node out
        (min (min count (graph.nodeCount - 1) * stepsPerCandidate) Number.countMax) g).1 =
          .ok (out ++ walked) ∧
      ∀ id ∈ walked, graph.Reaches node id) := by
  refine ⟨fun kind => sampleOnto_eq kind graph node count out, ⟨_, ?_, areOthers_uniform
    graph.nodeCount node count g⟩, bijOn_skip known, ?_, ?_⟩
  · rw [sampleOnto_eq]
    rfl
  · intro isolated
    change (randomWalkOnto graph node count out g).1 = _
    unfold randomWalkOnto
    dsimp only
    rw [if_pos (.inr isolated)]
    rfl
  · intro linked
    obtain ⟨walked, walks⟩ := exists_walk_eq_ok summable node (min count (graph.nodeCount - 1))
      (min (min count (graph.nodeCount - 1) * stepsPerCandidate) Number.countMax) g
    obtain ⟨added, gives, others⟩ := exists_randomWalk_eq summable linked walks
    refine ⟨walked, added, ?_, others, ?_, (gives_walk_met summable _ g walked walks).reached⟩
    · rw [sampleOnto_eq, map_apply]
      exact congrArg (Except.map (out ++ ·)) gives
    · have onto := walkOnto_eq graph node (min count (graph.nodeCount - 1)) node
        (min (min count (graph.nodeCount - 1) * stepsPerCandidate) Number.countMax) out []
      rw [List.append_nil] at onto
      rw [onto, map_apply]
      exact congrArg (Except.map (out ++ ·)) walks

/-- Relationships that repeat, lead to an unknown id or back to their node, and two nodes that none
leads to. -/
def strayGraph : Graph :=
  .ofRows #[[⟨1, 1.5⟩, ⟨9, 0.5⟩, ⟨1, 1.0⟩], [⟨0, 0.0⟩, ⟨1, 0.0⟩], [], []]

theorem strayGraph_append : 0 < strayGraph.nodeCount ∧ (∀ v, Summable strayGraph v) ∧
    strayGraph.degree 0 ≠ 0 ∧ ∃ walked added,
      (sampleOnto .randomWalk strayGraph 0 3 [99, 1] (.ofSeed 17)).1 =
        .ok ([99, 1] ++ (walked ++ added)) ∧
      AreOthers 4 0 3 (walked ++ added) ∧ ∀ id ∈ walked, strayGraph.Reaches 0 id := by
  have known : 0 < strayGraph.nodeCount := by decide
  have summable : ∀ v, Summable strayGraph v := summable_ofRows (by decide +kernel)
  have linked : strayGraph.degree 0 ≠ 0 := by decide
  obtain ⟨-, -, -, -, walks⟩ := samplers_append known summable 3 (.ofSeed 17) [99, 1]
  obtain ⟨walked, added, gives, others, -, reached⟩ := walks linked
  exact ⟨known, summable, linked, walked, added, gives, others, reached⟩

end Sampler

end NeighbourGraph
