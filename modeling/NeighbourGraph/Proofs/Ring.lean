/-
Rings: who is linked to whom, and how often.

One step of a ring leads `step` places ahead and `step` places back, so the nodes `a` and `b` are
linked once for each step that brings `a` ahead to `b` and once for each that brings `b` ahead to
`a`. This does not change if `a` and `b` are exchanged. As long as the reach of both sides is less
than the whole ring, a step leads to two nodes of its own.
-/

import Mathlib.Data.List.Nodup
import NeighbourGraph.Graph.Ring
import NeighbourGraph.Proofs.Adjacency

namespace NeighbourGraph.Ring

open NeighbourGraph.Number

variable {n reach a b step : Nat} {g : Adjacency}

/-! ### Places on a ring -/

/-- How many places ahead of `a` the node `b` is. -/
def ahead (n a b : Nat) : Nat := if a ≤ b then b - a else b + n - a

/-- How many places it takes to get from one node to the other, the shorter way round. -/
def distance (n a b : Nat) : Nat := min (ahead n a b) (ahead n b a)

theorem ahead_pos (ha : a < n) (other : a ≠ b) : 0 < ahead n a b := by
  unfold ahead
  split <;> omega

/-- The two ways round make up the whole ring. -/
theorem ahead_add_ahead (ha : a < n) (hb : b < n) (other : a ≠ b) :
    ahead n a b + ahead n b a = n := by
  unfold ahead
  split <;> split <;> omega

/-- Going ahead leads to a node if the node is that many places ahead, whole rounds apart. -/
theorem add_step_mod_eq_iff (ha : a < n) (hb : b < n) :
    (a + step) % n = b ↔ ahead n a b = step % n := by
  have rest : step % n < n := Nat.mod_lt _ (by omega)
  rw [← Nat.add_mod_mod]
  generalize step % n = t at rest ⊢
  unfold ahead
  rcases Nat.lt_or_ge (a + t) n with within | round
  · rw [Nat.mod_eq_of_lt within]
    split <;> omega
  · rw [Nat.mod_eq_sub_mod round, Nat.mod_eq_of_lt (by omega)]
    split <;> omega

/-- Going back leads to a node if one gets there from it by going ahead. -/
theorem sub_step_mod_eq_iff (ha : a < n) (hb : b < n) :
    (a + n - step % n) % n = b ↔ ahead n b a = step % n := by
  have rest : step % n < n := Nat.mod_lt _ (by omega)
  generalize step % n = t at rest ⊢
  unfold ahead
  rcases Nat.lt_or_ge a t with round | within
  · rw [Nat.mod_eq_of_lt (by omega)]
    split <;> omega
  · rw [Nat.mod_eq_sub_mod (by omega), Nat.mod_eq_of_lt (by omega)]
    split <;> omega

/-! ### Steps -/

/-- The nodes to which steps lead from a node, ahead and back. -/
def sides (n a : Nat) (steps : List Nat) : List Nat :=
  steps.flatMap fun step => [(a + step) % n, (a + n - step % n) % n]

theorem count_sides (ha : a < n) (hb : b < n) (steps : List Nat) :
    (sides n a steps).count b =
      steps.countP (ahead n a b = · % n) + steps.countP (ahead n b a = · % n) := by
  induction steps with
  | nil => rfl
  | cons step rest ih =>
    rw [sides] at ih
    rw [sides, List.flatMap_cons, List.count_append, ih, List.count_cons, List.count_singleton,
      List.countP_cons, List.countP_cons]
    simp only [beq_iff_eq, decide_eq_true_eq, add_step_mod_eq_iff ha hb, sub_step_mod_eq_iff ha hb]
    omega

/-- There are as many steps from `a` to `b` as from `b` to `a`. -/
theorem count_sides_comm (ha : a < n) (hb : b < n) (steps : List Nat) :
    (sides n a steps).count b = (sides n b steps).count a := by
  rw [count_sides ha hb, count_sides hb ha, Nat.add_comm]

theorem length_sides (n a : Nat) (steps : List Nat) :
    (sides n a steps).length = 2 * steps.length := by
  induction steps with
  | nil => rfl
  | cons step rest ih =>
    rw [sides] at ih ⊢
    rw [List.flatMap_cons, List.length_append, ih, List.length_cons]
    simp only [List.length_cons, List.length_nil]
    omega

/-! ### Links -/

/-- The nodes that a node is linked to, by growing distance. -/
def linked (n reach a : Nat) : List Nat := (sides n a (.range' 1 reach)).filter (· ≠ a)

theorem links_eq (n reach : Nat) :
    links n reach = (List.range n).flatMap fun a => (linked n reach a).map (a, ·) := by
  rw [links, List.filter_flatMap]
  refine congrArg (List.range n).flatMap (funext fun a => ?_)
  have pairs : (List.range' 1 reach).flatMap (across n a) =
      (sides n a (.range' 1 reach)).map (a, ·) := by
    rw [sides, List.map_flatMap]
    rfl
  rw [pairs, List.filter_map, linked]
  refine congrArg _ (List.filter_congr fun b _ => ?_)
  exact decide_eq_decide.2 ne_comm

/-- The nodes that an id is linked to: none, if it is not a node itself. -/
def targets (n reach a : Nat) : List Nat := if a < n then linked n reach a else []

/-- Every node has its own part of a list that goes through the nodes. -/
theorem own_flatMap (f : Nat → List Nat) (n a : Nat) :
    (((List.range n).flatMap fun node => (f node).map (node, ·)).filter (·.1 = a)).map (·.2) =
      if a < n then f a else [] := by
  induction n with
  | zero => rfl
  | succ n ih =>
    rw [List.range_succ, List.flatMap_append, List.filter_append, List.map_append, ih,
      List.flatMap_singleton]
    by_cases last : n = a
    · simp [last, List.filter_map, Function.comp_def]
    · simp [last, show a < n + 1 ↔ a < n by omega]

theorem lt_and_ne_of_mem_linked (ha : a < n) (mem : b ∈ linked n reach a) : b < n ∧ b ≠ a := by
  obtain ⟨side, other⟩ := List.mem_filter.1 mem
  obtain ⟨step, -, at_⟩ := List.mem_flatMap.1 side
  rw [List.mem_cons, List.mem_singleton] at at_
  refine ⟨?_, of_decide_eq_true other⟩
  rcases at_ with rfl | rfl
  · exact Nat.mod_lt _ (by omega)
  · exact Nat.mod_lt _ (by omega)

/-- A ring is a graph, and a node has a relationship for each link of its own. -/
theorem exists_graph (fits : n < countLimit) (reach : Nat) :
    ∃ g, graph n reach = .ok g ∧ g.nodeCount = n ∧
      ∀ a, (g.toGraph.relationships a).map (·.target) = targets n reach a ∧
        g.degree a = (g.toGraph.relationships a).length := by
  obtain ⟨g, accepted⟩ : ∃ g, graph n reach = .ok g := by
    refine ⟨_, Adjacency.ofEdges_eq_ok_iff.2 ⟨?_, rfl⟩⟩
    intro e mem
    obtain ⟨⟨a, b⟩, link, rfl⟩ := List.mem_map.1 mem
    rw [links_eq, List.mem_flatMap] at link
    obtain ⟨node, known, link⟩ := link
    obtain ⟨target, own, same⟩ := List.mem_map.1 link
    cases same
    have ha : a < n := List.mem_range.1 known
    exact ⟨ha, (lt_and_ne_of_mem_linked ha own).1, (by decide +kernel : isWeight 1.0 = true)⟩
  refine ⟨_, accepted, Adjacency.nodeCount_of_ofEdges accepted, fun a => ?_⟩
  obtain ⟨held, degree⟩ := Adjacency.relationships_of_ofEdges fits accepted a
  rw [degree, held, List.length_map]
  refine ⟨?_, rfl⟩
  rw [targets, ← own_flatMap, ← links_eq, Adjacency.ownEdges, List.filter_map, List.map_map, List.map_map]
  rfl

/-! ### Counting links -/

theorem count_linked (other : b ≠ a) :
    (linked n reach a).count b = (sides n a (.range' 1 reach)).count b :=
  List.count_filter (by simpa using other)

/-- Links go both ways, equally often. -/
theorem count_linked_comm (ha : a < n) (hb : b < n) :
    (linked n reach a).count b = (linked n reach b).count a := by
  by_cases same : b = a
  · rw [same]
  · rw [count_linked same, count_linked (Ne.symm same), count_sides_comm ha hb]

theorem lt_and_ne_of_mem_targets (mem : b ∈ targets n reach a) : b < n ∧ b ≠ a := by
  unfold targets at mem
  split at mem
  · next ha => exact lt_and_ne_of_mem_linked ha mem
  · cases mem

theorem targets_eq_nil (outside : ¬a < n) : targets n reach a = [] := if_neg outside

theorem count_targets_outside (outside : ¬b < n) : (targets n reach a).count b = 0 :=
  List.count_eq_zero.2 fun mem => outside (lt_and_ne_of_mem_targets mem).1

/-- That holds for all ids, since no link leads to or from an id that is not a node. -/
theorem count_targets_comm (n reach a b : Nat) :
    (targets n reach a).count b = (targets n reach b).count a := by
  by_cases ha : a < n
  · by_cases hb : b < n
    · rw [targets, targets, if_pos ha, if_pos hb, count_linked_comm ha hb]
    · rw [count_targets_outside hb, targets_eq_nil hb, List.count_nil]
  · rw [count_targets_outside ha, targets_eq_nil ha, List.count_nil]

/-- Within half the ring no step goes around it. -/
theorem mod_of_mem_steps (room : 2 * reach < n) (mem : step ∈ List.range' 1 reach) :
    step % n = step ∧ 1 ≤ step ∧ step ≤ reach := by
  rw [List.mem_range'_1] at mem
  exact ⟨Nat.mod_eq_of_lt (by omega), by omega, by omega⟩

/-- How many steps bring `a` ahead to `b`. -/
theorem countP_steps (room : 2 * reach < n) (ha : a < n) (other : a ≠ b) :
    (List.range' 1 reach).countP (ahead n a b = · % n) = if ahead n a b ≤ reach then 1 else 0 := by
  have positive := ahead_pos ha other
  have same : (List.range' 1 reach).countP (ahead n a b = · % n) =
      (List.range' 1 reach).count (ahead n a b) := by
    refine List.countP_congr fun step mem => ?_
    rw [(mod_of_mem_steps room mem).1, decide_eq_true_eq, beq_iff_eq, eq_comm]
  rw [same, List.Nodup.count List.nodup_range']
  simp only [List.mem_range'_1]
  split <;> split <;> omega

/-- Within half the ring a node is linked once to each node that is near enough, and not at all to
any other. -/
theorem count_linked_of_room (room : 2 * reach < n) (ha : a < n) (hb : b < n) (other : b ≠ a) :
    (linked n reach a).count b = if distance n a b ≤ reach then 1 else 0 := by
  have whole := ahead_add_ahead ha hb other.symm
  rw [count_linked other, count_sides ha hb, countP_steps room ha other.symm,
    countP_steps room hb other, distance]
  split <;> split <;> split <;> omega

theorem mem_linked_iff (room : 2 * reach < n) (ha : a < n) :
    b ∈ linked n reach a ↔ b < n ∧ b ≠ a ∧ distance n a b ≤ reach := by
  constructor
  · intro mem
    obtain ⟨hb, other⟩ := lt_and_ne_of_mem_linked ha mem
    have counted := List.count_pos_iff.2 mem
    rw [count_linked_of_room room ha hb other] at counted
    refine ⟨hb, other, ?_⟩
    by_contra far
    rw [if_neg far] at counted
    cases counted
  · rintro ⟨hb, other, near⟩
    refine List.count_pos_iff.1 ?_
    rw [count_linked_of_room room ha hb other, if_pos near]
    exact Nat.one_pos

theorem nodup_linked (room : 2 * reach < n) (ha : a < n) : (linked n reach a).Nodup := by
  refine List.nodup_iff_count_le_one.2 fun b => ?_
  by_cases mem : b ∈ linked n reach a
  · obtain ⟨hb, other⟩ := lt_and_ne_of_mem_linked ha mem
    rw [count_linked_of_room room ha hb other]
    split <;> omega
  · rw [List.count_eq_zero.2 mem]
    exact Nat.zero_le _

/-- No side of a step is left out, since none leads back to its node. -/
theorem length_linked (room : 2 * reach < n) (ha : a < n) : (linked n reach a).length = 2 * reach := by
  have own : ahead n a a = 0 := by
    rw [ahead, if_pos (Nat.le_refl a), Nat.sub_self]
  have away : ∀ b ∈ sides n a (.range' 1 reach), b ≠ a := by
    rintro b side rfl
    obtain ⟨step, mem, at_⟩ := List.mem_flatMap.1 side
    obtain ⟨short, least, -⟩ := mod_of_mem_steps room mem
    rw [List.mem_cons, List.mem_singleton, @eq_comm _ b, @eq_comm _ b, add_step_mod_eq_iff ha ha,
      sub_step_mod_eq_iff ha ha, own, short] at at_
    omega
  rw [linked, List.filter_eq_self.2 fun b side => decide_eq_true (away b side), length_sides,
    List.length_range']

/-! ### The graph -/

/-- **Rings link each node to its neighbourhood.** Every ring is a graph. It has no loops, and as
many relationships from `a` to `b` as from `b` to `a`. If the reach of both sides is less than the
whole ring, every node has `2 * reach` relationships, to as many different nodes: to the other nodes
that are at most `reach` places away. -/
theorem graph_is_ring (fits : n < countLimit) (reach : Nat) :
    ∃ g, graph n reach = .ok g ∧ g.nodeCount = n ∧
      (∀ a, ∀ r ∈ g.toGraph.relationships a, r.target ≠ a) ∧
      (∀ a b, (g.toGraph.relationships a).countP (·.target = b) =
        (g.toGraph.relationships b).countP (·.target = a)) ∧
      (2 * reach < n → ∀ a < n,
        g.degree a = 2 * reach ∧ (g.toGraph.relationships a).length = 2 * reach ∧
        ((g.toGraph.relationships a).map (·.target)).Nodup ∧
        ∀ b, (∃ r ∈ g.toGraph.relationships a, r.target = b) ↔
          b < n ∧ b ≠ a ∧ distance n a b ≤ reach) := by
  obtain ⟨g, made, count, held⟩ := exists_graph fits reach
  have counted (a b) :
      (g.toGraph.relationships a).countP (·.target = b) = (targets n reach a).count b := by
    rw [← (held a).1, List.count, List.countP_map]
    rfl
  refine ⟨g, made, count, fun a r mem => ?_, fun a b => ?_, fun room a ha => ?_⟩
  · have mem := List.mem_map_of_mem (f := (·.target)) mem
    rw [(held a).1] at mem
    exact (lt_and_ne_of_mem_targets mem).2
  · rw [counted, counted, count_targets_comm]
  · have own := (held a).1
    rw [targets, if_pos ha] at own
    have length : (g.toGraph.relationships a).length = 2 * reach := by
      rw [← List.length_map, own, length_linked room ha]
    refine ⟨(held a).2.trans length, length, own ▸ nodup_linked room ha, fun b => ?_⟩
    rw [← mem_linked_iff room ha, ← own, List.mem_map]

/-- On a ring of six, two places on either side, the nodes across are out of reach. On a ring of
four the third step leads ahead to where the first leads back, and the fourth goes around. -/
theorem smallRings_linked :
    6 < countLimit ∧ 2 * 2 < 6 ∧ 4 < countLimit ∧
    (∃ g, graph 6 2 = .ok g ∧ g.degree 0 = 2 * 2 ∧
      (∃ r ∈ g.toGraph.relationships 0, r.target = 4) ∧
      ¬∃ r ∈ g.toGraph.relationships 0, r.target = 3) ∧
    ∃ g, graph 4 4 = .ok g ∧
      (g.toGraph.relationships 3).countP (·.target = 2) =
        (g.toGraph.relationships 2).countP (·.target = 3) ∧
      ∀ r ∈ g.toGraph.relationships 3, r.target ≠ 3 := by
  have six : 6 < countLimit := by decide
  have four : 4 < countLimit := by decide
  have room : 2 * 2 < 6 := by decide
  obtain ⟨g, made, -, -, -, near⟩ := graph_is_ring six 2
  obtain ⟨g', made', -, loops, both, -⟩ := graph_is_ring four 4
  obtain ⟨degree, -, -, linked⟩ := near room 0 (by decide)
  exact ⟨six, room, four, ⟨g, made, degree, (linked 4).2 (by decide), mt (linked 3).1 (by decide)⟩,
    g', made', both 3 2, loops 3⟩

end NeighbourGraph.Ring
