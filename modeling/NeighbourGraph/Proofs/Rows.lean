/-
Rows of edges hold each edge once, in the row of its source and in the order of the list.

A row starts behind the edges with smaller sources, so the rows of two nodes have no slot in common
and the rows of all nodes fill the slots. While the edges are put in one by one, the slots of a row
up to the next free one hold the edges of that row so far (`Filled`). An edge goes into the next
free slot of its own row and leaves every other slot as it is.
-/

import Mathlib.Algebra.Ring.Nat
import Mathlib.Data.List.Basic
import NeighbourGraph.Graph.Adjacency

namespace NeighbourGraph.Adjacency

open NeighbourGraph.Number

/-- The edges that start at a node. -/
def ownEdges (edges : List Edge) (v : Nat) : List Edge := edges.filter (·.source = v)

/-- How many edges start at a node before `v`. -/
def edgesBefore (edges : List Edge) (v : Nat) : Nat := edges.countP (·.source < v)

section

variable {nodeCount v w : Nat} {edges done rest : List Edge} {e : Edge}

/-! ### Starts -/

theorem edgesBefore_succ (edges : List Edge) (v : Nat) :
    edgesBefore edges (v + 1) = edgesBefore edges v + (ownEdges edges v).length := by
  induction edges with
  | nil => rfl
  | cons e edges ih =>
    simp only [edgesBefore, ownEdges, List.countP_cons, List.filter_cons, decide_eq_true_eq] at *
    rcases Nat.lt_trichotomy e.source v with before | own | later
    · rw [if_pos (by omega), if_pos before, if_neg (by omega)]
      omega
    · rw [if_pos (by omega), if_neg (by omega), if_pos own, List.length_cons]
      omega
    · rw [if_neg (by omega), if_neg (by omega), if_neg (by omega)]
      omega

theorem edgesBefore_mono (edges : List Edge) (le : v ≤ w) :
    edgesBefore edges v ≤ edgesBefore edges w :=
  List.countP_mono_left fun e _ lt => by
    simp only [decide_eq_true_eq] at *
    omega

theorem edgesBefore_zero (edges : List Edge) : edgesBefore edges 0 = 0 := by
  simp [edgesBefore]

theorem edgesBefore_le_length (edges : List Edge) (v : Nat) :
    edgesBefore edges v ≤ edges.length := List.countP_le_length

theorem edgesBefore_eq_length (known : ∀ e ∈ edges, e.source < nodeCount) :
    edgesBefore edges nodeCount = edges.length :=
  List.countP_eq_length.2 fun e he => by simpa using known e he

theorem getElem?_degreesOf (nodeCount : Nat) (edges : List Edge) (v : Nat) :
    (degreesOf nodeCount edges)[v]? =
      if v < nodeCount then some (ownEdges edges v).length else none := by
  have counted : ∀ counts : Array Nat,
      (edges.foldl (fun degrees e => degrees.modify e.source (· + 1)) counts)[v]? =
        counts[v]?.map (· + (ownEdges edges v).length) := by
    induction edges with
    | nil => simp [ownEdges]
    | cons e edges ih =>
      intro counts
      rw [List.foldl_cons, ih, Array.getElem?_modify]
      by_cases own : e.source = v
      · simp [own, ownEdges, Function.comp_def, Nat.add_assoc, Nat.add_comm 1]
      · simp [own, ownEdges]
  rw [degreesOf, counted, Array.getElem?_replicate]
  split
  · simp
  · rfl

theorem getElem?_startsOf (nodeCount : Nat) (edges : List Edge) (v : Nat) :
    (startsOf (degreesOf nodeCount edges))[v]? =
      if v ≤ nodeCount then some (edgesBefore edges v) else none := by
  rw [startsOf, List.getElem?_toArray]
  induction v with
  | zero => simp [edgesBefore_zero]
  | succ v ih =>
    rw [List.getElem?_succ_scanl, ih, Array.getElem?_toList, getElem?_degreesOf,
      edgesBefore_succ]
    by_cases lt : v < nodeCount
    · simp [lt, Nat.le_of_lt lt, Nat.succ_le_of_lt lt]
    · have behind : ¬v + 1 ≤ nodeCount := lt
      rw [if_neg lt, if_neg behind]
      split <;> rfl

theorem size_startsOf (nodeCount : Nat) (edges : List Edge) :
    (startsOf (degreesOf nodeCount edges)).size = nodeCount + 1 := by
  have last := getElem?_startsOf nodeCount edges nodeCount
  have behind := getElem?_startsOf nodeCount edges (nodeCount + 1)
  rw [if_pos (Nat.le_refl _)] at last
  rw [if_neg (by omega), Array.getElem?_eq_none_iff] at behind
  exact Nat.le_antisymm behind (Array.getElem?_eq_some_iff.1 last).1

/-! ### Filling -/

theorem ownEdges_concat (done : List Edge) (e : Edge) (v : Nat) :
    ownEdges (done ++ [e]) v =
      if e.source = v then ownEdges done v ++ [e] else ownEdges done v := by
  rw [ownEdges, List.filter_append]
  split
  · next own => simp [own, ownEdges]
  · next other => simp [other, ownEdges]

theorem length_ownEdges_le (done rest : List Edge) (v : Nat) :
    (ownEdges done v).length ≤ (ownEdges (done ++ rest) v).length := by
  simp [ownEdges, List.filter_append]

/-- A slot of one row is no slot of another. -/
theorem slot_ne {i j : Nat} (other : v ≠ w) (hi : i < (ownEdges edges v).length)
    (hj : j < (ownEdges edges w).length) : edgesBefore edges v + i ≠ edgesBefore edges w + j := by
  have behindV := edgesBefore_succ edges v
  have behindW := edgesBefore_succ edges w
  rcases Nat.lt_or_gt_of_ne other with before | before
  · have := edgesBefore_mono edges (show v + 1 ≤ w from before)
    omega
  · have := edgesBefore_mono edges (show w + 1 ≤ v from before)
    omega

/-- The slots of all rows lie within the number of edges. -/
theorem slot_lt {i : Nat} (hi : i < (ownEdges edges v).length) :
    edgesBefore edges v + i < edges.length := by
  have := edgesBefore_succ edges v
  have := edgesBefore_le_length edges (v + 1)
  omega

/-- Of all edges, those in `done` have been put in: they lie at the front of their rows. -/
structure Filled (nodeCount : Nat) (edges done : List Edge) (f : Filling) : Prop where
  next : ∀ v < nodeCount, f.next[v]? = some (edgesBefore edges v + (ownEdges done v).length)
  size_targets : f.targets.size = edges.length
  size_weights : f.weights.size = edges.length
  target : ∀ v i e, (ownEdges done v)[i]? = some e →
    f.targets[edgesBefore edges v + i]? = some e.target
  weight : ∀ v i e, (ownEdges done v)[i]? = some e →
    f.weights[edgesBefore edges v + i]? = some e.weight

theorem filled_empty (nodeCount : Nat) (edges : List Edge) :
    Filled nodeCount edges []
      (.empty nodeCount (startsOf (degreesOf nodeCount edges)) edges.length) where
  next v hv := by
    rw [Filling.empty, Array.take_eq_extract, Array.getElem?_extract, size_startsOf,
      if_pos (by omega), Nat.zero_add, getElem?_startsOf, if_pos (Nat.le_of_lt hv)]
    rfl
  size_targets := by simp [Filling.empty]
  size_weights := by simp [Filling.empty]
  target v i e h := by simp [ownEdges] at h
  weight v i e h := by simp [ownEdges] at h

/-- What is written into the next free slot of a row extends the row and leaves the others. -/
theorem getElem?_put {α : Type} {xs : Array α} {field : Edge → α}
    (size : xs.size = edges.length) (all : edges = done ++ e :: rest)
    (held : ∀ v i e, (ownEdges done v)[i]? = some e →
      xs[edgesBefore edges v + i]? = some (field e))
    {i : Nat} {e' : Edge} (he' : (ownEdges (done ++ [e]) v)[i]? = some e') :
    (xs.setIfInBounds (edgesBefore edges e.source + (ownEdges done e.source).length)
      (field e))[edgesBefore edges v + i]? = some (field e') := by
  have split : edges = done ++ [e] ++ rest := by rw [all, List.append_assoc]; rfl
  have room : (ownEdges done e.source).length < (ownEdges edges e.source).length := by
    have := length_ownEdges_le (done ++ [e]) rest e.source
    rw [← split, ownEdges_concat, if_pos rfl, List.length_append, List.length_singleton] at this
    omega
  have within : edgesBefore edges e.source + (ownEdges done e.source).length < xs.size :=
    size ▸ slot_lt room
  rw [Array.getElem?_setIfInBounds]
  rw [ownEdges_concat] at he'
  split at he'
  · next own =>
    subst own
    rcases Nat.lt_or_ge i (ownEdges done e.source).length with before | here
    · rw [List.getElem?_append_left before] at he'
      rw [if_neg (by omega), held _ _ _ he']
    · rw [List.getElem?_append_right here, List.getElem?_singleton] at he'
      split at he'
      · cases he'
        rw [if_pos (by omega), if_pos within]
      · cases he'
  · next other =>
    have old : i < (ownEdges edges v).length := by
      have := (List.getElem?_eq_some_iff.1 he').1
      have := length_ownEdges_le done (e :: rest) v
      rw [← all] at this
      omega
    rw [if_neg (slot_ne other room old), held _ _ _ he']

theorem Filled.put {f : Filling} (filled : Filled nodeCount edges done f)
    (all : edges = done ++ e :: rest) (known : e.source < nodeCount) :
    Filled nodeCount edges (done ++ [e]) (f.put e) := by
  have slot : f.next.getD e.source 0 =
      edgesBefore edges e.source + (ownEdges done e.source).length := by
    rw [Array.getD_eq_getD_getElem?, filled.next _ known, Option.getD_some]
  constructor
  · intro v hv
    rw [Filling.put, Array.getElem?_modify, filled.next v hv, ownEdges_concat]
    split
    · simp [Nat.add_assoc]
    · rfl
  · simpa [Filling.put] using filled.size_targets
  · simpa [Filling.put] using filled.size_weights
  · intro v i e' he'
    rw [Filling.put, slot]
    exact getElem?_put filled.size_targets all filled.target he'
  · intro v i e' he'
    rw [Filling.put, slot]
    exact getElem?_put filled.size_weights all filled.weight he'

theorem Filled.putAll {f : Filling} (filled : Filled nodeCount edges done f)
    (all : edges = done ++ rest) (known : ∀ e ∈ rest, e.source < nodeCount) :
    Filled nodeCount edges edges (rest.foldl Filling.put f) := by
  induction rest generalizing done f with
  | nil =>
    rw [List.append_nil] at all
    exact all ▸ filled
  | cons e rest ih =>
    refine ih (filled.put all (known e (by simp))) (by rw [all, List.append_assoc]; rfl)
      fun e he => known e (by simp [he])

theorem filled_rowsOf (known : ∀ e ∈ edges, e.source < nodeCount) :
    Filled nodeCount edges edges
      (edges.foldl Filling.put
        (.empty nodeCount (startsOf (degreesOf nodeCount edges)) edges.length)) :=
  (filled_empty nodeCount edges).putAll rfl known

/-! ### Rows -/

theorem following_eq (h : v + 1 < countLimit) : Rows.following v = v + 1 := Nat.mod_eq_of_lt h

/-- Ids begin again behind the last one. -/
theorem following_le (h : ¬v + 1 < countLimit) : Rows.following v ≤ v := by
  have : (v + 1) % countLimit < countLimit := Nat.mod_lt _ (by decide)
  rw [Rows.following]
  omega

theorem slots_cases (r : Rows) (v : Nat) :
    r.slots v = (0, 0) ∨
      r.starts[v]? = some (r.slots v).1 ∧ r.starts[Rows.following v]? = some (r.slots v).2 := by
  unfold Rows.slots
  split
  · next first last => exact .inr ⟨first, last⟩
  · exact .inl rfl

theorem slots_rowsOf (own : v < nodeCount) (fits : v + 1 < countLimit) :
    (rowsOf nodeCount edges).slots v = (edgesBefore edges v, edgesBefore edges (v + 1)) := by
  have first := getElem?_startsOf nodeCount edges v
  have last := getElem?_startsOf nodeCount edges (v + 1)
  rw [if_pos (by omega)] at first last
  rw [Rows.slots, following_eq fits, rowsOf]
  dsimp only
  rw [first, last]

/-- An id without a row, or with no id behind it, has no slots. -/
theorem slots_rowsOf_le (outside : ¬(v < nodeCount ∧ v + 1 < countLimit)) :
    ((rowsOf nodeCount edges).slots v).2 ≤ ((rowsOf nodeCount edges).slots v).1 := by
  rcases slots_cases (rowsOf nodeCount edges) v with eq | ⟨first, last⟩
  · rw [eq]
  · have startsAt := getElem?_startsOf nodeCount edges
    change (startsOf (degreesOf nodeCount edges))[_]? = _ at first last
    rw [startsAt] at first last
    obtain ⟨-, first⟩ := Option.ite_none_right_eq_some.1 first
    obtain ⟨there, last⟩ := Option.ite_none_right_eq_some.1 last
    rw [← Option.some.inj first, ← Option.some.inj last]
    apply edgesBefore_mono
    by_cases fits : v + 1 < countLimit
    · rw [following_eq fits] at there
      exact absurd ⟨there, fits⟩ outside
    · exact following_le fits

/-- The slots of a row, read in order. -/
theorem extract_row {α : Type} {xs : Array α} {field : Edge → α} (size : xs.size = edges.length)
    (held : ∀ v i e, (ownEdges edges v)[i]? = some e →
      xs[edgesBefore edges v + i]? = some (field e)) (v : Nat) :
    (xs.extract (edgesBefore edges v) (edgesBefore edges (v + 1))).toList =
      (ownEdges edges v).map field := by
  have ends := edgesBefore_succ edges v
  have within := edgesBefore_le_length edges (v + 1)
  apply List.ext_getElem?
  intro i
  rw [Array.getElem?_toList, Array.getElem?_extract, List.getElem?_map]
  cases own : (ownEdges edges v)[i]? with
  | none =>
    have := List.getElem?_eq_none_iff.1 own
    rw [if_neg (by omega)]
    rfl
  | some e =>
    have := (List.getElem?_eq_some_iff.1 own).1
    rw [if_pos (by omega), held v i e own]
    rfl

theorem ownEdges_eq_nil (known : ∀ e ∈ edges, e.source < nodeCount) (hv : nodeCount ≤ v) :
    ownEdges edges v = [] := by
  refine List.filter_eq_nil_iff.2 fun e he => ?_
  have := known e he
  simp only [decide_eq_true_eq]
  omega

/-- The row of a node holds the edges that start there. -/
theorem relationships_rowsOf (known : ∀ e ∈ edges, e.source < nodeCount) (v : Nat) :
    (rowsOf nodeCount edges).relationships v =
      if v + 1 < countLimit then (ownEdges edges v).map Edge.relationship else [] := by
  by_cases row : v < nodeCount ∧ v + 1 < countLimit
  · have filled := filled_rowsOf known
    rw [if_pos row.2, Rows.relationships, slots_rowsOf row.1 row.2]
    dsimp only [rowsOf]
    rw [extract_row filled.size_targets filled.target,
      extract_row filled.size_weights filled.weight,
      List.zipWith_map, List.zipWith_self]
    rfl
  · have empty : ((rowsOf nodeCount edges).slots v).2 ≤ ((rowsOf nodeCount edges).slots v).1 :=
      slots_rowsOf_le row
    rw [Rows.relationships]
    simp only [Array.extract_empty_of_stop_le_start empty, List.zipWith_nil_left]
    split
    · rw [ownEdges_eq_nil known (by omega)]
      rfl
    · rfl

theorem degree_rowsOf (known : ∀ e ∈ edges, e.source < nodeCount) (v : Nat) :
    (rowsOf nodeCount edges).degree v =
      if v + 1 < countLimit then (ownEdges edges v).length else 0 := by
  rw [Rows.degree]
  by_cases row : v < nodeCount ∧ v + 1 < countLimit
  · rw [if_pos row.2, slots_rowsOf row.1 row.2, edgesBefore_succ, Nat.add_sub_cancel_left]
  · rw [Nat.sub_eq_zero_of_le (slots_rowsOf_le row)]
    split
    · rw [ownEdges_eq_nil known (by omega)]
      rfl
    · rfl

/-- All nodes together have the edges that start before the last one. -/
theorem sum_ownEdges (edges : List Edge) (n : Nat) :
    ((List.range n).map fun v => (ownEdges edges v).length).sum = edgesBefore edges n := by
  induction n with
  | zero => exact (edgesBefore_zero edges).symm
  | succ n ih => rw [List.range_succ, List.map_append, List.sum_append, ih, edgesBefore_succ]; simp

end

end NeighbourGraph.Adjacency
