/-
The candidates that samplers draw are nodes other than the one they are drawn for.

For the uniform sampler this is what `skip` makes of draws below the number of other nodes. A
walk checks every target before it keeps it, whatever the relationships name. No candidate comes
twice, and there are as many as are asked for or as there are other nodes, as long as the node of
a walk has relationships. A walk fails only where it meets weights whose sum is not finite.
-/

import Mathlib.Data.List.Nodup
import NeighbourGraph.Proofs.Random.Subset
import NeighbourGraph.Sampler

namespace NeighbourGraph.Sampler

open NeighbourGraph.Random

/-- A node that can be a candidate for `node`. -/
def IsOther (nodeCount node id : Nat) : Prop := id < nodeCount ∧ id ≠ node

theorem isOther_skip {nodeCount node number : Nat} (h : number < nodeCount - 1) :
    IsOther nodeCount node (skip node number) := by
  unfold IsOther skip
  split <;> omega

theorem isOther_of_mem_uniform {nodeCount node count x : Nat} {g : Generator}
    (h : x ∈ (uniform nodeCount node count g).1) : IsOther nodeCount node x := by
  unfold uniform at h
  by_cases nothing : min count (nodeCount - 1) = 0
  · rw [if_pos nothing] at h
    cases h
  · rw [if_neg nothing, Draw.bind_apply, Draw.pure_apply] at h
    obtain ⟨number, mem, rfl⟩ := List.mem_map.1 h
    exact isOther_skip (lt_of_mem_subset (Nat.min_le_right _ _) mem)

/-! ### Walks -/

/-- Every value that a draw which may fail can give satisfies `P`. -/
def Gives {α : Type} (P : α → Prop) (d : ExceptT WalkError Draw α) : Prop :=
  ∀ g a, (d g).1 = .ok a → P a

theorem gives_pure {α : Type} {P : α → Prop} {a : α} (h : P a) :
    Gives P (pure a : ExceptT WalkError Draw α) := by
  rintro g b ⟨⟩
  exact h

theorem gives_bind {α β : Type} {P : α → Prop} {Q : β → Prop} {d : ExceptT WalkError Draw α}
    {f : α → ExceptT WalkError Draw β} (hd : Gives P d) (hf : ∀ a, P a → Gives Q (f a)) :
    Gives Q (d >>= f) := by
  intro g b hb
  change ((match d g with | (r, g) => ExceptT.bindCont f r g) : Except WalkError β × _).1 = _ at hb
  cases hr : d g with
  | mk r g' =>
    rw [hr] at hb
    cases r with
    | error e => cases hb
    | ok a => exact hf a (hd g a (by rw [hr])) g' b hb

theorem gives_and {α : Type} {P Q : α → Prop} {d : ExceptT WalkError Draw α} (h : Gives P d)
    (h' : Gives Q d) : Gives (fun a => P a ∧ Q a) d :=
  fun g a ha => ⟨h g a ha, h' g a ha⟩

theorem gives_true {α : Type} (d : ExceptT WalkError Draw α) : Gives (fun _ => True) d :=
  fun _ _ _ => trivial

/-- A walk stays among the nodes with `Q` if relationships lead from them to such nodes only. What
the nodes that it takes in keep true of what it found holds at its end. -/
theorem gives_walk_within {P : List Nat → Prop} {Q : Nat → Prop} {graph : Graph}
    {start wanted current steps : Nat} {found : List Nat}
    (leads : ∀ v, Q v →
      Gives (fun next => ∀ t ∈ next, Q t) (pickWeighted (graph.relationships v)))
    (kept : ∀ found next, IsOther graph.nodeCount start next → Q next → next ∉ found →
      found.length < wanted → P found → P (found ++ [next]))
    (home : Q start) (here : Q current) (held : P found) :
    Gives P (walk graph start wanted current found steps) := by
  induction steps generalizing current found with
  | zero => exact gives_pure held
  | succ steps ih =>
    rw [walk]
    split
    · exact gives_pure held
    · next short =>
      extract_lets goOn
      have goesOn : ∀ position, Q position → Gives P (goOn position) := by
        intro position there
        refine gives_bind (leads position there) ?_
        intro next reached
        cases next with
        | none => exact ih home held
        | some next =>
          have there := reached next rfl
          refine ih there ?_
          split
          · next new =>
            exact kept found next ⟨new.2.1, new.1⟩ there new.2.2 (Nat.lt_of_not_le short) held
          · exact held
      split
      · refine gives_bind (gives_true _) ?_
        intro restart _
        split
        · exact gives_bind (gives_pure home) goesOn
        · exact gives_bind (gives_pure here) goesOn
      · exact gives_bind (gives_pure here) goesOn

/-- `gives_walk_within` for a walk that may go anywhere. -/
theorem gives_walk {P : List Nat → Prop} {graph : Graph} {start wanted current steps : Nat}
    {found : List Nat}
    (kept : ∀ found next, IsOther graph.nodeCount start next → next ∉ found → P found →
      P (found ++ [next]))
    (held : P found) : Gives P (walk graph start wanted current found steps) :=
  gives_walk_within (Q := fun _ => True) (fun _ _ _ _ _ _ _ => trivial)
    (fun found next other _ new _ => kept found next other new) trivial trivial held

theorem isOther_of_mem_topUp {nodeCount node wanted : Nat} {found drawn : List Nat}
    (held : ∀ x ∈ found, IsOther nodeCount node x)
    (other : ∀ x ∈ drawn, IsOther nodeCount node x) :
    ∀ x ∈ topUp wanted found drawn, IsOther nodeCount node x := by
  induction drawn generalizing found with
  | nil => exact held
  | cons c rest ih =>
    rw [topUp]
    split
    · exact held
    · apply ih
      · intro x hx
        split at hx
        · exact held x hx
        · rcases List.mem_append.1 hx with hx | hx
          · exact held x hx
          · exact other x (List.mem_singleton.1 hx ▸ List.mem_cons_self)
      · intro x hx
        exact other x (List.mem_cons_of_mem _ hx)

theorem gives_randomWalk (graph : Graph) (node count : Nat) :
    Gives (fun found => ∀ x ∈ found, IsOther graph.nodeCount node x)
      (randomWalk graph node count) := by
  rw [randomWalk]
  split
  · exact gives_pure (by simp)
  · refine gives_bind (P := fun found => ∀ x ∈ found, IsOther graph.nodeCount node x)
      (gives_walk (fun found next other _ held => ?_) (by simp)) ?_
    · simpa [or_imp, forall_and] using ⟨held, other⟩
    intro found held
    split
    · exact gives_pure held
    · intro g found' h
      cases h
      exact isOther_of_mem_topUp held fun x hx => isOther_of_mem_uniform hx

/-- Whatever a sampler draws for a node is another node. -/
theorem gives_sample (kind : SamplerKind) (graph : Graph) (node count : Nat) :
    Gives (fun found => ∀ x ∈ found, IsOther graph.nodeCount node x)
      (sample kind graph node count) := by
  cases kind with
  | uniform =>
    intro g found h
    cases h
    exact fun x hx => isOther_of_mem_uniform hx
  | randomWalk => exact gives_randomWalk graph node count

/-! ### How many candidates -/

/-- Different candidates, as many as `count` or as there are other nodes. -/
def Enough (nodeCount count : Nat) (found : List Nat) : Prop :=
  found.Nodup ∧ min count (nodeCount - 1) ≤ found.length

theorem skip_injective (node : Nat) : Function.Injective (skip node) := by
  intro a b h
  unfold skip at h
  split at h <;> split at h <;> omega

theorem enough_uniform (nodeCount node count : Nat) (g : Generator) :
    Enough nodeCount count (uniform nodeCount node count g).1 := by
  unfold uniform
  by_cases nothing : min count (nodeCount - 1) = 0
  · rw [if_pos nothing]
    exact ⟨.nil, Nat.le_of_eq nothing⟩
  · rw [if_neg nothing, Draw.bind_apply, Draw.pure_apply]
    have drawn := isSubset_subset (Nat.min_le_right count (nodeCount - 1)) g
    exact ⟨drawn.nodup.map (skip_injective node),
      Nat.le_of_eq ((List.length_map _).trans drawn.length_eq).symm⟩

theorem nodup_concat {found : List Nat} {c : Nat} (nodup : found.Nodup) (new : c ∉ found) :
    (found ++ [c]).Nodup := by
  simpa [List.nodup_append] using ⟨nodup, fun x hx eq => new (eq ▸ hx)⟩

theorem nodup_topUp {wanted : Nat} {found : List Nat} (nodup : found.Nodup) (drawn : List Nat) :
    (topUp wanted found drawn).Nodup := by
  induction drawn generalizing found with
  | nil => exact nodup
  | cons c rest ih =>
    rw [topUp]
    split
    · exact nodup
    · apply ih
      split
      · exact nodup
      · next new => exact nodup_concat nodup new

/-- Short of what is wanted, all candidates that were drawn are taken. -/
theorem le_length_or_subset_topUp (wanted : Nat) (found drawn : List Nat) :
    wanted ≤ (topUp wanted found drawn).length ∨
      found ⊆ topUp wanted found drawn ∧ drawn ⊆ topUp wanted found drawn := by
  induction drawn generalizing found with
  | nil => exact .inr ⟨List.Subset.refl _, List.nil_subset _⟩
  | cons c rest ih =>
    rw [topUp]
    split
    · next reached => exact .inl reached
    · have taken : found ⊆ (if c ∈ found then found else found ++ [c]) ∧
          c ∈ (if c ∈ found then found else found ++ [c]) := by
        split
        · next held => exact ⟨List.Subset.refl _, held⟩
        · exact ⟨List.subset_append_left _ _, by simp⟩
      refine (ih _).imp_right fun ⟨kept, rest⟩ => ⟨fun x hx => kept (taken.1 hx), ?_⟩
      exact List.cons_subset.2 ⟨kept taken.2, rest⟩

/-- As many different candidates as are wanted fill up any number of them. -/
theorem le_length_topUp {wanted : Nat} {drawn : List Nat} (nodup : drawn.Nodup)
    (enough : wanted ≤ drawn.length) (found : List Nat) :
    wanted ≤ (topUp wanted found drawn).length := by
  rcases le_length_or_subset_topUp wanted found drawn with reached | ⟨-, taken⟩
  · exact reached
  · exact Nat.le_trans enough (nodup.subperm taken).length_le

/-- A walk that met too few nodes is filled up, so a node with relationships has enough candidates
wherever these lead. -/
theorem enough_randomWalk {graph : Graph} {node : Nat} (linked : graph.degree node ≠ 0)
    (count : Nat) : Gives (Enough graph.nodeCount count) (randomWalk graph node count) := by
  rw [randomWalk]
  split
  · next nothing =>
    exact gives_pure ⟨.nil, Nat.le_of_eq (nothing.resolve_right linked)⟩
  · refine gives_bind (P := List.Nodup)
      (gives_walk (fun _ _ _ new nodup => nodup_concat nodup new) .nil) fun found nodup => ?_
    split
    · next reached => exact gives_pure ⟨nodup, reached⟩
    · intro g found' h
      cases h
      have drawn := enough_uniform graph.nodeCount node (min count (graph.nodeCount - 1)) g
      refine ⟨nodup_topUp nodup _, le_length_topUp drawn.1 ?_ found⟩
      simpa using drawn.2

/-- The uniform sampler has enough candidates for every node, and walks have for every node with
relationships. -/
theorem enough_sample {kind : SamplerKind} {graph : Graph} {node : Nat}
    (linked : kind = .randomWalk → graph.degree node ≠ 0) (count : Nat) :
    Gives (Enough graph.nodeCount count) (sample kind graph node count) := by
  cases kind with
  | uniform =>
    intro g found h
    cases h
    exact enough_uniform graph.nodeCount node count g
  | randomWalk => exact enough_randomWalk (linked rfl) count

/-! ### Failures -/

/-- The weights of the relationships of a node add up to a finite number. -/
def Summable (graph : Graph) (v : Nat) : Prop :=
  (Number.sum ((graph.relationships v).map (·.weight))).isFinite = true

/-- The weights of every node add up if those of every row do. -/
theorem summable_ofRows {rows : Array (List Relationship)}
    (h : ∀ row ∈ rows, (Number.sum (row.map (·.weight))).isFinite = true) (v : Nat) :
    Summable (.ofRows rows) v := by
  unfold Summable Graph.ofRows
  dsimp only
  rw [Array.getD_eq_getD_getElem?]
  cases hv : rows[v]? with
  | none => decide +kernel
  | some row => exact h row (Array.mem_of_getElem? hv)

/-- A draw that may fail does so only if `P` holds. -/
def FailsOnlyIf {α : Type} (P : Prop) (d : ExceptT WalkError Draw α) : Prop :=
  ∀ g e, (d g).1 = .error e → P

section

variable {α β : Type} {P : Prop}

theorem failsOnlyIf_pure (a : α) : FailsOnlyIf P (pure a : ExceptT WalkError Draw α) :=
  fun _ _ h => nomatch h

theorem failsOnlyIf_lift (d : Draw α) : FailsOnlyIf P (liftM d : ExceptT WalkError Draw α) :=
  fun _ _ h => nomatch h

theorem failsOnlyIf_bind {d : ExceptT WalkError Draw α} {f : α → ExceptT WalkError Draw β}
    (hd : FailsOnlyIf P d) (hf : ∀ a, FailsOnlyIf P (f a)) : FailsOnlyIf P (d >>= f) := by
  intro g e he
  change ((match d g with | (r, g) => ExceptT.bindCont f r g) : Except WalkError β × _).1 = _ at he
  cases hr : d g with
  | mk r g' =>
    rw [hr] at he
    cases r with
    | error cause => exact hd g cause (by rw [hr])
    | ok a => exact hf a g' e he

end

theorem failsOnlyIf_pickWeighted (graph : Graph) (v : Nat) :
    FailsOnlyIf (¬Summable graph v) (pickWeighted (graph.relationships v)) := by
  unfold pickWeighted
  dsimp only
  split
  · exact failsOnlyIf_pure _
  · split
    · exact failsOnlyIf_bind (failsOnlyIf_lift _) fun _ => failsOnlyIf_pure _
    · split
      · exact failsOnlyIf_bind (failsOnlyIf_lift _) fun _ => failsOnlyIf_pure _
      · next infinite => exact fun _ _ _ => infinite

theorem failsOnlyIf_walk (graph : Graph) (start wanted current steps : Nat) (found : List Nat) :
    FailsOnlyIf (∃ v, ¬Summable graph v) (walk graph start wanted current found steps) := by
  induction steps generalizing current found with
  | zero => exact failsOnlyIf_pure _
  | succ steps ih =>
    rw [walk]
    split
    · exact failsOnlyIf_pure _
    · extract_lets goOn
      have goesOn : ∀ position, FailsOnlyIf (∃ v, ¬Summable graph v) (goOn position) := by
        intro position
        refine failsOnlyIf_bind (fun g e he => ⟨position, ?_⟩) fun next => ?_
        · exact failsOnlyIf_pickWeighted graph position g e he
        · cases next with
          | none => exact ih _ _
          | some next => exact ih _ _
      split
      · refine failsOnlyIf_bind (failsOnlyIf_lift _) fun restart => ?_
        split
        · exact failsOnlyIf_bind (failsOnlyIf_pure _) fun position => goesOn position
        · exact failsOnlyIf_bind (failsOnlyIf_pure _) fun position => goesOn position
      · exact failsOnlyIf_bind (failsOnlyIf_pure _) fun position => goesOn position

/-- A sampler fails only where weights do not add up. -/
theorem failsOnlyIf_sample (kind : SamplerKind) (graph : Graph) (node count : Nat) :
    FailsOnlyIf (∃ v, ¬Summable graph v) (sample kind graph node count) := by
  cases kind with
  | uniform => exact failsOnlyIf_lift _
  | randomWalk =>
    unfold sample randomWalk
    dsimp only
    split
    · exact failsOnlyIf_pure _
    · refine failsOnlyIf_bind (failsOnlyIf_walk graph node _ node _ []) fun found => ?_
      split
      · exact failsOnlyIf_pure _
      · exact failsOnlyIf_bind (failsOnlyIf_lift _) fun _ => failsOnlyIf_pure _

/-- The uniform sampler does not fail. -/
theorem failsOnlyIf_walks (kind : SamplerKind) (graph : Graph) (node count : Nat) :
    FailsOnlyIf (kind = .randomWalk) (sample kind graph node count) := by
  cases kind with
  | uniform => exact failsOnlyIf_lift _
  | randomWalk => exact fun _ _ _ => rfl

end NeighbourGraph.Sampler
