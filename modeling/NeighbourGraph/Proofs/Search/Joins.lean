/-
What filling the lists and joining around every node come to.

Both settle all that they score. The joins around a node leave out no pair that has to be
compared: new neighbours with the node, with each other and with the old ones.
-/

import NeighbourGraph.Proofs.Search.Candidates
import NeighbourGraph.Proofs.Search.Offers

namespace NeighbourGraph.Search

open NeighbourGraph.Random

section

variable {setup : Setup} {capacity : Nat} {s : State} {α : Type}

/-! ### Nodes -/

/-- Several pieces of work settle what each of them scores. -/
theorem Each.settling {ι : Type} {S : ι → List Event → Prop} {is : List ι} {as : List α}
    {events : List Event}
    (mono : ∀ i events later, S i events → events ⊆ later → S i later)
    (each : Each (fun i => settling setup (S i)) is as events s) :
    settling setup (fun events => ∀ i ∈ is, S i events) as events s := by
  constructor
  · intro honest
    have settled : ∀ e ∈ events, ∀ v c x, e = .considered v c x → SettledIn s v c x := by
      refine each.forall_mem ?_ ?_
      · rintro e he v c x rfl
        cases he
      · intro i _ _ _ h e he v c x eq
        exact h.1 honest v c x (eq ▸ he)
    exact fun v c x hx => settled _ hx v c x rfl
  · intro i hi
    obtain ⟨_, own, sub, h⟩ := each.of_mem hi
    exact mono i own events h.2 sub

theorem does_mapM_settling {ι : Type} {f : ι → Work α} {is : List ι}
    {S : ι → List Event → Prop}
    (mono : ∀ i events later, S i events → events ⊆ later → S i later)
    (does : ∀ i ∈ is, Does (offering setup capacity) (f i) (settling setup (S i)) s) :
    Does (offering setup capacity) (is.mapM f)
      (settling setup fun events => ∀ i ∈ is, S i events) s :=
  (does_mapM offering_self does).imp fun _ _ _ => Each.settling mono

theorem does_joinWith (sound : Sound setup capacity s) {first : Nat} {others : List Nat}
    (hf : first < setup.nodeCount) (ho : ∀ x ∈ others, x < setup.nodeCount) :
    Does (offering setup capacity) (joinWith setup first others)
      (settling setup fun events => ∀ x ∈ others, Compares setup events first x) s :=
  (does_mapM_settling (S := fun x events => Compares setup events first x)
    (fun _ _ _ => Compares.mono) fun x hx => does_joinPair sound hf (ho x hx)).andReturn _

/-- The joins around a node compare its new neighbours with the node, with each other and with
the old ones. -/
theorem does_joinNew (sound : Sound setup capacity s) {node : Nat} {old new : List Nat}
    (hn : node < setup.nodeCount) (hold : ∀ x ∈ old, x < setup.nodeCount)
    (hnew : ∀ x ∈ new, x < setup.nodeCount) :
    Does (offering setup capacity) (joinNew setup node old new)
      (settling setup (Joins setup node old new)) s := by
  induction new with
  | nil => exact does_return (by simp [Joins])
  | cons first rest ih =>
    have hf := hnew first (by simp)
    have hr : ∀ x ∈ rest, x < setup.nodeCount := fun x hx => hnew x (by simp [hx])
    have afterAmong := fun tally : Tally => (does_joinWith sound hf hold).andThen
      (fun across => (ih hr).andReturn (tally + across + ·))
      (R := fun events => (∀ x ∈ old, Compares setup events first x) ∧
        Joins setup node old rest events)
      fun events later across joins =>
        ⟨fun x hx => (across x hx).mono (List.subset_append_left _ _),
          joins.mono (List.subset_append_right _ _)⟩
    have afterPivot := fun pivot : Tally => (does_joinWith sound hf hr).andThen
      (fun among => afterAmong (pivot + among))
      (R := fun events => (∀ x, x ∈ old ∨ x ∈ rest → Compares setup events first x) ∧
        Joins setup node old rest events) ?_
    · refine (does_joinOne sound .joining hf hn).andThen afterPivot ?_
      rintro events later pivot ⟨compares, joins⟩
      exact .cons (pivot.mono (List.subset_append_left _ _))
        (fun x hx => (compares x hx).mono (List.subset_append_right _ _))
        (joins.mono (List.subset_append_right _ _))
    · rintro events later among ⟨across, joins⟩
      constructor
      · intro x hx
        rcases hx with hx | hx
        · exact (across x hx).mono (List.subset_append_right _ _)
        · exact (among x hx).mono (List.subset_append_left _ _)
      · exact joins.mono (List.subset_append_right _ _)

theorem does_joinRandom (sound : Sound setup capacity s) {node : Nat}
    (hn : node < setup.nodeCount) (others : 2 ≤ setup.nodeCount) (count : Nat) :
    Does (offering setup capacity) (joinRandom setup node count)
      (settling setup fun _ => True) s := by
  have one : Does (offering setup capacity) (joinOther setup node)
      (settling setup fun _ => True) s := by
    refine (does_draw (P := fun number events _ => number < setup.nodeCount - 1 ∧ events = [])
      fun g t _ => ⟨below_lt (by omega) g, rfl⟩).bind offering_self
      (Q := fun _ _ => settling setup fun _ => True) ?_ ?_
    · rintro number _ t r ⟨lt, rfl⟩
      refine (does_joinOne (r sound).1 .chance hn ?_).imp fun _ _ _ h => ⟨h.1, trivial⟩
      exact (Sampler.isOther_skip lt).1
    · rintro _ _ tally later t ⟨-, rfl⟩ h
      exact h
  exact ((does_mapM_settling (S := fun _ _ => True) (fun _ _ _ _ _ => trivial)
    fun _ _ => one).imp fun _ _ _ h => ⟨h.1, trivial⟩).andReturn _

/-- The joins around a node are complete for what its list handed out. -/
theorem does_joinNode (sound : Sound setup capacity s) {c : Candidates} {node : Nat}
    (hn : node < setup.nodeCount) (others : 2 ≤ setup.nodeCount) (sampled : Nat)
    (known : c.Known setup.nodeCount) :
    Does (offering setup capacity) (joinNode setup c sampled node)
      (settling setup (Joins setup node (c.old.of node) (c.new.of node))) s := by
  let joins : List Event → Prop := Joins setup node (c.old.of node) (c.new.of node)
  -- The working sets hold what the list handed out, and nodes only.
  let working (base set : List Nat) (events : List Event) : Prop :=
    events = [] ∧ base ⊆ set ∧ ∀ x ∈ set, x < setup.nodeCount
  refine (does_draw (P := fun set events _ => working (c.old.of node) set events)
    fun g t _ => ⟨rfl, subset_workingSet .., fun x hx => ?_⟩).bind offering_self
    (Q := fun _ _ => settling setup joins) ?_ ?_
  · exact (mem_workingSet hx).elim (known.old node x) (known.reverseOld node x)
  · rintro old _ t r ⟨rfl, oldBase, oldKnown⟩
    refine (does_draw (P := fun set events _ => working (c.new.of node) set events)
      fun g t _ => ⟨rfl, subset_workingSet .., fun x hx => ?_⟩).bind offering_self
      (Q := fun _ _ => settling setup joins) ?_ ?_
    · exact (mem_workingSet hx).elim (known.new node x) (known.reverseNew node x)
    · rintro new _ u r' ⟨rfl, newBase, newKnown⟩
      have sound := (r' (r sound).1).1
      refine (does_joinNew sound hn oldKnown newKnown).andThen
        (fun joined => (does_joinRandom sound hn others _).andReturn _) ?_
      intro events later joined _ x hx
      have := joined.mono (List.subset_append_left _ later) x (newBase hx)
      exact ⟨this.1, fun y hy => this.2 y (hy.imp (oldBase ·) (newBase ·))⟩
    · rintro _ _ tally later t ⟨rfl, -⟩ h
      exact h
  · rintro _ _ tally later t ⟨rfl, -⟩ h
    exact h

/-- The candidates of a node are as the sampler gives them. -/
theorem does_sampleCandidates {P : List Nat → Prop} {node count : Nat}
    (gives : Sampler.Gives P (Sampler.sample setup.config.sampler setup.graph node count)) :
    Does (offering setup capacity) (sampleCandidates setup node count)
      (fun candidates events _ => P candidates ∧ events = []) s := by
  refine (does_draw (P := fun r events _ => (∀ candidates, r = .ok candidates → P candidates) ∧
    (∀ cause, r = .error cause → setup.MayFail (.walk cause)) ∧ events = [])
    fun g t _ => ⟨gives g, fun cause fails =>
      .walk cause (Sampler.failsOnlyIf_sample _ _ node count g cause fails)
        (Sampler.failsOnlyIf_walks _ _ node count g cause fails), rfl⟩).bind offering_self
    (Q := fun _ _ candidates events _ => P candidates ∧ events = []) ?_ ?_
  · rintro r _ t - ⟨given, failure, rfl⟩
    cases r with
    | ok candidates => exact does_pure fun _ _ => ⟨given candidates rfl, rfl⟩
    | error cause => exact fun _ => failure cause rfl
  · rintro _ _ candidates _ t ⟨-, -, rfl⟩ ⟨given, rfl⟩
    exact ⟨given, rfl⟩

theorem does_listOf (node : Nat) :
    Does (offering setup capacity) (liftM (listOf node)) (settling setup fun _ => True) s :=
  does_lift (meets_atomic fun t _ => ⟨fun sound => ⟨sound, .refl _ t⟩, [], (List.append_nil _).symm,
    fun _ _ => ⟨fun _ => settled_of_forall_ne (by simp), trivial⟩⟩)

/-- An event that is no candidate may be logged. -/
theorem does_note {e : Event} (he : ∀ v c x, e ≠ .considered v c x) :
    Does (offering setup capacity) (liftM (record e)) (settling setup fun _ => True) s := by
  refine (does_lift (meets_record fun v c x eq => absurd eq (he v c x))).imp ?_
  rintro _ _ t ⟨rfl, -⟩
  exact ⟨fun _ => settled_of_forall_ne fun v c x hx => he v c x (List.mem_singleton.1 hx).symm,
    trivial⟩

/-- Filling the list of a node settles all candidates that are tried for it. -/
theorem does_fillNode (sound : Sound setup capacity s) {node : Nat}
    (hn : node < setup.nodeCount) (count : Nat) :
    Does (offering setup capacity) (fillNode setup count node)
      (settling setup fun _ => True) s := by
  refine (does_sampleCandidates (Sampler.gives_sample _ _ node count)).bind offering_self
    (Q := fun _ _ => settling setup fun _ => True) ?_ ?_
  · rintro candidates _ t r ⟨others, rfl⟩
    have sound := (r sound).1
    refine (does_mapM_settling (S := fun x events => Tries setup events node x)
      (fun _ _ _ => Tries.mono) fun x hx => does_tryCandidate sound hn (others x hx)).andThen
      (Q := fun _ => True) (fun tallies => ?_) fun _ _ _ _ => trivial
    exact (does_listOf node).andThen (fun ids => (does_note (by simp)).andReturn _)
      fun _ _ _ _ => trivial
  · rintro _ _ tally later t ⟨-, rfl⟩ h
    exact h

/-! ### Phases -/

/-- A phase that offers candidates settles what the work on each node scores. -/
theorem meets_phase_settling {work : Nat → Search α} {S : Nat → List Event → Prop} (turns : Turns)
    (name : Phase) (mono : ∀ v events later, S v events → events ⊆ later → S v later)
    (meets : ∀ v < setup.nodeCount,
      Meets (offering setup capacity) (work v) (settling setup (S v)) s) :
    Meets (offering setup capacity) (phase setup turns name work)
      (settling setup fun events => ∀ v < setup.nodeCount, S v events) s := by
  apply (meets_phase_shared offering_self upholding_heeds meets turns).imp
  intro as events t each
  have all := each.settling mono
  exact ⟨all.1, fun v hv => all.2 v (List.mem_range.2 hv)⟩

/-- Filling the lists settles all that is scored. -/
theorem meets_fill (sound : Sound setup capacity s) (turns : Turns) (stream : Stream)
    (count : Nat) :
    Meets (offering setup capacity) (fill setup turns stream count)
      (settling setup fun _ => True) s := by
  refine Meets.map (f := Tally.total) ((meets_phase_settling (S := fun _ _ => True) turns
    .initialization (fun _ _ _ _ _ => trivial) fun v hv =>
      meets_seeded (does_fillNode sound hv count)).imp ?_)
  exact fun _ _ _ h => ⟨h.1, trivial⟩

/-- Joining settles all that is scored, and leaves out no pair around any node. -/
theorem meets_join (sound : Sound setup capacity s) (others : 2 ≤ setup.nodeCount)
    {c : Candidates} (known : c.Known setup.nodeCount) (turns : Turns) (stream : Stream)
    (sampled : Nat) :
    Meets (offering setup capacity) (join setup turns c stream sampled)
      (settling setup fun events => ∀ v < setup.nodeCount,
        Joins setup v (c.old.of v) (c.new.of v) events) s := by
  refine Meets.bind ((meets_proceed upholding_heeds .join).imp ?_)
  rintro - _ t ⟨rfl, r⟩
  exact Meets.map (f := Tally.total) (meets_phase_settling turns .join
    (fun _ _ _ => Joins.mono) fun v hv =>
      meets_seeded (does_joinNode (r sound).1 hv others sampled known))

end

end NeighbourGraph.Search
