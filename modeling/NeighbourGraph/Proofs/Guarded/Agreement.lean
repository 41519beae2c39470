/-
Guarded searches have no fault.

`Tame` is all that the checks rely on: there is a list for each node, what the lists hold are nodes,
and what was scored or announced so far were pairs of distinct nodes. Every search keeps it. From a
tame state a guarded search goes through the same states as the search itself, and ends with the
same value and no fault; there is one lemma for each definition of a search.
-/

import NeighbourGraph.Proofs.Guarded.Search
import NeighbourGraph.Proofs.Guarded.Tracks
import NeighbourGraph.Proofs.Search.Candidates

namespace NeighbourGraph

open NeighbourGraph.Random NeighbourGraph.Search

/-- The pair that an event asks a score for, or announces with its score. -/
def Event.pair? : Event → Option (Nat × Nat)
  | .scored _ left right => some (left, right)
  | .considered node candidate _ => some (node, candidate)
  | _ => none

/-- Two distinct nodes. -/
def IsPair (nodeCount left right : Nat) : Prop :=
  left < nodeCount ∧ right < nodeCount ∧ left ≠ right

/-- A list for each node that holds nodes only, and a log of pairs of distinct nodes. -/
structure Search.Tame (nodeCount : Nat) (s : State) : Prop where
  size : s.lists.size = nodeCount
  ids : ∀ l ∈ s.lists, ∀ id ∈ l.ids, id < nodeCount
  pairs : ∀ e ∈ s.log, ∀ left right, e.pair? = some (left, right) → IsPair nodeCount left right

namespace Search.Tame

variable {nodeCount : Nat} {s : State}

theorem start (nodeCount capacity : Nat) : Tame nodeCount (.start nodeCount capacity) where
  size := by simp [State.start]
  ids := by simp [State.start, emptyLists, NeighbourList.ids]
  pairs := by simp [State.start]

theorem record (h : Tame nodeCount s) {e : Event}
    (he : ∀ left right, e.pair? = some (left, right) → IsPair nodeCount left right) :
    Tame nodeCount (s.record e) where
  size := h.size
  ids := h.ids
  pairs e' he' := by
    rcases Array.mem_push.1 he' with he' | rfl
    · exact h.pairs e' he'
    · exact he

/-- Only the lists and the log matter. -/
theorem visit (h : Tame nodeCount s) (name : Phase) (node : Nat) :
    Tame nodeCount (s.visit name node) :=
  ⟨h.size, h.ids, h.pairs⟩

theorem setRounds (h : Tame nodeCount s) (rounds : Array (Option Tally)) :
    Tame nodeCount { s with rounds } :=
  ⟨h.size, h.ids, h.pairs⟩

theorem setList (h : Tame nodeCount s) (v : Nat) {l : NeighbourList}
    (ids : ∀ id ∈ l.ids, id < nodeCount) :
    Tame nodeCount { s with lists := s.lists.setIfInBounds v l } where
  size := by simp [h.size]
  ids k hk := by
    rcases Array.mem_or_eq_of_mem_setIfInBounds hk with hk | rfl
    · exact h.ids k hk
    · exact ids
  pairs := h.pairs

/-- A list that goes on holding nodes may be worked on. -/
theorem withList (h : Tame nodeCount s) {α : Type} (v : Nat)
    {f : NeighbourList → α × NeighbourList} (otherwise : α)
    (keeps : ∀ l, (∀ id ∈ l.ids, id < nodeCount) → ∀ id ∈ (f l).2.ids, id < nodeCount) :
    Tame nodeCount (s.withList v f otherwise).2 := by
  unfold State.withList
  cases hl : s.lists[v]? with
  | none => exact h
  | some l => exact h.setList v (keeps l (h.ids l (Array.mem_of_getElem? hl)))

/-- That a candidate came in may be noted. -/
theorem countEntered {r : (Bool × Generator) × State} (h : Tame nodeCount r.2) (origin : Origin)
    (v c : Nat) : Tame nodeCount (State.countEntered origin v c r).2 := by
  obtain ⟨⟨entered, g⟩, t⟩ := r
  cases entered with
  | true => exact h.record (by simp [Event.pair?])
  | false => exact h

end Search.Tame

namespace Guarded

/-- From a tame state, the guarded search goes through the same states as the search and has no
fault; the value has `P`. -/
abbrev Guards (nodeCount : Nat) {α : Type} (P : α → Prop) (p : Search α)
    (q : GuardedSearch α) : Prop :=
  Tracks (Tame nodeCount) (fun a r => r = Except.ok a ∧ P a) p q

/-- The same of work, whatever random words it takes. -/
def WorkGuards (nodeCount : Nat) {α : Type} (P : α → Prop) (w : Work α) (w' : GuardedWork α) :
    Prop :=
  ∀ g, Guards nodeCount (fun r => P r.1) (w g) (w' g)

section

variable {n : Nat} {ι α β : Type} {P : α → Prop} {Q : β → Prop} {p : Search α}
  {q : GuardedSearch α} {w : Work α} {w' : GuardedWork α}

/-! ### Searches one after the other -/

theorem guards_pure {a : α} (h : P a) : Guards n P (pure a) (pure a) := .done ⟨rfl, h⟩

theorem Guards.bind {f : α → Search β} {f' : α → GuardedSearch β} (h : Guards n P p q)
    (rest : ∀ a, P a → Guards n Q (f a) (f' a)) : Guards n Q (p >>= f) (q >>= f') := by
  change Tracks _ _ (p >>= f) ((show Search (Except Fault α) from q) >>= ExceptT.bindCont f')
  refine Tracks.bind h ?_
  rintro a _ ⟨rfl, ha⟩
  exact rest a ha

/-- A search that relies on nothing. -/
theorem guards_lift (h : Tracks (Tame n) (fun a b => b = a ∧ P a) p p) :
    Guards n P p (liftM p) := by
  have ended : Guards n P (p >>= Search.done) (liftM p) := by
    refine Tracks.bind h ?_
    rintro a _ ⟨rfl, ha⟩
    exact .done ⟨rfl, ha⟩
  rwa [Search.bind_done] at ended

theorem Guards.mapM {P : ι → α → Prop} {f : ι → Search α} {f' : ι → GuardedSearch α} {is : List ι}
    (h : ∀ i ∈ is, Guards n (P i) (f i) (f' i)) :
    Guards n (List.Forall₂ P is) (is.mapM f) (is.mapM f') := by
  induction is with
  | nil => exact guards_pure .nil
  | cons i is ih =>
    rw [List.mapM_cons, List.mapM_cons]
    exact Guards.bind (h i (by simp)) fun a ha =>
      Guards.bind (ih fun j hj => h j (by simp [hj])) fun as has => guards_pure (.cons ha has)

/-- Carried out in a tame state, the guarded search leaves the state that the search leaves, which
is tame, and has its value or its failure. -/
theorem Guards.exec (h : Guards n P p q) {s : State} (tame : Tame n s) :
    Search.exec q s = ((p.exec s).1.map .ok, (p.exec s).2) ∧ Tame n (p.exec s).2 := by
  obtain ⟨same, kept, ended⟩ := Tracks.exec h tame
  refine ⟨Prod.ext ?_ same, kept⟩
  revert ended
  cases (p.exec s).1 with
  | error cause => cases (Search.exec q s).1 <;> simp [Except.map, eq_comm]
  | ok a =>
    cases (Search.exec q s).1 with
    | error cause => simp
    | ok r =>
      rintro ⟨rfl, -⟩
      rfl

/-! ### Searches side by side -/

/-- Tasks that have no fault, whatever their turns are. -/
theorem guards_together {P : ι → α → Prop} {f : ι → Search α} {f' : ι → GuardedSearch α}
    {is : List ι} (h : ∀ i ∈ is, Guards n (P i) (f i) (f' i)) (turns : Turns) :
    Guards n (List.Forall₂ P is) (together turns (is.map f))
      (gather (together turns (is.map f'))) := by
  have all : Tracks (Tame n) (fun as rs => rs.mapM id = Except.ok as ∧ List.Forall₂ P is as)
      (together turns (is.map f)) (together turns (is.map f')) := by
    induction is generalizing turns with
    | nil => exact .done ⟨rfl, .nil⟩
    | cons i is ih =>
      refine (tracks_beside (h i (by simp)) (ih (fun j hj => h j (by simp [hj]))
        fun task => turns (task + 1)) (turns 0) 0).bind ?_
      rintro ⟨a, as⟩ ⟨_, rs⟩ ⟨⟨rfl, ha⟩, values, has⟩
      exact .done ⟨by rw [List.mapM_cons, values]; rfl, .cons ha has⟩
  rw [← Search.bind_done (together turns (is.map f))]
  refine Tracks.bind all ?_
  rintro as rs ⟨values, has⟩
  exact .done ⟨values, has⟩

/-! ### Work -/

theorem workGuards_pure {a : α} (h : P a) : WorkGuards n P (pure a) (pure a) :=
  fun g => guards_pure (a := (a, g)) h

theorem WorkGuards.bind {f : α → Work β} {f' : α → GuardedWork β} (h : WorkGuards n P w w')
    (rest : ∀ a, P a → WorkGuards n Q (f a) (f' a)) : WorkGuards n Q (w >>= f) (w' >>= f') :=
  fun g => Guards.bind (h g) fun r hr => rest r.1 hr r.2

theorem workGuards_lift (h : Guards n P p q) : WorkGuards n P (liftM p) (liftM q) :=
  fun _ => Guards.bind h fun _ ha => guards_pure ha

theorem workGuards_draw {d : Draw α} {d' : GuardedDraw α} (agrees : Agrees d d')
    (gives : ∀ g, P (d g).1) : WorkGuards n P (Search.draw d) (draw d') :=
  fun g => .done ⟨agrees g, gives g⟩

theorem WorkGuards.mapM {f : ι → Work α} {f' : ι → GuardedWork α} {is : List ι}
    (h : ∀ i ∈ is, WorkGuards n P (f i) (f' i)) :
    WorkGuards n (fun _ => True) (is.mapM f) (is.mapM f') := by
  induction is with
  | nil => exact workGuards_pure trivial
  | cons i is ih =>
    rw [List.mapM_cons, List.mapM_cons]
    exact WorkGuards.bind (h i (by simp)) fun a _ =>
      WorkGuards.bind (ih fun j hj => h j (by simp [hj])) fun as _ => workGuards_pure trivial

theorem guards_seeded (h : WorkGuards n P w w') (stream : Stream) (v : Nat) :
    Guards n P (Search.seeded stream v w) (seeded stream v w') :=
  Guards.bind (h (stream.generator v)) fun _ hr => guards_pure hr

end

end Guarded

end NeighbourGraph
