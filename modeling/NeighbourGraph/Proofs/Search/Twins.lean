/-
Two searches side by side, each on a state of its own.

`Twins` relates two searches that keep their lists alike: started in alike states, both have
values, which are related, or both fail for the same reason, unless one of them was told to stop.
The logs and the accounts of the iterations need not agree. Values that depend on random words are
related by `TwinWorks`, which also has both take the same words.
-/

import NeighbourGraph.Proofs.NeighbourList.Alike
import NeighbourGraph.Proofs.Partition
import NeighbourGraph.Proofs.Search.Contract

namespace NeighbourGraph.Search

open NeighbourGraph.Random

/-- States with alike lists of nodes. -/
structure State.Alike (E : Float → Float → Prop) (nodeCount : Nat) (s t : State) : Prop where
  size : s.lists.size = nodeCount
  size' : t.lists.size = nodeCount
  lists : ∀ (v : Nat) (l l' : NeighbourList), s.lists[v]? = some l → t.lists[v]? = some l' →
    l.Alike E l'
  known : ∀ (v : Nat) (l : NeighbourList), s.lists[v]? = some l → ∀ id ∈ l.ids, id < nodeCount

namespace State.Alike

variable {E : Float → Float → Prop} {n : Nat} {s t : State}

theorem record (h : s.Alike E n t) (e e' : Event) : (s.record e).Alike E n (t.record e') :=
  ⟨h.size, h.size', h.lists, h.known⟩

theorem setList (h : s.Alike E n t) (v : Nat) {l l' : NeighbourList} (alike : l.Alike E l')
    (known : ∀ id ∈ l.ids, id < n) :
    State.Alike E n { s with lists := s.lists.setIfInBounds v l }
      { t with lists := t.lists.setIfInBounds v l' } where
  size := by simp [h.size]
  size' := by simp [h.size']
  lists w k k' hk hk' := by
    simp only [Array.getElem?_setIfInBounds] at hk hk'
    split at hk
    · next eq =>
      simp only [eq, if_true, Option.ite_none_right_eq_some, Option.some.injEq] at hk hk'
      exact hk.2 ▸ hk'.2 ▸ alike
    · next ne =>
      rw [if_neg ne] at hk'
      exact h.lists w k k' hk hk'
  known w k hk := by
    simp only [Array.getElem?_setIfInBounds] at hk
    split at hk
    · simp only [Option.ite_none_right_eq_some, Option.some.injEq] at hk
      exact hk.2 ▸ known
    · exact h.known w k hk

/-- Working alike on the list of a node leaves the states alike. -/
theorem withList {α β : Type} {V : α → β → Prop} (h : s.Alike E n t) (v : Nat)
    {f : NeighbourList → α × NeighbourList} {k : NeighbourList → β × NeighbourList} {a : α}
    {b : β} (otherwise : V a b)
    (works : ∀ l l', l.Alike E l' → (∀ id ∈ l.ids, id < n) →
      V (f l).1 (k l').1 ∧ (f l).2.Alike E (k l').2 ∧ ∀ id ∈ (f l).2.ids, id < n) :
    V (s.withList v f a).1 (t.withList v k b).1 ∧
      (s.withList v f a).2.Alike E n (t.withList v k b).2 := by
  have both : s.lists[v]? = none ↔ t.lists[v]? = none := by
    rw [Array.getElem?_eq_none_iff, Array.getElem?_eq_none_iff, h.size, h.size']
  unfold State.withList
  cases hs : s.lists[v]? with
  | none =>
    cases ht : t.lists[v]? with
    | none => exact ⟨otherwise, h⟩
    | some l' => simp [hs, ht] at both
  | some l =>
    cases ht : t.lists[v]? with
    | none => simp [hs, ht] at both
    | some l' =>
      obtain ⟨value, alike, known⟩ := works l l' (h.lists v l l' hs ht) (h.known v l hs)
      exact ⟨value, h.setList v alike known⟩

end State.Alike

/-- What two searches came to: values in alike states, or the same error; or one of them was told
to stop and has no value. -/
inductive Agree (E : Float → Float → Prop) (nodeCount : Nat) (stops : Prop) {α β : Type}
    (V : α → β → Prop) : Except SearchError α × State → Except SearchError β × State → Prop
  | ok {a : α} {b : β} {s t : State} : V a b → s.Alike E nodeCount t →
      Agree E nodeCount stops V (.ok a, s) (.ok b, t)
  | error (e : SearchError) {s t : State} : Agree E nodeCount stops V (.error e, s) (.error e, t)
  | stopped {r : Except SearchError α × State} {r' : Except SearchError β × State} : stops →
      r.1.isOk = false ∨ r'.1.isOk = false → Agree E nodeCount stops V r r'

theorem Agree.of_ok {E : Float → Float → Prop} {nodeCount : Nat} {stops : Prop} {α β : Type}
    {V : α → β → Prop} {a : α} {b : β} {s t : State}
    (h : Agree E nodeCount stops V (.ok a, s) (.ok b, t)) : V a b := by
  cases h with
  | ok hv => exact hv
  | stopped _ fails => simp [Except.isOk, Except.toBool] at fails

/-- Searches that are not told to stop fail for the same reasons. -/
theorem Agree.error_iff {E : Float → Float → Prop} {nodeCount : Nat} {stops : Prop} {α β : Type}
    {V : α → β → Prop} {r : Except SearchError α} {r' : Except SearchError β} {s t : State}
    (h : Agree E nodeCount stops V (r, s) (r', t)) (goesOn : ¬stops) (e : SearchError) :
    r = .error e ↔ r' = .error e := by
  cases h with
  | ok => simp
  | error => simp
  | stopped told => exact absurd told goesOn

/-- Started in alike states, two searches come to the same. -/
def Twins (E : Float → Float → Prop) (nodeCount : Nat) (stops : Prop) {α β : Type}
    (V : α → β → Prop) (p : Search α) (q : Search β) : Prop :=
  ∀ s t, s.Alike E nodeCount t → Agree E nodeCount stops V (p.exec s) (q.exec t)

/-- Work that comes to the same with the same random words, and leaves the same words. -/
def TwinWorks (E : Float → Float → Prop) (nodeCount : Nat) (stops : Prop) {α β : Type}
    (V : α → β → Prop) (w : Work α) (w' : Work β) : Prop :=
  ∀ g, Twins E nodeCount stops (fun r r' => V r.1 r'.1 ∧ r.2 = r'.2) (w g) (w' g)

section

variable {E : Float → Float → Prop} {nodeCount : Nat} {stops : Prop} {α β α' β' : Type}
  {V : α → β → Prop} {W : α' → β' → Prop} {p : Search α} {q : Search β}

/-! ### Searches -/

theorem twins_pure {a : α} {b : β} (h : V a b) :
    Twins E nodeCount stops V (pure a : Search α) (pure b) :=
  fun _ _ alike => .ok h alike

theorem twins_failed (e : SearchError) :
    Twins E nodeCount stops V (.failed e : Search α) (.failed e) :=
  fun _ _ _ => .error e

/-- Searches go on alike from related values. -/
theorem Twins.bind {f : α → Search α'} {f' : β → Search β'} (h : Twins E nodeCount stops V p q)
    (rest : ∀ a b, V a b → Twins E nodeCount stops W (f a) (f' b)) :
    Twins E nodeCount stops W (p >>= f) (q >>= f') := by
  intro s t alike
  rw [exec_bind, exec_bind]
  have first := h s t alike
  generalize p.exec s = r at first
  generalize q.exec t = r' at first
  cases first with
  | ok hv alike => exact rest _ _ hv _ _ alike
  | error e => exact .error e
  | stopped told fails =>
    refine .stopped told ?_
    obtain ⟨x, s⟩ := r
    obtain ⟨y, t⟩ := r'
    cases x <;> cases y <;> simp_all [Except.isOk, Except.toBool]

theorem twins_atomic {action : State → α × State} {action' : State → β × State}
    (h : ∀ s t, s.Alike E nodeCount t →
      V (action s).1 (action' t).1 ∧ (action s).2.Alike E nodeCount (action' t).2) :
    Twins E nodeCount stops V (atomic action) (atomic action') :=
  fun s t alike => .ok (h s t alike).1 (h s t alike).2

/-- What is logged makes no difference. -/
theorem twins_record (e e' : Event) :
    Twins E nodeCount stops (fun _ _ => True) (record e) (record e') :=
  twins_atomic fun _ _ alike => ⟨trivial, alike.size, alike.size', alike.lists, alike.known⟩

/-- Related answers for things that are worked on one after the other. -/
inductive Paired {ι α β : Type} (V : ι → α → β → Prop) : List ι → List α → List β → Prop
  | nil : Paired V [] [] []
  | cons {i : ι} {is : List ι} {a : α} {as : List α} {b : β} {bs : List β} : V i a b →
      Paired V is as bs → Paired V (i :: is) (a :: as) (b :: bs)

namespace Paired

variable {ι : Type} {U : ι → α → β → Prop} {is js : List ι} {as as' : List α} {bs bs' : List β}

theorem append (h : Paired U is as bs) (h' : Paired U js as' bs') :
    Paired U (is ++ js) (as ++ as') (bs ++ bs') := by
  induction h with
  | nil => exact h'
  | cons first _ ih => exact .cons first ih

theorem flatten {κ : Type} {pieces : κ → List ι} {ks : List κ} {ass : List (List α)}
    {bss : List (List β)} (h : Paired (fun k => Paired U (pieces k)) ks ass bss) :
    Paired U (ks.flatMap pieces) ass.flatten bss.flatten := by
  induction h with
  | nil => exact .nil
  | cons first _ ih => exact first.append ih

theorem length_eq (h : Paired U is as bs) : as.length = is.length := by
  induction h with
  | nil => rfl
  | cons _ _ ih => simp [ih]

theorem forall₂ (h : Paired U is as bs) (imp : ∀ i ∈ is, ∀ a b, U i a b → V a b) :
    List.Forall₂ V as bs := by
  induction h with
  | nil => exact .nil
  | cons first _ ih =>
    exact .cons (imp _ (by simp) _ _ first) (ih fun i hi => imp i (by simp [hi]))

end Paired

theorem twins_mapM {ι : Type} {U : ι → α → β → Prop} {f : ι → Search α} {f' : ι → Search β}
    {is : List ι} (h : ∀ i ∈ is, Twins E nodeCount stops (U i) (f i) (f' i)) :
    Twins E nodeCount stops (Paired U is) (is.mapM f) (is.mapM f') := by
  induction is with
  | nil => exact twins_pure .nil
  | cons i is ih =>
    rw [List.mapM_cons, List.mapM_cons]
    apply (h i (by simp)).bind
    intro a b first
    exact (ih fun j hj => h j (by simp [hj])).bind fun as bs rest => twins_pure (.cons first rest)

/-! ### Work -/

variable {w : Work α} {w' : Work β}

theorem twinWorks_pure {a : α} {b : β} (h : V a b) :
    TwinWorks E nodeCount stops V (pure a : Work α) (pure b) :=
  fun _ => twins_pure ⟨h, rfl⟩

theorem TwinWorks.bind {f : α → Work α'} {f' : β → Work β'}
    (h : TwinWorks E nodeCount stops V w w')
    (rest : ∀ a b, V a b → TwinWorks E nodeCount stops W (f a) (f' b)) :
    TwinWorks E nodeCount stops W (w >>= f) (w' >>= f') := by
  refine fun g => (h g).bind ?_
  rintro ⟨a, g⟩ ⟨b, _⟩ ⟨hv, rfl⟩
  exact rest a b hv g

theorem twinWorks_lift (h : Twins E nodeCount stops V p q) :
    TwinWorks E nodeCount stops V (liftM p : Work α) (liftM q) :=
  fun _ => h.bind fun _ _ hv => twins_pure ⟨hv, rfl⟩

/-- What the first one logs makes no difference. -/
theorem TwinWorks.logLeft (h : TwinWorks E nodeCount stops V w w') (e : Event) :
    TwinWorks E nodeCount stops V (do record e; w) w' :=
  fun g s t alike => h g (s.record e) t ⟨alike.size, alike.size', alike.lists, alike.known⟩

/-- What the second one logs makes no difference. -/
theorem TwinWorks.logRight (h : TwinWorks E nodeCount stops V w w') (e : Event) :
    TwinWorks E nodeCount stops V w (do record e; w') :=
  fun g s t alike => h g s (t.record e) ⟨alike.size, alike.size', alike.lists, alike.known⟩

/-- The same words give the same value, which is as words can make it. -/
theorem twinWorks_draw {P : α → Prop} {d : Draw α} (h : ∀ g, P (d g).1) :
    TwinWorks E nodeCount stops (fun a b => a = b ∧ P a) (draw d) (draw d) :=
  fun g => twins_pure ⟨⟨rfl, h g⟩, rfl⟩

theorem twinWorks_mapM {ι : Type} {f : ι → Work α} {f' : ι → Work β} {is : List ι}
    (h : ∀ i ∈ is, TwinWorks E nodeCount stops V (f i) (f' i)) :
    TwinWorks E nodeCount stops (List.Forall₂ V) (is.mapM f) (is.mapM f') := by
  induction is with
  | nil => exact twinWorks_pure .nil
  | cons i is ih =>
    rw [List.mapM_cons, List.mapM_cons]
    apply (h i (by simp)).bind
    intro a b first
    exact (ih fun j hj => h j (by simp [hj])).bind fun as bs rest =>
      twinWorks_pure (.cons first rest)

theorem twins_seeded (h : TwinWorks E nodeCount stops V w w') (stream : Stream) (node : Nat) :
    Twins E nodeCount stops V (seeded stream node w) (seeded stream node w') :=
  (h (stream.generator node)).bind fun _ _ hv => twins_pure hv.1

end

end NeighbourGraph.Search
