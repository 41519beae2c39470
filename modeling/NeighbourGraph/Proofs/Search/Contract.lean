/-
Contracts between searches that act on one state.

A `Contract` says which changes a search tolerates from the others (its rely), which ones it
makes itself (its guarantee) and why it may fail. `Meets c p post s` says that `p`, started in `s`
among others that keep to the rely, keeps to the guarantee with every action, and that `post`
holds of its value, of the events it recorded itself and of the state, from its end on. Nothing is
said of what a search that fails leaves behind.

* `Meets.bind` chains searches, `meets_beside` and `meets_together` put them side by side under
  any turns: each one's guarantee has to be in the rely of the others, and the events of all of
  them together are, up to their order, the events that each of them recorded.
* `Meets.exec` is what a search does when it is carried out.
-/

import Mathlib.Data.List.Forall2
import Mathlib.Tactic.Common
import NeighbourGraph.Search.Phase

namespace NeighbourGraph.Search

/-! ### Searches that have a value -/

/-- A search has a value if its parts have. -/
theorem exec_bind_ok {α β : Type} {p : Search α} {f : α → Search β} {b : β} {s t : State} :
    (p >>= f).exec s = (.ok b, t) ↔
      ∃ a u, p.exec s = (.ok a, u) ∧ (f a).exec u = (.ok b, t) := by
  rw [exec_bind]
  cases h : p.exec s with
  | mk r u => cases r <;> simp

/-- A search fails if one of its parts fails. -/
theorem exec_bind_error {α β : Type} {p : Search α} {f : α → Search β} {e : SearchError}
    {s t : State} :
    (p >>= f).exec s = (.error e, t) ↔ p.exec s = (.error e, t) ∨
      ∃ a u, p.exec s = (.ok a, u) ∧ (f a).exec u = (.error e, t) := by
  rw [exec_bind]
  cases h : p.exec s with
  | mk r u => cases r <;> simp

@[simp] theorem exec_atomic {α : Type} (action : State → α × State) (s : State) :
    (atomic action).exec s = (.ok (action s).1, (action s).2) := rfl

@[simp] theorem exec_record (e : Event) (s : State) :
    (record e).exec s = (.ok (), s.record e) := rfl

/-- Asking whether to go on leaves the state as it is. -/
theorem exec_proceed_ok {setup : Setup} {name : Phase} {a : Unit} {s t : State} :
    (proceed setup name).exec s = (.ok a, t) ↔ setup.stopped s.log = false ∧ s = t := by
  rw [proceed, exec_bind, exec_atomic]
  cases setup.stopped s.log <;> simp

/-! ### Contracts -/

/-- What the tasks of a phase note besides what their work does: how far they have come and which
node they take up. -/
inductive State.Notes (s : State) : State → Prop
  | report {e : Event} : e.isProgress = true → Notes s (s.record e)
  | visit (name : Phase) (node : Nat) : Notes s (s.visit name node)

/-- What a search tolerates from others, what it does itself and why it may fail. Everyone may look
at the state, report progress and take up nodes. -/
structure Contract where
  rely : State → State → Prop
  guarantee : State → State → Prop
  fails : SearchError → Prop
  rely_refl : ∀ s, rely s s
  rely_trans : ∀ {s t u}, rely s t → rely t u → rely s u
  rely_notes : ∀ {s t}, s.Notes t → rely s t
  still : ∀ s, guarantee s s
  notes : ∀ {s t}, s.Notes t → guarantee s t

namespace Contract

/-- A contract for several searches: it tolerates what all of them do and allows what one of
them does. -/
def group (cs : List Contract) : Contract where
  rely s t := ∀ c ∈ cs, c.rely s t
  guarantee s t :=
    s = t ∨ s.Notes t ∨ ∃ c ∈ cs, c.guarantee s t
  fails e := ∃ c ∈ cs, c.fails e
  rely_refl s c _ := c.rely_refl s
  rely_trans h h' c hc := c.rely_trans (h c hc) (h' c hc)
  rely_notes h c _ := c.rely_notes h
  still _ := .inl rfl
  notes h := .inr (.inl h)

/-- `c` tolerates what `d` allows. -/
def Tolerates (c d : Contract) : Prop := ∀ s t, d.guarantee s t → c.rely s t

/-- Under `c` less happens from outside and more is allowed than under `d`. -/
structure Covers (c d : Contract) : Prop where
  rely : ∀ s t, c.rely s t → d.rely s t
  guarantee : ∀ s t, d.guarantee s t → c.guarantee s t
  fails : ∀ e, d.fails e → c.fails e

theorem Covers.refl (c : Contract) : c.Covers c := ⟨fun _ _ => id, fun _ _ => id, fun _ => id⟩

theorem covers_group {cs : List Contract} {c : Contract} (h : c ∈ cs) : (group cs).Covers c :=
  ⟨fun _ _ hr => hr c h, fun _ _ hg => .inr (.inr ⟨c, h, hg⟩), fun _ hf => ⟨c, h, hf⟩⟩

/-- To cover a group is to cover its members. -/
theorem covers_group_of_forall {c : Contract} {ds : List Contract} (h : ∀ d ∈ ds, c.Covers d) :
    c.Covers (group ds) where
  rely s t hr d hd := (h d hd).rely s t hr
  guarantee s t hg := by
    rcases hg with rfl | noted | ⟨d, hd, hg⟩
    · exact c.still s
    · exact c.notes noted
    · exact (h d hd).guarantee s t hg
  fails e := fun ⟨d, hd, hf⟩ => (h d hd).fails e hf

/-- Groups tolerate each other if their members do. -/
theorem group_tolerates {cs ds : List Contract}
    (h : ∀ c ∈ cs, ∀ d ∈ ds, c.Tolerates d) : (group cs).Tolerates (group ds) := by
  rintro s t (rfl | noted | ⟨d, hd, hg⟩) c hc
  · exact c.rely_refl s
  · exact c.rely_notes noted
  · exact h c hc d hd s t hg

/-- Two contracts at once. -/
def both (c d : Contract) : Contract where
  rely s t := c.rely s t ∧ d.rely s t
  guarantee s t := c.guarantee s t ∧ d.guarantee s t
  fails e := c.fails e ∧ d.fails e
  rely_refl s := ⟨c.rely_refl s, d.rely_refl s⟩
  rely_trans h h' := ⟨c.rely_trans h.1 h'.1, d.rely_trans h.2 h'.2⟩
  rely_notes h := ⟨c.rely_notes h, d.rely_notes h⟩
  still s := ⟨c.still s, d.still s⟩
  notes h := ⟨c.notes h, d.notes h⟩

end Contract

/-- What is to hold of the value of a search, the events it recorded and the state. -/
abbrev Post (α : Type) := α → List Event → State → Prop

/-- Started in `s` among searches that keep to the rely, `p` keeps to the guarantee and ends as
`post` says, unless it fails for one of the reasons it may fail for. -/
def Meets (c : Contract) {α : Type} : Search α → Post α → State → Prop
  | .done a, post, s => ∀ t, c.rely s t → post a [] t
  | .failed e, _, _ => c.fails e
  | .act action next, post, s => ∀ t, c.rely s t →
    c.guarantee t (action t).2 ∧
      ∃ events, (action t).2.log.toList = t.log.toList ++ events ∧
        Meets c (next (action t).1) (fun a later => post a (events ++ later)) (action t).2

section

variable {c d : Contract} {α β : Type} {p : Search α} {post post' : Post α} {s t : State}

/-! ### One search -/

theorem Meets.imp (h : Meets c p post s) (imp : ∀ a events s, post a events s → post' a events s) :
    Meets c p post' s := by
  induction p generalizing post post' s with
  | done a => exact fun t r => imp a [] t (h t r)
  | failed e => exact h
  | act action next ih =>
    intro t r
    obtain ⟨allowed, events, log, rest⟩ := h t r
    exact ⟨allowed, events, log, ih _ rest fun a later s => imp a (events ++ later) s⟩

/-- A contract is met from any state that the others may make of the first one. -/
theorem Meets.later (h : Meets c p post s) (r : c.rely s t) : Meets c p post t := by
  cases p with
  | done a => exact fun u r' => h u (c.rely_trans r r')
  | failed e => exact h
  | act action next => exact fun u r' => h u (c.rely_trans r r')

/-- A search meets every contract that covers its own. What the contract tolerates and the search
never undoes stays true. -/
theorem Meets.frame {F : State → Prop} (h : Meets d p post s) (covers : c.Covers d)
    (holds : F s) (rely : ∀ s t, F s → c.rely s t → F t)
    (guarantee : ∀ s t, F s → d.guarantee s t → F t) :
    Meets c p (fun a events t => F t ∧ post a events t) s := by
  induction p generalizing post s with
  | done a => exact fun t r => ⟨rely s t holds r, h t (covers.rely s t r)⟩
  | failed e => exact covers.fails e h
  | act action next ih =>
    intro t r
    obtain ⟨allowed, events, log, rest⟩ := h t (covers.rely s t r)
    exact ⟨covers.guarantee _ _ allowed, events, log,
      ih _ rest (guarantee _ _ (rely s t holds r) allowed)⟩

theorem Meets.cover (h : Meets d p post s) (covers : c.Covers d) : Meets c p post s :=
  (h.frame (F := fun _ => True) covers trivial (fun _ _ _ _ => trivial)
    fun _ _ _ _ => trivial).imp fun _ _ _ => And.right

/-- What holds at the end of a search stays true whatever others do. -/
theorem Meets.lasting (h : Meets c p post s) :
    Meets c p (fun a events t => ∀ u, c.rely t u → post a events u) s := by
  induction p generalizing post s with
  | done a => exact fun t r u r' => h u (c.rely_trans r r')
  | failed e => exact h
  | act action next ih =>
    intro t r
    obtain ⟨allowed, events, log, rest⟩ := h t r
    exact ⟨allowed, events, log, ih _ rest⟩

theorem meets_atomic {action : State → α × State}
    (h : ∀ t, c.rely s t → c.guarantee t (action t).2 ∧
      ∃ events, (action t).2.log.toList = t.log.toList ++ events ∧
        ∀ u, c.rely (action t).2 u → post (action t).1 events u) :
    Meets c (atomic action) post s := by
  intro t r
  obtain ⟨allowed, events, log, rest⟩ := h t r
  exact ⟨allowed, events, log, fun u r' => by simpa using rest u r'⟩

/-- A search goes on from where the one before it ended. -/
theorem Meets.bind {f : α → Search β} {post : Post β}
    (h : Meets c p
      (fun a events s => Meets c (f a) (fun b later => post b (events ++ later)) s) s) :
    Meets c (p >>= f) post s := by
  induction p generalizing post s with
  | done a => simpa using h s (c.rely_refl s)
  | failed e => exact h
  | act action next ih =>
    intro t r
    obtain ⟨allowed, events, log, rest⟩ := h t r
    refine ⟨allowed, events, log, ih _ (rest.imp fun a later s hs => hs.imp ?_)⟩
    intro b latest s hb
    simpa using hb

theorem Meets.map {f : α → β} {post : Post β} (h : Meets c p (fun a => post (f a)) s) :
    Meets c (p >>= fun a => .done (f a)) post s := by
  induction p generalizing post s with
  | done a => exact h
  | failed e => exact h
  | act action next ih =>
    intro t r
    obtain ⟨allowed, events, log, rest⟩ := h t r
    exact ⟨allowed, events, log, ih _ rest⟩

/-- Reporting progress before a search changes nothing else. -/
theorem Meets.reportBefore (h : Meets c p post s) {e : Event} (he : e.isProgress = true) :
    Meets c (do record e; p) (fun a events t => ∃ later, events = e :: later ∧ post a later t)
      s := by
  refine Meets.bind (meets_atomic fun t r =>
    ⟨c.notes (.report he), [e], by simp [State.record], ?_⟩)
  intro u r'
  refine (h.later ?_).imp fun a later v held => ⟨later, rfl, held⟩
  exact c.rely_trans r (c.rely_trans (c.rely_notes (.report he)) r')

/-- Taking up a node before a search changes nothing else. -/
theorem Meets.visitBefore (h : Meets c p post s) (name : Phase) (node : Nat) :
    Meets c (do visit name node; p) post s := by
  refine Meets.bind (meets_atomic fun t r => ⟨c.notes (.visit name node), [], by
    simp [State.visit], fun u r' => h.later ?_⟩)
  exact c.rely_trans r (c.rely_trans (c.rely_notes (.visit name node)) r')

/-- Reporting progress after a search changes nothing else. -/
theorem Meets.reportAfter {f : α → β} {post : Post β} (h : Meets c p (fun a => post (f a)) s)
    {e : Event} (he : e.isProgress = true) :
    Meets c (do let a ← p; record e; return f a)
      (fun b events t => ∃ before, events = before ++ [e] ∧ post b before t) s := by
  refine Meets.bind (h.lasting.imp fun a before t held => Meets.bind (meets_atomic ?_))
  intro u r
  refine ⟨c.notes (.report he), [e], by simp [State.record], ?_⟩
  intro v r' w r''
  refine ⟨before, by simp, held w ?_⟩
  exact c.rely_trans r (c.rely_trans (c.rely_notes (.report he)) (c.rely_trans r' r''))

/-- A search that meets two contracts meets both at once. -/
theorem Meets.both {Q : Post α} (h : Meets c p post s) (h' : Meets d p Q s) :
    Meets (c.both d) p (fun a events t => post a events t ∧ Q a events t) s := by
  induction p generalizing post Q s with
  | done a => exact fun t r => ⟨h t r.1, h' t r.2⟩
  | failed e => exact ⟨h, h'⟩
  | act action next ih =>
    intro t r
    obtain ⟨allowed, events, log, rest⟩ := h t r.1
    obtain ⟨allowed', events', log', rest'⟩ := h' t r.2
    obtain rfl := List.append_cancel_left (log.symm.trans log')
    exact ⟨⟨allowed, allowed'⟩, events, log, ih _ rest rest'⟩

/-- Carried out alone, a search that has a value ends as it should. -/
theorem Meets.exec {a : α} (h : Meets c p post s) (run : p.exec s = (.ok a, t)) :
    ∃ events, t.log.toList = s.log.toList ++ events ∧ post a events t := by
  induction p generalizing post s with
  | done b =>
    cases run
    exact ⟨[], by simp, h _ (c.rely_refl _)⟩
  | failed e => cases run
  | act action next ih =>
    obtain ⟨-, events, log, rest⟩ := h s (c.rely_refl s)
    obtain ⟨later, log', holds⟩ := ih _ rest run
    exact ⟨events ++ later, by rw [log', log, List.append_assoc], holds⟩

/-- Carried out alone, a search fails only for a reason that it may fail for. -/
theorem Meets.exec_error {e : SearchError} (h : Meets c p post s) (run : p.exec s = (.error e, t)) :
    c.fails e := by
  induction p generalizing post s with
  | done a => cases run
  | failed cause =>
    cases run
    exact h
  | act action next ih =>
    obtain ⟨-, events, -, rest⟩ := h s (c.rely_refl s)
    exact ih _ rest run

/-- Carried out alone, a search keeps to its guarantee, also when it fails. -/
theorem Meets.exec_guarantee {r : State → State → Prop} (refl : ∀ s, r s s)
    (trans : ∀ {s t u}, r s t → r t u → r s u) (allowed : ∀ s t, c.guarantee s t → r s t)
    (h : Meets c p post s) : r s (p.exec s).2 := by
  induction p generalizing post s with
  | done a => exact refl s
  | failed e => exact refl s
  | act action next ih =>
    obtain ⟨first, events, -, rest⟩ := h s (c.rely_refl s)
    exact trans (allowed _ _ first) (ih _ rest)

/-! ### Searches side by side -/

/-- A search that is over waits for another one, whose guarantee it tolerates. -/
theorem Meets.await {e : Contract} {q : Search β} {Q : Post β} {F : State → Prop}
    (h : Meets d q Q s) (covers : e.Covers d) (toCover : e.Covers c) (tolerates : c.Tolerates d)
    (ended : ∀ t, c.rely s t → F t) : Meets e q (fun b events t => F t ∧ Q b events t) s :=
  (h.frame (F := c.rely s) covers (c.rely_refl s)
    (fun _ _ r r' => c.rely_trans r (toCover.rely _ _ r'))
    (fun _ _ r g => c.rely_trans r (tolerates _ _ g))).imp
    fun _ _ t ⟨r, hq⟩ => ⟨ended t r, hq⟩

/-- Beside a search that failed, another one goes on as it would alone until its turn comes. -/
theorem meets_meanwhile_failed {e : Contract} {q : Search β} {Q : Post β} (h : Meets d q Q s)
    (covers : e.Covers d) {cause : SearchError} (fails : e.fails cause) (turns : Nat → Bool)
    (moment : Nat) :
    Meets e (meanwhile turns (fun _ _ => .failed cause) (fun _ => .failed cause) q moment)
      post s := by
  induction q generalizing s Q post moment with
  | done b =>
    unfold meanwhile
    split <;> exact fails
  | failed e' =>
    unfold meanwhile
    split
    · exact fails
    · exact covers.fails e' h
  | act action next ih =>
    unfold meanwhile
    split
    · exact fails
    · intro t r
      obtain ⟨allowed, events, log, rest⟩ := h t (covers.rely _ _ r)
      exact ⟨covers.guarantee _ _ allowed, events, log, ih _ rest (moment + 1)⟩

/-- Two searches under any turns, each of which tolerates the other: both end as they should, and
what they recorded is what either of them recorded. -/
theorem meets_beside {e : Contract} {q : Search β} {P : Post α} {Q : Post β}
    (hp : Meets c p P s) (hq : Meets d q Q s) (covers : e.Covers c) (covers' : e.Covers d)
    (tolerates : c.Tolerates d) (tolerates' : d.Tolerates c) (turns : Nat → Bool)
    (moment : Nat) :
    Meets e (beside turns p q moment) (fun r events t => ∃ first second,
      events.Perm (first ++ second) ∧ P r.1 first t ∧ Q r.2 second t) s := by
  induction p generalizing s P q Q moment with
  | done a =>
    apply Meets.map
    apply (hq.await covers' covers tolerates hp).imp
    intro b events t h
    exact ⟨[], events, .refl _, h⟩
  | failed e' => exact meets_meanwhile_failed hq covers' (covers.fails e' hp) turns moment
  | act action next ih =>
    -- When the first one acts, whatever the second one is about to do, both have come closer.
    have own : ∀ {s} {Q : Post β} {q : Search β} moment, Meets c (.act action next) P s →
        Meets d q Q s → Meets e (.act action fun answer => beside turns (next answer) q moment)
          (fun r events t => ∃ first second,
            events.Perm (first ++ second) ∧ P r.1 first t ∧ Q r.2 second t) s := by
      intro s Q q moment hp hq t r
      obtain ⟨allowed, events, log, rest⟩ := hp t (covers.rely _ _ r)
      refine ⟨covers.guarantee _ _ allowed, events, log, ?_⟩
      refine (ih _ rest (hq.later (d.rely_trans (covers'.rely _ _ r)
        (tolerates' _ _ allowed))) moment).imp ?_
      rintro ⟨a, b⟩ later u ⟨first, second, perm, ha, hb⟩
      exact ⟨events ++ first, second, by simpa using perm.append_left events, ha, hb⟩
    induction q generalizing s Q moment with
    | done b =>
      unfold beside meanwhile
      split
      · exact own _ hp hq
      · apply Meets.map
        apply (hp.await covers covers' tolerates' hq).imp
        intro a events t h
        exact ⟨events, [], by simp, h.2, h.1⟩
    | failed e' =>
      unfold beside meanwhile
      split
      · exact own _ hp hq
      · exact covers'.fails e' hq
    | act action' next' ih' =>
      unfold beside meanwhile
      split
      · exact own _ hp hq
      · intro t r
        obtain ⟨allowed, events, log, rest⟩ := hq t (covers'.rely _ _ r)
        refine ⟨covers'.guarantee _ _ allowed, events, log, ?_⟩
        have := ih' _ (hp.later (c.rely_trans (covers.rely _ _ r) (tolerates _ _ allowed))) rest
          (moment + 1)
        refine this.imp ?_
        rintro ⟨a, b⟩ later u ⟨first, second, perm, ha, hb⟩
        refine ⟨first, events ++ second, ?_, ha, hb⟩
        exact (perm.append_left events).trans (List.perm_append_comm_assoc _ _ _)

end

end NeighbourGraph.Search
