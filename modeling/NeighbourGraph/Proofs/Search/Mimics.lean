/-
Searches that act in the same way on states of their own.

`Mimics S p q` relates two searches action by action: started in states related by `S`, both have
the same answers and leave related states. Since it looks at single actions and not at where a
search ends, it holds of tasks that share a phase under any turns, as it does of each of them.
-/

import NeighbourGraph.Proofs.Search.Contract
import NeighbourGraph.Proofs.Search.Steps

namespace NeighbourGraph.Search

open NeighbourGraph.Random

/-- In related states, each action of the one search answers what that of the other one does, and
leaves related states. -/
inductive Mimics (S : State → State → Prop) {α : Type} : Search α → Search α → Prop
  | done (a : α) : Mimics S (.done a) (.done a)
  | failed (cause : SearchError) : Mimics S (.failed cause) (.failed cause)
  | act {β : Type} {action action' : State → β × State} {next next' : β → Search α} :
      (∀ s t, S s t → (action s).1 = (action' t).1 ∧ S (action s).2 (action' t).2) →
      (∀ answer, Mimics S (next answer) (next' answer)) →
      Mimics S (.act action next) (.act action' next')

section

variable {S : State → State → Prop} {α β γ : Type} {p p' : Search α} {q q' : Search β}

/-! ### One search -/

theorem mimics_atomic {action action' : State → α × State}
    (h : ∀ s t, S s t → (action s).1 = (action' t).1 ∧ S (action s).2 (action' t).2) :
    Mimics S (atomic action) (atomic action') :=
  .act h .done

theorem mimics_record {e e' : Event} (h : ∀ s t, S s t → S (s.record e) (t.record e')) :
    Mimics S (record e) (record e') :=
  mimics_atomic fun s t related => ⟨rfl, h s t related⟩

theorem Mimics.bind {f f' : α → Search β} (h : Mimics S p p')
    (rest : ∀ a, Mimics S (f a) (f' a)) : Mimics S (p >>= f) (p' >>= f') := by
  induction h with
  | done a => exact rest a
  | failed cause => exact .failed cause
  | act acts _ ih => exact .act acts ih

theorem chained_mimics (S : State → State → Prop) : Chained (Mimics S) where
  pure a := .done a
  bind := Mimics.bind

/-- Carried out in related states, both searches come to the same and leave related states. -/
theorem Mimics.exec (h : Mimics S p p') {s t : State} (related : S s t) :
    (p.exec s).1 = (p'.exec t).1 ∧ S (p.exec s).2 (p'.exec t).2 := by
  induction h generalizing s t with
  | done a => exact ⟨rfl, related⟩
  | failed cause => exact ⟨rfl, related⟩
  | @act _ action action' next next' acts _ ih =>
    obtain ⟨answer, related⟩ := acts s t related
    rw [exec_act, exec_act, ← answer]
    exact ih (action s).1 related

/-! ### Searches side by side -/

theorem mimics_meanwhile {turns : Nat → Bool} {turn turn' : Nat → Search β → Search γ}
    {ended ended' : β → Search γ}
    (takesTurn : ∀ moment {q q'}, Mimics S q q' → Mimics S (turn moment q) (turn' moment q'))
    (ends : ∀ b, Mimics S (ended b) (ended' b)) (h : Mimics S q q') (moment : Nat) :
    Mimics S (meanwhile turns turn ended q moment) (meanwhile turns turn' ended' q' moment) := by
  induction h generalizing moment with
  | done b =>
    unfold meanwhile
    split
    · exact takesTurn _ (.done b)
    · exact ends b
  | failed cause =>
    unfold meanwhile
    split
    · exact takesTurn _ (.failed cause)
    · exact .failed cause
  | act acts next ih =>
    unfold meanwhile
    split
    · exact takesTurn _ (.act acts next)
    · exact .act acts fun answer => ih answer _

theorem mimics_beside (h : Mimics S p p') (h' : Mimics S q q') (turns : Nat → Bool)
    (moment : Nat) : Mimics S (beside turns p q moment) (beside turns p' q' moment) := by
  induction h generalizing q q' moment with
  | done a => exact h'.bind fun b => .done (a, b)
  | failed cause =>
    exact mimics_meanwhile (fun _ _ _ _ => .failed cause) (fun _ => .failed cause) h' moment
  | act acts next ih =>
    unfold beside
    refine mimics_meanwhile (fun moment _ _ other => .act acts fun answer => ih answer other moment)
      (fun b => ?_) h' moment
    exact (Mimics.act acts next).bind fun a => .done (a, b)

theorem mimics_together {ps ps' : List (Search α)} (h : List.Forall₂ (Mimics S) ps ps')
    (turns : Turns) : Mimics S (together turns ps) (together turns ps') := by
  induction h generalizing turns with
  | nil => exact .done []
  | cons first _ ih =>
    exact (mimics_beside first (ih fun task => turns (task + 1)) (turns 0) 0).bind
      fun r => .done (r.1 :: r.2)

/-- Phases inherit it from the work on nodes under any turns. -/
theorem phases_mimics {setup setup' : Setup} (congr : Congruence (Mimics S))
    (nodeCount : setup.nodeCount = setup'.nodeCount) (tasks : setup.tasks = setup'.tasks)
    (proceed : ∀ name, Mimics S (proceed setup name) (proceed setup' name))
    (report : ∀ {e : Event}, e.isProgress = true → Mimics S (record e) (record e))
    (visit : ∀ name v, Mimics S (visit name v) (visit name v)) (schedule : Schedule) :
    Phases (Mimics S) setup setup' schedule where
  toCongruence := congr
  proceed := proceed
  report := report
  phase name round {_} {work work'} h := by
    have task : ∀ p, Mimics S (overNodes setup name work p) (overNodes setup' name work' p) :=
      congr.overNodes (proceed name) (fun _ => report rfl) (visit name) h
    have all : List.Forall₂ (Mimics S) (setup.tasks.map (overNodes setup name work))
        (setup.tasks.map (overNodes setup' name work')) := by
      rw [List.forall₂_map_left_iff, List.forall₂_map_right_iff, List.forall₂_same]
      exact fun p _ => task p
    unfold phase
    rw [← nodeCount, ← tasks]
    exact (report rfl).bind fun _ => (mimics_together all _).bind fun _ =>
      (report rfl).bind fun _ => .done _

end

end NeighbourGraph.Search
