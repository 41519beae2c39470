/-
Searches that go through the same states.

`Tracks I R p q` says that in states with `I` the actions of `p` and `q` leave the same states,
where `I` holds again, and that the two searches end alike: with values that `R` relates, or for the
same cause. What each of them answers in between may differ. Since it looks at single actions, it
holds of tasks side by side under any turns as soon as it holds of each of them.
-/

import NeighbourGraph.Proofs.Search.Contract

namespace NeighbourGraph.Search

/-- In states with `I`, both searches go through the same states and keep `I`, and they end
alike. -/
inductive Tracks (I : State → Prop) {α β : Type} (R : α → β → Prop) : Search α → Search β → Prop
  | done {a : α} {b : β} : R a b → Tracks I R (.done a) (.done b)
  | failed (cause : SearchError) : Tracks I R (.failed cause) (.failed cause)
  | act {γ δ : Type} {action : State → γ × State} {action' : State → δ × State}
      {next : γ → Search α} {next' : δ → Search β} :
      (∀ s, I s → (action' s).2 = (action s).2) → (∀ s, I s → I (action s).2) →
      (∀ s, I s → Tracks I R (next (action s).1) (next' (action' s).1)) →
      Tracks I R (.act action next) (.act action' next')

section

variable {I : State → Prop} {α β γ δ : Type} {R : α → β → Prop} {Q : γ → δ → Prop}
  {p : Search α} {q : Search β}

/-! ### One search -/

theorem Tracks.bind {f : α → Search γ} {f' : β → Search δ} (h : Tracks I R p q)
    (rest : ∀ a b, R a b → Tracks I Q (f a) (f' b)) : Tracks I Q (p >>= f) (q >>= f') := by
  induction h with
  | done related => exact rest _ _ related
  | failed cause => exact .failed cause
  | act same keeps _ ih => exact .act same keeps ih

/-- One action. -/
theorem tracks_atomic {action : State → α × State} {action' : State → β × State}
    (same : ∀ s, I s → (action' s).2 = (action s).2) (keeps : ∀ s, I s → I (action s).2)
    (answers : ∀ s, I s → R (action s).1 (action' s).1) :
    Tracks I R (atomic action) (atomic action') :=
  .act same keeps fun s hs => .done (answers s hs)

/-- Carried out in a state with `I`, both searches leave the same state, where `I` holds, and come
to related values or fail for the same cause. -/
theorem Tracks.exec (h : Tracks I R p q) {s : State} (hs : I s) :
    (q.exec s).2 = (p.exec s).2 ∧ I (p.exec s).2 ∧
      match (p.exec s).1, (q.exec s).1 with
      | .ok a, .ok b => R a b
      | .error cause, .error cause' => cause = cause'
      | _, _ => False := by
  induction h generalizing s with
  | done related => exact ⟨rfl, hs, related⟩
  | failed cause => exact ⟨rfl, hs, rfl⟩
  | act same keeps _ ih =>
    rw [exec_act, exec_act, same s hs]
    exact ih s hs (keeps s hs)

/-! ### Searches side by side -/

theorem tracks_meanwhile {turns : Nat → Bool} {turn : Nat → Search α → Search γ}
    {turn' : Nat → Search β → Search δ} {ended : α → Search γ} {ended' : β → Search δ}
    (takesTurn : ∀ moment {p q}, Tracks I R p q → Tracks I Q (turn moment p) (turn' moment q))
    (ends : ∀ a b, R a b → Tracks I Q (ended a) (ended' b)) (h : Tracks I R p q)
    (moment : Nat) :
    Tracks I Q (meanwhile turns turn ended p moment) (meanwhile turns turn' ended' q moment) := by
  induction h generalizing moment with
  | done related =>
    unfold meanwhile
    split
    · exact takesTurn _ (.done related)
    · exact ends _ _ related
  | failed cause =>
    unfold meanwhile
    split
    · exact takesTurn _ (.failed cause)
    · exact .failed cause
  | act same keeps next ih =>
    unfold meanwhile
    split
    · exact takesTurn _ (.act same keeps next)
    · exact .act same keeps fun s hs => ih s hs _

theorem tracks_beside {p' : Search γ} {q' : Search δ} (h : Tracks I R p q) (h' : Tracks I Q p' q')
    (turns : Nat → Bool) (moment : Nat) :
    Tracks I (fun r r' => R r.1 r'.1 ∧ Q r.2 r'.2) (beside turns p p' moment)
      (beside turns q q' moment) := by
  induction h generalizing p' q' moment with
  | done related => exact h'.bind fun b b' related' => .done ⟨related, related'⟩
  | failed cause =>
    exact tracks_meanwhile (fun _ _ _ _ => .failed cause) (fun _ _ _ => .failed cause) h' moment
  | act same keeps next ih =>
    unfold beside
    refine tracks_meanwhile
      (fun moment _ _ other => .act same keeps fun s hs => ih s hs other moment)
      (fun b b' related' => ?_) h' moment
    exact (Tracks.act same keeps next).bind fun a a' related => .done ⟨related, related'⟩

end

end NeighbourGraph.Search
