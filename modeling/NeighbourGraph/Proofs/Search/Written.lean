/-
What a search writes into the log, carried out alone.

`Passes p s u` says that the search comes through the state `u` on its way from `s`. `Writes` says
what a search adds to the log, if it has a value and if it fails, and that it is truthful: whenever
it announces the list of a node, it comes through the state in which exactly what it had logged by
then is logged and in which the node has that list.
-/

import NeighbourGraph.Proofs.Search.Contract

namespace NeighbourGraph.Search

/-! ### Moments -/

/-- Carried out alone from `s`, the search comes through `u`. -/
inductive Passes {α : Type} : Search α → State → State → Prop
  | here (p : Search α) (s : State) : Passes p s s
  | later {β : Type} {action : State → β × State} {next : β → Search α} {s u : State} :
      Passes (next (action s).1) (action s).2 u → Passes (.act action next) s u

/-- The node has a list, and it holds these ids. -/
def State.Holds (s : State) (v : Nat) (ids : List Nat) : Prop :=
  ∃ l, s.lists[v]? = some l ∧ l.ids = ids

/-- Each list that was announced among the events was the one that the node had at that moment. -/
def Truthful {α : Type} (p : Search α) (s : State) (events : List Event) : Prop :=
  ∀ before v ids after, events = before ++ .offered v ids :: after →
    ∃ u, Passes p s u ∧ u.log.toList = s.log.toList ++ (before ++ [.offered v ids]) ∧
      u.Holds v ids

section

variable {α β : Type} {p : Search α} {f : α → Search β} {s t u : State} {a : α}
  {events rest : List Event}

/-- Whatever comes after a search, it comes through the same states. -/
theorem Passes.left (h : Passes p s u) : Passes (p >>= f) s u := by
  induction h with
  | here p s => exact .here _ s
  | later _ ih => exact .later ih

/-- From where a search ended, the next one comes through its own states. -/
theorem Passes.right (run : p.exec s = (.ok a, t)) (h : Passes (f a) t u) :
    Passes (p >>= f) s u := by
  induction p generalizing s with
  | done b =>
    cases run
    exact h
  | failed e => cases run
  | act action next ih => exact .later (ih _ run)

theorem truthful_of_silent (silent : ∀ v ids, Event.offered v ids ∉ events) :
    Truthful p s events := by
  rintro before v ids after rfl
  exact absurd (by simp) (silent v ids)

theorem Truthful.left (h : Truthful p s events) : Truthful (p >>= f) s events := by
  intro before v ids after eq
  obtain ⟨u, passes, log, holds⟩ := h before v ids after eq
  exact ⟨u, passes.left, log, holds⟩

theorem Truthful.bind (h : Truthful p s events) (run : p.exec s = (.ok a, t))
    (log : t.log.toList = s.log.toList ++ events) (h' : Truthful (f a) t later) :
    Truthful (p >>= f) s (events ++ later) := by
  intro before v ids after whole
  -- The list was announced by the first search or by the second one.
  rcases List.append_eq_append_iff.1 whole with ⟨more, rfl, eq⟩ | ⟨more, rfl, eq⟩
  · obtain ⟨u, passes, logged, holds⟩ := h' more v ids after eq
    exact ⟨u, .right run passes, by rw [logged, log]; simp, holds⟩
  · cases more with
    | nil =>
      obtain ⟨u, passes, logged, holds⟩ := h' [] v ids after eq.symm
      exact ⟨u, .right run passes, by simpa [log] using logged, holds⟩
    | cons e more =>
      obtain ⟨rfl, -⟩ : e = .offered v ids ∧ more ++ later = after := by simpa using eq.symm
      exact h.left before v ids more rfl

end

/-! ### Contracts of the log -/

/-- What a search came to from `s`: it kept a list for each of `n` nodes, added `events` to the
log, and they are as they should be. -/
structure Written (n : Nat) {α : Type} (whole : α → List Event → Prop) (part : List Event → Prop)
    (p : Search α) (s : State) (events : List Event) : Prop where
  size : (p.exec s).2.lists.size = n
  log : (p.exec s).2.log.toList = s.log.toList ++ events
  truthful : Truthful p s events
  whole : ∀ a, (p.exec s).1 = .ok a → whole a events
  part : ∀ e, (p.exec s).1 = .error e → part events

/-- Carried out alone over `n` nodes, a search truthfully adds events with `whole` to the log if it
has a value, and events with `part` if it fails. -/
def Writes (n : Nat) {α : Type} (whole : α → List Event → Prop) (part : List Event → Prop)
    (p : Search α) : Prop :=
  ∀ s, s.lists.size = n → ∃ events, Written n whole part p s events

section

variable {n : Nat} {α β : Type} {p : Search α} {f : α → Search β}
  {whole : α → List Event → Prop} {part : List Event → Prop}

theorem writes_pure {a : α} (h : whole a []) : Writes n whole part (pure a : Search α) := by
  refine fun s size => ⟨[], size, by simp, truthful_of_silent (by simp), ?_, ?_⟩
  · rintro _ ⟨⟩
    exact h
  · rintro _ ⟨⟩

theorem writes_failed {cause : SearchError} (h : part []) :
    Writes n whole part (.failed cause : Search α) := by
  refine fun s size => ⟨[], size, by simp, truthful_of_silent (by simp), ?_, ?_⟩
  · rintro _ ⟨⟩
  · rintro _ ⟨⟩
    exact h

/-- An action that announces no list. -/
theorem writes_atomic {action : State → α × State}
    (size : ∀ s, (action s).2.lists.size = s.lists.size)
    (log : ∀ s, ∃ events, (action s).2.log.toList = s.log.toList ++ events ∧
      (∀ v ids, Event.offered v ids ∉ events) ∧ whole (action s).1 events) :
    Writes n whole part (atomic action) := by
  intro s hs
  obtain ⟨events, logged, silent, holds⟩ := log s
  refine ⟨events, (size s).trans hs, logged, truthful_of_silent silent, ?_, ?_⟩
  · rintro _ ⟨⟩
    exact holds
  · rintro _ ⟨⟩

theorem writes_record {whole : Unit → List Event → Prop} {e : Event}
    (silent : ∀ v ids, e ≠ .offered v ids) (h : whole () [e]) : Writes n whole part (record e) :=
  writes_atomic (fun _ => rfl) fun _ => ⟨[e], by simp [State.record],
    fun v ids mem => silent v ids (List.mem_singleton.1 mem).symm, h⟩

/-- An action that leaves the log and the number of the lists as they are. -/
theorem writes_silent {action : State → α × State}
    (size : ∀ s, (action s).2.lists.size = s.lists.size) (log : ∀ s, (action s).2.log = s.log)
    (h : ∀ a, whole a []) : Writes n whole part (atomic action) :=
  writes_atomic size fun s => ⟨[], by simp [log s], by simp, h _⟩

/-- Asking whether to go on writes nothing, whatever the answer is. -/
theorem writes_proceed {setup : Setup} {whole : Unit → List Event → Prop} (name : Phase)
    (h : whole () []) (h' : part []) : Writes n whole part (proceed setup name) := by
  refine fun s size => ⟨[], ?_⟩
  cases told : setup.stopped s.log with
  | false =>
    have run : (proceed setup name).exec s = (.ok (), s) := by simp [proceed, exec_bind, told]
    exact ⟨by rw [run, size], by simp [run], truthful_of_silent (by simp), fun _ _ => h,
      fun _ _ => h'⟩
  | true =>
    have run : (proceed setup name).exec s = (.error (.cancelled name.name), s) := by
      simp [proceed, exec_bind, told]
    exact ⟨by rw [run, size], by simp [run], truthful_of_silent (by simp), fun _ _ => h,
      fun _ _ => h'⟩

/-- A search goes on from where the one before it ended. If either fails, so do both. -/
theorem Writes.bind {next : α → β → List Event → Prop} {nextPart : α → List Event → Prop}
    {both : β → List Event → Prop} {fails : List Event → Prop} (h : Writes n whole part p)
    (rest : ∀ a, Writes n (next a) (nextPart a) (f a))
    (value : ∀ a b events later, whole a events → next a b later → both b (events ++ later))
    (early : ∀ events, part events → fails events)
    (late : ∀ a events later, whole a events → nextPart a later → fails (events ++ later)) :
    Writes n both fails (p >>= f) := by
  intro s size
  obtain ⟨events, first⟩ := h s size
  cases run : p.exec s with
  | mk r t =>
    obtain ⟨size', log, truthful, holds, broken⟩ := first
    rw [run] at size' log holds broken
    cases r with
    | error e =>
      refine ⟨events, ?_, ?_, truthful.left, ?_, ?_⟩
      · simpa [exec_bind, run] using size'
      · simpa [exec_bind, run] using log
      · simp [exec_bind, run]
      · exact fun _ _ => early events (broken e rfl)
    | ok a =>
      obtain ⟨later, second⟩ := rest a t size'
      have goesOn : (p >>= f).exec s = (f a).exec t := by rw [exec_bind, run]
      refine ⟨events ++ later, ?_, ?_, truthful.bind run log second.truthful, ?_, ?_⟩
      · rw [goesOn, second.size]
      · rw [goesOn, second.log, log, List.append_assoc]
      · intro b hb
        exact value a b events later (holds a rfl) (second.whole b (goesOn ▸ hb))
      · intro e he
        exact late a events later (holds a rfl) (second.part e (goesOn ▸ he))

/-- What is made of a value adds nothing to the log. -/
theorem Writes.map {both : β → List Event → Prop} (h : Writes n whole part p) (f : α → β)
    (value : ∀ a events, whole a events → both (f a) events) :
    Writes n both part (do let a ← p; return f a) := by
  have returned : ∀ a, Writes n (fun b events => b = f a ∧ events = []) (fun _ => False)
      (pure (f a) : Search β) := fun _ => writes_pure ⟨rfl, rfl⟩
  refine h.bind returned ?_ (fun _ => id) fun _ _ _ _ => False.elim
  rintro a _ events _ holds ⟨rfl, rfl⟩
  rw [List.append_nil]
  exact value a events holds

/-- Looking a list up and announcing it is truthful. -/
theorem writes_announce {v : Nat} (hv : v < n) {b : β}
    {whole : β → List Event → Prop} (h : ∀ ids, whole b [.offered v ids]) :
    Writes n whole part (do
      let ids ← listOf v
      record (.offered v ids)
      return b) := by
  intro s size
  have lookup : s.lists[v]? = some s.lists[v] := Array.getElem?_eq_getElem (by omega)
  have run : (do
      let ids ← listOf v
      record (.offered v ids)
      return b).exec s = (.ok b, s.record (.offered v s.lists[v].ids)) := by
    simp only [exec_bind, listOf, exec_atomic, lookup, exec_record, exec_pure]
  refine ⟨[.offered v s.lists[v].ids], ?_, ?_, ?_, ?_, ?_⟩
  · rw [run]
    exact size
  · rw [run]
    simp [State.record]
  · intro before w ids after eq
    obtain ⟨rfl, one⟩ : before = [] ∧ .offered v s.lists[v].ids = Event.offered w ids := by
      cases before with
      | nil => exact ⟨rfl, (List.cons.inj eq).1⟩
      | cons e more => simp at eq
    cases one
    refine ⟨s.record (.offered v s.lists[v].ids), ?_, by simp [State.record], _, lookup, rfl⟩
    have passes : Passes (do record (.offered v s.lists[v].ids); return b : Search β) s
        (s.record (.offered v s.lists[v].ids)) := .later (.here _ _)
    exact .right (by simp [listOf, lookup]) passes
  · rw [run]
    rintro _ ⟨⟩
    exact h _
  · rw [run]
    rintro _ ⟨⟩

end

end NeighbourGraph.Search
