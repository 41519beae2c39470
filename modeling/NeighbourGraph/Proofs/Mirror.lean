/-
A search for all nodes finds what the search itself finds.

Where ties are never broken in favour of a candidate, the second lists mirror the lists of the
search: they hold the same neighbours in the same order whenever each candidate that was announced
was also offered. Between the two the second lists are ahead by the announced candidates, and both
nodes of a pair are announced before either is offered. The two ways in which a cutoff is applied
come to the same.
-/

import NeighbourGraph.Proofs.Filtered
import NeighbourGraph.Proofs.Search.Alone
import NeighbourGraph.Proofs.Search.Steps

namespace NeighbourGraph

open NeighbourGraph.Random NeighbourGraph.Search

namespace Search

/-! ### Mirrored lists -/

section

variable {nodeCount capacity : Nat} {pending : List Event} {s : State} {α : Type}

/-- The second lists are the lists of the state, had the pending candidates been offered to
them. -/
def Mirrored (nodeCount capacity : Nat) (pending : List Event) (s : State) : Prop :=
  pending.foldl (watch .all) (s.lists.map NeighbourList.fresh) =
    watched .all nodeCount capacity s.log

theorem watch_of_considered?_eq_none {target : NodeFilter} {lists : Array NeighbourList} {e : Event}
    (he : e.considered? = none) : watch target lists e = lists := by
  rw [watch, he]

/-- Reports of progress are no candidates. -/
theorem considered?_of_isProgress {e : Event} (he : e.isProgress = true) :
    e.considered? = none := by
  cases e with
  | started | advanced | ended => rfl
  | offered | considered | scored | entered => cases he

theorem watch_considered (lists : Array NeighbourList) (v c : Nat) (x : Float) :
    watch .all lists (.considered v c x) =
      lists.modify v fun l => (l.addKeepingTies c x).2 := rfl

theorem watched_push (target : NodeFilter) (nodeCount capacity : Nat) (log : Log) (e : Event) :
    watched target nodeCount capacity (log.push e) =
      watch target (watched target nodeCount capacity log) e := by
  simp [watched]

/-- A recorded event is watched at once. -/
theorem Mirrored.record (h : Mirrored nodeCount capacity pending s) (e : Event) :
    Mirrored nodeCount capacity (pending ++ [e]) (s.record e) := by
  rw [Mirrored, List.foldl_append, State.record, watched_push, ← h]
  rfl

/-- An event that is no candidate makes no difference. -/
theorem Mirrored.note (h : Mirrored nodeCount capacity pending s) {e : Event}
    (he : e.considered? = none) : Mirrored nodeCount capacity pending (s.record e) := by
  rw [Mirrored, State.record, watched_push, watch_of_considered?_eq_none he]
  exact h

theorem map_fresh_modify {lists : Array NeighbourList} {v : Nat}
    {f k : NeighbourList → NeighbourList} (h : ∀ l, (f l).fresh = k l.fresh) :
    (lists.modify v f).map NeighbourList.fresh = (lists.map NeighbourList.fresh).modify v k := by
  apply Array.ext_getElem?
  intro w
  simp only [Array.getElem?_map, Array.getElem?_modify]
  split <;> simp [Function.comp_def, h]

/-- To offer the first pending candidate brings the lists of the state up to it. -/
theorem Mirrored.offer {v c : Nat} {x : Float}
    (h : Mirrored nodeCount capacity (.considered v c x :: pending) s)
    (f : NeighbourList → α × NeighbourList) (otherwise : α)
    (offers : ∀ l, (f l).2 = (l.addKeepingTies c x).2) :
    Mirrored nodeCount capacity pending (s.withList v f otherwise).2 := by
  have lists : (s.withList v f otherwise).2.lists.map NeighbourList.fresh =
      watch .all (s.lists.map NeighbourList.fresh) (.considered v c x) := by
    rw [State.lists_withList, watch_considered]
    exact map_fresh_modify fun l => by rw [offers, NeighbourList.addKeepingTies_fresh]
  rw [Mirrored, lists, State.log_withList]
  exact h

/-- What leaves the neighbours of a list the same makes no difference. -/
theorem Mirrored.keep (h : Mirrored nodeCount capacity pending s) {v : Nat}
    {f : NeighbourList → α × NeighbourList} {otherwise : α}
    (same : ∀ l, NeighbourList.SameNeighbours l (f l).2) :
    Mirrored nodeCount capacity pending (s.withList v f otherwise).2 := by
  have lists : (s.withList v f otherwise).2.lists.map NeighbourList.fresh =
      s.lists.map NeighbourList.fresh := by
    rw [State.lists_withList, map_fresh_modify (k := id) fun l => (same l).fresh_eq]
    apply Array.ext_getElem?
    simp [Array.getElem?_modify]
  rw [Mirrored, lists, State.log_withList]
  exact h

theorem Mirrored.start (nodeCount capacity : Nat) :
    Mirrored nodeCount capacity [] (State.start nodeCount capacity) := by
  simp [Mirrored, State.start, watched, emptyLists, NeighbourList.fresh, NeighbourList.neighbours,
    Function.comp_def]

end

/-! ### Nodes -/

section

variable {setup : Setup} {capacity : Nat} {pending : List Event}

/-- The second lists hold what the lists of the state do. -/
abbrev InStep (setup : Setup) (capacity : Nat) : State → Prop :=
  Mirrored setup.nodeCount capacity []

theorem workLeads_announce (v c : Nat) (x : Float) :
    WorkLeads (Mirrored setup.nodeCount capacity pending)
      (Mirrored setup.nodeCount capacity (pending ++ [.considered v c x]))
      (liftM (record (.considered v c x))) :=
  workLeads_lift (leads_record fun _ h => h.record _)

theorem leads_note {e : Event} (he : e.considered? = none) :
    Leads (Mirrored setup.nodeCount capacity pending) (Mirrored setup.nodeCount capacity pending)
      (record e) :=
  leads_record fun _ h => h.note he

theorem workLeads_score (origin : Origin) (left right : Nat) :
    WorkLeads (Mirrored setup.nodeCount capacity pending)
      (Mirrored setup.nodeCount capacity pending) (liftM (score setup origin left right)) := by
  refine workLeads_lift ((leads_note rfl).bind fun _ => ?_)
  cases setup.metric.score left right with
  | ok x => exact leads_pure
  | error cause => exact leads_failed

/-- The second lists do not heed whether a candidate came in. -/
theorem Mirrored.countEntered {nodeCount : Nat} {r : (Bool × Generator) × State}
    (h : Mirrored nodeCount capacity pending r.2) (origin : Origin) (v c : Nat) :
    Mirrored nodeCount capacity pending (State.countEntered origin v c r).2 := by
  obtain ⟨⟨entered, g⟩, t⟩ := r
  cases entered with
  | true => exact h.note rfl
  | false => exact h

theorem workLeads_offer (never : ¬0.0 < setup.config.perturbationRate) (origin : Origin)
    (v c : Nat) (x : Float) :
    WorkLeads (Mirrored setup.nodeCount capacity (.considered v c x :: pending))
      (Mirrored setup.nodeCount capacity pending) (offer setup origin v c x) := by
  refine fun g => leads_atomic fun s h => Mirrored.countEntered ?_ origin v c
  exact h.offer _ (false, g) fun l => by rw [NeighbourList.add_eq_addKeepingTies never]

theorem workLeads_consider (never : ¬0.0 < setup.config.perturbationRate) (origin : Origin)
    (v c : Nat) :
    WorkLeads (InStep setup capacity) (InStep setup capacity) (consider setup origin v c) :=
  (workLeads_score origin v c).bind fun x => (workLeads_announce v c x).bind fun _ =>
    (workLeads_offer never origin v c x).bind fun _ => workLeads_pure

/-- Both nodes of a pair are announced, and then offered in the same order. -/
theorem workLeads_joinBoth (never : ¬0.0 < setup.config.perturbationRate) (a b : Nat) :
    WorkLeads (InStep setup capacity) (InStep setup capacity) (joinBoth setup a b) := by
  unfold joinBoth
  split
  · exact workLeads_pure
  · exact (workLeads_score .pairing a b).bind fun x => (workLeads_announce a b x).bind fun _ =>
      (workLeads_announce b a x).bind fun _ => (workLeads_offer never .joining a b x).bind fun _ =>
        (workLeads_offer never .joining b a x).bind fun _ => workLeads_pure

theorem workLeads_splitNode (sampled v : Nat) :
    WorkLeads (InStep setup capacity) (InStep setup capacity) (splitNode sampled v) :=
  fun g => leads_atomic fun _ h =>
    h.keep fun l => NeighbourList.sameNeighbours_split l sampled g

theorem steps_inStep (never : ¬0.0 < setup.config.perturbationRate) :
    Steps (fun p _ => Leads (InStep setup capacity) (InStep setup capacity) p) setup setup
      fun _ => True where
  pure _ := leads_pure
  bind := Leads.bind
  rules := .refl setup
  consider {origin} v c _ := workLeads_consider never origin v c
  joinBoth a b _ _ := workLeads_joinBoth never a b
  failed _ := leads_failed
  listOf _ := leads_atomic fun _ h => h
  offered _ _ := leads_note rfl
  splitNode := workLeads_splitNode

/-! ### Searches -/

theorem phases_inStep :
    Phases (fun p _ => Leads (InStep setup capacity) (InStep setup capacity) p) setup setup
      .inOrder := by
  refine Congruence.phases_inOrder ⟨⟨fun _ => leads_pure, Leads.bind⟩, ?_⟩ rfl rfl ?_ ?_ ?_
  · exact fun f => leads_atomic fun _ h => h
  · exact leads_proceed setup
  · exact fun he => leads_note (considered?_of_isProgress he)
  · exact fun name v => leads_atomic fun _ h => h

theorem leads_refine (never : ¬0.0 < setup.config.perturbationRate) (k : ListSize) (limit : Nat) :
    Leads (InStep setup capacity) (InStep setup capacity) (refine setup .inOrder k limit) :=
  phases_inStep.refine (steps_inStep never) (fun _ _ => trivial) ⟨rfl, rfl, rfl⟩ k limit

end

section

variable {setup : Setup} {refinement : Refinement} {s : State}

/-- In front of the cutoff, the second lists hold what the lists of the search do. -/
theorem inStep_refined (never : ¬0.0 < setup.config.perturbationRate) {limit : Nat}
    (ok : refined .inOrder setup limit = (.ok refinement, s)) :
    Mirrored setup.nodeCount setup.capacity [] s := by
  unfold refined at ok
  by_cases few : setup.nodeCount < 2
  · rw [if_pos few] at ok
    have : setup.capacity = 0 := by
      unfold Setup.capacity
      omega
    cases ok
    exact this ▸ .start setup.nodeCount 0
  · rw [if_neg few] at ok
    split at ok
    · cases ok
    · next k size =>
      rw [bounded_of size] at ok
      exact leads_refine never k limit _ _ _ (.start _ _) ok

theorem watched_eq_of_reports {target : NodeFilter} {nodeCount capacity : Nat} {log log' : Log}
    {events : List Event} (eq : log'.toList = log.toList ++ events)
    (reports : ∀ e ∈ events, e.isProgress = true) :
    watched target nodeCount capacity log' = watched target nodeCount capacity log := by
  unfold watched
  rw [← Array.foldl_toList, ← Array.foldl_toList, eq, List.foldl_append]
  generalize log.toList.foldl (watch target) _ = lists
  clear eq
  induction events with
  | nil => rfl
  | cons e rest ih =>
    have unconsidered := considered?_of_isProgress (reports e (by simp))
    rw [List.foldl_cons, watch_of_considered?_eq_none unconsidered]
    exact ih fun e he => reports e (by simp [he])

/-- A cutoff leaves of a list what it leaves of its neighbours. -/
theorem neighbours_cut (setup : Setup) (l : NeighbourList) :
    (setup.cut l).neighbours = cutBelow setup.config.similarityCutoff l.neighbours := by
  unfold Setup.cut cutBelow
  split
  · simp [NeighbourList.dropBelow, NeighbourList.neighbours, List.filter_map, Function.comp_def]
  · rfl

end

/-- **A search for all nodes mirrors the search itself.** Where ties are never broken in favour of a
candidate, a search for all sources and all targets comes to the very same as the search itself: the
same neighbours with the same similarities in the same order and the same numbers, or the same
error. -/
theorem runFiltered_all_eq_run (setup : Setup)
    (never : (setup.config.perturbationRate == 0.0) = true) :
    runFiltered setup .all .all = run setup := by
  have never : ¬0.0 < setup.config.perturbationRate :=
    fun positive => (Number.lt_iff_le_not_ge.1 positive).2 (Number.beq_iff_le_and_ge.1 never).1
  -- What the second lists choose is what the search found.
  have chosen : ∀ found, (runUnder .inOrder setup).outcome = .ok found →
      (watched .all setup.nodeCount setup.capacity (runUnder .inOrder setup).log).map
        (chosen .all setup.config.similarityCutoff) = found.neighbours := by
    intro found plain
    obtain ⟨refinement, s, t, ended⟩ := runUnder_ok plain
    obtain ⟨events, log, reports⟩ := ended.log
    have inStep := inStep_refined never ended.refined
    rw [ended.logged, watched_eq_of_reports log reports, ← inStep, ended.neighbours, ended.lists]
    simp [chosen_eq, neighbours_cut, NodeFilter.all, Function.comp_def]
  unfold runFiltered runFilteredUnder run
  unfold Setup.capacity at chosen
  generalize runUnder .inOrder setup = plain at chosen
  obtain ⟨outcome, log, rounds⟩ := plain
  cases outcome with
  | error cause => rfl
  | ok found =>
    dsimp only [Except.map]
    rw [chosen found rfl]

theorem fourNodes_mirrored :
    (fourNodes.config.perturbationRate == 0.0) = true ∧
      runFiltered fourNodes .all .all = run fourNodes := by
  have never : (fourNodes.config.perturbationRate == 0.0) = true := by decide +kernel
  exact ⟨never, runFiltered_all_eq_run fourNodes never⟩

end Search

end NeighbourGraph
