/-
Two searches abreast: under different turns, after the same number of iterations.

Without ties both have scored the same candidates for every node, so both hold the same ids in the
same order, and the entries that count as handed out are the same: an entry that left a list while
neighbours were joined was settled there and did not come back. Both therefore hand out the same
for the next iteration, and consider the same candidates in it.
-/

import NeighbourGraph.Proofs.NeighbourList.Alike
import NeighbourGraph.Proofs.Search.Entering
import NeighbourGraph.Proofs.Search.Finishes

namespace NeighbourGraph.Search

open NeighbourGraph.Random

section

variable {setup : Setup} {capacity : Nat} {parts : Origin → Prop}
  {script : List (Nat × Nat × Float)} {events events' : List Event} {s s' t t' u : State}
  {v : Nat} {l l' k k' : NeighbourList}

/-! ### What an intake leaves -/

/-- The candidates of a node are those it had and those of the script. -/
theorem Intake.mem_candidatesOf (h : Intake setup capacity parts script events s t) {c : Nat} :
    c ∈ candidatesOf t.log v ↔ c ∈ candidatesOf s.log v ∨ ∃ x, (v, c, x) ∈ script := by
  have added : (∃ x, (v, c, x) ∈ script) ↔ ∃ x, Event.considered v c x ∈ events := by
    refine exists_congr fun x => ?_
    rw [← h.plays.considered, List.mem_filterMap]
    constructor
    · rintro ⟨e, he, eq⟩
      cases e with
      | considered v' c' x' =>
        obtain ⟨rfl, rfl, rfl⟩ : v' = v ∧ c' = c ∧ x' = x := by simpa [Event.considered?] using eq
        exact he
      | started | advanced | ended | offered | scored | entered => cases eq
    · exact fun he => ⟨_, he, rfl⟩
  rw [added, Search.mem_candidatesOf, Search.mem_candidatesOf, ← exists_or]
  refine exists_congr fun x => ?_
  rw [← Array.mem_toList_iff, h.log, List.mem_append, Array.mem_toList_iff]

/-- An entry counts as handed out if its candidate was held before and counted as handed out. -/
theorem Intake.explored_iff (h : Intake setup capacity parts script events s t)
    (sound : Sound setup capacity s) (honest : setup.metric.Honest) (hl : s.lists[v]? = some l)
    (hl' : t.lists[v]? = some l') {e' : Entry} (he' : e' ∈ l'.entries) :
    e'.explored = true ↔ ∃ e ∈ l.entries, e.id = e'.id ∧ e.explored = true := by
  constructor
  · intro explored
    obtain ⟨k, hk, follows⟩ := h.grows.list sound h.sound hl'
    obtain rfl : l = k := Option.some.inj (hl.symm.trans hk)
    exact ⟨e', follows.explored e' he' explored, rfl, explored⟩
  · rintro ⟨e, he, same, explored⟩
    rcases h.enters.lists v l l' hl hl' e' he' with held | came
    · have nodup := (sound.lists v l hl).wellFormed.nodup
      obtain rfl := List.inj_on_of_nodup_map nodup he held same
      exact explored
    · -- A candidate that is held is settled, so it does not come in.
      obtain ⟨x, genuine, unsettled, -⟩ := h.enters.new v e'.id came
      exact absurd (sound.settledIn honest hl genuine (same ▸ List.mem_map_of_mem he)) unsettled

/-- Where nobody came in, the ids stay. -/
theorem Intake.ids_eq (h : Intake setup capacity parts script events s t)
    (sound : Sound setup capacity s) (honest : setup.metric.Honest) (tieFree : setup.TieFree)
    (noEntries : events.filterMap Event.entered? = []) (hl : s.lists[v]? = some l)
    (hl' : t.lists[v]? = some l') : l.ids = l'.ids := by
  obtain ⟨k, hk, follows⟩ := h.grows.list sound h.sound hl'
  obtain rfl : l = k := Option.some.inj (hl.symm.trans hk)
  have sub : l'.ids ⊆ l.ids := by
    intro id hid
    obtain ⟨e, he, rfl⟩ := List.mem_map.1 hid
    rcases h.enters.lists v l l' hl hl' e he with held | came
    · exact List.mem_map_of_mem held
    · simp [noEntries] at came
  have length : l.ids.length ≤ l'.ids.length := by
    simpa [NeighbourList.ids, NeighbourList.size] using follows.size_le
  have nodup := (h.sound.lists v l' hl').wellFormed.nodup
  exact sound.ids_eq_of_perm h.sound honest tieFree hl hl'
    ((nodup.subperm sub).perm_of_length_le length).symm

/-- Where nodes are not compared with random others, whoever comes in is an update. -/
theorem Plays.updates_eq_zero_iff (h : Plays setup.joinParts script events)
    (noJoins : setup.config.randomJoins = 0) :
    events.countP (·.isUpdate) = 0 ↔ events.filterMap Event.entered? = [] := by
  rw [List.countP_eq_zero, List.filterMap_eq_nil_iff]
  refine forall₂_congr fun e he => ?_
  cases e with
  | entered origin v c =>
    have joining := (h.entered origin v c he).resolve_right fun random => random noJoins
    simp [joining, Event.isUpdate, Event.entered?]
  | started | advanced | ended | offered | considered | scored =>
    simp [Event.isUpdate, Event.entered?]

/-! ### Lists at one level -/

/-- Two lists with the same ids in the same order, of which the same count as handed out. -/
abbrev NeighbourList.Level (l l' : NeighbourList) : Prop := l.Alike (fun _ _ => True) l'

theorem forall₂_imp_of_mem {α β : Type} {R S : α → β → Prop} {xs : List α} {ys : List β}
    (h : List.Forall₂ R xs ys) (imp : ∀ x ∈ xs, ∀ y ∈ ys, R x y → S x y) :
    List.Forall₂ S xs ys := by
  induction h with
  | nil => exact .nil
  | cons first _ ih =>
    exact .cons (imp _ (by simp) _ (by simp) first)
      (ih fun x hx y hy => imp x (by simp [hx]) y (by simp [hy]))

theorem NeighbourList.Level.of_ids_eq (owner : l.owner = l'.owner)
    (capacity : l.capacity = l'.capacity) (ids : l.ids = l'.ids)
    (explored : ∀ e ∈ l.entries, ∀ e' ∈ l'.entries, e.id = e'.id → e.explored = e'.explored) :
    NeighbourList.Level l l' := by
  have same : List.Forall₂ (fun e e' : Entry => e.id = e'.id) l.entries l'.entries := by
    have eq : List.Forall₂ Eq l.ids l'.ids := by rw [List.forall₂_eq_eq_eq, ids]
    rwa [NeighbourList.ids, NeighbourList.ids, List.forall₂_map_left_iff,
      List.forall₂_map_right_iff] at eq
  exact ⟨owner, capacity, forall₂_imp_of_mem same fun e he e' he' id =>
    ⟨id, explored e he e' he' id, trivial⟩⟩

theorem NeighbourList.Level.exists_explored_iff (h : NeighbourList.Level l l') (id : Nat) :
    (∃ e ∈ l.entries, e.id = id ∧ e.explored = true) ↔
      ∃ e ∈ l'.entries, e.id = id ∧ e.explored = true := by
  have entries := h.entries
  generalize l.entries = es at entries
  generalize l'.entries = es' at entries
  induction entries with
  | nil => rfl
  | cons first _ ih => simp only [List.mem_cons, exists_eq_or_imp, ih, first.id, first.explored]

/-! ### Two searches -/

/-- Two searches that scored the same candidates and hold the same. -/
structure Abreast (setup : Setup) (capacity : Nat) (s t : State) : Prop where
  sound : Sound setup capacity s
  sound' : Sound setup capacity t
  candidates : ∀ v, candidatesOf s.log v = candidatesOf t.log v
  lists : ∀ (v : Nat) (l l' : NeighbourList), s.lists[v]? = some l → t.lists[v]? = some l' →
    NeighbourList.Level l l'

theorem Abreast.start (setup : Setup) (capacity : Nat) :
    Abreast setup capacity (State.start setup.nodeCount capacity)
      (State.start setup.nodeCount capacity) where
  sound := .start setup capacity
  sound' := .start setup capacity
  candidates _ := rfl
  lists v l l' hl hl' := by
    obtain rfl : l = l' := Option.some.inj (hl.symm.trans hl')
    exact ⟨rfl, rfl, List.forall₂_same.2 fun _ _ => ⟨rfl, rfl, trivial⟩⟩

theorem NeighbourList.Level.symm (h : NeighbourList.Level l l') : NeighbourList.Level l' l :=
  ⟨h.owner.symm, h.capacity.symm, h.entries.flip.imp fun _ _ e =>
    ⟨e.id.symm, e.explored.symm, trivial⟩⟩

theorem Abreast.symm (h : Abreast setup capacity s t) : Abreast setup capacity t s :=
  ⟨h.sound', h.sound, fun v => (h.candidates v).symm,
    fun v l l' hl hl' => (h.lists v l' l hl' hl).symm⟩

/-- Searches that are abreast and consider the same candidates are so afterwards. -/
theorem Abreast.intake (h : Abreast setup capacity s s') (honest : setup.metric.Honest)
    (tieFree : setup.TieFree) (intake : Intake setup capacity parts script events s t)
    (intake' : Intake setup capacity parts script events' s' t')
    (refined : Refined setup capacity t) (refined' : Refined setup capacity t') :
    Abreast setup capacity t t' := by
  have candidates : ∀ v, candidatesOf t.log v = candidatesOf t'.log v := by
    intro v
    ext c
    rw [intake.mem_candidatesOf, intake'.mem_candidatesOf, h.candidates]
  refine ⟨intake.sound, intake'.sound, candidates, fun v k k' hk hk' => ?_⟩
  obtain ⟨l, hl, -⟩ := intake.grows.list h.sound intake.sound hk
  obtain ⟨l', hl', -⟩ := intake'.grows.list h.sound' intake'.sound hk'
  have soundFor := intake.sound.lists v k hk
  have soundFor' := intake'.sound.lists v k' hk'
  refine .of_ids_eq (soundFor.owner.trans soundFor'.owner.symm)
    (soundFor.capacity.trans soundFor'.capacity.symm)
    (refined.ids_eq refined' honest tieFree hk hk' (candidates v)) fun e he e' he' id => ?_
  have level := h.lists v l l' hl hl'
  rw [Bool.eq_iff_iff, intake.explored_iff h.sound honest hl hk he,
    intake'.explored_iff h.sound' honest hl' hk' he', level.exists_explored_iff, id]

/-- Where nobody came in for the one, nobody came in for the other. -/
theorem Abreast.nobody (h : Abreast setup capacity s s') (after : Abreast setup capacity t t')
    (honest : setup.metric.Honest) (tieFree : setup.TieFree)
    (intake : Intake setup capacity parts script events s t)
    (intake' : Intake setup capacity parts script events' s' t')
    (noEntries : events.filterMap Event.entered? = []) : events'.filterMap Event.entered? = [] := by
  rw [List.eq_nil_iff_forall_not_mem]
  rintro ⟨v, c⟩ hc
  obtain ⟨x, genuine, unsettled, settled⟩ := intake'.enters.new v c hc
  obtain ⟨l, hl, -⟩ := h.sound.list genuine.node_lt
  obtain ⟨l', hl', -⟩ := h.sound'.list genuine.node_lt
  obtain ⟨k, hk, -⟩ := after.sound.list genuine.node_lt
  obtain ⟨k', hk', -⟩ := after.sound'.list genuine.node_lt
  -- The ids were the same and are the same, and those of the one stayed.
  have stayed : k'.ids = l'.ids := by
    rw [← (after.lists v k k' hk hk').ids_eq, ← (h.lists v l l' hl hl').ids_eq]
    exact (intake.ids_eq h.sound honest tieFree noEntries hl hk).symm
  exact unsettled (settled.of_ids_eq after.sound' h.sound' honest hk' hl' stayed genuine)

/-! ### Handing out -/

/-- Each list hands out its entries with the words that its node has for it. -/
theorem exec_candidates_split (sound : Sound setup capacity s) {turns : Turns} {stream : Stream}
    {sampled : Nat} {c : Candidates}
    (run : (candidates setup turns stream sampled).exec s = (.ok c, t)) :
    ∃ handed : List NeighbourList.Parts, handed.length = setup.nodeCount ∧
      c = { old := (handed.map (·.old)).toArray, new := (handed.map (·.new)).toArray } ∧
      ∀ v < setup.nodeCount, ∃ l, s.lists[v]? = some l ∧
        handed[v]? = some (l.split sampled (stream.generator v)).1.2 ∧
        t.lists[v]? = some (l.split sampled (stream.generator v)).1.1 := by
  have works : ∀ v < setup.nodeCount, Meets (changingOwn setup capacity .handsOut v)
      (seeded stream v (splitNode sampled v)) (fun parts _ t => ∃ l, s.lists[v]? = some l ∧
        parts = (l.split sampled (stream.generator v)).1.2 ∧
        t.lists[v]? = some (l.split sampled (stream.generator v)).1.1) s := by
    intro v hv
    refine Meets.map ((meets_withList sound hv fun l => ?_).imp ?_)
    · have same := NeighbourList.sameNeighbours_split l sampled (stream.generator v)
      exact ⟨same, fun log => same.soundFor⟩
    · rintro _ events t ⟨-, l, hl, rfl, hl'⟩
      exact ⟨l, hl, rfl, hl'⟩
  obtain ⟨handed, u, split, rfl, rfl⟩ := exec_candidates_ok run
  obtain ⟨events, -, each⟩ := (meets_phase_own works turns).exec split
  refine ⟨handed, by simpa using each.length_eq, rfl, fun v hv => ?_⟩
  obtain ⟨own, -, answer, -, l, hl, rfl, hl'⟩ := each.get (List.getElem?_range hv)
  exact ⟨l, hl, answer, hl'⟩

/-- Handing out scores nobody. -/
theorem HandsOut.candidatesOf_eq {c : Candidates} (h : HandsOut setup capacity s t c) (v : Nat) :
    candidatesOf t.log v = candidatesOf s.log v := by
  obtain ⟨reports, log, progress⟩ := h.log
  ext d
  simp only [Search.mem_candidatesOf, ← Array.mem_toList_iff, log, List.mem_append]
  exact exists_congr fun x => or_iff_left fun hx => nomatch progress _ hx

/-- Searches that are abreast hand out the same. -/
theorem exec_candidates_abreast (h : Abreast setup capacity s s')
    (goesOn : ∀ log, setup.stopped log = false) (turns turns' : Turns) (stream : Stream)
    (sampled : Nat) :
    ∃ c t t', (candidates setup turns stream sampled).exec s = (.ok c, t) ∧
      (candidates setup turns' stream sampled).exec s' = (.ok c, t') ∧
      HandsOut setup capacity s t c ∧ HandsOut setup capacity s' t' c ∧
      Abreast setup capacity t t' := by
  obtain ⟨c, t, run⟩ := (finishes_candidates goesOn turns stream sampled).exec s
  obtain ⟨c', t', run'⟩ := (finishes_candidates goesOn turns' stream sampled).exec s'
  obtain ⟨handed, length, eq, split⟩ := exec_candidates_split h.sound run
  obtain ⟨handed', length', eq', split'⟩ := exec_candidates_split h.sound' run'
  have handsOut := exec_candidates h.sound run
  have handsOut' := exec_candidates h.sound' run'
  have same : handed = handed' := by
    apply List.ext_getElem?
    intro v
    by_cases hv : v < setup.nodeCount
    · obtain ⟨l, hl, answer, -⟩ := split v hv
      obtain ⟨l', hl', answer', -⟩ := split' v hv
      rw [answer, answer', ((h.lists v l l' hl hl').split sampled (stream.generator v)).1]
    · rw [List.getElem?_eq_none (by omega), List.getElem?_eq_none (by omega)]
  subst same
  obtain rfl : c = c' := eq.trans eq'.symm
  refine ⟨c, t, t', run, run', handsOut, handsOut', handsOut.sound, handsOut'.sound, ?_, ?_⟩
  · intro v
    rw [handsOut.candidatesOf_eq, handsOut'.candidatesOf_eq, h.candidates]
  · intro v k k' hk hk'
    have hv := handsOut.sound.size ▸ (Array.getElem?_eq_some_iff.1 hk).1
    obtain ⟨l, hl, -, hl₁⟩ := split v hv
    obtain ⟨l', hl', -, hl₁'⟩ := split' v hv
    obtain rfl := Option.some.inj (hl₁.symm.trans hk)
    obtain rfl := Option.some.inj (hl₁'.symm.trans hk')
    exact ((h.lists v l l' hl hl').split sampled (stream.generator v)).2.2

/-! ### Iterations -/

/-- The account of the iterations is nothing that lists depend on. -/
theorem Abreast.setRounds (h : Abreast setup capacity s t) (rounds rounds' : Array (Option Tally)) :
    Abreast setup capacity { s with rounds } { t with rounds := rounds' } :=
  ⟨⟨h.sound.size, h.sound.lists, h.sound.genuine⟩,
    ⟨h.sound'.size, h.sound'.lists, h.sound'.genuine⟩, h.candidates, h.lists⟩

/-- The updates of a join phase are those that its intake has. -/
theorem exec_join_intake {c : Candidates} {turns : Turns} {stream : Stream} {sampled : Nat}
    {tally : Tally} (run : (join setup turns c stream sampled).exec s = (.ok tally, t))
    (intake : Intake setup capacity parts script events s t) :
    tally.updates = events.countP (·.isUpdate) := by
  have logs : Logs setup (join setup turns c stream sampled) Tally.Counts :=
    logs_join turns c stream sampled
  obtain ⟨counted, log, counts⟩ := (logs s).exec run
  obtain rfl := List.append_cancel_left (log.symm.trans intake.log)
  exact counts.updates

/-- Filling the lists leaves searches abreast. -/
theorem exec_fill_abreast (decisive : setup.Decisive) {stream : Stream} {count : Nat}
    (samples : setup.Sampled stream count) (turns turns' : Turns) :
    ∃ tally t tally' t',
      (fill setup turns stream count).exec (State.start setup.nodeCount capacity) =
        (.ok tally, t) ∧
      (fill setup turns' stream count).exec (State.start setup.nodeCount capacity) =
        (.ok tally', t') ∧
      Refined setup capacity t ∧ Refined setup capacity t' ∧ Abreast setup capacity t t' := by
  obtain ⟨script, plays⟩ := exists_plays_fill decisive samples
  have start := Abreast.start setup capacity
  obtain ⟨tally, t, events, run, intake⟩ := (plays turns _ start.sound).exec_intake start.sound
  obtain ⟨tally', t', events', run', intake'⟩ :=
    (plays turns' _ start.sound).exec_intake start.sound
  have refined := exec_fill run
  have refined' := exec_fill run'
  exact ⟨tally, t, tally', t', run, run', refined, refined',
    start.intake decisive.honest decisive.tieFree intake intake' refined refined'⟩

/-- One more iteration leaves searches abreast. Where nodes are not compared with random others,
it makes updates in both or in neither. -/
theorem exec_iteration_abreast (decisive : setup.Decisive) (others : 2 ≤ setup.nodeCount)
    (refined : Refined setup capacity s) (refined' : Refined setup capacity s')
    (h : Abreast setup capacity s s') (turns turns' : Phase → Turns) (sampled : Nat)
    (splitStream joinStream : Stream) :
    ∃ tally t tally' t',
      (iteration setup turns sampled splitStream joinStream).exec s = (.ok tally, t) ∧
      (iteration setup turns' sampled splitStream joinStream).exec s' = (.ok tally', t') ∧
      Refined setup capacity t ∧ Refined setup capacity t' ∧ Abreast setup capacity t t' ∧
      (setup.config.randomJoins = 0 → (tally.updates = 0 ↔ tally'.updates = 0)) := by
  have h := h.setRounds (s.rounds.push none) (s'.rounds.push none)
  obtain ⟨c, u, u', split, split', handsOut, handsOut', level⟩ :=
    exec_candidates_abreast h decisive.goesOn (turns .split) (turns' .split) splitStream sampled
  obtain ⟨script, plays⟩ := exists_plays_join decisive others handsOut.known joinStream sampled
  obtain ⟨tally, w, events, joined, intake⟩ :=
    (plays (turns .join) u level.sound).exec_intake level.sound
  obtain ⟨tally', w', events', joined', intake'⟩ :=
    (plays (turns' .join) u' level.sound').exec_intake level.sound'
  have run : (iteration setup turns sampled splitStream joinStream).exec s = (.ok tally, _) :=
    exec_iteration_ok.2 ⟨c, u, w, split, joined, rfl⟩
  have run' : (iteration setup turns' sampled splitStream joinStream).exec s' = (.ok tally', _) :=
    exec_iteration_ok.2 ⟨c, u', w', split', joined', rfl⟩
  have after := exec_iteration others refined run
  have after' := exec_iteration others refined' run'
  have refinedW : Refined setup capacity w := after.setRounds w.rounds
  have refinedW' : Refined setup capacity w' := after'.setRounds w'.rounds
  have abreast := level.intake decisive.honest decisive.tieFree intake intake' refinedW refinedW'
  refine ⟨tally, _, tally', _, run, run', after, after', abreast.setRounds _ _, fun noJoins => ?_⟩
  rw [exec_join_intake joined intake, exec_join_intake joined' intake',
    intake.plays.updates_eq_zero_iff noJoins, intake'.plays.updates_eq_zero_iff noJoins]
  exact ⟨level.nobody abreast decisive.honest decisive.tieFree intake intake',
    level.symm.nobody abreast.symm decisive.honest decisive.tieFree intake' intake⟩

end

end NeighbourGraph.Search
