/-
Where ties are never broken in favour of a candidate, a search converges.

Every candidate that came into a list is settled there for good, and a settled candidate does not
come in again. So each node comes into each list once at most, and there are no more updates than
ordered pairs of nodes. An iteration that does not converge makes an update, so their number is
bounded by the same number, whatever the threshold is.
-/

import Mathlib.Data.Finset.Prod
import NeighbourGraph.Proofs.Failures
import NeighbourGraph.Proofs.Search.Accounts

namespace NeighbourGraph.Search

open NeighbourGraph.Random

/-! ### Entries into lists -/

/-- The nodes and the candidates that came into their lists, in order. -/
def entrances (log : Log) : List (Nat × Nat) := log.toList.filterMap Event.entered?

theorem entrances_record (s : State) (e : Event) :
    entrances (s.record e).log = entrances s.log ++ e.entered?.toList := by
  simp only [entrances, State.record, Array.toList_push, List.filterMap_append]
  cases he : e.entered? <;> simp [he]

/-- No candidate came into a list twice, and each that did is settled there. -/
structure Once (setup : Setup) (s : State) : Prop where
  nodup : (entrances s.log).Nodup
  settled : ∀ v c, (v, c) ∈ entrances s.log → ∃ x, setup.Genuine v c x ∧ SettledIn s v c x

section

variable {setup : Setup} {capacity : Nat} {s t : State} {α : Type}

theorem Once.start (setup : Setup) (capacity : Nat) :
    Once setup (State.start setup.nodeCount capacity) :=
  ⟨.nil, by simp [State.start, entrances]⟩

/-- Where nothing comes in, what is settled has to stay so. -/
theorem Once.grows (h : Once setup s) {change : Nat → Change} (grows : Grows change s t)
    (settles : ∀ v l l' c x, (change v).rel l l' → l.Settles c x → l'.Settles c x)
    (same : entrances t.log = entrances s.log) : Once setup t where
  nodup := same ▸ h.nodup
  settled v c hc := by
    obtain ⟨x, genuine, settled⟩ := h.settled v c (same ▸ hc)
    exact ⟨x, genuine, settled.grows grows fun l l' => settles v l l' c x⟩

/-- One action of a search that offers candidates: whoever comes in is accepted, so it is not
settled and has not come in before, and it is settled from then on. -/
theorem Once.acts (h : Once setup s) (honest : setup.metric.Honest)
    (never : ¬0.0 < setup.config.perturbationRate) (sound : Sound setup capacity t)
    (grows : Grows (fun _ => .offers) s t) (acts : Acts setup s t) : Once setup t := by
  have settles : ∀ (v : Nat) l l' c x, Change.offers.rel l l' →
      NeighbourList.Settles l c x → NeighbourList.Settles l' c x :=
    fun _ _ _ c x follows => follows.settles c x
  cases acts with
  | silent log => exact h.grows grows settles (congrArg entrances log)
  | note e he =>
    refine h.grows grows settles ?_
    rw [entrances_record, he, Option.toList_none, List.append_nil]
  | @enter v c l x origin hl new accepted =>
    have log : entrances (State.record { s with lists := s.lists.setIfInBounds v (l.place c x) }
        (.entered origin v c)).log = entrances s.log ++ [(v, c)] := entrances_record _ _
    have held : (s.lists.setIfInBounds v (l.place c x))[v]? = some (l.place c x) := by
      simp [(Array.getElem?_eq_some_iff.1 hl).1]
    have entry : { id := c, similarity := x } ∈ (l.place c x).entries :=
      NeighbourList.mem_place.2 (.inl rfl)
    have genuine : setup.Genuine v c x := sound.genuine v c x
      (NeighbourList.forall_mem_neighbours.1 (sound.lists v _ held).considered _ entry)
    constructor
    · rw [log, List.nodup_append]
      refine ⟨h.nodup, List.nodup_singleton _, ?_⟩
      rintro _ before _ hp rfl
      obtain rfl := List.mem_singleton.1 hp
      obtain ⟨y, genuine', l', hl', settled⟩ := h.settled v c before
      obtain rfl : l = l' := Option.some.inj (hl.symm.trans hl')
      exact (settled.of_le (genuine.le genuine' honest)).standing_ne_accepted (accepted never)
    · intro v' c' hp
      rw [log, List.mem_append, List.mem_singleton] at hp
      rcases hp with before | eq
      · obtain ⟨y, genuine', settled⟩ := h.settled v' c' before
        exact ⟨y, genuine', settled.grows grows fun _ _ => settles v' _ _ c' y⟩
      · obtain ⟨rfl, rfl⟩ := Prod.mk.inj eq
        exact ⟨x, genuine, _, held, .inl ⟨_, entry, rfl, Number.le_refl genuine.isFinite⟩⟩

/-- A search that offers candidates lets none come into a list twice. -/
theorem Meets.once {p : Search α} {P Q : Post α} (h : Meets (offering setup capacity) p P s)
    (h' : Meets (acting setup) p Q s) (honest : setup.metric.Honest)
    (never : ¬0.0 < setup.config.perturbationRate) (sound : Sound setup capacity s)
    (once : Once setup s) : Once setup (p.exec s).2 := by
  have kept := (h.both h').exec_guarantee (r := fun s t => Sound setup capacity s →
    Once setup s → Sound setup capacity t ∧ Once setup t) (fun _ => And.intro) ?_ ?_
  · exact (kept sound once).2
  · intro s t u first second sound once
    obtain ⟨sound, once⟩ := first sound once
    exact second sound once
  · rintro s t ⟨allowed, acts⟩ sound once
    obtain ⟨sound', grows⟩ := allowed sound
    exact ⟨sound', once.acts honest never sound' grows acts⟩

/-! ### Iterations -/

theorem entrances_of_reports {log log' : Log} {events : List Event}
    (eq : log'.toList = log.toList ++ events) (reports : ∀ e ∈ events, e.isProgress = true) :
    entrances log' = entrances log := by
  have noEntries : events.filterMap Event.entered? = [] :=
    List.filterMap_eq_nil_iff.2 fun e he => Event.entered?_of_isProgress (reports e he)
  rw [entrances, eq, List.filterMap_append, noEntries, List.append_nil]
  rfl

/-- An iteration lets no candidate come into a list again, and its tally counts what it logged. -/
theorem exec_iteration_once (others : 2 ≤ setup.nodeCount) (honest : setup.metric.Honest)
    (never : ¬0.0 < setup.config.perturbationRate) (h : Refined setup capacity s)
    (once : Once setup s) {turns : Phase → Turns} {sampled : Nat}
    {splitStream joinStream : Stream} {tally : Tally}
    (run : (iteration setup turns sampled splitStream joinStream).exec s = (.ok tally, t)) :
    Once setup t ∧
      ∃ events, t.log.toList = s.log.toList ++ events ∧ tally.Counts events := by
  obtain ⟨c, u, w, split, joined, rfl⟩ := exec_iteration_ok.1 run
  have h := h.setRounds (s.rounds.push none)
  have handsOut := exec_candidates h.sound split
  obtain ⟨reports, log, progress⟩ := handsOut.log
  have onceU : Once setup u := Once.grows (s := { s with rounds := s.rounds.push none })
    ⟨once.nodup, once.settled⟩ handsOut.grows (fun _ _ _ _ _ same => same.settles)
    (entrances_of_reports log progress)
  have offers := meets_join handsOut.sound others handsOut.known (turns .join) joinStream sampled
  have logs : Logs setup (join setup (turns .join) c joinStream sampled) Tally.Counts :=
    logs_join (turns .join) c joinStream sampled
  have onceW := offers.once (logs u) honest never handsOut.sound onceU
  rw [joined] at onceW
  obtain ⟨events, log', counts⟩ := (logs u).exec joined
  refine ⟨⟨onceW.nodup, onceW.settled⟩, reports ++ events, ?_, counts.reports progress⟩
  rw [log', log, List.append_assoc]

/-- What the iterations so far came to: the tallies of all of them count what was logged, and each
but a last one that converged made an update. -/
structure Spent (soFar : Refinement) (tallies : List Tally) (s : State) : Prop
    extends Tallied soFar tallies s where
  updates : (Tally.total tallies).updates = s.log.toList.countP (·.isUpdate)
  length_le : tallies.length ≤
    (Tally.total tallies).updates + if soFar.converged then 1 else 0

theorem updates_total_append (tallies : List Tally) (tally : Tally) :
    (Tally.total (tallies ++ [tally])).updates = (Tally.total tallies).updates + tally.updates := by
  induction tallies with
  | nil => simp [Tally.total]
  | cons first rest ih =>
    simp only [Tally.total, List.cons_append, List.foldr_cons, Tally.updates_add] at ih ⊢
    omega

/-- One more iteration, which converged or made an update. -/
theorem Spent.after {soFar : Refinement} {threshold : Nat} {tallies : List Tally} {tally : Tally}
    (h : Spent soFar tallies s) (goesOn : soFar.converged = false)
    (tallied : Tallied (soFar.after threshold tally) (tallies ++ [tally]) t) {events : List Event}
    (log : t.log.toList = s.log.toList ++ events) (counts : tally.Counts events) :
    Spent (soFar.after threshold tally) (tallies ++ [tally]) t where
  toTallied := tallied
  updates := by rw [updates_total_append, h.updates, counts.updates, log, List.countP_append]
  length_le := by
    have before := h.length_le
    simp only [goesOn, Bool.false_eq_true, if_false] at before
    rw [updates_total_append, List.length_append, List.length_singleton, Refinement.after]
    by_cases few : tally.updates ≤ threshold
    · simp only [few, decide_true, if_true]
      omega
    · simp only [few, decide_false, Bool.false_eq_true, if_false]
      omega

/-- What every iteration keeps where ties are never broken in favour of a candidate. -/
structure Spending (setup : Setup) (capacity : Nat) (soFar : Refinement) (s : State) : Prop where
  refined : Refined setup capacity s
  once : Once setup s
  spent : ∃ tallies, Spent soFar tallies s

theorem spending_kept (others : 2 ≤ setup.nodeCount) (honest : setup.metric.Honest)
    (never : ¬0.0 < setup.config.perturbationRate) (sampled threshold : Nat) :
    KeptByIteration setup sampled threshold (Spending setup capacity) := by
  intro soFar s turns splitStream joinStream tally t goesOn h run
  obtain ⟨tallies, spent⟩ := h.spent
  obtain ⟨once, events, log, counts⟩ :=
    exec_iteration_once others honest never h.refined h.once run
  have tallied := spent.toTallied.iteration others h.refined run threshold
  exact ⟨exec_iteration others h.refined run, once, _, spent.after goesOn tallied log counts⟩

theorem spending_fill (honest : setup.metric.Honest)
    (never : ¬0.0 < setup.config.perturbationRate) {turns : Turns} {stream : Stream}
    {count : Nat} {tally : Tally}
    (run : (fill setup turns stream count).exec (State.start setup.nodeCount capacity) =
      (.ok tally, s)) : Spending setup capacity { pairs := tally.pairs } s := by
  have start := (Refined.start setup capacity).sound
  have offers := meets_fill start turns stream count
  have logs : Logs setup (fill setup turns stream count) fun tally events =>
      (tally.countedFor .sampling).Counts events := logs_fill turns stream count
  have once := offers.once (logs _) honest never start (.start setup capacity)
  rw [run] at once
  obtain ⟨events, log, counts⟩ := (logs _).exec run
  refine ⟨exec_fill run, once, [], tallied_fill run, ?_, Nat.zero_le _⟩
  -- Candidates that come in while the lists are filled are no updates.
  have noUpdates : events.countP (·.isUpdate) = 0 := counts.updates.symm
  rw [log, List.countP_append, noUpdates]
  rfl

/-- In front of the cutoff no candidate came into a list twice, and the search converged or went on
to its limit. -/
theorem refined_spending (others : 2 ≤ setup.nodeCount) (honest : setup.metric.Honest)
    (never : ¬0.0 < setup.config.perturbationRate) {schedule : Schedule} {limit : Nat}
    {refinement : Refinement} (ok : refined schedule setup limit = (.ok refinement, s)) :
    (∃ capacity, Spending setup capacity refinement s) ∧
      (refinement.converged = true ∨ refinement.iterations = limit) := by
  rw [refined, if_neg (by omega)] at ok
  split at ok
  · cases ok
  · obtain ⟨spending, ended⟩ := exec_refine_ok (spending_kept others honest never _ _)
      (fun _ _ _ _ => spending_fill honest never) ok
    exact ⟨⟨_, spending⟩, ended⟩

/-- There are no more entries than ordered pairs of nodes. -/
theorem Once.length_le (h : Once setup s) :
    (entrances s.log).length ≤ setup.nodeCount * (setup.nodeCount - 1) := by
  have sub : (entrances s.log).toFinset ⊆ (Finset.range setup.nodeCount).offDiag := by
    rintro ⟨v, c⟩ hp
    obtain ⟨x, genuine, -⟩ := h.settled v c (List.mem_toFinset.1 hp)
    simp only [Finset.mem_offDiag, Finset.mem_range]
    exact ⟨genuine.node_lt, genuine.other.1, genuine.other.2.symm⟩
  have le := Finset.card_le_card sub
  rwa [List.toFinset_card_of_nodup h.nodup, Finset.offDiag_card, Finset.card_range,
    ← Nat.mul_sub_one] at le

/-- Every update is an entry. -/
theorem countP_isUpdate_le (log : Log) :
    log.toList.countP (·.isUpdate) ≤ (entrances log).length := by
  rw [entrances, List.length_filterMap_eq_countP]
  apply List.countP_mono_left
  intro e _ he
  cases e <;> simp_all [Event.isUpdate, Event.entered?]

end

/-- **A search converges within its pairs.** Where ties are never broken in favour of a candidate
and nothing makes the search fail, it has a result. No node comes into a list twice, so all
iterations together make no more updates than there are ordered pairs of nodes, and a search that
may iterate more often than that converges, at the latest one iteration later, whatever its
threshold is. -/
theorem converges_within_pairs (schedule : Schedule) (setup : Setup)
    (honest : setup.metric.Honest) (others : 2 ≤ setup.nodeCount)
    (never : (setup.config.perturbationRate == 0.0) = true)
    (goesOn : ∀ log, setup.stopped log = false)
    (covers : ∀ covered, setup.metric.nodeCount = some covered → covered = setup.nodeCount)
    (scores : ∀ a < setup.nodeCount, ∀ b < setup.nodeCount, a ≠ b →
      ∃ x, setup.metric.score a b = .ok x)
    (sums : ∀ v, Sampler.Summable setup.graph v) :
    ∃ result tallies, (runUnder schedule setup).outcome = .ok result ∧
      (entrances (runUnder schedule setup).log).Nodup ∧
      (runUnder schedule setup).rounds = tallies.map some ∧
      tallies.length = result.iterations ∧
      (Tally.total tallies).updates ≤ setup.nodeCount * (setup.nodeCount - 1) ∧
      (setup.nodeCount * (setup.nodeCount - 1) < setup.config.maxIterations →
        result.converged = true ∧
          result.iterations ≤ setup.nodeCount * (setup.nodeCount - 1) + 1) := by
  have never : ¬0.0 < setup.config.perturbationRate :=
    fun positive => (Number.lt_iff_le_not_ge.1 positive).2 (Number.beq_iff_le_and_ge.1 never).1
  have total : ∀ e, ¬setup.MayFail e := by
    intro e reason
    cases reason with
    | stopped log name told => simp [goesOn log] at told
    | score lt other _ lacking =>
      obtain ⟨x, score⟩ := scores _ lt _ other.1 other.2.symm
      simp [score] at lacking
    | walk cause infinite =>
      obtain ⟨v, infinite⟩ := infinite
      exact infinite (sums v)
  cases outcome : (runUnder schedule setup).outcome with
  | error e => exact absurd (runUnder_error covers outcome) (total e)
  | ok result =>
    obtain ⟨refinement, s, t, ended⟩ := runUnder_ok outcome
    obtain ⟨⟨_, -, once, tallies, spent⟩, stopped⟩ :=
      refined_spending others honest never ended.refined
    obtain ⟨events, log, reports⟩ := ended.log
    have entered : entrances (runUnder schedule setup).log = entrances s.log :=
      ended.logged ▸ entrances_of_reports log reports
    have updates := spent.updates.trans_le ((countP_isUpdate_le s.log).trans once.length_le)
    have iterations := ended.iterations.trans spent.iterations
    refine ⟨result, tallies, rfl, entered ▸ once.nodup, ended.rounds.trans spent.rounds,
      iterations.symm, updates, fun patient => ?_⟩
    have length_le := spent.length_le
    rw [ended.converged]
    cases converged : refinement.converged with
    | true =>
      rw [converged, if_pos rfl] at length_le
      exact ⟨rfl, by omega⟩
    | false =>
      -- Without converging it used up its iterations, each of which made an update.
      rw [converged, if_neg Bool.false_ne_true] at length_le
      rw [converged] at stopped
      have := stopped.resolve_left Bool.false_ne_true
      have := spent.iterations
      omega

/-- The four nodes with one iteration more than there are ordered pairs of them. -/
def patientNodes : Setup :=
  { fourNodes with
    config := { fourNodes.config with maxIterations := 13, valid := by decide +kernel } }

theorem patientNodes_converge :
    ∃ result, (runUnder .inOrder patientNodes).outcome = .ok result ∧
      (entrances (runUnder .inOrder patientNodes).log).Nodup ∧
      result.converged = true ∧ result.iterations ≤ 13 := by
  have never : (patientNodes.config.perturbationRate == 0.0) = true := by decide +kernel
  have unweighted : (Number.sum []).isFinite = true := by decide +kernel
  obtain ⟨result, tallies, ok, once, -, -, -, patient⟩ :=
    converges_within_pairs .inOrder patientNodes honest_fourNodes (by decide) never (fun _ => rfl)
      (fun covered covers => nomatch covers) (fun a _ b _ _ => ⟨_, score_fourNodes a b⟩)
      (fun _ => unweighted)
  exact ⟨result, ok, once, patient (by decide)⟩

end NeighbourGraph.Search
