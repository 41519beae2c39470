/-
Every evaluation of the metric is counted, and so is every candidate that comes in.

A comparison is one evaluation and one announced candidate; two neighbours that are joined by one
score are announced to each other, so that is one candidate more. Comparing two nodes records
nothing else, and what is recorded adds up over nodes, tasks and phases, whatever turns they take.
The pairs that a run reports are all evaluations, and what it reports of an iteration is what was
recorded in the join phase of that iteration, without the candidates that came in by chance.
-/

import NeighbourGraph.Proofs.Results
import NeighbourGraph.Proofs.Search.During

namespace NeighbourGraph

open NeighbourGraph.Random NeighbourGraph.Search

/-! ### Counting events -/

namespace Event

/-- A candidate was announced. -/
def isConsidered : Event → Bool
  | .considered .. => true
  | _ => false

/-- A candidate came in. -/
def isEntered : Event → Bool
  | .entered .. => true
  | _ => false

/-- The metric was asked in that part of a search. -/
def scoredBy (origin : Origin) : Event → Bool
  | .scored o .. => o == origin
  | _ => false

/-- A candidate came in in that part of a search. -/
def enteredBy (origin : Origin) : Event → Bool
  | .entered o .. => o == origin
  | _ => false

end Event

/-- What was recorded in a join phase accounts for its tally: its pairs are the evaluations, its
updates are the candidates that came in without those that came in by chance, and by chance every
node is compared as often as asked for if all other nodes may be linked. -/
structure Tally.AccountedFor (tally : Tally) (setup : Setup) (events : List Event) : Prop where
  pairs : tally.pairs = events.countP (·.isScored)
  entered : events.countP (·.isEntered) =
    tally.updates + events.countP (·.enteredBy .chance)
  chance : setup.excluded = .standard →
    events.countP (·.scoredBy .chance) = setup.nodeCount * setup.config.randomJoins

/-- What a run recorded accounts for its result: its pairs are the evaluations, one candidate was
announced for each and one more for each pair that was joined by one score, and the iterations have
the tallies of their join phases. -/
structure Result.AccountedFor (result : Result) (setup : Setup) (run : Run) : Prop where
  pairs : result.pairs = run.log.toList.countP (·.isScored)
  considered : run.log.toList.countP (·.isConsidered) =
    result.pairs + run.log.toList.countP (·.scoredBy .pairing)
  asymmetric : setup.metric.symmetric = false →
    run.log.toList.countP (·.isConsidered) = result.pairs
  between : result.pairs ≤ run.log.toList.countP (·.isConsidered) ∧
    run.log.toList.countP (·.isConsidered) ≤ 2 * result.pairs
  joins : ∃ tallies, run.rounds = tallies.map some ∧ tallies.length = result.iterations ∧
    List.Forall₂ (fun tally events => tally.AccountedFor setup events) tallies
      (during .join run.log.toList)

namespace Search

variable {setup : Setup}

/-! ### Announced candidates -/

/-- As many candidates were announced as pairs scored, and one more for each pair that was joined
by one score, which only a symmetric metric allows. -/
structure Balanced (setup : Setup) (events : List Event) : Prop where
  considered : events.countP (·.isConsidered) =
    events.countP (·.isScored) + events.countP (·.scoredBy .pairing)
  asymmetric : setup.metric.symmetric = false → events.countP (·.scoredBy .pairing) = 0

theorem Balanced.append {events later : List Event} (h : Balanced setup events)
    (h' : Balanced setup later) : Balanced setup (events ++ later) where
  considered := by
    simp only [List.countP_append, h.considered, h'.considered]
    omega
  asymmetric one := by rw [List.countP_append, h.asymmetric one, h'.asymmetric one]

theorem balanced_report {e : Event} (he : e.isProgress = true) : Balanced setup [e] := by
  cases e with
  | started | advanced | ended => exact ⟨rfl, fun _ => rfl⟩
  | offered | considered | scored | entered => cases he

theorem balanced_reports {events : List Event} (reports : ∀ e ∈ events, e.isProgress = true) :
    Balanced setup events := by
  induction events with
  | nil => exact ⟨rfl, fun _ => rfl⟩
  | cons e rest ih =>
    have later := ih fun e' he' => reports e' (by simp [he'])
    exact (balanced_report (reports e (by simp))).append later

theorem accumulates_balanced : Accumulates setup (· ≠ .pairing) (Balanced setup) where
  nil := ⟨rfl, fun _ => rfl⟩
  append := .append
  perm perm h := ⟨by simpa only [perm.countP_eq] using h.considered,
    by simpa only [perm.countP_eq] using h.asymmetric⟩
  advanced _ := balanced_report rfl
  compared _ _ _ other := by
    constructor <;> simp [Event.isConsidered, Event.isScored, Event.scoredBy, other]
  paired _ _ _ _ symmetric := ⟨rfl, fun asymmetric => by simp [asymmetric] at symmetric⟩
  entered _ _ _ := ⟨rfl, fun _ => rfl⟩
  offered _ _ := ⟨rfl, fun _ => rfl⟩

theorem records_balanced (schedule : Schedule) (k : ListSize) (limit : Nat) :
    Records setup (Balanced setup) (refine setup schedule k limit) :=
  (accumulates_balanced.phases (fun _ => balanced_report) schedule).refine
    accumulates_balanced.steps (fun _ => id) ⟨rfl, rfl, rfl⟩ k limit

/-! ### Joins -/

/-- Within a phase whoever came in did so while neighbours were joined or by chance. -/
structure Joining (events : List Event) : Prop where
  within : ∀ e ∈ events, e.isWithin = true
  entered : events.countP (·.isEntered) =
    events.countP (·.isUpdate) + events.countP (·.enteredBy .chance)

theorem accumulates_joining :
    Accumulates setup (fun origin => origin = .joining ∨ origin = .chance) Joining where
  nil := ⟨by simp, rfl⟩
  append h h' := by
    refine ⟨(cumulative_forall fun _ => rfl).append h.within h'.within, ?_⟩
    simp only [List.countP_append, h.entered, h'.entered]
    omega
  perm perm h := ⟨(cumulative_forall fun _ => rfl).perm perm h.within,
    by simpa only [perm.countP_eq] using h.entered⟩
  advanced _ := ⟨by simp [Event.isWithin], rfl⟩
  compared _ _ _ _ := ⟨by simp [Event.isWithin], rfl⟩
  paired _ _ _ _ _ := ⟨by simp [Event.isWithin], rfl⟩
  entered _ _ part := ⟨by simp [Event.isWithin], by rcases part with rfl | rfl <;> rfl⟩
  offered _ _ := ⟨by simp [Event.isWithin], rfl⟩

/-- A join phase is all that a join records. -/
theorem logs_join_phase (turns : Turns) (c : Candidates) (stream : Stream) (sampled : Nat) :
    Logs setup (join setup turns c stream sampled) fun _ events => ∃ inner,
      events = .started .join setup.nodeCount :: inner ++ [.ended .join] ∧ Joining inner := by
  have accumulates : Accumulates setup _ Joining := accumulates_joining
  have joins : ∀ v, Records setup Joining (seeded stream v (joinNode setup c sampled v)) := fun v =>
    accumulates.steps.seeded (accumulates.steps.joinNode (.inl rfl) (.inr rfl) c sampled v) stream v
  refine (logs_proceed .join).bind ?_
  rintro _ _ rfl
  exact (accumulates.phase joins turns .join).bind fun _ _ joined =>
    logs_pure (by simpa using joined)

/-! ### Comparisons by chance -/

theorem chance_of_isProgress (e : Event) (he : e.isProgress = true) :
    e.scoredBy .chance = false := by
  cases e with
  | started | advanced | ended => rfl
  | offered | considered | scored | entered => cases he

/-- Joining the neighbours of a node compares none by chance. -/
theorem accumulates_unchanced :
    Accumulates setup (· = .joining) fun events => events.countP (·.scoredBy .chance) = 0 where
  nil := rfl
  append h h' := by rw [List.countP_append, h, h']
  perm perm h := perm.countP_eq _ ▸ h
  advanced _ := rfl
  compared _ _ _ part := by rw [part]; rfl
  paired _ _ _ _ _ := rfl
  entered _ _ _ := rfl
  offered _ _ := rfl

section

variable (standard : setup.excluded = .standard)

include standard

/-- A random other node is another one, so it is compared. -/
theorem workLogs_joinOther (v : Nat) :
    WorkLogs setup (joinOther setup v) fun _ events => events.countP (·.scoredBy .chance) = 1 := by
  refine (workLogs_draw _).bind ?_
  rintro number _ rfl
  have other : ¬v = Sampler.skip v number := by
    unfold Sampler.skip
    split <;> omega
  have allowed : ¬(v = Sampler.skip v number || setup.excluded v (Sampler.skip v number)) := by
    simp [standard, PairFilter.standard, other]
  unfold joinOne
  dsimp only
  rw [if_neg allowed]
  refine (workLogs_consider .chance v _).imp ?_
  rintro tally _ ⟨-, x, rfl⟩
  simp [Event.scoredBy, List.countP_replicate]

theorem workLogs_joinRandom (v count : Nat) :
    WorkLogs setup (joinRandom setup v count) fun _ events =>
      events.countP (·.scoredBy .chance) = count := by
  refine (workLogs_each fun _ _ => workLogs_joinOther standard v).bind ?_
  rintro tallies events ⟨s, each⟩
  refine workLogs_pure ?_
  rw [List.append_nil, each.countP_eq chance_of_isProgress fun _ _ _ _ one => one]
  simp

theorem workLogs_joinNode (c : Candidates) (sampled v : Nat) :
    WorkLogs setup (joinNode setup c sampled v) fun _ events =>
      events.countP (·.scoredBy .chance) = setup.config.randomJoins := by
  refine (workLogs_draw _).bind ?_
  rintro old _ rfl
  refine (workLogs_draw _).bind ?_
  rintro new _ rfl
  have joined : WorkLogs setup (joinNew setup v old new) fun _ events =>
      events.countP (·.scoredBy .chance) = 0 :=
    accumulates_unchanced.steps.joinNew rfl v old new
  refine joined.bind fun _ events noChance =>
    (workLogs_joinRandom standard v setup.config.randomJoins).bind fun _ later count =>
      workLogs_pure ?_
  simp [noChance, count]

/-- By chance a join phase makes as many comparisons for every node. -/
theorem logs_join_chance (turns : Turns) (c : Candidates) (stream : Stream) (sampled : Nat) :
    Logs setup (join setup turns c stream sampled) fun _ events =>
      events.countP (·.scoredBy .chance) = setup.nodeCount * setup.config.randomJoins := by
  refine (logs_proceed .join).bind ?_
  rintro _ _ rfl
  refine (logs_phase (fun v => logs_seeded (workLogs_joinNode standard c sampled v) stream v)
    turns .join).bind ?_
  rintro tallies events ⟨s, each⟩
  refine logs_pure ?_
  rw [List.nil_append, List.append_nil,
    each.countP_eq chance_of_isProgress fun _ _ _ _ same => same, List.length_range]

end

/-- A join records one phase, which accounts for its tally. -/
theorem logs_join_accounted (turns : Turns) (c : Candidates) (stream : Stream) (sampled : Nat) :
    Logs setup (join setup turns c stream sampled) fun tally events => ∃ inner,
      events = .started .join setup.nodeCount :: inner ++ [.ended .join] ∧
        (∀ e ∈ inner, e.isWithin = true) ∧ tally.AccountedFor setup inner := by
  have chance : Logs setup (join setup turns c stream sampled) fun _ events =>
      setup.excluded = .standard →
        events.countP (·.scoredBy .chance) = setup.nodeCount * setup.config.randomJoins := by
    by_cases standard : setup.excluded = .standard
    · exact (logs_join_chance standard turns c stream sampled).imp fun _ _ count _ => count
    · exact (logs_join turns c stream sampled).imp fun _ _ _ other => absurd other standard
  refine (((logs_join turns c stream sampled).and chance).and
    (logs_join_phase turns c stream sampled)).imp ?_
  rintro tally _ ⟨⟨counts, chance⟩, inner, rfl, joining⟩
  refine ⟨inner, rfl, joining.within, ?_, ?_, fun standard => ?_⟩
  · simpa [Event.isScored] using counts.pairs
  · simpa [joining.entered, Event.isUpdate] using counts.updates.symm
  · simpa [Event.scoredBy] using chance standard

/-! ### Iterations -/

theorem reports_score_none {events : List Event} (reports : ∀ e ∈ events, e.isProgress = true) :
    events.countP (·.isScored) = 0 := by
  simpa using (Tally.Counts.nil.reports reports).pairs.symm

/-- The iterations so far are accounted for, and all that was scored. -/
structure Accounted (setup : Setup) (soFar : Refinement) (tallies : List Tally) (s : State) : Prop
    extends Tallied soFar tallies s where
  pairs : soFar.pairs = s.log.toList.countP (·.isScored)
  joins : ∃ parts, Spans .join s.log.toList parts ∧
    List.Forall₂ (fun tally events => tally.AccountedFor setup events) tallies parts

variable {capacity : Nat} {s t : State} {soFar : Refinement} {tallies : List Tally} {tally : Tally}

/-- An iteration scores pairs in its join phase only, which its tally accounts for. -/
theorem Accounted.iteration (accounted : Accounted setup soFar tallies s)
    (others : 2 ≤ setup.nodeCount) (h : Refined setup capacity s) {turns : Phase → Turns}
    {sampled : Nat} {splitStream joinStream : Stream}
    (run : (iteration setup turns sampled splitStream joinStream).exec s = (.ok tally, t))
    (threshold : Nat) : Accounted setup (soFar.after threshold tally) (tallies ++ [tally]) t := by
  have tallied := accounted.toTallied.iteration others h run threshold
  obtain ⟨c, u, w, split, joined, rfl⟩ := exec_iteration_ok.1 run
  obtain ⟨reports, log, aside⟩ := (records_candidates _ _ _ _).exec split
  obtain ⟨_, log', inner, rfl, within, accounts⟩ := (logs_join_accounted _ _ _ _ _).exec joined
  obtain ⟨parts, spans, joins⟩ := accounted.joins
  -- What an iteration records besides its join phase are reports.
  have log : w.log.toList = s.log.toList ++ reports ++
      (.started .join setup.nodeCount :: inner ++ [.ended .join]) := by
    rw [log', log]
  have unscored : reports.countP (·.isScored) = 0 := reports_score_none fun e he => (aside e he).1
  have quiet : Quiet .join reports := fun e he => (aside e he).2
  have phase : tally.pairs =
      (Event.started .join setup.nodeCount :: inner ++ [Event.ended .join]).countP
        (·.isScored) := by
    simp [accounts.pairs, Event.isScored]
  refine ⟨tallied, ?_, parts ++ [] ++ [inner], ?_, ?_⟩
  · change soFar.pairs + tally.pairs = w.log.toList.countP _
    rw [accounted.pairs, log, List.countP_append, List.countP_append, unscored, Nat.add_zero, phase]
  · exact log ▸ (spans.append quiet.spans).append (spans_phase .join _ within)
  · rw [List.append_nil]
    exact List.rel_append joins (.cons accounts .nil)

theorem accounted_fill {turns : Turns} {stream : Stream} {count : Nat}
    (run : (fill setup turns stream count).exec (State.start setup.nodeCount capacity) =
      (.ok tally, s)) : Accounted setup { pairs := tally.pairs } [] s := by
  have logs : Logs setup (fill setup turns stream count) fun tally events =>
      (tally.countedFor .sampling).Counts events ∧ Quiet .join events :=
    (logs_fill turns stream count).and (records_fill turns stream count)
  obtain ⟨events, log, counts, quiet⟩ := (logs _).exec run
  have log : s.log.toList = events := log
  exact ⟨tallied_fill run, log ▸ counts.pairs, [], log ▸ quiet.spans, .nil⟩

/-- In front of the cutoff everything is accounted for. -/
theorem refined_accounted (others : 2 ≤ setup.nodeCount) {schedule : Schedule} {limit : Nat}
    {refinement : Refinement} (ok : refined schedule setup limit = (.ok refinement, s)) :
    (∃ tallies, Accounted setup refinement tallies s) ∧ Balanced setup s.log.toList := by
  rw [refined, if_neg (by omega)] at ok
  split at ok
  · cases ok
  next k _ =>
    have kept : KeptByIteration setup k.sampled (setup.config.updateThreshold setup.nodeCount)
        fun soFar s => Refined setup k.bounded s ∧ ∃ tallies, Accounted setup soFar tallies s := by
      rintro soFar s turns splitStream joinStream tally t _ ⟨h, _, accounted⟩ run
      exact ⟨exec_iteration others h run, _, accounted.iteration others h run _⟩
    obtain ⟨⟨-, accounted⟩, -⟩ := exec_refine_ok kept
      (fun _ _ _ _ run => ⟨exec_fill run, [], accounted_fill run⟩) ok
    obtain ⟨events, log, balanced⟩ := (records_balanced schedule k limit _).exec ok
    exact ⟨accounted, log ▸ balanced⟩

/-! ### Runs -/

/-- A run that has a result accounts for it. -/
theorem Ended.accountedFor {schedule : Schedule} {result : Result} {refinement : Refinement}
    (h : Ended schedule setup result refinement s t) (others : 2 ≤ setup.nodeCount) :
    result.AccountedFor setup (runUnder schedule setup) := by
  obtain ⟨⟨tallies, accounted⟩, balanced⟩ := refined_accounted others h.refined
  obtain ⟨reports, log, aside⟩ := (records_applyCutoff _ _).exec (h.cut others)
  obtain ⟨parts, spans, joins⟩ := accounted.joins
  have progress : ∀ e ∈ reports, e.isProgress = true := fun e he => (aside e he).1
  have quiet : Quiet .join reports := fun e he => (aside e he).2
  have logged : (runUnder schedule setup).log.toList = s.log.toList ++ reports := by
    rw [h.logged, log]
  have pairs : result.pairs = (runUnder schedule setup).log.toList.countP (·.isScored) := by
    rw [h.pairs, accounted.pairs, logged, List.countP_append, reports_score_none progress,
      Nat.add_zero]
  have balanced : Balanced setup (runUnder schedule setup).log.toList :=
    logged ▸ balanced.append (balanced_reports progress)
  have considered := pairs ▸ balanced.considered
  have pairing : (runUnder schedule setup).log.toList.countP (·.scoredBy .pairing) ≤
      result.pairs := by
    rw [pairs]
    exact List.countP_mono_left fun e _ he => by cases e <;> first | rfl | cases he
  have parts_eq : during .join (runUnder schedule setup).log.toList = parts := by
    simpa using (logged ▸ spans.append quiet.spans : Spans .join _ (parts ++ [])).during_eq
  refine ⟨pairs, considered, fun one => ?_, ?_, tallies, ?_, ?_, parts_eq ▸ joins⟩
  · rw [considered, balanced.asymmetric one, Nat.add_zero]
  · omega
  · rw [h.rounds, accounted.rounds]
  · rw [h.iterations, accounted.iterations]

end Search

/-- **Evaluations are accounted for.** The pairs that a run over at least two nodes reports are the
evaluations of the metric that it made, each of which announced one candidate, or two if two
neighbours were joined by it. What it reports of an iteration is what was recorded in its join
phase, whose updates are the candidates that came in without those that came in by chance. A search
for chosen nodes gives the same account. -/
theorem evaluations_accounted (schedule : Schedule) (setup : Setup)
    (others : 2 ≤ setup.nodeCount) :
    (∀ result, (runUnder schedule setup).outcome = .ok result →
      result.AccountedFor setup (runUnder schedule setup)) ∧
    ∀ source target result, (runFilteredUnder schedule setup source target).outcome = .ok result →
      result.AccountedFor setup (runFilteredUnder schedule setup source target) := by
  have plain : ∀ result, (runUnder schedule setup).outcome = .ok result →
      result.AccountedFor setup (runUnder schedule setup) := by
    intro result ok
    obtain ⟨refinement, s, t, ended⟩ := runUnder_ok ok
    exact ended.accountedFor others
  refine ⟨plain, fun source target result ok => ?_⟩
  obtain ⟨found, whole, rfl⟩ := runFilteredUnder_ok ok
  have account := plain found whole
  exact ⟨account.pairs, account.considered, account.asymmetric, account.between, account.joins⟩

/-- The four nodes are scored 38 times. Ten scores join two neighbours, so 48 candidates are
announced. -/
theorem fourNodes_evaluations_accounted :
    ∃ result, (runUnder .inOrder fourNodes).outcome = .ok result ∧
      result.AccountedFor fourNodes (runUnder .inOrder fourNodes) ∧ result.pairs = 38 ∧
      (runUnder .inOrder fourNodes).log.toList.countP (·.isConsidered) = 48 := by
  have counts : let run := runUnder .inOrder fourNodes
      run.outcome.isOk = true ∧ run.log.toList.countP (·.isScored) = 38 ∧
        run.log.toList.countP (·.scoredBy .pairing) = 10 := by
    decide +kernel
  obtain ⟨ok, scored, paired⟩ := counts
  generalize outcome : (runUnder .inOrder fourNodes).outcome = plain at ok
  cases plain with
  | error cause => cases ok
  | ok result =>
    have account := (evaluations_accounted .inOrder fourNodes (by decide)).1 result outcome
    have pairs : result.pairs = 38 := account.pairs.trans scored
    exact ⟨result, rfl, account, pairs, by rw [account.considered, pairs, paired]⟩

end NeighbourGraph
