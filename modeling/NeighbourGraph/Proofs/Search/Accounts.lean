/-
What an action does to the log, and the account that a search gives of it.

Whatever the state is, an action records nothing, or one event, and it records that a candidate
came into a list exactly when it puts it there. The tallies that a search adds up count these
events: the pairs that were scored, and the candidates that came in while neighbours were joined.
-/

import NeighbourGraph.Proofs.NeighbourList.Offer
import NeighbourGraph.Proofs.Search.Work
import NeighbourGraph.Search.Run

namespace NeighbourGraph

open NeighbourGraph.Random NeighbourGraph.Search

/-! ### Tallies -/

namespace Event

/-- The node and the candidate that came into its list. -/
def entered? : Event → Option (Nat × Nat)
  | .entered _ node candidate => some (node, candidate)
  | _ => none

theorem entered?_of_isProgress {e : Event} (he : e.isProgress = true) : e.entered? = none := by
  cases e with
  | started | advanced | ended => rfl
  | offered | considered | scored | entered => cases he

def isScored : Event → Bool
  | .scored .. => true
  | _ => false

/-- A candidate came in while neighbours were joined. -/
def isUpdate : Event → Bool
  | .entered .joining .. => true
  | _ => false

end Event

namespace Tally

/-- A tally counts the updates and the pairs of what was logged. -/
structure Counts (tally : Tally) (events : List Event) : Prop where
  updates : tally.updates = events.countP (·.isUpdate)
  pairs : tally.pairs = events.countP (·.isScored)

/-- What counts of the tally of a part of the search: candidates that come in are updates only
while neighbours are joined. -/
def countedFor (origin : Origin) (tally : Tally) : Tally :=
  if origin = .joining then tally else { tally with updates := 0 }

variable {t t' : Tally} {origin : Origin} {events later : List Event}

theorem countedFor_add (origin : Origin) (t t' : Tally) :
    (t + t').countedFor origin = t.countedFor origin + t'.countedFor origin := by
  unfold countedFor
  split <;> rfl

@[simp] theorem countedFor_joining (t : Tally) : t.countedFor .joining = t := rfl

@[simp] theorem countedFor_chance (t : Tally) :
    t.countedFor .chance = { t with updates := 0 } := rfl

@[simp] theorem countedFor_empty (origin : Origin) : ({} : Tally).countedFor origin = {} := by
  unfold countedFor
  split <;> rfl

theorem Counts.nil : ({} : Tally).Counts [] := ⟨rfl, rfl⟩

theorem Counts.append (h : t.Counts events) (h' : t'.Counts later) :
    (t + t').Counts (events ++ later) :=
  ⟨by rw [List.countP_append, updates_add, h.updates, h'.updates],
    by rw [List.countP_append, pairs_add, h.pairs, h'.pairs]⟩

theorem Counts.perm (h : t.Counts events) (perm : events.Perm later) : t.Counts later :=
  ⟨perm.countP_eq _ ▸ h.updates, perm.countP_eq _ ▸ h.pairs⟩

/-- Other events are not counted. -/
theorem Counts.cons (h : t.Counts events) {e : Event} (update : e.isUpdate = false)
    (scored : e.isScored = false) : t.Counts (e :: events) :=
  ⟨by simp [update, h.updates], by simp [scored, h.pairs]⟩

/-- Reports of progress are not counted. -/
theorem Counts.report (h : t.Counts events) {e : Event} (he : e.isProgress = true) :
    t.Counts (e :: events) := by
  cases e with
  | started | advanced | ended => exact h.cons rfl rfl
  | offered | considered | scored | entered => cases he

theorem Counts.reports {reports : List Event} (h : t.Counts events)
    (progress : ∀ e ∈ reports, e.isProgress = true) :
    t.Counts (reports ++ events) := by
  induction reports with
  | nil => exact h
  | cons e rest ih =>
    exact (ih fun e' he' => progress e' (by simp [he'])).report (progress e (by simp))

/-- Entries count as updates while neighbours are joined. -/
theorem counts_replicate (updates : Nat) (origin : Origin) (v c : Nat) :
    (({ updates } : Tally).countedFor origin).Counts
      (.replicate updates (.entered origin v c)) := by
  constructor <;> cases origin <;> simp [countedFor, List.countP_replicate, Event.isUpdate,
    Event.isScored]

/-- A pair that is scored is counted in front of what its offers come to. -/
theorem Counts.score {updates : Nat}
    (h : (({ updates } : Tally).countedFor origin).Counts events) (o : Origin) (left right : Nat) :
    (({ updates, pairs := 1 } : Tally).countedFor origin).Counts
      (.scored o left right :: events) := by
  have one : ({ pairs := 1 } : Tally).Counts [.scored o left right] := ⟨rfl, rfl⟩
  have sum : ({ updates, pairs := 1 } : Tally).countedFor origin =
      { pairs := 1 } + ({ updates } : Tally).countedFor origin := by
    unfold countedFor
    split
    · exact congrArg (Tally.mk · 1) (Nat.zero_add updates).symm
    · rfl
  rw [sum]
  exact one.append h

/-- The tallies of several pieces of work count what all of them logged. -/
theorem counts_total {ι : Type} {is : List ι} {tallies : List Tally} {s : State}
    (each : Each (fun _ tally events _ => (tally.countedFor origin).Counts events) is tallies
      events s) : ((Tally.total tallies).countedFor origin).Counts events := by
  induction each with
  | nil => simpa [Tally.total] using Counts.nil
  | cons first _ ih => simpa [Tally.total, countedFor_add] using first.append ih
  | report he _ ih => exact ih.report he
  | perm hp _ ih => exact ih.perm hp

end Tally

namespace Search

/-! ### Actions -/

/-- What one action may do: record nothing, or an event that is no entry, or put a candidate into
the list of a node and record just that. -/
inductive Acts (setup : Setup) (s : State) : State → Prop
  | silent {t : State} : t.log = s.log → Acts setup s t
  | note (e : Event) : e.entered? = none → Acts setup s (s.record e)
  | enter {v c : Nat} {l : NeighbourList} {x : Float} (origin : Origin) :
      s.lists[v]? = some l → l.standing c x ≠ .refused →
      (¬0.0 < setup.config.perturbationRate → l.standing c x = .accepted) →
      Acts setup s (State.record { s with lists := s.lists.setIfInBounds v (l.place c x) }
        (.entered origin v c))

/-- The contract of any search: it acts one action at a time, whatever the others do. -/
def acting (setup : Setup) : Contract where
  rely _ _ := True
  guarantee := Acts setup
  fails _ := True
  rely_refl _ := trivial
  rely_trans _ _ := trivial
  rely_notes _ := trivial
  still _ := .silent rfl
  notes noted := by
    cases noted with
    | report he => exact .note _ (Event.entered?_of_isProgress he)
    | visit => exact .silent rfl

/-- From any state, a search ends as `P` says of its value and the events it recorded. -/
def Logs (setup : Setup) {α : Type} (p : Search α) (P : α → List Event → Prop) : Prop :=
  ∀ s, Meets (acting setup) p (fun a events _ => P a events) s

/-- From any state and with any random words, work ends as `P` says of its value and the events it
recorded. -/
def WorkLogs (setup : Setup) {α : Type} (w : Work α) (P : α → List Event → Prop) : Prop :=
  ∀ g, Logs setup (w g) fun r => P r.1

section

variable {setup : Setup} {ι α β : Type} {p : Search α} {w : Work α} {P : α → List Event → Prop}
  {Q : β → List Event → Prop}

theorem logs_pure {a : α} (h : P a []) : Logs setup (pure a) P :=
  fun _ _ _ => h

theorem logs_failed (cause : SearchError) : Logs setup (.failed cause) P :=
  fun _ => trivial

theorem Logs.imp {Q : α → List Event → Prop} (h : Logs setup p P)
    (imp : ∀ a events, P a events → Q a events) : Logs setup p Q :=
  fun s => (h s).imp fun a events _ => imp a events

theorem Logs.and {Q : α → List Event → Prop} (h : Logs setup p P) (h' : Logs setup p Q) :
    Logs setup p fun a events => P a events ∧ Q a events :=
  fun s => ((h s).both (h' s)).cover
    ⟨fun _ _ r => ⟨r, r⟩, fun _ _ allowed => allowed.1, fun _ fails => fails.1⟩

theorem Logs.bind {f : α → Search β} (h : Logs setup p P)
    (rest : ∀ a events, P a events → Logs setup (f a) fun b later => Q b (events ++ later)) :
    Logs setup (p >>= f) Q :=
  fun s => Meets.bind ((h s).imp fun a events t ha => rest a events ha t)

theorem logs_record {e : Event} (he : e.entered? = none) :
    Logs setup (record e) fun _ events => events = [e] :=
  fun _ => meets_atomic fun _ _ => ⟨.note e he, [e], by simp [State.record], fun _ _ => rfl⟩

/-- An action that records nothing. -/
theorem logs_silent {action : State → α × State} (h : ∀ s, (action s).2.log = s.log) :
    Logs setup (atomic action) fun _ events => events = [] :=
  fun _ => meets_atomic fun t _ => ⟨.silent (h t), [], by simp [h t], fun _ _ => rfl⟩

theorem logs_proceed (name : Phase) :
    Logs setup (proceed setup name) fun _ events => events = [] :=
  fun _ => (meets_proceed (fun _ _ _ => trivial) name).imp fun _ _ _ h => h.1

theorem workLogs_pure {a : α} (h : P a []) : WorkLogs setup (pure a : Work α) P :=
  fun _ => logs_pure h

theorem WorkLogs.imp {Q : α → List Event → Prop} (h : WorkLogs setup w P)
    (imp : ∀ a events, P a events → Q a events) : WorkLogs setup w Q :=
  fun g => (h g).imp fun r => imp r.1

theorem WorkLogs.bind {f : α → Work β} (h : WorkLogs setup w P)
    (rest : ∀ a events, P a events → WorkLogs setup (f a) fun b later => Q b (events ++ later)) :
    WorkLogs setup (w >>= f) Q :=
  fun g => (h g).bind fun r events hr => rest r.1 events hr r.2

theorem workLogs_lift (h : Logs setup p P) : WorkLogs setup (liftM p : Work α) P :=
  fun _ => h.bind fun _ _ ha => logs_pure (by simpa using ha)

theorem workLogs_draw (d : Draw α) : WorkLogs setup (draw d) fun _ events => events = [] :=
  fun _ => logs_pure rfl

/-- Work on several things logs what each of them logs. -/
theorem workLogs_each {f : ι → Work α} {is : List ι} {P : ι → α → List Event → Prop}
    (h : ∀ i ∈ is, WorkLogs setup (f i) (P i)) :
    WorkLogs setup (is.mapM f) fun as events =>
      ∃ s, Each (fun i a events _ => P i a events) is as events s :=
  fun g s => ((does_mapM (fun _ _ _ => trivial) fun i hi g => h i hi g s) g).imp
    fun _ _ t each => ⟨t, each⟩

/-- A phase logs what the work on each node logs. -/
theorem logs_phase {work : Nat → Search α} {P : Nat → α → List Event → Prop}
    (h : ∀ v, Logs setup (work v) (P v)) (turns : Turns) (name : Phase) :
    Logs setup (phase setup turns name work) fun as events =>
      ∃ s, Each (fun v a events _ => P v a events) (List.range setup.nodeCount) as events s :=
  fun s => (meets_phase_shared (fun _ _ _ => trivial) (fun _ _ _ => trivial)
    (fun v _ => h v s) turns).imp fun _ _ t each => ⟨t, each⟩

theorem logs_seeded (h : WorkLogs setup w P) (stream : Stream) (node : Nat) :
    Logs setup (seeded stream node w) P :=
  (h (stream.generator node)).bind fun _ _ hr => logs_pure (by simpa using hr)

/-! ### Nodes -/

/-- Work that logs what its tally counts. -/
abbrev WorkCounts (setup : Setup) (origin : Origin) (w : Work Tally) : Prop :=
  WorkLogs setup w fun tally events => (tally.countedFor origin).Counts events

theorem logs_score (origin : Origin) (left right : Nat) :
    Logs setup (score setup origin left right) fun _ events =>
      events = [.scored origin left right] := by
  refine (logs_record rfl).bind ?_
  rintro _ _ rfl
  cases setup.metric.score left right with
  | ok x => exact logs_pure rfl
  | error cause => exact logs_failed _

/-- An offer records an entry for each update that it answers. -/
theorem workLogs_offer (origin : Origin) (v c : Nat) (x : Float) :
    WorkLogs setup (offer setup origin v c x) fun updates events =>
      events = .replicate updates (.entered origin v c) := by
  refine fun g s => meets_atomic fun t _ => ?_
  cases hl : t.lists[v]? with
  | none =>
    simp only [State.withList, hl, State.countEntered]
    exact ⟨.silent rfl, [], by simp, fun _ _ => rfl⟩
  | some l =>
    simp only [State.withList, hl]
    have put := l.of_entered_add c x setup.config.perturbationRate g
    generalize l.add c x setup.config.perturbationRate g = r at put
    obtain ⟨⟨entered, l'⟩, g'⟩ := r
    cases entered with
    | true =>
      obtain ⟨rfl, new, accepted⟩ := put rfl
      exact ⟨.enter origin hl new accepted, [.entered origin v c], by
        simp [State.countEntered, State.record], fun _ _ => rfl⟩
    | false => exact ⟨.silent rfl, [], by simp [State.countEntered], fun _ _ => rfl⟩

/-- A candidate is scored and announced, and then it may come in. -/
theorem workLogs_consider (origin : Origin) (v c : Nat) :
    WorkLogs setup (consider setup origin v c) fun tally events => tally.pairs = 1 ∧ ∃ x,
      events = .scored origin v c :: .considered v c x ::
        .replicate tally.updates (.entered origin v c) := by
  refine (workLogs_lift (logs_score origin v c)).bind ?_
  rintro x _ rfl
  refine (workLogs_lift (logs_record rfl)).bind ?_
  rintro _ _ rfl
  refine (workLogs_offer origin v c x).bind ?_
  rintro updates _ rfl
  exact workLogs_pure ⟨rfl, x, by simp⟩

/-- Two nodes are scored once and announced to each other, and then each may come in. -/
theorem workLogs_joinBoth (a b : Nat) :
    WorkLogs setup (joinBoth setup a b) fun tally events =>
      (tally = {} ∧ events = []) ∨ tally.pairs = 1 ∧ ∃ x there back,
        tally.updates = there + back ∧
          events = .scored .pairing a b :: .considered a b x :: .considered b a x ::
            (.replicate there (.entered .joining a b) ++
              .replicate back (.entered .joining b a)) := by
  unfold joinBoth
  split
  · exact workLogs_pure (.inl ⟨rfl, rfl⟩)
  refine (workLogs_lift (logs_score .pairing a b)).bind ?_
  rintro x _ rfl
  refine (workLogs_lift (logs_record rfl)).bind ?_
  rintro _ _ rfl
  refine (workLogs_lift (logs_record rfl)).bind ?_
  rintro _ _ rfl
  refine (workLogs_offer .joining a b x).bind ?_
  rintro there _ rfl
  refine (workLogs_offer .joining b a x).bind ?_
  rintro back _ rfl
  exact workLogs_pure (.inr ⟨rfl, x, there, back, rfl, by simp⟩)

theorem workCounts_pure (origin : Origin) : WorkCounts setup origin (pure {}) :=
  workLogs_pure (by simpa using Tally.Counts.nil)

/-- Work after work: what both log is counted together. -/
theorem WorkCounts.add {w w' : Work Tally} {origin : Origin} (h : WorkCounts setup origin w)
    (h' : WorkCounts setup origin w') :
    WorkCounts setup origin (do let a ← w; let b ← w'; return a + b) := by
  refine h.bind fun a events ha => h'.bind fun b later hb => workLogs_pure ?_
  rw [List.append_nil, Tally.countedFor_add]
  exact ha.append hb

theorem workCounts_mapM {f : ι → Work Tally} {is : List ι} {origin : Origin}
    (h : ∀ i ∈ is, WorkCounts setup origin (f i)) :
    WorkLogs setup (is.mapM f) fun tallies events =>
      ((Tally.total tallies).countedFor origin).Counts events :=
  (workLogs_each h).imp fun _ _ ⟨_, each⟩ => Tally.counts_total each

theorem workCounts_total {f : ι → Work Tally} {is : List ι} {origin : Origin}
    (h : ∀ i ∈ is, WorkCounts setup origin (f i)) :
    WorkCounts setup origin (do return Tally.total (← is.mapM f)) :=
  (workCounts_mapM h).bind fun _ _ counts => workLogs_pure (by simpa using counts)

theorem workCounts_consider (origin : Origin) (v c : Nat) :
    WorkCounts setup origin (consider setup origin v c) := by
  refine (workLogs_consider origin v c).imp ?_
  rintro ⟨updates, pairs⟩ _ ⟨rfl, x, rfl⟩
  exact ((Tally.counts_replicate updates origin v c).cons rfl rfl).score origin v c

theorem workCounts_tryCandidate (v c : Nat) :
    WorkCounts setup .sampling (tryCandidate setup v c) := by
  unfold tryCandidate
  split
  · exact workCounts_pure .sampling
  · exact workCounts_consider .sampling v c

theorem workCounts_joinOne (origin : Origin) (a b : Nat) :
    WorkCounts setup origin (joinOne setup origin a b) := by
  unfold joinOne
  split
  · exact workCounts_pure origin
  · exact workCounts_consider origin a b

theorem workCounts_joinBoth (a b : Nat) : WorkCounts setup .joining (joinBoth setup a b) := by
  refine (workLogs_joinBoth a b).imp ?_
  rintro ⟨updates, pairs⟩ _ (⟨⟨⟩, rfl⟩ | ⟨rfl, x, there, back, rfl, rfl⟩)
  · exact .nil
  · have both : (({ updates := there + back } : Tally).countedFor .joining).Counts _ :=
      (Tally.counts_replicate there .joining a b).append
        (Tally.counts_replicate back .joining b a)
    exact ((both.cons rfl rfl).cons rfl rfl).score .pairing a b

theorem workCounts_joinPair (a b : Nat) : WorkCounts setup .joining (joinPair setup a b) := by
  unfold joinPair
  split
  · exact workCounts_pure .joining
  · split
    · exact workCounts_joinBoth a b
    · exact (workCounts_joinOne .joining a b).add (workCounts_joinOne .joining b a)

theorem workCounts_joinWith (first : Nat) (others : List Nat) :
    WorkCounts setup .joining (joinWith setup first others) :=
  workCounts_total fun b _ => workCounts_joinPair first b

theorem workCounts_joinNew (node : Nat) (old new : List Nat) :
    WorkCounts setup .joining (joinNew setup node old new) := by
  induction new with
  | nil => exact workCounts_pure .joining
  | cons first rest ih =>
    refine (workCounts_joinOne .joining first node).bind fun pivot events counts => ?_
    refine (workCounts_joinWith first rest).bind fun among events' counts' => ?_
    refine (workCounts_joinWith first old).bind fun across events'' counts'' => ?_
    refine ih.bind fun tally later rest => workLogs_pure ?_
    simpa using ((counts.append counts').append counts'').append rest

/-- Candidates that came in by chance are not counted. -/
theorem workCounts_joinRandom (node count : Nat) :
    WorkCounts setup .joining (joinRandom setup node count) := by
  have other : WorkCounts setup .chance (joinOther setup node) := by
    refine (workLogs_draw _).bind ?_
    rintro number _ rfl
    exact workCounts_joinOne .chance node _
  exact (workCounts_mapM fun _ _ => other).bind fun _ _ counts =>
    workLogs_pure (by simpa using counts)

theorem workCounts_joinNode (c : Candidates) (sampled node : Nat) :
    WorkCounts setup .joining (joinNode setup c sampled node) := by
  refine (workLogs_draw _).bind ?_
  rintro old _ rfl
  refine (workLogs_draw _).bind ?_
  rintro new _ rfl
  exact (workCounts_joinNew node old new).add (workCounts_joinRandom node _)

theorem workCounts_fillNode (count node : Nat) :
    WorkCounts setup .sampling (fillNode setup count node) := by
  have sample : WorkLogs setup (sampleCandidates setup node count) fun _ events => events = [] := by
    refine (workLogs_draw _).bind ?_
    rintro r _ rfl
    cases r with
    | ok candidates => exact workLogs_pure rfl
    | error cause => exact workLogs_lift (logs_failed _)
  refine sample.bind ?_
  rintro candidates _ rfl
  refine (workCounts_mapM fun c _ => workCounts_tryCandidate node c).bind
    fun tallies events counts => ?_
  refine (workLogs_lift (logs_silent fun _ => rfl)).bind ?_
  rintro ids _ rfl
  refine (workLogs_lift (logs_record rfl)).bind ?_
  rintro _ _ rfl
  refine workLogs_pure ?_
  have announced := (counts.cons (e := .offered node ids) rfl rfl).perm
    (List.perm_append_singleton _ _).symm
  simpa using announced

/-! ### Phases -/

/-- The tallies of the work on all nodes count what a phase logs. -/
theorem logs_phase_total {w : Nat → Work Tally} {origin : Origin}
    (h : ∀ v, WorkCounts setup origin (w v)) (turns : Turns) (stream : Stream) (name : Phase) :
    Logs setup (phase setup turns name fun v => seeded stream v (w v)) fun tallies events =>
      ((Tally.total tallies).countedFor origin).Counts events :=
  (logs_phase (fun v => logs_seeded (h v) stream v) turns name).imp
    fun _ _ ⟨_, each⟩ => Tally.counts_total each

/-- The tally of filling the lists counts the pairs. -/
theorem logs_fill (turns : Turns) (stream : Stream) (count : Nat) :
    Logs setup (fill setup turns stream count) fun tally events =>
      (tally.countedFor .sampling).Counts events :=
  (logs_phase_total (workCounts_fillNode count) turns stream _).bind
    fun _ _ counts => logs_pure (by simpa using counts)

/-- The tally of a join phase counts the candidates that came in and the pairs. -/
theorem logs_join (turns : Turns) (c : Candidates) (stream : Stream) (sampled : Nat) :
    Logs setup (join setup turns c stream sampled) fun tally events => tally.Counts events := by
  refine (logs_proceed .join).bind ?_
  rintro _ _ rfl
  exact (logs_phase_total (workCounts_joinNode c sampled) turns stream _).bind
    fun _ _ counts => logs_pure (by simpa using counts)

end

end Search

end NeighbourGraph
