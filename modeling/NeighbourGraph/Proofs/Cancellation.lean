/-
Searches that are told to stop.

A search asks whether to go on between phases, and at the first node of a partition and at every
256th from there. What it did until it notices that it is to stop is not undone, but it has no
result then; if it is over before it notices, its result is the one it would have had. Once it was
told to stop it begins no phase and takes up fewer than 256 nodes.

`Late` says of a state how many nodes were taken up late, and `Ends` how a search changes that,
also where it fails.
-/

import NeighbourGraph.Proofs.Search.BrokenOff
import NeighbourGraph.Proofs.Search.Run

namespace NeighbourGraph

open NeighbourGraph.Random NeighbourGraph.Search

/-- The beginning of a phase. -/
def Event.isStart : Event → Bool
  | .started .. => true
  | _ => false

/-- The setup of a search that is told to stop by another condition. -/
def Setup.stoppedBy (setup : Setup) (stopped : Log → Bool) : Setup := { setup with stopped }

/-- Once it is told to stop, a search stays told. -/
def Setup.StaysTold (setup : Setup) : Prop :=
  ∀ log events : Log, setup.stopped log = true → setup.stopped (log ++ events) = true

theorem Setup.staysTold_reaches (setup : Setup) (counts : Event → Bool) (limit : Nat) :
    (setup.stoppedBy (Log.reaches counts limit)).StaysTold := by
  intro log events told
  simp only [Setup.stoppedBy, Log.reaches, decide_eq_true_eq, Array.countP_append] at told ⊢
  omega

namespace Search

/-! ### Late visits -/

/-- Since the search was told to stop, no phase began and at most `count` nodes were taken up. -/
structure Late (setup : Setup) (count : Nat) (s : State) : Prop where
  since_le : ∀ v ∈ s.visits, v.since ≤ s.log.size
  after : ∀ before after : Log, s.log = before ++ after → setup.stopped before = true →
    (∀ e ∈ after, e.isStart = false) ∧ s.visits.countP (before.size ≤ ·.since) ≤ count

/-- The search was not told to stop so far. -/
structure Untold (setup : Setup) (s : State) : Prop where
  since_le : ∀ v ∈ s.visits, v.since ≤ s.log.size
  goesOn : setup.stopped s.log = false

section

variable {setup : Setup} {count : Nat} {s t : State}

theorem Late.mono (h : Late setup count s) {count' : Nat} (le : count ≤ count') :
    Late setup count' s where
  since_le := h.since_le
  after before after log told :=
    (h.after before after log told).imp_right fun few => few.trans le

/-- Nothing is late as long as the search was not told to stop. -/
theorem Untold.late (h : Untold setup s) (stays : setup.StaysTold) (count : Nat) :
    Late setup count s where
  since_le := h.since_le
  after before after log told := by
    have now := stays before after told
    rw [← log, h.goesOn] at now
    cases now

theorem Untold.visit (h : Untold setup s) (name : Phase) (node : Nat) :
    Untold setup (s.visit name node) where
  since_le v hv := by
    rcases Array.mem_push.1 hv with hv | rfl
    · exact h.since_le v hv
    · exact Nat.le_refl _
  goesOn := h.goesOn

/-- No node was taken up after the last event. -/
theorem countP_since_eq_zero (since_le : ∀ v ∈ s.visits, v.since ≤ s.log.size) {size : Nat}
    (lt : s.log.size < size) : s.visits.countP (size ≤ ·.since) = 0 := by
  rw [Array.countP_eq_zero]
  intro v hv
  have := since_le v hv
  simp only [decide_eq_true_eq]
  omega

/-- A log and more events are split either within the log or after it. -/
theorem split_append {log events before after : Log} (eq : log ++ events = before ++ after) :
    (∃ more, log = before ++ more ∧ after = more ++ events) ∨
      (log.size < before.size ∧ ∀ e ∈ after, e ∈ events) := by
  rcases Array.append_eq_append_iff.1 eq with ⟨more, rfl, rfl⟩ | ⟨more, rfl, rfl⟩
  · rcases Nat.eq_zero_or_pos more.size with zero | pos
    · obtain rfl := Array.size_eq_zero_iff.1 zero
      exact .inl ⟨#[], by simp, by simp⟩
    · exact .inr ⟨by simp only [Array.size_append]; omega, fun e he => by simp [he]⟩
  · exact .inl ⟨more, rfl, rfl⟩

theorem Late.visit (h : Late setup count s) (name : Phase) (node : Nat) :
    Late setup (count + 1) (s.visit name node) where
  since_le v hv := by
    rcases Array.mem_push.1 hv with hv | rfl
    · exact h.since_le v hv
    · exact Nat.le_refl _
  after before after log told := by
    obtain ⟨quiet, few⟩ := h.after before after log told
    refine ⟨quiet, ?_⟩
    simp only [State.visit, Array.countP_push]
    split <;> omega

/-- More events but no beginning of a phase. -/
theorem Late.working (h : Late setup count s) {events : Log}
    (log : t.log = s.log ++ events) (visits : t.visits = s.visits)
    (quiet : ∀ e ∈ events, e.isStart = false) : Late setup count t where
  since_le v hv := by
    have := h.since_le v (visits ▸ hv)
    simp only [log, Array.size_append]
    omega
  after before after eq told := by
    rw [visits]
    rcases split_append (log.symm.trans eq) with ⟨more, eq', rfl⟩ | ⟨lt, sub⟩
    · obtain ⟨quiet', few⟩ := h.after before more eq' told
      exact ⟨fun e he => (Array.mem_append.1 he).elim (quiet' e) (quiet e), few⟩
    · rw [countP_since_eq_zero h.since_le lt]
      exact ⟨fun e he => quiet e (sub e he), Nat.zero_le _⟩

/-- Being told by the last event, a search did nothing late. -/
theorem Untold.record (h : Untold setup s) (stays : setup.StaysTold) (e : Event) :
    Late setup 0 (s.record e) where
  since_le v hv := by
    have := h.since_le v hv
    simp only [State.record, Array.size_push]
    omega
  after before after log told := by
    rw [State.record, Array.push_eq_append] at log
    rcases split_append log with ⟨more, eq, rfl⟩ | ⟨lt, -⟩
    · have now := stays before more told
      rw [← eq, h.goesOn] at now
      cases now
    · have empty : after.size = 0 := by
        have := congrArg Array.size log
        simp only [Array.size_append, List.size_toArray, List.length_singleton] at this
        omega
      obtain rfl := Array.size_eq_zero_iff.1 empty
      exact ⟨by simp, (countP_since_eq_zero h.since_le lt).le⟩

/-- At most as many nodes were taken up late as there are between two questions. -/
abbrev Prompt (setup : Setup) : State → Prop := Late setup (checkInterval - 1)

/-! ### Searches -/

/-- Started in a state with `P`, a search leaves one with `Q` if it has a value, and one where not
too much is late if it fails. -/
def Ends (setup : Setup) (P Q : State → Prop) {α : Type} (p : Search α) : Prop :=
  ∀ s, P s → (∀ a t, p.exec s = (.ok a, t) → Q t) ∧
    ∀ e t, p.exec s = (.error e, t) → Prompt setup t

variable {P Q R : State → Prop} {α β : Type} {p : Search α}

theorem ends_pure {a : α} : Ends setup P P (pure a : Search α) := by
  intro s hs
  constructor
  · rintro _ _ ⟨⟩
    exact hs
  · rintro _ _ ⟨⟩

theorem Ends.bind {f : α → Search β} (h : Ends setup P Q p) (rest : ∀ a, Ends setup Q R (f a)) :
    Ends setup P R (p >>= f) := by
  intro s hs
  obtain ⟨value, failure⟩ := h s hs
  constructor
  · intro b t run
    obtain ⟨a, u, first, second⟩ := exec_bind_ok.1 run
    exact (rest a u (value a u first)).1 b t second
  · intro e t run
    rcases exec_bind_error.1 run with first | ⟨a, u, first, second⟩
    · exact failure e t first
    · exact (rest a u (value a u first)).2 e t second

theorem ends_atomic {action : State → α × State} (h : ∀ s, P s → Q (action s).2) :
    Ends setup P Q (atomic action) := by
  intro s hs
  constructor
  · rintro _ _ ⟨⟩
    exact h s hs
  · rintro _ _ ⟨⟩

theorem Ends.imp {P' Q' : State → Prop} (h : Ends setup P Q p) (before : ∀ s, P' s → P s)
    (after : ∀ s, Q s → Q' s) : Ends setup P' Q' p :=
  fun s hs => ⟨fun a t run => after t ((h s (before s hs)).1 a t run), (h s (before s hs)).2⟩

/-- The searches are the same, and after them no more is late than can be. -/
structure BothPrompt (setup : Setup) {α : Type} (p q : Search α) : Prop where
  eq : p = q
  ends : Ends setup (Prompt setup) (Prompt setup) p

theorem congruence_bothPrompt : Congruence (@BothPrompt setup) where
  pure _ := ⟨rfl, ends_pure⟩
  bind h rest := ⟨by rw [h.eq, funext fun a => (rest a).eq], h.ends.bind fun a => (rest a).ends⟩
  rounds _ := ⟨rfl, ends_atomic fun _ late => ⟨late.since_le, late.after⟩⟩

/-- Searches for consecutive numbers, each of which leads from its state to the next. -/
theorem ends_mapM_range' {I : Nat → State → Prop} {f : Nat → Search α} (start count : Nat)
    (h : ∀ v, start ≤ v → Ends setup (I v) (I (v + 1)) (f v)) :
    Ends setup (I start) (I (start + count)) ((List.range' start count).mapM f) := by
  induction count generalizing start with
  | zero => exact ends_pure
  | succ count ih =>
    rw [List.range'_succ, List.mapM_cons, show start + (count + 1) = start + 1 + count by omega]
    exact (h start (Nat.le_refl _)).bind fun _ =>
      (ih (start + 1) fun v le => h v (by omega)).bind fun _ => ends_pure

/-- A search that goes on after the question was not told to stop. -/
theorem ends_proceed (few : count ≤ checkInterval - 1) (name : Phase) :
    Ends setup (Late setup count) (Untold setup) (proceed setup name) := by
  intro s late
  rw [proceed, exec_bind, exec_atomic]
  cases told : setup.stopped s.log with
  | false =>
    constructor
    · rintro _ _ ⟨⟩
      exact ⟨late.since_le, told⟩
    · rintro _ _ ⟨⟩
  | true =>
    constructor
    · rintro _ _ ⟨⟩
    · rintro _ _ ⟨⟩
      exact late.mono few

/-- Work takes up no node and begins no phase. -/
theorem Confined.ends (h : Confined p) (few : count ≤ checkInterval - 1) :
    Ends setup (Late setup count) (Late setup count) p := by
  intro s late
  obtain ⟨events, work, eq⟩ := h.exec s
  have quiet : ∀ e ∈ events, e.isStart = false := by
    intro e he
    have := work e he
    cases e <;> simp_all [Event.isStart, Event.isProgress]
  have after : Late setup count (p.exec s).2 :=
    late.working (by rw [eq]; rfl) (by rw [eq]; rfl) quiet
  constructor
  · intro a t run
    rwa [run] at after
  · intro e t run
    rw [run] at after
    exact after.mono few

/-! ### Phases -/

/-- How many nodes may have been late before the work on a node of a partition: none after the
first ones of `checkInterval` nodes each, and one more with every node from there. -/
def lateBefore (p : Partition) (node : Nat) : Nat :=
  (node - p.start + (checkInterval - 1)) % checkInterval

theorem lateBefore_le (p : Partition) (node : Nat) : lateBefore p node ≤ checkInterval - 1 :=
  Nat.le_sub_one_of_lt (Nat.mod_lt _ (by decide))

theorem lateBefore_start (p : Partition) : lateBefore p p.start = checkInterval - 1 := by
  simp [lateBefore, checkInterval]

/-- After a question nothing is late, and without one a node more than before. -/
theorem lateBefore_succ (p : Partition) {node : Nat} (le : p.start ≤ node) :
    lateBefore p (node + 1) =
      if (node - p.start) % checkInterval = 0 then 0 else lateBefore p node + 1 := by
  unfold lateBefore checkInterval
  split <;> omega

theorem ends_node (stays : setup.StaysTold) (name : Phase) (p : Partition) {node : Nat}
    (le : p.start ≤ node) {work : Search α} (confined : Confined work) :
    Ends setup (Late setup (lateBefore p node)) (Late setup (lateBefore p (node + 1))) (do
      checkpoint setup p node name
      visit name node
      work) := by
  have worked : Ends setup (Late setup (lateBefore p (node + 1)))
      (Late setup (lateBefore p (node + 1))) work := confined.ends (lateBefore_le p _)
  unfold checkpoint
  rw [lateBefore_succ p le] at worked ⊢
  split
  · next asks =>
    rw [if_pos asks] at worked
    refine (ends_proceed (lateBefore_le p node) name).bind fun _ => ?_
    exact (ends_atomic fun s untold => (untold.visit name node).late stays 0).bind fun _ => worked
  · next goesOn =>
    rw [if_neg goesOn] at worked
    refine ends_pure.bind fun _ => ?_
    exact (ends_atomic fun _ late => late.visit name node).bind fun _ => worked

/-- A report that begins no phase. -/
theorem ends_report {e : Event} (he : e.isStart = false) :
    Ends setup (Late setup count) (Late setup count) (record e) :=
  ends_atomic fun _ late => late.working (by simp [State.record]) rfl
    (show ∀ e' ∈ (#[e] : Log), e'.isStart = false by simpa using he)

theorem ends_start (stays : setup.StaysTold) (name : Phase) (volume : Nat) :
    Ends setup (Untold setup) (Prompt setup) (record (.started name volume)) :=
  ends_atomic fun _ untold => (untold.record stays _).mono (Nat.zero_le _)

theorem ends_overNodes (stays : setup.StaysTold) (name : Phase) {work : Nat → Search α}
    (confined : ∀ v, Confined (work v)) (p : Partition) :
    Ends setup (Prompt setup) (Prompt setup)
      (overNodes setup name work p) := by
  have nodes := ends_mapM_range' (I := fun v => Late setup (lateBefore p v)) p.start p.count
    fun v le => ends_node stays name p le (confined v)
  rw [lateBefore_start] at nodes
  refine (nodes.imp (fun _ => id) fun _ late => late.mono (lateBefore_le p _)).bind fun _ => ?_
  exact (ends_report rfl).bind fun _ => ends_pure

theorem ends_phase (stays : setup.StaysTold) (name : Phase) {work : Nat → Search α}
    (confined : ∀ v, Confined (work v)) :
    Ends setup (Untold setup) (Prompt setup)
      (phase setup Turns.inOrder name work) := by
  have tasks : BothPrompt setup (setup.tasks.mapM (overNodes setup name work)) _ :=
    congruence_bothPrompt.mapM fun p _ => ⟨rfl, ends_overNodes stays name confined p⟩
  rw [phase_inOrder]
  exact (ends_start stays name _).bind fun _ => tasks.ends.bind fun _ =>
    (ends_report rfl).bind fun _ => ends_pure

theorem ends_candidates (stays : setup.StaysTold) (stream : Stream) (sampled : Nat) :
    Ends setup (Prompt setup) (Prompt setup)
      (candidates setup Turns.inOrder stream sampled) := by
  refine (ends_proceed (Nat.le_refl _) .split).bind fun _ => ?_
  refine (ends_phase stays .split (confined_splitNode stream sampled)).bind fun parts => ?_
  exact (ends_proceed (Nat.le_refl _) .reverse).bind fun _ =>
    (ends_start stays .reverse _).bind fun _ => (ends_report rfl).bind fun _ =>
      (ends_report rfl).bind fun _ => ends_pure

theorem ends_join (stays : setup.StaysTold) (c : Candidates) (stream : Stream) (sampled : Nat) :
    Ends setup (Prompt setup) (Prompt setup)
      (join setup Turns.inOrder c stream sampled) :=
  (ends_proceed (Nat.le_refl _) .join).bind fun _ =>
    (ends_phase stays .join (confined_joinNode setup c stream sampled)).bind fun _ => ends_pure

/-! ### Runs -/

theorem ends_descend (stays : setup.StaysTold) (k : ListSize) :
    Ends setup (Untold setup) (Prompt setup) (descend setup .inOrder k) := by
  have extent : setup.SameExtent setup := ⟨⟨rfl, rfl, rfl⟩, rfl, rfl⟩
  have iterated : ∀ threshold streams soFar limit, BothPrompt setup
      (iterate setup .inOrder k.sampled threshold streams soFar limit)
      (iterate setup .inOrder k.sampled threshold streams soFar limit) :=
    congruence_bothPrompt.iterate
      (fun _ stream => ⟨rfl, ends_candidates stays stream k.sampled⟩)
      (fun _ c stream => ⟨rfl, ends_join stays c stream k.sampled⟩)
  have dropped : ∀ cutoff, Ends setup (Prompt setup) (Prompt setup)
      (do proceed setup .cutoff; phase setup Turns.inOrder .cutoff (dropNode cutoff)) :=
    fun cutoff => (ends_proceed (Nat.le_refl _) .cutoff).bind fun _ =>
      ends_phase stays .cutoff fun v => confined_withList v _ _
  have cut : BothPrompt setup (applyCutoff setup Turns.inOrder) (applyCutoff setup Turns.inOrder) :=
    congruence_bothPrompt.applyCutoff extent fun cutoff => ⟨rfl, dropped cutoff⟩
  have refined : Ends setup (Untold setup) (Prompt setup)
      (refine setup .inOrder k setup.config.maxIterations) :=
    ((ends_phase stays .initialization (confined_fillNode setup _ k.bounded)).bind
      fun _ => ends_pure).bind fun _ => (iterated _ _ _ _).ends
  have lists : Ends setup (Prompt setup) (Prompt setup) (atomic fun s => (s.lists, s)) :=
    ends_atomic fun _ => id
  exact refined.bind fun _ => cut.ends.bind fun _ => lists.bind fun _ => ends_pure

end

/-- A run told to stop begins no phase from then on and takes up few nodes. -/
theorem prompt_run {setup : Setup} (stays : setup.StaysTold) {before after : Log}
    (log : (run setup).log = before ++ after) (told : setup.stopped before = true) :
    (∀ e ∈ after, e.isStart = false) ∧
      (run setup).visits.countP (before.size ≤ ·.since) ≤ checkInterval - 1 := by
  have way := outset .inOrder setup
  unfold run at log ⊢
  generalize runUnder .inOrder setup = r at way log ⊢
  have nothing : (#[] : Log) = before ++ after → ∀ e ∈ after, e.isStart = false := by
    intro log
    obtain ⟨rfl, rfl⟩ := Array.append_eq_empty_iff.1 log.symm
    simp
  cases way with
  | uncovered | few | told => exact ⟨nothing log, by simp⟩
  | @goesOn k covered others untold size =>
    have start : Untold setup (State.start setup.nodeCount k.bounded) :=
      ⟨by simp [State.start], by simpa [State.start] using untold⟩
    obtain ⟨value, failure⟩ := ends_descend stays k _ start
    have prompt : Prompt setup ((descend setup .inOrder k).exec
        (State.start setup.nodeCount k.bounded)).2 := by
      generalize (descend setup .inOrder k).exec _ = r at value failure ⊢
      obtain ⟨e | a, t⟩ := r
      · exact failure e t rfl
      · exact value a t rfl
    simpa [Run.of] using prompt.after before after log told

end Search

/-- **A search that is told to stop gives no partial result.** Told with the `n`-th event that it
announces, it either is over before it notices, and nothing about it is changed, or it has no
result: it says that it was cancelled, and what it did is how the search begins that is not told to
stop. From the moment when it is told it begins no phase and takes up fewer than 256 nodes. -/
theorem told_to_stop_never_partial (setup : Setup) (n : Nat) :
    let r := run (setup.stoppedBy (Log.reaches Event.isAnnounced n))
    let r₀ := run (setup.stoppedBy fun _ => false)
    (r = r₀ ∨ ∃ name : Phase, r.outcome = .error (.cancelled name.name) ∧
      r.log.toList <+: r₀.log.toList) ∧
    ∀ before after : Log, r.log = before ++ after → n ≤ before.countP Event.isAnnounced →
      (∀ phase volume, Event.started phase volume ∉ after) ∧
        r.visits.countP (before.size ≤ ·.since) < 256 := by
  intro r r₀
  constructor
  · have ext : setup.metric.Extends
        (setup.stoppedBy (Log.reaches Event.isAnnounced n)).metric := .refl setup.metric
    have related := brokenOff_run ext
    change Run.BrokenOff _ _ r r₀ at related
    generalize r = found at related ⊢
    generalize r₀ = wanted at related ⊢
    cases related with
    | same => exact .inl rfl
    | broken fails breaks goesOn =>
      generalize found.log.toList = events at breaks goesOn
      cases breaks with
      | told name => exact .inr ⟨name, fails, goesOn⟩
      | lacking origin _ lacks has => exact absurd lacks has
  · intro before after log raised
    obtain ⟨quiet, few⟩ := prompt_run (setup.staysTold_reaches Event.isAnnounced n) log
      (by simpa [Setup.stoppedBy, Log.reaches] using raised)
    refine ⟨fun phase volume started => ?_, Nat.lt_succ_of_le few⟩
    cases quiet _ started

theorem fourNodes_cancelled :
    ∃ name : Phase,
      (run (fourNodes.stoppedBy (Log.reaches Event.isAnnounced 20))).outcome =
        .error (.cancelled name.name) ∧
      (run (fourNodes.stoppedBy (Log.reaches Event.isAnnounced 20))).log.toList <+:
        (run (fourNodes.stoppedBy fun _ => false)).log.toList := by
  have fails : (run (fourNodes.stoppedBy (Log.reaches Event.isAnnounced 20))).outcome.isOk =
    false := by decide +kernel
  have found : (run (fourNodes.stoppedBy fun _ => false)).outcome.isOk = true := by decide +kernel
  rcases (told_to_stop_never_partial fourNodes 20).1 with same | cancelled
  · rw [same, found] at fails
    cases fails
  · exact cancelled

end NeighbourGraph
