/-
Searches that break off.

A search breaks off when it is told to stop and when it meets a pair without a score. `unbroken`
is the setup of the same search that is never told to stop, with a metric that may have scores for
more pairs. Carried out one partition after the other, a search either does exactly what the
unbroken one does, or breaks off somewhere on its way: `BreaksOff` relates the two, and nothing is
ever done differently. Work on a node is related by `Shadows`, which also has it confined to the
lists.
-/

import NeighbourGraph.Proofs.Search.Confined
import NeighbourGraph.Proofs.Search.Congruence
import NeighbourGraph.Proofs.Search.Outset

namespace NeighbourGraph

open NeighbourGraph.Random NeighbourGraph.Search

/-! ### Setups -/

/-- A metric with the same flag over the same nodes that has the same scores, and maybe more. -/
structure Metric.Extends (full m : Metric) : Prop where
  symmetric : full.symmetric = m.symmetric
  nodeCount : full.nodeCount = m.nodeCount
  score : ∀ {a b : Nat} {x : Float}, m.score a b = .ok x → full.score a b = .ok x

theorem Metric.Extends.refl (m : Metric) : m.Extends m := ⟨rfl, rfl, id⟩

/-- The setup with another metric, and never told to stop. -/
def Setup.unbroken (setup : Setup) (full : Metric) : Setup :=
  { setup with metric := full, stopped := fun _ => false }

section

variable (setup : Setup) (full : Metric)

@[simp] theorem Setup.unbroken_nodeCount :
    (setup.unbroken full).nodeCount = setup.nodeCount := rfl

@[simp] theorem Setup.unbroken_excluded :
    (setup.unbroken full).excluded = setup.excluded := rfl

@[simp] theorem Setup.unbroken_metric : (setup.unbroken full).metric = full := rfl

@[simp] theorem Setup.unbroken_stopped (log : Log) :
    (setup.unbroken full).stopped log = false := rfl

end

/-- If the event asks for a score, both metrics have the same answer. -/
def Event.Agreed (m full : Metric) (e : Event) : Prop :=
  ∀ origin a b, e = .scored origin a b → m.score a b = full.score a b

/-- Why a search breaks off after these events: it was told to stop, or the last of them asked for
a score that only the other metric has. The metrics agreed on everything before. -/
inductive Setup.Breaks (setup : Setup) (full : Metric) : List Event → SearchError → Prop
  | told {events : List Event} {log : Log} (name : Phase) :
      (∀ e ∈ events, e.Agreed setup.metric full) → setup.stopped log = true →
      Breaks setup full events (.cancelled name.name)
  | lacking {before : List Event} {a b : Nat} {cause : ScoreError} (origin : Origin) :
      (∀ e ∈ before, e.Agreed setup.metric full) → setup.metric.score a b = .error cause →
      full.score a b ≠ .error cause →
      Breaks setup full (before ++ [.scored origin a b]) (.score cause)

theorem Setup.Breaks.after {setup : Setup} {full : Metric} {before events : List Event}
    {cause : SearchError} (h : setup.Breaks full events cause)
    (agreed : ∀ e ∈ before, e.Agreed setup.metric full) :
    setup.Breaks full (before ++ events) cause := by
  have both : ∀ {events : List Event}, (∀ e ∈ events, e.Agreed setup.metric full) →
      ∀ e ∈ before ++ events, e.Agreed setup.metric full :=
    fun agreed' e he => (List.mem_append.1 he).elim (agreed e) (agreed' e)
  cases h with
  | told name agreed' stopped => exact .told name (both agreed') stopped
  | lacking origin agreed' lacks has =>
    rw [← List.append_assoc]
    exact .lacking origin (both agreed') lacks has

namespace Search

/-! ### Searches -/

/-- What two searches that were started in `s` came to: the same, with nothing asked that the
metrics do not agree on; or the first one broke off where the second one went on. -/
inductive BrokenOff (setup : Setup) (full : Metric) (s : State) {α : Type} :
    Except SearchError α × State → Except SearchError α × State → Prop
  | same {r : Except SearchError α × State} (events : List Event) :
      r.2.log.toList = s.log.toList ++ events → (∀ e ∈ events, e.Agreed setup.metric full) →
      BrokenOff setup full s r r
  | broken {t : State} {r : Except SearchError α × State} {cause : SearchError}
      (events : List Event) : t.log.toList = s.log.toList ++ events →
      setup.Breaks full events cause → t.log.toList <+: r.2.log.toList →
      BrokenOff setup full s (.error cause, t) r

/-- The second search goes on. -/
theorem BrokenOff.goesOn {setup : Setup} {full : Metric} {s : State} {α : Type}
    {r r' : Except SearchError α × State} (h : BrokenOff setup full s r r') :
    s.log.toList <+: r'.2.log.toList := by
  cases h with
  | same events log => exact ⟨events, log.symm⟩
  | broken events log _ goesOn => exact List.IsPrefix.trans ⟨events, log.symm⟩ goesOn

/-- Both searches come to the same in every state, unless the first one breaks off. -/
def BreaksOff (setup : Setup) (full : Metric) {α : Type} (p q : Search α) : Prop :=
  ∀ s, BrokenOff setup full s (p.exec s) (q.exec s)

section

variable {setup : Setup} {full : Metric} {ι α β : Type} {p q : Search α}

theorem breaksOff_pure {a : α} : BreaksOff setup full (pure a : Search α) (pure a) :=
  fun _ => .same [] (by simp) (by simp)

theorem breaksOff_failed {cause : SearchError} :
    BreaksOff setup full (.failed cause : Search α) (.failed cause) :=
  fun _ => .same [] (by simp) (by simp)

/-- A search that has broken off stays where it is while the other one goes on. -/
theorem BreaksOff.bind {f f' : α → Search β} (h : BreaksOff setup full p q)
    (rest : ∀ a, BreaksOff setup full (f a) (f' a)) :
    BreaksOff setup full (p >>= f) (q >>= f') := by
  intro s
  rw [exec_bind, exec_bind]
  have first := h s
  generalize p.exec s = r at first
  generalize q.exec s = r' at first
  cases first with
  | same events log agreed =>
    obtain ⟨_ | a, t⟩ := r
    · exact .same events log agreed
    · dsimp only at log ⊢
      have second := rest a t
      generalize (f a).exec t = r at second
      generalize (f' a).exec t = r' at second
      cases second with
      | same later log' agreed' =>
        refine .same (events ++ later) (by rw [log', log, List.append_assoc]) ?_
        exact fun e he => (List.mem_append.1 he).elim (agreed e) (agreed' e)
      | broken later log' breaks goesOn =>
        exact .broken (events ++ later) (by rw [log', log, List.append_assoc])
          (breaks.after agreed) goesOn
  | @broken t r' cause events log breaks goesOn =>
    obtain ⟨_ | a, u⟩ := r'
    · exact .broken events log breaks goesOn
    · exact .broken events log breaks (goesOn.trans (rest a u).goesOn)

/-- Both searches act in the same way. -/
theorem breaksOff_atomic {action : State → α × State} (h : ∀ s, ∃ events,
    (action s).2.log.toList = s.log.toList ++ events ∧
      ∀ e ∈ events, e.Agreed setup.metric full) :
    BreaksOff setup full (atomic action) (atomic action) :=
  fun s => let ⟨events, log, agreed⟩ := h s; .same events log agreed

theorem breaksOff_record {e : Event} (he : e.Agreed setup.metric full) :
    BreaksOff setup full (record e) (record e) :=
  breaksOff_atomic fun s => ⟨[e], by simp [State.record], by simpa using he⟩

theorem breaksOff_report {e : Event} (he : e.isProgress = true) :
    BreaksOff setup full (record e) (record e) :=
  breaksOff_record (by rintro origin a b rfl; cases he)

theorem congruence_breaksOff : Congruence (@BreaksOff setup full) where
  pure _ := breaksOff_pure
  bind := BreaksOff.bind
  rounds _ := breaksOff_atomic fun _ => ⟨[], by simp, by simp⟩

/-- Only the first search may be told to stop. -/
theorem breaksOff_proceed (name : Phase) :
    BreaksOff setup full (proceed setup name) (proceed (setup.unbroken full) name) := by
  intro s
  simp only [proceed, exec_bind, exec_atomic, Setup.unbroken_stopped]
  cases told : setup.stopped s.log with
  | false => exact .same [] (by simp) (by simp)
  | true => exact .broken [] (by simp) (.told name (by simp) told) (by simp)

/-- Only the first search may lack a score. -/
theorem breaksOff_score (ext : full.Extends setup.metric) (origin : Origin) (a b : Nat) :
    BreaksOff setup full (score setup origin a b) (score (setup.unbroken full) origin a b) := by
  intro s
  simp only [score, exec_bind, exec_record, Setup.unbroken_metric]
  have log : (s.record (.scored origin a b)).log.toList =
      s.log.toList ++ [.scored origin a b] := by
    simp [State.record]
  by_cases agreed : setup.metric.score a b = full.score a b
  · rw [agreed]
    refine .same [.scored origin a b] ?_ ?_
    · cases full.score a b <;> exact log
    · rintro e he origin' c d rfl
      cases List.mem_singleton.1 he
      exact agreed
  · cases lacks : setup.metric.score a b with
    | ok x => exact absurd (lacks.trans (ext.score lacks).symm) agreed
    | error cause =>
      have has : full.score a b ≠ .error cause := fun eq => agreed (lacks.trans eq.symm)
      have breaks : setup.Breaks full ([] ++ [.scored origin a b]) (.score cause) :=
        .lacking origin (by simp) lacks has
      refine .broken [.scored origin a b] log breaks ?_
      cases full.score a b <;> exact List.prefix_refl _

/-! ### The work on a node -/

theorem breaksOff_withList (v : Nat) (f : NeighbourList → α × NeighbourList) (a : α) :
    BreaksOff setup full (atomic fun s => s.withList v f a)
      (atomic fun s => s.withList v f a) :=
  breaksOff_atomic fun s => ⟨[], by rw [State.withList_eq]; simp, by simp⟩

theorem breaksOff_offer (origin : Origin) (v c : Nat) (x : Float) :
    Works (BreaksOff setup full) (offer setup origin v c x)
      (offer (setup.unbroken full) origin v c x) := by
  refine fun g => breaksOff_atomic fun s => ?_
  rw [State.withList_eq]
  generalize State.withList { lists := s.lists } v _ _ = r
  obtain ⟨⟨entered, g'⟩, u⟩ := r
  cases entered with
  | true => exact ⟨[.entered origin v c], by simp [State.countEntered, State.record],
      by simp [Event.Agreed]⟩
  | false => exact ⟨[], by simp [State.countEntered], by simp⟩

theorem steps_breaksOff (ext : full.Extends setup.metric) :
    Steps (BreaksOff setup full) setup (setup.unbroken full) fun _ => True where
  toComparing := congruence_breaksOff.comparing ⟨rfl, rfl, ext.symmetric.symm, rfl, rfl⟩
    (fun _ => breaksOff_failed) (breaksOff_score ext)
    (fun _ _ _ => breaksOff_record (by simp [Event.Agreed])) breaksOff_offer
  listOf _ := breaksOff_atomic fun _ => ⟨[], by simp, by simp⟩
  offered _ _ := breaksOff_record (by simp [Event.Agreed])
  splitNode _ v _ := breaksOff_withList v _ _

/-! ### Runs -/

theorem phases_breaksOff : Phases (BreaksOff setup full) setup (setup.unbroken full) .inOrder :=
  congruence_breaksOff.phases_inOrder rfl rfl breaksOff_proceed breaksOff_report
    fun name v => breaksOff_atomic fun s => ⟨[], by simp [State.visit], by simp⟩

theorem breaksOff_descend (ext : full.Extends setup.metric) (k : ListSize) :
    BreaksOff setup full (descend setup .inOrder k) (descend (setup.unbroken full) .inOrder k) :=
  phases_breaksOff.descend (steps_breaksOff ext) (fun _ _ => trivial) ⟨⟨rfl, rfl, rfl⟩, rfl, rfl⟩
    (fun _ v => breaksOff_withList v _ _) (breaksOff_atomic fun _ => ⟨[], by simp, by simp⟩) k

end

/-- What two runs came to: the same, with nothing asked that the metrics do not agree on; or the
first one broke off where the second one went on. -/
inductive Run.BrokenOff (setup : Setup) (full : Metric) : Run → Run → Prop
  | same {r : Run} : (∀ e ∈ r.log.toList, e.Agreed setup.metric full) → BrokenOff setup full r r
  | broken {r r' : Run} {cause : SearchError} : r.outcome = .error cause →
      setup.Breaks full r.log.toList cause → r.log.toList <+: r'.log.toList →
      BrokenOff setup full r r'

theorem brokenOff_run {setup : Setup} {full : Metric} (ext : full.Extends setup.metric) :
    Run.BrokenOff setup full (run setup) (run (setup.unbroken full)) := by
  have covered : setup.Covered → (setup.unbroken full).Covered :=
    fun covered n nodes => covered n (ext.nodeCount ▸ nodes)
  have way := outset .inOrder setup
  unfold run
  generalize runUnder .inOrder setup = r at way ⊢
  cases way with
  | uncovered nodes ne =>
    have nodes' : (setup.unbroken full).metric.nodeCount = some _ := ext.nodeCount.trans nodes
    rw [runUnder_of_not_covered nodes' ne]
    exact .same (by simp)
  | few cov few =>
    rw [runUnder_of_few (covered cov) few]
    exact .same (by simp)
  | told cov others told => exact .broken rfl (.told .initialization (by simp) told) (by simp)
  | @goesOn k cov others _ size =>
    rw [runUnder_of_goesOn (covered cov) others rfl size, Setup.unbroken_nodeCount]
    have descends := breaksOff_descend ext k (State.start setup.nodeCount k.bounded)
    generalize (descend setup .inOrder k).exec _ = r at descends ⊢
    generalize (descend (setup.unbroken full) .inOrder k).exec _ = r' at descends ⊢
    cases descends with
    | same events log agreed =>
      have all : r.2.log.toList = events := log
      exact .same (all ▸ agreed)
    | @broken t _ cause events log breaks goesOn =>
      have all : t.log.toList = events := log
      exact .broken rfl (all ▸ breaks) goesOn

end Search

end NeighbourGraph
