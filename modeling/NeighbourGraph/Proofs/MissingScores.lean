/-
Pairs without a score.

A metric lacks a pair if it fails for it or has no finite value. Where a run meets such a pair it
ends at once and blames the pair: up to there it is the run of any metric that has a score for
every pair and agrees with this one where both have one. A run that meets none is not touched by
the pairs that are lacking elsewhere.
-/

import NeighbourGraph.Proofs.Failures
import NeighbourGraph.Proofs.Search.BrokenOff

namespace NeighbourGraph

/-- The metric fails for the pair, or its value is not finite. -/
def Metric.lacks (m : Metric) (left right : Nat) : Bool :=
  match m.similarity left right with
  | .error _ => true
  | .ok x => !x.isFinite

/-- The setup with another metric. -/
def Setup.withMetric (setup : Setup) (metric : Metric) : Setup := { setup with metric }

/-- The event asks for a pair that the metric lacks. -/
def Event.lacking (m : Metric) : Event → Bool
  | .scored _ left right => m.lacks left right
  | _ => false

section

variable {m full : Metric} {a b : Nat} {e : Event}

/-- A metric has a score for the pairs that it does not lack. -/
theorem Metric.lacks_eq_false_iff : m.lacks a b = false ↔ ∃ x, m.score a b = .ok x := by
  unfold Metric.lacks Metric.score
  cases m.similarity a b with
  | error cause => simp
  | ok x => by_cases finite : x.isFinite = true <;> simp [finite]

theorem Metric.lacks_of_score {cause : ScoreError} (h : m.score a b = .error cause) :
    m.lacks a b = true := by
  rw [← Bool.not_eq_false, Metric.lacks_eq_false_iff]
  rintro ⟨x, score⟩
  cases h.symm.trans score

theorem Event.exists_of_lacking (h : e.lacking m = true) :
    ∃ origin a b, e = .scored origin a b ∧ m.lacks a b = true := by
  cases e with
  | scored origin a b => exact ⟨origin, a, b, rfl, h⟩
  | started | advanced | ended | offered | considered | entered => cases h

/-- What a metric without gaps agrees on is not lacking. -/
theorem Event.Agreed.lacking_eq_false (h : e.Agreed m full)
    (complete : ∀ a b, full.lacks a b = false) : e.lacking m = false := by
  cases e with
  | scored origin a b =>
    obtain ⟨x, score⟩ := Metric.lacks_eq_false_iff.1 (complete a b)
    exact Metric.lacks_eq_false_iff.2 ⟨x, (h origin a b rfl).trans score⟩
  | _ => rfl

theorem Metric.extends_of_agrees (symmetric : full.symmetric = m.symmetric)
    (nodeCount : full.nodeCount = m.nodeCount)
    (agrees : ∀ a b, m.lacks a b = false → full.similarity a b = m.similarity a b) :
    full.Extends m where
  symmetric := symmetric
  nodeCount := nodeCount
  score {a b x} score := by
    have same := agrees a b (Metric.lacks_eq_false_iff.2 ⟨x, score⟩)
    rwa [Metric.score, same]

end

/-- Two ways to split a list at the first element with `p` are the same. -/
theorem eq_of_first {α : Type} {p : α → Bool} {before before' after after' : List α} {a a' : α}
    (eq : before ++ a :: after = before' ++ a' :: after') (h : ∀ x ∈ before, p x = false)
    (h' : ∀ x ∈ before', p x = false) (ha : p a = true) (ha' : p a' = true) :
    before = before' ∧ a = a' := by
  induction before generalizing before' with
  | nil =>
    cases before' with
    | nil => exact ⟨rfl, (List.cons.inj eq).1⟩
    | cons x before' => simp_all
  | cons x before ih =>
    cases before' with
    | nil => simp_all
    | cons x' before' =>
      rw [List.cons_append, List.cons_append, List.cons.injEq] at eq
      obtain ⟨same, eq⟩ := eq
      rw [List.forall_mem_cons] at h h'
      exact (ih eq h.2 h'.2).imp_left fun rest => by rw [same, rest]

namespace Search

/-- A run either is the run of the metric without gaps, or it asked for a pair that is lacking and
ended there. -/
theorem ends_at_gap {setup : Setup} (goesOn : ∀ log, setup.stopped log = false) {full : Metric}
    (ext : full.Extends setup.metric) (complete : ∀ a b, full.lacks a b = false) :
    (run setup = run (setup.withMetric full) ∧
      ∀ e ∈ (run (setup.withMetric full)).log.toList, e.lacking setup.metric = false) ∨
    ∃ before origin a b cause after,
      (run setup).outcome = .error (.score cause) ∧ setup.metric.score a b = .error cause ∧
      (run setup).log.toList = before ++ [.scored origin a b] ∧
      (run (setup.withMetric full)).log.toList = before ++ .scored origin a b :: after ∧
      ∀ e ∈ before, e.lacking setup.metric = false := by
  have unbroken : setup.unbroken full = setup.withMetric full := by
    rw [Setup.unbroken, ← show setup.stopped = fun _ => false from funext goesOn,
      Setup.withMetric]
  have related := brokenOff_run ext
  rw [unbroken] at related
  generalize run setup = r at related ⊢
  generalize run (setup.withMetric full) = r' at related ⊢
  cases related with
  | same agreed => exact .inl ⟨rfl, fun e he => (agreed e he).lacking_eq_false complete⟩
  | broken fails breaks goesOn' =>
    obtain ⟨after, log'⟩ := goesOn'
    generalize log : r.log.toList = events at breaks log'
    cases breaks with
    | told name agreed stopped => simp [goesOn] at stopped
    | @lacking before a b cause origin agreed score _ =>
      exact .inr ⟨before, origin, a, b, cause, after, fails, score, rfl, by simp [← log'],
        fun e he => (agreed e he).lacking_eq_false complete⟩

/-- **A run ends at its first gap.** A run whose metric has gaps does what it would do without them
until it asks for a pair that is lacking. There it ends and blames this pair. If it asks for none,
nothing changes. The settings are never to blame. -/
theorem ends_at_first_gap (setup : Setup) (goesOn : ∀ log, setup.stopped log = false)
    (full : Metric) (symmetric : full.symmetric = setup.metric.symmetric)
    (nodeCount : full.nodeCount = setup.metric.nodeCount)
    (complete : ∀ a b, full.lacks a b = false)
    (agrees : ∀ a b, setup.metric.lacks a b = false →
      full.similarity a b = setup.metric.similarity a b) :
    let found := run setup
    let wanted := run (setup.withMetric full)
    ((∀ e ∈ wanted.log.toList, e.lacking setup.metric = false) → found = wanted) ∧
      (∀ before origin a b after, wanted.log.toList = before ++ .scored origin a b :: after →
        (∀ e ∈ before, e.lacking setup.metric = false) → setup.metric.lacks a b = true →
        found.log.toList = before ++ [.scored origin a b] ∧
          (∀ cause, setup.metric.similarity a b = .error cause →
            found.outcome = .error (.score (.failed a b cause))) ∧
          ∀ x, setup.metric.similarity a b = .ok x →
            found.outcome = .error (.score (.nonFinite a b))) ∧
      ∀ schedule other cause, (runUnder schedule other).outcome ≠ .error (.settings cause) := by
  intro found wanted
  have ext := Metric.extends_of_agrees symmetric nodeCount agrees
  refine ⟨fun clear => ?_, fun before origin a b after log clear lacks => ?_, outcome_ne_settings⟩
  · rcases ends_at_gap goesOn ext complete with
      ⟨same, -⟩ | ⟨before, origin, a, b, cause, after, -, score, -, log, -⟩
    · exact same
    · have has : setup.metric.lacks a b = false :=
        clear (.scored origin a b) (by simp [wanted, log])
      cases (Metric.lacks_of_score score).symm.trans has
  · rcases ends_at_gap goesOn ext complete with
      ⟨-, gapless⟩ | ⟨before', origin', a', b', cause, after', outcome, score, ended, log', clear'⟩
    · cases lacks.symm.trans (gapless (.scored origin a b) (by simp [wanted] at log; simp [log]))
    · obtain ⟨rfl, eq⟩ := eq_of_first (p := Event.lacking setup.metric) (log.symm.trans log') clear
        clear' lacks (Metric.lacks_of_score score)
      cases eq
      rw [Metric.score] at score
      refine ⟨ended, fun cause value => ?_, fun x value => ?_⟩
      · rw [value] at score
        exact Except.error.inj score ▸ outcome
      · rw [value] at score
        dsimp only at score
        split at score
        · cases score
        · exact Except.error.inj score ▸ outcome

/-- The four nodes with a metric that fails for one of their pairs. -/
def gappyNodes : Setup :=
  { fourNodes with
    metric :=
      { fourNodes.metric with
        similarity a b :=
          if a = 2 ∧ b = 3 then .error .zeroLength else fourNodes.metric.similarity a b } }

theorem gappyNodes_end_at_gap :
    ∃ before origin after, (run (gappyNodes.withMetric fourNodes.metric)).log.toList =
        before ++ .scored origin 2 3 :: after ∧
      (run gappyNodes).log.toList = before ++ [.scored origin 2 3] ∧
      (run gappyNodes).outcome = .error (.score (.failed 2 3 .zeroLength)) := by
  have complete : ∀ a b, fourNodes.metric.lacks a b = false :=
    fun a b => Metric.lacks_eq_false_iff.2 ⟨_, score_fourNodes a b⟩
  have agrees : ∀ a b, gappyNodes.metric.lacks a b = false →
      fourNodes.metric.similarity a b = gappyNodes.metric.similarity a b := by
    intro a b has
    by_cases gap : a = 2 ∧ b = 3
    · simp [Metric.lacks, gappyNodes, gap] at has
    · simp [gappyNodes, gap]
  have gap : ∀ {a b}, gappyNodes.metric.lacks a b = true → a = 2 ∧ b = 3 := by
    intro a b lacks
    by_contra other
    have same : gappyNodes.metric.lacks a b = fourNodes.metric.lacks a b := by
      simp [Metric.lacks, gappyNodes, other]
    simp [complete, lacks] at same
  have ends := (ends_at_first_gap gappyNodes (fun _ => rfl) fourNodes.metric rfl rfl complete
    agrees).2.1
  have asked : ((run (gappyNodes.withMetric fourNodes.metric)).log.toList.find?
      (Event.lacking gappyNodes.metric)).isSome = true := by decide +kernel
  obtain ⟨e, first⟩ := Option.isSome_iff_exists.1 asked
  obtain ⟨lacks, before, after, log, clear⟩ := List.find?_eq_some_iff_append.1 first
  obtain ⟨origin, a, b, rfl, lacks⟩ := Event.exists_of_lacking lacks
  obtain ⟨rfl, rfl⟩ := gap lacks
  obtain ⟨ended, fails, -⟩ := ends before origin 2 3 after log (by simpa using clear) lacks
  have value : gappyNodes.metric.similarity 2 3 = .error .zeroLength := by simp [gappyNodes]
  exact ⟨before, origin, after, log, ended, fails _ value⟩

end Search

end NeighbourGraph
