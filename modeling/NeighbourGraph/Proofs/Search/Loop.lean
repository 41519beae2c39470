/-
The loop of a search: what one iteration keeps true holds when the loop is over, and a loop that
fails does so in an iteration that began where that held.

The tally of an iteration is the one of its join phase, and it decides whether the loop goes on.
-/

import NeighbourGraph.Proofs.Search.Contract
import NeighbourGraph.Search.Run

namespace NeighbourGraph.Search

open NeighbourGraph.Random

/-- What an iteration with this tally makes of what the ones before it came to. -/
def Refinement.after (soFar : Refinement) (threshold : Nat) (tally : Tally) : Refinement where
  iterations := soFar.iterations + 1
  converged := tally.updates ≤ threshold
  pairs := soFar.pairs + tally.pairs

/-- The account that a state keeps of the iterations so far: the tally of each. -/
structure Tallied (soFar : Refinement) (tallies : List Tally) (s : State) : Prop where
  rounds : s.rounds.toList = tallies.map some
  iterations : soFar.iterations = tallies.length

section

variable {setup : Setup} {s t : State} {turns : Phase → Turns} {sampled threshold limit : Nat}
  {splitStream joinStream : Stream} {tally : Tally} {e : SearchError}

/-! ### One iteration -/

/-- An iteration that comes to its end hands out entries and joins what was handed out. -/
theorem exec_iteration_ok :
    (iteration setup turns sampled splitStream joinStream).exec s = (.ok tally, t) ↔
      ∃ c u w,
        (candidates setup (turns .split) splitStream sampled).exec
          { s with rounds := s.rounds.push none } = (.ok c, u) ∧
        (join setup (turns .join) c joinStream sampled).exec u = (.ok tally, w) ∧
        { w with rounds := w.rounds.pop.push (some tally) } = t := by
  simp only [iteration, exec_bind_ok, exec_atomic, exec_pure, Prod.mk.injEq, Except.ok.injEq]
  constructor
  · rintro ⟨-, _, ⟨-, rfl⟩, c, u, split, tally, w, joined, -, _, ⟨-, rfl⟩, rfl, rfl⟩
    exact ⟨c, u, w, split, joined, rfl⟩
  · rintro ⟨c, u, w, split, joined, rfl⟩
    exact ⟨(), _, ⟨trivial, rfl⟩, c, u, split, tally, w, joined, (), _, ⟨trivial, rfl⟩, rfl, rfl⟩

theorem exec_iteration_error :
    (iteration setup turns sampled splitStream joinStream).exec s = (.error e, t) ↔
      (candidates setup (turns .split) splitStream sampled).exec
        { s with rounds := s.rounds.push none } = (.error e, t) ∨
      ∃ c u,
        (candidates setup (turns .split) splitStream sampled).exec
          { s with rounds := s.rounds.push none } = (.ok c, u) ∧
        (join setup (turns .join) c joinStream sampled).exec u = (.error e, t) := by
  simp only [iteration, exec_bind_error, exec_atomic, exec_pure, Prod.mk.injEq, reduceCtorEq,
    false_and, false_or]
  constructor
  · rintro ⟨-, _, ⟨-, rfl⟩, fails | ⟨c, u, split, fails | ⟨-, -, -, -, -, -, ⟨⟩⟩⟩⟩
    · exact .inl fails
    · exact .inr ⟨c, u, split, fails⟩
  · rintro (fails | ⟨c, u, split, fails⟩)
    · exact ⟨(), _, ⟨trivial, rfl⟩, .inl fails⟩
    · exact ⟨(), _, ⟨trivial, rfl⟩, .inr ⟨c, u, split, .inl fails⟩⟩

/-- The account goes on with the tally of one more iteration. -/
theorem Tallied.after {soFar : Refinement} {tallies : List Tally} (h : Tallied soFar tallies s)
    (rounds : t.rounds = s.rounds.push (some tally)) :
    Tallied (soFar.after threshold tally) (tallies ++ [tally]) t where
  rounds := by rw [rounds, Array.toList_push, h.rounds, List.map_append, List.map_singleton]
  iterations := by
    rw [Refinement.after, h.iterations, List.length_append, List.length_singleton]

/-! ### Induction over the iterations -/

/-- A property of the state and of what the iterations came to that every iteration keeps. -/
def KeptByIteration (setup : Setup) (sampled threshold : Nat) (I : Refinement → State → Prop) :
    Prop :=
  ∀ (soFar : Refinement) (s : State) (turns : Phase → Turns) (splitStream joinStream : Stream)
    (tally : Tally) (t : State), soFar.converged = false → I soFar s →
    (iteration setup turns sampled splitStream joinStream).exec s = (.ok tally, t) →
    I (soFar.after threshold tally) t

variable {I : Refinement → State → Prop} {schedule : Schedule} {streams : Streams}
  {soFar refinement : Refinement} {k : ListSize}

/-- What every iteration keeps holds at the end of the loop, which converged or went on to its
limit. -/
theorem exec_iterate_ok (kept : KeptByIteration setup sampled threshold I)
    (goesOn : soFar.converged = false) (h : I soFar s)
    (run : (iterate setup schedule sampled threshold streams soFar limit).exec s =
      (.ok refinement, t)) :
    I refinement t ∧
      (refinement.converged = true ∨ refinement.iterations = soFar.iterations + limit) := by
  induction limit generalizing s streams soFar with
  | zero =>
    cases run
    exact ⟨h, .inr rfl⟩
  | succ limit ih =>
    simp only [iterate, exec_bind_ok] at run
    obtain ⟨tally, u, first, rest⟩ := run
    have h := kept _ _ _ _ _ _ _ goesOn h first
    split at rest
    · next few =>
      rw [Refinement.after, decide_eq_true few] at h
      cases rest
      exact ⟨h, .inl rfl⟩
    · next many =>
      rw [Refinement.after, decide_eq_false many] at h
      obtain ⟨h, ended⟩ := ih rfl h rest
      exact ⟨h, ended.imp_right fun eq => eq.trans (by dsimp only; omega)⟩

/-- A loop fails in an iteration that began where every earlier one had left what it keeps. -/
theorem exec_iterate_error (kept : KeptByIteration setup sampled threshold I)
    (goesOn : soFar.converged = false) (h : I soFar s)
    (run : (iterate setup schedule sampled threshold streams soFar limit).exec s =
      (.error e, t)) :
    ∃ soFar u turns splitStream joinStream, I soFar u ∧
      (iteration setup turns sampled splitStream joinStream).exec u = (.error e, t) := by
  induction limit generalizing s streams soFar with
  | zero => cases run
  | succ limit ih =>
    rcases exec_bind_error.1 run with fails | ⟨tally, u, first, rest⟩
    · exact ⟨soFar, s, _, _, _, h, fails⟩
    · have h := kept _ _ _ _ _ _ _ goesOn h first
      split at rest
      · cases rest
      · next many =>
        rw [Refinement.after, decide_eq_false many] at h
        exact ih rfl h rest

/-- What holds when the lists are filled and is kept by every iteration holds in front of the
cutoff. -/
theorem exec_refine_ok
    (kept : KeptByIteration setup k.sampled (setup.config.updateThreshold setup.nodeCount) I)
    (filled : ∀ turns stream tally u,
      (fill setup turns stream k.bounded).exec s = (.ok tally, u) → I { pairs := tally.pairs } u)
    (run : (refine setup schedule k limit).exec s = (.ok refinement, t)) :
    I refinement t ∧ (refinement.converged = true ∨ refinement.iterations = limit) := by
  simp only [refine, exec_bind_ok] at run
  obtain ⟨tally, u, first, rest⟩ := run
  obtain ⟨h, ended⟩ := exec_iterate_ok kept rfl (filled _ _ _ _ first) rest
  exact ⟨h, ended.imp_right fun eq => eq.trans (Nat.zero_add limit)⟩

/-- The streams that are left after a number of iterations. -/
def streamsAfter (streams : Streams) : Nat → Streams
  | 0 => streams
  | n + 1 => streamsAfter streams.take.2.take.2 n

/-- A run of more iterations comes through the state of one of fewer, and goes on from there
unless that one converged. -/
theorem iterate_add (setup : Setup) (schedule : Schedule) (sampled threshold m n : Nat)
    (streams : Streams) (soFar : Refinement) (goesOn : soFar.converged = false) :
    iterate setup schedule sampled threshold streams soFar (m + n) =
      (do
        let reached ← iterate setup schedule sampled threshold streams soFar m
        if reached.converged then return reached
        else iterate setup schedule sampled threshold (streamsAfter streams m) reached n) := by
  induction m generalizing streams soFar with
  | zero => simp [iterate, goesOn, streamsAfter]
  | succ m ih =>
    rw [Nat.succ_add, iterate, iterate]
    simp only [bind_assoc, streamsAfter]
    congr 1
    funext tally
    split
    · simp
    · exact ih _ _ rfl

end

end NeighbourGraph.Search
