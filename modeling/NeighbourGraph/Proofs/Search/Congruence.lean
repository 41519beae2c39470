/-
Relations between searches that whole searches inherit from their phases.

A chained relation holds of two searches that do related things one after the other, and a
congruence holds besides of the account of the iterations. Whatever else it says, it holds of two
iterations, loops and descents as soon as it holds of their phases, so it is the phases alone that
a relation between searches has to be shown for. A property of searches is a relation between
searches that are the same.
-/

import NeighbourGraph.Search.Run

namespace NeighbourGraph

open NeighbourGraph.Random NeighbourGraph.Search

/-- Two setups under which searches have the same streams and thresholds. -/
structure Setup.SameCourse (setup setup' : Setup) : Prop where
  nodeCount : setup.nodeCount = setup'.nodeCount
  seed : setup.seed = setup'.seed
  updateThreshold : setup.config.updateThreshold = setup'.config.updateThreshold

/-- Besides, searches have as many iterations at most and the same cutoff. -/
structure Setup.SameExtent (setup setup' : Setup) : Prop extends setup.SameCourse setup' where
  maxIterations : setup.config.maxIterations = setup'.config.maxIterations
  similarityCutoff : setup.config.similarityCutoff = setup'.config.similarityCutoff

namespace Search

/-- A relation that is kept when searches follow one another. -/
structure Chained (R : {α : Type} → Search α → Search α → Prop) : Prop where
  protected pure {α : Type} (a : α) : R (pure a) (pure a)
  protected bind {α β : Type} {p q : Search α} {f f' : α → Search β} :
    R p q → (∀ a, R (f a) (f' a)) → R (p >>= f) (q >>= f')

/-- A chained relation that holds of the account of the iterations. -/
structure Congruence (R : {α : Type} → Search α → Search α → Prop) : Prop extends Chained R where
  rounds (f : Array (Option Tally) → Array (Option Tally)) :
    R (atomic fun s => ((), { s with rounds := f s.rounds }))
      (atomic fun s => ((), { s with rounds := f s.rounds }))

variable {R : {α : Type} → Search α → Search α → Prop} {setup setup' : Setup}
  {schedule : Schedule}

/-- Searches that do related things one after the other are related. -/
theorem Chained.mapM {ι α : Type} {f f' : ι → Search α} {is : List ι} (chained : Chained R)
    (h : ∀ i ∈ is, R (f i) (f' i)) : R (is.mapM f) (is.mapM f') := by
  induction is with
  | nil => exact chained.pure []
  | cons i is ih =>
    rw [List.mapM_cons, List.mapM_cons]
    exact chained.bind (h i (by simp)) fun _ =>
      chained.bind (ih fun j hj => h j (by simp [hj])) fun _ => chained.pure _

namespace Congruence

theorem iteration (congr : Congruence R) {turns : Phase → Turns} {sampled : Nat}
    {splitStream joinStream : Stream}
    (split : R (candidates setup (turns .split) splitStream sampled)
      (candidates setup' (turns .split) splitStream sampled))
    (joined : ∀ c, R (join setup (turns .join) c joinStream sampled)
      (join setup' (turns .join) c joinStream sampled)) :
    R (iteration setup turns sampled splitStream joinStream)
      (iteration setup' turns sampled splitStream joinStream) :=
  congr.bind (congr.rounds (·.push none)) fun _ => congr.bind split fun c =>
    congr.bind (joined c) fun tally => congr.bind (congr.rounds (·.pop.push (some tally))) fun _ =>
      congr.pure _

/-- Related iterations make related loops. -/
theorem iterate (congr : Congruence R) {sampled : Nat}
    (split : ∀ round stream, R (candidates setup (schedule .split round) stream sampled)
      (candidates setup' (schedule .split round) stream sampled))
    (joined : ∀ round c stream, R (join setup (schedule .join round) c stream sampled)
      (join setup' (schedule .join round) c stream sampled))
    (threshold : Nat) (streams : Streams) (soFar : Refinement) (limit : Nat) :
    R (iterate setup schedule sampled threshold streams soFar limit)
      (iterate setup' schedule sampled threshold streams soFar limit) := by
  induction limit generalizing streams soFar with
  | zero => exact congr.pure _
  | succ limit ih =>
    refine congr.bind (congr.iteration (split _ _) fun c => joined _ c _) fun tally => ?_
    split
    · exact congr.pure _
    · exact ih _ _

/-- The lists are filled and refined in related ways, however often searches iterate. -/
theorem refine (congr : Congruence R) (course : setup.SameCourse setup') {k : ListSize}
    (filled : ∀ stream, R (fill setup (schedule .initialization 0) stream k.bounded)
      (fill setup' (schedule .initialization 0) stream k.bounded))
    (split : ∀ round stream, R (candidates setup (schedule .split round) stream k.sampled)
      (candidates setup' (schedule .split round) stream k.sampled))
    (joined : ∀ round c stream, R (join setup (schedule .join round) c stream k.sampled)
      (join setup' (schedule .join round) c stream k.sampled))
    (limit : Nat) : R (refine setup schedule k limit) (refine setup' schedule k limit) := by
  unfold Search.refine
  rw [course.seed, course.updateThreshold, course.nodeCount]
  exact congr.bind (filled _) fun _ => congr.iterate split joined _ _ _ _

theorem applyCutoff (congr : Congruence R) (extent : setup.SameExtent setup') {turns : Turns}
    (cut : ∀ cutoff, R (do proceed setup .cutoff; phase setup turns .cutoff (dropNode cutoff))
      (do proceed setup' .cutoff; phase setup' turns .cutoff (dropNode cutoff))) :
    R (applyCutoff setup turns) (applyCutoff setup' turns) := by
  have dropped := fun cutoff => congr.bind (cut cutoff) fun _ => congr.pure ()
  simp only [bind_assoc] at dropped
  unfold Search.applyCutoff
  rw [extent.similarityCutoff]
  dsimp only
  split
  · exact dropped _
  · exact congr.pure _

/-- Whole searches are related if their phases are, and a look at the lists. -/
theorem descend (congr : Congruence R) (extent : setup.SameExtent setup') {k : ListSize}
    (lists : R (atomic fun s => (s.lists, s)) (atomic fun s => (s.lists, s)))
    (filled : ∀ stream, R (fill setup (schedule .initialization 0) stream k.bounded)
      (fill setup' (schedule .initialization 0) stream k.bounded))
    (split : ∀ round stream, R (candidates setup (schedule .split round) stream k.sampled)
      (candidates setup' (schedule .split round) stream k.sampled))
    (joined : ∀ round c stream, R (join setup (schedule .join round) c stream k.sampled)
      (join setup' (schedule .join round) c stream k.sampled))
    (cut : ∀ cutoff,
      R (do proceed setup .cutoff; phase setup (schedule .cutoff 0) .cutoff (dropNode cutoff))
        (do proceed setup' .cutoff; phase setup' (schedule .cutoff 0) .cutoff (dropNode cutoff))) :
    R (descend setup schedule k) (descend setup' schedule k) := by
  unfold Search.descend
  rw [extent.maxIterations]
  exact congr.bind (congr.refine extent.toSameCourse filled split joined _) fun _ =>
    congr.bind (congr.applyCutoff extent cut) fun _ => congr.bind lists fun _ => congr.pure _

end Congruence

end Search

end NeighbourGraph
