/-
Searches that do not fail.

Where a search is not told to stop, handing out entries and dropping neighbours come to their end
from any state and under any turns.
-/

import NeighbourGraph.Proofs.Search.Work
import NeighbourGraph.Search.Run

namespace NeighbourGraph.Search

open NeighbourGraph.Random

/-- The contract of searches that do not fail. -/
def unfailing : Contract where
  rely _ _ := True
  guarantee _ _ := True
  fails _ := False
  rely_refl _ := trivial
  rely_trans _ _ := trivial
  rely_notes _ := trivial
  still _ := trivial
  notes _ := trivial

/-- From any state, the search comes to its end. -/
def Finishes {α : Type} (p : Search α) : Prop := ∀ s, Meets unfailing p (fun _ _ _ => True) s

section

variable {setup : Setup} {α β : Type} {p : Search α}

theorem Finishes.exec (h : Finishes p) (s : State) : ∃ a t, p.exec s = (.ok a, t) := by
  cases run : p.exec s with
  | mk r t =>
    cases r with
    | ok a => exact ⟨a, t, rfl⟩
    | error e => exact ((h s).exec_error run).elim

theorem finishes_pure {a : α} : Finishes (pure a : Search α) := fun _ _ _ => trivial

theorem Finishes.bind {f : α → Search β} (h : Finishes p) (rest : ∀ a, Finishes (f a)) :
    Finishes (p >>= f) :=
  fun s => Meets.bind ((h s).imp fun a _ t _ => rest a t)

theorem finishes_record (e : Event) : Finishes (record e) :=
  fun _ => meets_atomic fun _ _ => ⟨trivial, [e], by simp [State.record], fun _ _ => trivial⟩

theorem finishes_withList (v : Nat) (f : NeighbourList → α × NeighbourList) (otherwise : α) :
    Finishes (atomic fun s => s.withList v f otherwise) := by
  refine fun _ => meets_atomic fun t _ => ⟨trivial, [], ?_, fun _ _ => trivial⟩
  unfold State.withList
  cases t.lists[v]? <;> simp

theorem finishes_proceed (goesOn : ∀ log, setup.stopped log = false) (name : Phase) :
    Finishes (proceed setup name) :=
  fun _ => (meets_proceed (fun log _ told => by simp [goesOn log] at told) name).imp
    fun _ _ _ _ => trivial

theorem finishes_phase (goesOn : ∀ log, setup.stopped log = false) {work : Nat → Search α}
    (works : ∀ v, Finishes (work v)) (turns : Turns) (name : Phase) :
    Finishes (phase setup turns name work) :=
  fun s => (meets_phase_shared (fun _ _ _ => trivial)
    (fun log _ told => by simp [goesOn log] at told) (fun v _ => works v s) turns).imp
    fun _ _ _ _ => trivial

/-! ### Phases that score nothing -/

theorem finishes_candidates (goesOn : ∀ log, setup.stopped log = false) (turns : Turns)
    (stream : Stream) (sampled : Nat) : Finishes (candidates setup turns stream sampled) := by
  have works : ∀ v, Finishes (seeded stream v (splitNode sampled v)) :=
    fun v => (finishes_withList v _ _).bind fun _ => finishes_pure
  exact (finishes_proceed goesOn _).bind fun _ => (finishes_phase goesOn works turns _).bind
    fun _ => (finishes_proceed goesOn _).bind fun _ => (finishes_record _).bind
    fun _ => (finishes_record _).bind fun _ => (finishes_record _).bind fun _ => finishes_pure

theorem finishes_applyCutoff (goesOn : ∀ log, setup.stopped log = false) (turns : Turns) :
    Finishes (applyCutoff setup turns) := by
  unfold applyCutoff
  dsimp only
  split
  · exact (finishes_proceed goesOn _).bind fun _ =>
      (finishes_phase goesOn (fun v => finishes_withList v _ _) turns _).bind
        fun _ => finishes_pure
  · exact finishes_pure

end

end NeighbourGraph.Search
