/-
Reports of progress.

A tracker is told when a phase begins, how much of it is done now and then, and when it ends. It
reports the beginning and the end, and in between each time the work done passes a tenth of the
volume. What is done counts modulo `countLimit`.
-/

import NeighbourGraph.Number.Count

namespace NeighbourGraph.Progress

open NeighbourGraph.Number

/-- What is reported. -/
inductive Report where
  | started (phase : String) (volume : Nat)
  | passed (done volume percent : Nat)
  | finished (phase : String) (done : Nat)
  deriving DecidableEq, Repr

namespace Report

/-- How loud a report is. -/
def level : Report → String
  | .started .. | .finished .. => "INFO"
  | .passed .. => "DEBUG"

def message : Report → String
  | .started .. => "phase started"
  | .passed .. => "phase progress"
  | .finished .. => "phase finished"

/-- The named values of a report, as text. -/
def fields : Report → List (String × String)
  | .started phase volume => [("phase", phase), ("volume", toString volume)]
  | .passed done volume percent =>
    [("done", toString done), ("volume", toString volume), ("percent", toString percent)]
  | .finished phase done => [("phase", phase), ("done", toString done)]

end Report

/-- The phase under way. -/
structure Tracker where
  volume : Nat := 0
  done : Nat := 0
  deriving DecidableEq, Repr

namespace Tracker

/-- How much work one step of the reports stands for: a tenth of the volume, at least one. -/
def step (volume : Nat) : Nat := max (volume / 10) 1

/-- A phase begins. -/
def start (_ : Tracker) (phase : String) (volume : Nat) : List Report × Tracker :=
  ([.started phase volume], ⟨volume, 0⟩)

/-- An amount is done. The report names no more than the volume. -/
def advance (t : Tracker) (amount : Nat) : List Report × Tracker :=
  let after := min (t.done + amount) t.volume
  let reports :=
    if t.volume = 0 ∨ t.done / step t.volume = after / step t.volume then []
    else [.passed after t.volume (min (after * 100) countMax / t.volume)]
  (reports, { t with done := (t.done + amount) % countLimit })

/-- A phase ends. -/
def finish (t : Tracker) (phase : String) : List Report × Tracker :=
  ([.finished phase t.done], t)

end Tracker

end NeighbourGraph.Progress
