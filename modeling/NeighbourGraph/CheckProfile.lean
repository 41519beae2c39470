/-
The profile of randomised checks: how many cases they run, and whether each runs in a process of
its own. Two settings given as text override the defaults; one that cannot be read is ignored.
-/

import NeighbourGraph.Number.Reading
import NeighbourGraph.Text.Blank

namespace NeighbourGraph

open NeighbourGraph.Number NeighbourGraph.Text

/-- How randomised checks run. -/
structure CheckProfile where
  cases : Nat
  fork : Bool
  deriving DecidableEq, Repr

namespace CheckProfile

/-- Case counts are below this bound. -/
def casesLimit : Nat := UInt32.size

/-- A positive count of cases, blanks around it ignored. -/
def readCases (text : String) : Option Nat :=
  match readCount (trimmed text) with
  | .ok n => if n ≠ 0 ∧ n < casesLimit then some n else none
  | .error _ => none

/-- A truth value by one of its names in any case, blanks around it ignored. -/
def readFlag (text : String) : Option Bool :=
  match lowered (trimmed text) with
  | "1" | "true" | "yes" | "on" => some true
  | "0" | "false" | "no" | "off" => some false
  | _ => none

/-- The defaults with what the texts override. -/
def load (cases fork : Option String) (defaultCases : Nat) (defaultFork : Bool) : CheckProfile :=
  ⟨(cases.bind readCases).getD defaultCases, (fork.bind readFlag).getD defaultFork⟩

end CheckProfile

end NeighbourGraph
