/-
Stop flags: a caller raises one to end a search, and any number of handles may share it.

Flags are never lowered. A handle is a number; it is made fresh, with a flag of its own, or as
another handle onto the flag of one that exists.
-/

import NeighbourGraph.Search.Basic

namespace NeighbourGraph

/-- Handles and the flags they stand for. -/
structure StopFlags where
  /-- The flag of each handle. -/
  flagOf : Array Nat := #[]
  /-- Whether each flag is raised. -/
  raised : Array Bool := #[]

namespace StopFlags

/-- A new handle with a flag of its own, lowered. -/
def fresh (s : StopFlags) : Nat × StopFlags :=
  (s.flagOf.size, ⟨s.flagOf.push s.raised.size, s.raised.push false⟩)

/-- A new handle onto the flag of `handle`. -/
def share (s : StopFlags) (handle : Nat) : Nat × StopFlags :=
  (s.flagOf.size, { s with flagOf := s.flagOf.push (s.flagOf.getD handle s.raised.size) })

/-- Raises the flag of a handle. -/
def raise (s : StopFlags) (handle : Nat) : StopFlags :=
  { s with raised := s.raised.setIfInBounds (s.flagOf.getD handle s.raised.size) true }

/-- The flag of a handle is not raised. -/
def isRunning (s : StopFlags) (handle : Nat) : Bool :=
  match s.flagOf[handle]? with
  | none => true
  | some flag => !s.raised.getD flag false

/-- Ends the named phase if the flag of a handle is raised. -/
def assertRunning (s : StopFlags) (handle : Nat) (phase : String) : Except SearchError Unit :=
  if s.isRunning handle then .ok () else .error (.cancelled phase)

end StopFlags

end NeighbourGraph
