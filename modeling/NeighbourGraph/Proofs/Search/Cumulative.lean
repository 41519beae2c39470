/-
What searches record, put together from what each comparison records.

A property of recorded events is cumulative if it holds of all that searches with it record, one
after the other or side by side, and of what tasks report while they work. A whole search has such
a property as soon as the few places have it that record anything: comparing two nodes, offering a
candidate and announcing a list.
-/

import NeighbourGraph.Proofs.Search.Accounts
import NeighbourGraph.Proofs.Search.Steps

namespace NeighbourGraph.Search

open NeighbourGraph.Random

/-! ### Cumulative properties -/

/-- A property of recorded events that those of several searches have together, in any order and
with what tasks report. -/
structure Cumulative (P : List Event → Prop) : Prop where
  nil : P []
  append {events later : List Event} : P events → P later → P (events ++ later)
  perm {events later : List Event} : events.Perm later → P events → P later
  advanced (count : Nat) : P [.advanced count]

/-- Whatever it answers, a search records events with `P`. -/
abbrev Records (setup : Setup) (P : List Event → Prop) {α : Type} (p : Search α) : Prop :=
  Logs setup p fun _ events => P events

variable {setup : Setup} {P : List Event → Prop} {α : Type}

theorem records_record {e : Event} (he : e.entered? = none) (h : P [e]) :
    Records setup P (record e) :=
  (logs_record he).imp fun _ _ one => one ▸ h

namespace Cumulative

variable (cumulative : Cumulative P)

include cumulative

theorem replicate {e : Event} (h : P [e]) (count : Nat) : P (.replicate count e) := by
  induction count with
  | zero => exact cumulative.nil
  | succ count ih => exact cumulative.append h ih

theorem records_pure (a : α) : Records setup P (pure a : Search α) := logs_pure cumulative.nil

theorem records_bind {β : Type} {p : Search α} {f : α → Search β} (h : Records setup P p)
    (rest : ∀ a, Records setup P (f a)) : Records setup P (p >>= f) :=
  h.bind fun a _ before => (rest a).imp fun _ _ => cumulative.append before

theorem records_silent {action : State → α × State} (h : ∀ s, (action s).2.log = s.log) :
    Records setup P (atomic action) :=
  (logs_silent h).imp fun _ _ empty => empty ▸ cumulative.nil

theorem congruence : Congruence (fun p _ => Records setup P p) where
  pure := cumulative.records_pure
  bind := cumulative.records_bind
  rounds _ := cumulative.records_silent fun _ => rfl

theorem records_proceed (name : Phase) : Records setup P (proceed setup name) :=
  (logs_proceed name).imp fun _ _ empty => empty ▸ cumulative.nil

/-- What searches record side by side is what they record one by one, in another order. -/
theorem together {ps : List (Search α)} (h : ∀ p ∈ ps, Records setup P p) (turns : Turns) :
    Records setup P (together turns ps) := by
  induction ps generalizing turns with
  | nil => exact cumulative.records_pure []
  | cons p rest ih =>
    have others := ih (fun q hq => h q (by simp [hq])) fun task => turns (task + 1)
    have tolerates : (acting setup).Tolerates (acting setup) := fun _ _ _ => trivial
    have both : Records setup P (beside (turns 0) p
        (Search.together (fun task => turns (task + 1)) rest) 0) := fun s =>
      (meets_beside (h p (by simp) s) (others s) (.refl _) (.refl _) tolerates tolerates
        (turns 0) 0).imp fun _ _ _ ⟨_, _, perm, first, second⟩ =>
          cumulative.perm perm.symm (cumulative.append first second)
    exact cumulative.records_bind both fun _ => cumulative.records_pure _

/-- A phase records its beginning, what its tasks do and its end. -/
theorem phase {work : Nat → Search α} (h : ∀ v, Records setup P (work v)) (turns : Turns)
    (name : Phase) :
    Logs setup (phase setup turns name work) fun _ events => ∃ inner,
      events = .started name setup.nodeCount :: inner ++ [.ended name] ∧ P inner := by
  have advanced : ∀ count, Records setup P (record (.advanced count)) :=
    fun count => records_record rfl (cumulative.advanced count)
  have visited : ∀ v, Records setup P (visit name v) :=
    fun _ => cumulative.records_silent fun _ => rfl
  have tasks : ∀ p ∈ setup.tasks.map (overNodes setup name work), Records setup P p := by
    intro _ ht
    obtain ⟨p, -, rfl⟩ := List.mem_map.1 ht
    exact @Chained.overNodes (fun p _ => Records setup P p) setup setup
      cumulative.congruence.toChained name α work work (cumulative.records_proceed name) advanced
      visited h p
  refine (logs_record rfl).bind ?_
  rintro _ _ rfl
  refine (cumulative.together tasks turns).bind fun answers inner holds => (logs_record rfl).bind ?_
  rintro _ _ rfl
  exact logs_pure ⟨inner, by simp, holds⟩

end Cumulative

/-! ### Searches -/

/-- A cumulative property of what the given parts of a search record. -/
structure Accumulates (setup : Setup) (parts : Origin → Prop) (P : List Event → Prop) : Prop
    extends Cumulative P where
  compared {origin : Origin} (v c : Nat) (x : Float) : parts origin →
    P [.scored origin v c, .considered v c x]
  paired (a b : Nat) (x : Float) : parts .joining → setup.metric.symmetric = true →
    P [.scored .pairing a b, .considered a b x, .considered b a x]
  entered {origin : Origin} (v c : Nat) : parts origin → P [.entered origin v c]
  offered (v : Nat) (ids : List Nat) : P [.offered v ids]

variable {parts : Origin → Prop} (accumulates : Accumulates setup parts P)

include accumulates

theorem Accumulates.steps : Steps (fun p _ => Records setup P p) setup setup parts where
  toChained := accumulates.congruence.toChained
  rules := .refl setup
  consider v c part g := by
    refine (workLogs_consider _ v c g).imp ?_
    rintro _ _ ⟨-, x, rfl⟩
    exact accumulates.append (accumulates.compared v c x part)
      (accumulates.replicate (accumulates.entered v c part) _)
  joinBoth a b joining symmetric g := by
    refine (workLogs_joinBoth a b g).imp ?_
    rintro _ _ (⟨-, rfl⟩ | ⟨-, x, there, back, -, rfl⟩)
    · exact accumulates.nil
    · exact accumulates.append (accumulates.paired a b x joining symmetric) <|
        accumulates.append (accumulates.replicate (accumulates.entered a b joining) _)
          (accumulates.replicate (accumulates.entered b a joining) _)
  failed cause := logs_failed cause
  listOf _ := accumulates.records_silent fun _ => rfl
  offered v ids := records_record rfl (accumulates.offered v ids)
  splitNode _ _ _ := accumulates.records_silent fun s => s.log_withList ..

/-- If the property holds of every report, whole phases have it. -/
theorem Accumulates.phases (reports : ∀ e : Event, e.isProgress = true → P [e])
    (schedule : Schedule) : Phases (fun p _ => Records setup P p) setup setup schedule where
  toCongruence := accumulates.congruence
  proceed name := accumulates.records_proceed name
  report he := records_record (Event.entered?_of_isProgress he) (reports _ he)
  phase name round {_} {_} {_} h := by
    refine (accumulates.phase h (schedule name round) name).imp ?_
    rintro _ _ ⟨inner, rfl, holds⟩
    exact accumulates.append (accumulates.append (reports (.started ..) rfl) holds)
      (reports (.ended name) rfl)

end NeighbourGraph.Search
