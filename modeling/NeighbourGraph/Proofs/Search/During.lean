/-
The parts of a log that belong to the phases of one name.

`during name` cuts a log into what was recorded in each phase of that name. While a search records
nothing that begins such a phase, or just one whole phase of it, the parts of all that was recorded
follow one another: `Spans` says so of recorded events, whatever is recorded later.
-/

import NeighbourGraph.Proofs.Search.Cumulative
import NeighbourGraph.Proofs.Search.Run

namespace NeighbourGraph

open NeighbourGraph.Random NeighbourGraph.Search

namespace Event

/-- A phase of that name begins. -/
def starts (name : Phase) : Event → Bool
  | .started phase _ => phase == name
  | _ => false

/-- No phase begins or ends. -/
def isWithin : Event → Bool
  | .started .. | .ended _ => false
  | _ => true

end Event

/-- What was recorded in each phase of a name, in order. -/
def during (name : Phase) : List Event → List (List Event)
  | [] => []
  | e :: rest =>
    if e.starts name then rest.takeWhile Event.isWithin :: during name rest else during name rest

/-! ### Logs -/

section

variable {name : Phase} {events later rest : List Event} {parts parts' : List (List Event)}

/-- No phase of that name begins. -/
def Quiet (name : Phase) (events : List Event) : Prop := ∀ e ∈ events, e.starts name = false

theorem during_append_of_quiet (quiet : Quiet name events) (rest : List Event) :
    during name (events ++ rest) = during name rest := by
  induction events with
  | nil => rfl
  | cons e events ih =>
    rw [List.cons_append, during, quiet e (by simp), if_neg Bool.false_ne_true,
      ih fun e he => quiet e (by simp [he])]

theorem quiet_of_isWithin (within : ∀ e ∈ events, e.isWithin = true) : Quiet name events := by
  intro e he
  have := within e he
  cases e <;> simp_all [Event.isWithin, Event.starts]

/-- The events have these parts in phases of that name, and no later event changes that. -/
def Spans (name : Phase) (events : List Event) (parts : List (List Event)) : Prop :=
  ∀ rest, during name (events ++ rest) = parts ++ during name rest

theorem Spans.during_eq (h : Spans name events parts) : during name events = parts := by
  simpa [during] using h []

theorem Spans.append (h : Spans name events parts) (h' : Spans name later parts') :
    Spans name (events ++ later) (parts ++ parts') := by
  intro rest
  rw [List.append_assoc, h, h', List.append_assoc]

theorem Quiet.spans (quiet : Quiet name events) : Spans name events [] :=
  during_append_of_quiet quiet

/-- A whole phase is one part. -/
theorem spans_phase (name : Phase) (volume : Nat)
    (within : ∀ e ∈ events, e.isWithin = true) :
    Spans name (.started name volume :: events ++ [.ended name]) [events] := by
  intro rest
  have quiet : Quiet name (events ++ [.ended name]) := by
    intro e he
    rcases List.mem_append.1 he with he | he
    · exact quiet_of_isWithin within e he
    · rw [List.mem_singleton.1 he]
      rfl
  have cut : (events ++ [Event.ended name] ++ rest).takeWhile Event.isWithin = events := by
    rw [List.append_assoc, List.takeWhile_append_of_pos within]
    simp [Event.isWithin]
  rw [List.cons_append, List.cons_append, during, cut, during_append_of_quiet quiet]
  simp [Event.starts]

end

/-! ### Searches -/

namespace Search

variable {setup : Setup} {α : Type} {p : Event → Prop}

theorem cumulative_forall (advanced : ∀ count, p (.advanced count)) :
    Cumulative fun events => ∀ e ∈ events, p e where
  nil := by simp
  append h h' := by
    intro e he
    exact (List.mem_append.1 he).elim (h e) (h' e)
  perm perm h e he := h e (perm.mem_iff.2 he)
  advanced count := by simpa using advanced count

theorem accumulates_forall (advanced : ∀ count, p (.advanced count))
    (works : ∀ e, e.isProgress = false → p e) :
    Accumulates setup (fun _ => True) fun events => ∀ e ∈ events, p e where
  toCumulative := cumulative_forall advanced
  compared _ _ _ _ := by
    simp only [List.forall_mem_cons]
    exact ⟨works _ rfl, works _ rfl, by simp⟩
  paired _ _ _ _ _ := by
    simp only [List.forall_mem_cons]
    exact ⟨works _ rfl, works _ rfl, works _ rfl, by simp⟩
  entered _ _ _ := by simpa using works _ rfl
  offered _ _ := by simpa using works _ rfl

theorem records_phase {name : Phase} (started : ∀ volume, p (.started name volume))
    (advanced : ∀ count, p (.advanced count)) (ended : p (.ended name)) {work : Nat → Search α}
    (h : ∀ v, Records setup (fun events => ∀ e ∈ events, p e) (work v)) (turns : Turns) :
    Records setup (fun events => ∀ e ∈ events, p e) (phase setup turns name work) := by
  refine ((cumulative_forall advanced).phase h turns name).imp ?_
  rintro _ _ ⟨inner, rfl, holds⟩ e he
  simp only [List.mem_cons, List.mem_append, List.mem_nil_iff, or_false] at he
  rcases he with (rfl | he) | rfl
  · exact started _
  · exact holds e he
  · exact ended

/-- No join phase begins while the lists are filled. -/
theorem records_fill (turns : Turns) (stream : Stream) (count : Nat) :
    Records setup (Quiet .join) (fill setup turns stream count) := by
  have accumulates : Accumulates setup (fun _ => True) (Quiet .join) :=
    accumulates_forall (fun _ => rfl) fun e he => by cases e <;> first | rfl | cases he
  have filled : ∀ v, Records setup (Quiet .join) (seeded stream v (fillNode setup count v)) :=
    fun v => accumulates.steps.seeded (accumulates.steps.fillNode trivial count v) stream v
  exact accumulates.records_bind (records_phase (p := (·.starts .join = false)) (fun _ => rfl)
    (fun _ => rfl) rfl filled turns) fun _ => accumulates.records_pure _

/-- Reports that begin no join phase. -/
def Aside (events : List Event) : Prop :=
  ∀ e ∈ events, e.isProgress = true ∧ e.starts .join = false

theorem cumulative_aside : Cumulative Aside := cumulative_forall fun _ => ⟨rfl, rfl⟩

/-- Handing out entries is only reported. -/
theorem records_candidates (turns : Turns) (stream : Stream) (sampled : Nat) :
    Records setup Aside (candidates setup turns stream sampled) := by
  have cumulative := cumulative_aside
  have handsOut : ∀ v, Records setup Aside (seeded stream v (splitNode sampled v)) := fun v =>
    logs_seeded (fun _ => cumulative.records_silent fun s => s.log_withList ..) stream v
  have report : ∀ e : Event, e.isProgress = true → e.starts .join = false →
      Records setup Aside (record e) := fun e he other =>
    records_record (Event.entered?_of_isProgress he) (by simp [Aside, he, other])
  have split : Records setup Aside (phase setup turns .split fun v =>
      seeded stream v (splitNode sampled v)) :=
    records_phase (fun _ => ⟨rfl, rfl⟩) (fun _ => ⟨rfl, rfl⟩) ⟨rfl, rfl⟩ handsOut turns
  exact cumulative.records_bind (cumulative.records_proceed .split) fun _ =>
    cumulative.records_bind split fun _ =>
      cumulative.records_bind (cumulative.records_proceed .reverse) fun _ =>
        cumulative.records_bind (report _ rfl rfl) fun _ =>
          cumulative.records_bind (report _ rfl rfl) fun _ =>
            cumulative.records_bind (report _ rfl rfl) fun _ => cumulative.records_pure _

/-- Applying the cutoff is only reported. -/
theorem records_applyCutoff (turns : Turns) :
    Records setup Aside (applyCutoff setup turns) := by
  have cumulative := cumulative_aside
  have drops : ∀ cutoff v, Records setup Aside (dropNode cutoff v) :=
    fun _ _ => cumulative.records_silent fun s => s.log_withList ..
  unfold applyCutoff
  dsimp only
  split
  · exact cumulative.records_bind (cumulative.records_proceed .cutoff) fun _ =>
      cumulative.records_bind (records_phase (fun _ => ⟨rfl, rfl⟩) (fun _ => ⟨rfl, rfl⟩)
        ⟨rfl, rfl⟩ (drops _) turns) fun _ => cumulative.records_pure _
  · exact cumulative.records_pure _

end Search

end NeighbourGraph
