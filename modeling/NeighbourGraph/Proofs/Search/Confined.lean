/-
Searches that depend on the lists alone.

A confined search neither reads nor writes anything but the lists, apart from adding to the log:
from all states with the same lists it comes to the same, leaves the same lists and logs the same
events, and it never reports progress. The work on a node is of this kind whatever its generator
is, so what a phase does besides its work makes no difference to the work.
-/

import NeighbourGraph.Proofs.Search.Contract
import NeighbourGraph.Proofs.Search.Steps

namespace NeighbourGraph.Search

open NeighbourGraph.Random

/-- The state with other lists and with more events. -/
def State.working (s : State) (lists : Array NeighbourList) (events : Log) : State :=
  { s with lists, log := s.log ++ events }

section

variable {s : State} {lists lists' : Array NeighbourList} {events events' : Log}

@[simp] theorem State.working_lists : (s.working lists events).lists = lists := rfl

@[simp] theorem State.working_log : (s.working lists events).log = s.log ++ events := rfl

@[simp] theorem State.working_working :
    (s.working lists events).working lists' events' = s.working lists' (events ++ events') := by
  simp [State.working]

theorem State.working_self (eq : s.lists = lists) : s.working lists #[] = s := by
  subst eq
  simp [State.working]

theorem State.record_eq_working (s : State) (e : Event) : s.record e = s.working s.lists #[e] := by
  simp [State.record, State.working]

end

/-- Started with the same lists, the search comes to the same and logs the same events. -/
def Confined {α : Type} (p : Search α) : Prop :=
  ∀ s : State, ∃ events : Log, (∀ e ∈ events, e.isProgress = false) ∧
    ∀ t : State, t.lists = s.lists →
      p.exec t = ((p.exec s).1, t.working (p.exec s).2.lists events)

section

variable {α β : Type} {p : Search α}

/-! ### Searches -/

theorem confined_pure {a : α} : Confined (pure a : Search α) :=
  fun _ => ⟨#[], by simp, fun _ eq => by simp [State.working_self eq]⟩

theorem confined_failed {cause : SearchError} : Confined (.failed cause : Search α) :=
  fun _ => ⟨#[], by simp, fun _ eq => by simp [State.working_self eq]⟩

theorem Confined.bind {f : α → Search β} (h : Confined p) (rest : ∀ a, Confined (f a)) :
    Confined (p >>= f) := by
  intro s
  obtain ⟨events, work, same⟩ := h s
  cases first : p.exec s with
  | mk r u =>
    rw [first] at same
    cases r with
    | error cause =>
      refine ⟨events, work, fun t eq => ?_⟩
      simp [exec_bind, first, same t eq]
    | ok a =>
      obtain ⟨later, work', same'⟩ := rest a u
      refine ⟨events ++ later, ?_, fun t eq => ?_⟩
      · intro e he
        exact (Array.mem_append.1 he).elim (work e) (work' e)
      · simp [exec_bind, first, same t eq, same' (t.working u.lists events) rfl]

/-- An action is confined if it finds its answer in the lists and adds to the log. -/
theorem confined_atomic {action : State → α × State} (f : Array NeighbourList → α)
    (change : Array NeighbourList → Array NeighbourList) (events : Array NeighbourList → Log)
    (work : ∀ lists, ∀ e ∈ events lists, e.isProgress = false)
    (acts : ∀ s, action s = (f s.lists, s.working (change s.lists) (events s.lists))) :
    Confined (atomic action) := by
  intro s
  refine ⟨events s.lists, work _, fun t eq => ?_⟩
  simp [acts, eq]

theorem confined_record {e : Event} (he : e.isProgress = false) : Confined (record e) :=
  confined_atomic (fun _ => ()) id (fun _ => #[e]) (by simp [he]) fun s => by
    rw [State.record_eq_working, id]

theorem confined_listOf (node : Nat) : Confined (listOf node) :=
  confined_atomic (fun lists => (lists[node]?.map NeighbourList.ids).getD []) id (fun _ => #[])
    (by simp) fun s => by
      rw [id, State.working_self rfl]
      cases s.lists[node]? <;> rfl

/-- Working on a list needs nothing of a state but its lists. -/
theorem State.withList_eq (s : State) (v : Nat) (f : NeighbourList → α × NeighbourList) (a : α) :
    s.withList v f a = ((State.withList { lists := s.lists } v f a).1,
      s.working (State.withList { lists := s.lists } v f a).2.lists #[]) := by
  unfold State.withList
  cases s.lists[v]? <;> simp [State.working]

theorem confined_withList (v : Nat) (f : NeighbourList → α × NeighbourList) (a : α) :
    Confined (atomic fun s => s.withList v f a) :=
  confined_atomic (fun lists => (State.withList { lists } v f a).1)
    (fun lists => (State.withList { lists } v f a).2.lists) (fun _ => #[]) (by simp)
    fun s => s.withList_eq v f a

theorem confined_countEntered (origin : Origin) (v c : Nat)
    (f : NeighbourList → (Bool × Generator) × NeighbourList) (a : Bool × Generator) :
    Confined (atomic fun s => State.countEntered origin v c (s.withList v f a)) := by
  let add (lists : Array NeighbourList) := State.withList { lists } v f a
  refine confined_atomic (fun lists => ((add lists).1.1.toNat, (add lists).1.2))
    (fun lists => (add lists).2.lists)
    (fun lists => if (add lists).1.1 then #[.entered origin v c] else #[]) ?_ fun s => ?_
  · intro lists e he
    split at he <;> simp_all [Event.isProgress]
  · rw [State.withList_eq]
    change State.countEntered origin v c ((add s.lists).1, s.working (add s.lists).2.lists #[]) = _
    rcases (add s.lists).1 with ⟨_ | _, g⟩
    · rfl
    · simp [State.countEntered, State.record_eq_working]

/-- What a confined search makes of a state. -/
theorem Confined.exec (h : Confined p) (s : State) :
    ∃ events : Log, (∀ e ∈ events, e.isProgress = false) ∧
      (p.exec s).2 = s.working (p.exec s).2.lists events := by
  obtain ⟨events, work, same⟩ := h s
  exact ⟨events, work, congrArg Prod.snd (same s rfl)⟩

end

/-! ### The work on a node -/

theorem chained_confined : Chained fun p _ => Confined p where
  pure _ := confined_pure
  bind := Confined.bind

section

variable (setup : Setup)

theorem confined_score (origin : Origin) (a b : Nat) : Confined (score setup origin a b) := by
  refine (confined_record rfl).bind fun _ => ?_
  split
  · exact confined_pure
  · exact confined_failed

/-- Work is confined whatever random words it takes. -/
abbrev ConfinedWork {α : Type} (w : Work α) : Prop := Works (fun p _ => Confined p) w w

theorem confinedWork_splitNode (sampled v : Nat) : ConfinedWork (splitNode sampled v) :=
  fun _ => confined_withList v _ _

theorem steps_confined : Steps (fun p _ => Confined p) setup setup fun _ => True where
  toComparing := chained_confined.comparing (.refl setup) (fun _ => confined_failed)
    (confined_score setup) (fun _ _ _ => confined_record rfl)
    fun origin v c _ _ => confined_countEntered origin v c _ _
  listOf := confined_listOf
  offered _ _ := confined_record rfl
  splitNode := confinedWork_splitNode

theorem confined_fillNode (stream : Stream) (count v : Nat) :
    Confined (seeded stream v (fillNode setup count v)) :=
  chained_confined.seeded ((steps_confined setup).fillNode trivial count v) stream v

theorem confined_splitNode (stream : Stream) (sampled v : Nat) :
    Confined (seeded stream v (splitNode sampled v)) :=
  chained_confined.seeded (confinedWork_splitNode sampled v) stream v

theorem confined_joinNode (c : Candidates) (stream : Stream) (sampled v : Nat) :
    Confined (seeded stream v (joinNode setup c sampled v)) :=
  chained_confined.seeded ((steps_confined setup).joinNode trivial trivial c sampled v) stream v

end

end NeighbourGraph.Search
