/-
The shape of a log that is made of phases.

A phase announces its beginning with the number of nodes as its volume, reports amounts that add
up to it, and announces its end; the initialization announces the list of every node besides, in
order, and no other phase any list. `Trace` is a log of whole phases with nothing between them,
`TracePart` one that ends early, which is the beginning of a whole one.
-/

import Mathlib.Algebra.Ring.Nat
import NeighbourGraph.Proofs.Search.During

namespace NeighbourGraph

namespace Event

/-- The amount of work that an event reports. -/
def amount : Event → Nat
  | .advanced count => count
  | _ => 0

/-- The node whose list an event announces. -/
def announced? : Event → Option Nat
  | .offered node _ => some node
  | _ => none

end Event

/-! ### Shapes -/

/-- What is logged within a phase: no phase begins or ends, the amounts reported add up to
`amount`, and the lists of `nodes` are announced, in order. -/
structure Inside (amount : Nat) (nodes : List Nat) (events : List Event) : Prop where
  within : ∀ e ∈ events, e.isWithin = true
  amount : (events.map Event.amount).sum = amount
  announced : events.filterMap Event.announced? = nodes

/-- What is logged within a phase up to some moment. -/
structure Partway (amount : Nat) (nodes : List Nat) (events : List Event) : Prop where
  within : ∀ e ∈ events, e.isWithin = true
  amount_le : (events.map Event.amount).sum ≤ amount
  announced : events.filterMap Event.announced? <+: nodes

/-- The nodes whose lists a phase announces. -/
def announcedIn (name : Phase) (nodeCount : Nat) : List Nat :=
  if name = .initialization then List.range nodeCount else []

/-- A whole phase: it begins, with the number of nodes as its volume, does as much and ends. -/
def Bracket (nodeCount : Nat) (name : Phase) (events : List Event) : Prop :=
  ∃ inner, events = .started name nodeCount :: inner ++ [.ended name] ∧
    Inside nodeCount (announcedIn name nodeCount) inner

/-- A phase that has begun and not ended. -/
def Opening (nodeCount : Nat) (name : Phase) (events : List Event) : Prop :=
  ∃ inner, events = .started name nodeCount :: inner ∧
    Partway nodeCount (announcedIn name nodeCount) inner

/-- Whole phases of these names, one after the other. -/
inductive Trace (nodeCount : Nat) : List Phase → List Event → Prop
  | nil : Trace nodeCount [] []
  | cons {name : Phase} {names : List Phase} {events later : List Event} :
      Bracket nodeCount name events → Trace nodeCount names later →
      Trace nodeCount (name :: names) (events ++ later)

/-- Whole phases of the first of these names; after them nothing, or the next one, still open. -/
inductive TracePart (nodeCount : Nat) : List Phase → List Event → Prop
  | stopped (names : List Phase) : TracePart nodeCount names []
  | opened {name : Phase} {names : List Phase} {events : List Event} :
      Opening nodeCount name events → TracePart nodeCount (name :: names) events
  | cons {name : Phase} {names : List Phase} {events later : List Event} :
      Bracket nodeCount name events → TracePart nodeCount names later →
      TracePart nodeCount (name :: names) (events ++ later)

section

variable {nodeCount amount amount' : Nat} {nodes nodes' : List Nat} {names names' : List Phase}
  {events later : List Event}

theorem inside_nil : Inside 0 [] [] := ⟨by simp, rfl, rfl⟩

theorem Inside.append (h : Inside amount nodes events) (h' : Inside amount' nodes' later) :
    Inside (amount + amount') (nodes ++ nodes') (events ++ later) where
  within e he := (List.mem_append.1 he).elim (h.within e) (h'.within e)
  amount := by rw [List.map_append, List.sum_append, h.amount, h'.amount]
  announced := by rw [List.filterMap_append, h.announced, h'.announced]

theorem partway_nil (amount : Nat) (nodes : List Nat) : Partway amount nodes [] :=
  ⟨by simp, Nat.zero_le _, List.nil_prefix⟩

theorem Inside.partway (h : Inside amount nodes events) (h' : Partway amount' nodes' later) :
    Partway (amount + amount') (nodes ++ nodes') (events ++ later) where
  within e he := (List.mem_append.1 he).elim (h.within e) (h'.within e)
  amount_le := by
    rw [List.map_append, List.sum_append, h.amount]
    exact Nat.add_le_add_left h'.amount_le _
  announced := by
    rw [List.filterMap_append, h.announced]
    exact (List.prefix_append_right_inj _).2 h'.announced

theorem Partway.more (h : Partway amount nodes events) (amount' : Nat) (nodes' : List Nat) :
    Partway (amount + amount') (nodes ++ nodes') events :=
  ⟨h.within, Nat.le_add_right_of_le h.amount_le, h.announced.trans (List.prefix_append _ _)⟩

/-- What is left can be done: announce the other lists and report the other amount. -/
theorem Partway.completes (h : Partway amount nodes events) :
    ∃ rest, Inside amount nodes (events ++ rest) := by
  obtain ⟨others, rfl⟩ := h.announced
  let announcements := others.map fun v => Event.offered v []
  have noAmount : (announcements.map Event.amount).sum = 0 := by
    simp [announcements, Event.amount, Function.comp_def]
  have all : announcements.filterMap Event.announced? = others := by
    simp [announcements, List.filterMap_map, Function.comp_def, Event.announced?]
  refine ⟨announcements ++ [.advanced (amount - (events.map Event.amount).sum)], ?_, ?_, ?_⟩
  · intro e he
    simp only [List.mem_append, List.mem_singleton, announcements, List.mem_map] at he
    rcases he with he | ⟨v, -, rfl⟩ | rfl
    · exact h.within e he
    · rfl
    · rfl
  · have := h.amount_le
    simp only [List.map_append, List.sum_append, noAmount, List.map_cons, List.map_nil,
      List.sum_cons, List.sum_nil, Event.amount]
    omega
  · simp only [List.filterMap_append, all]
    simp [Event.announced?]

theorem Bracket.trace {name : Phase} (h : Bracket nodeCount name events) :
    Trace nodeCount [name] events := by
  simpa using Trace.cons h .nil

theorem Trace.append (h : Trace nodeCount names events) (h' : Trace nodeCount names' later) :
    Trace nodeCount (names ++ names') (events ++ later) := by
  induction h with
  | nil => exact h'
  | cons first _ ih =>
    rw [List.append_assoc]
    exact .cons first ih

theorem Trace.part (h : Trace nodeCount names events) (h' : TracePart nodeCount names' later) :
    TracePart nodeCount (names ++ names') (events ++ later) := by
  induction h with
  | nil => exact h'
  | cons first _ ih =>
    rw [List.append_assoc]
    exact .cons first ih

theorem TracePart.more (h : TracePart nodeCount names events) (names' : List Phase) :
    TracePart nodeCount (names ++ names') events := by
  induction h with
  | stopped names => exact .stopped _
  | opened first => exact .opened first
  | cons first _ ih => exact .cons first ih

theorem exists_trace (nodeCount : Nat) (names : List Phase) :
    ∃ events, Trace nodeCount names events := by
  induction names with
  | nil => exact ⟨[], .nil⟩
  | cons name names ih =>
    obtain ⟨inner, inside⟩ := (partway_nil nodeCount (announcedIn name nodeCount)).completes
    obtain ⟨later, rest⟩ := ih
    exact ⟨_, .cons ⟨_, rfl, inside⟩ rest⟩

/-- A part of a trace is the beginning of a whole one. -/
theorem TracePart.completes (h : TracePart nodeCount names events) :
    ∃ rest, Trace nodeCount names (events ++ rest) := by
  induction h with
  | stopped names => simpa using exists_trace nodeCount names
  | @opened name names events opening =>
    obtain ⟨inner, rfl, partway⟩ := opening
    obtain ⟨rest, inside⟩ := partway.completes
    obtain ⟨later, trace⟩ := exists_trace nodeCount names
    refine ⟨rest ++ [.ended name] ++ later, ?_⟩
    have whole : Bracket nodeCount name
        (.started name nodeCount :: inner ++ rest ++ [.ended name]) :=
      ⟨inner ++ rest, by simp, inside⟩
    simpa using Trace.cons whole trace
  | cons first _ ih =>
    obtain ⟨rest, trace⟩ := ih
    exact ⟨rest, by simpa using Trace.cons first trace⟩

end

end NeighbourGraph
