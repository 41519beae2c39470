/-
Searches: their inputs, their state and the steps they are made of.

A search is a tree of actions: it has a value, or it failed, or it acts on the state and goes on
from what the action answers. Each action happens at once, and between two actions of one search
other searches may act on the same state; `exec` carries a search out alone. What was logged
before a failure is kept. The work on one node takes random words from a generator of its own.
The steps here are the only ones that touch the state: recording an event, scoring a pair,
offering a candidate to a list, taking up a node, and asking whether the search is to go on.
-/

import NeighbourGraph.Filter
import NeighbourGraph.Metric.Basic
import NeighbourGraph.NeighbourList
import NeighbourGraph.Partition
import NeighbourGraph.Random.Stream
import NeighbourGraph.Sampler
import NeighbourGraph.Search.Event

namespace NeighbourGraph

open NeighbourGraph.Random

/-! ### Errors -/

/-- Why a search gives no result. -/
inductive SearchError where
  | settings (cause : SettingsError)
  /-- It was told to stop, and noticed in the named phase. -/
  | cancelled (phase : String)
  | score (cause : ScoreError)
  | nodeCountMismatch (graph metric : Nat)
  /-- A random walk met weights whose sum is not finite. -/
  | walk (cause : Sampler.WalkError)

namespace SearchError

/-- The stable code of a cause. Weights without a sum are a broken promise of the graph and
have none. -/
def code : SearchError → Option String
  | .settings cause => some cause.code
  | .cancelled _ => some "KNN_CANCELLED"
  | .score cause => some cause.code
  | .nodeCountMismatch .. => some "KNN_NODE_COUNT_MISMATCH"
  | .walk _ => none

/-- The code of the metric's own error, where one is behind. -/
def metricCode : SearchError → Option String
  | .score cause => cause.metricCode
  | _ => none

def isCancelled : SearchError → Bool
  | .cancelled _ => true
  | _ => false

def message : SearchError → String
  | .settings cause => cause.message
  | .cancelled phase => s!"knn computation was cancelled during {phase}"
  | .score cause => cause.message
  | .nodeCountMismatch graph metric =>
    s!"graph has {graph} nodes but the similarity metric covers {metric}"
  | .walk .weights => "relationship weights have no finite sum"

end SearchError

/-! ### Inputs and state -/

/-- What a search is run on. -/
structure Setup where
  graph : Graph
  metric : Metric
  excluded : PairFilter
  config : Config
  /-- Whether the search is to stop, as a function of what it did so far. -/
  stopped : Log → Bool := fun _ => false
  /-- The seed that is drawn for the run where the configuration names none. Where it names one
  this may be left out. -/
  drawn : UInt64 := 0

namespace Setup

def nodeCount (s : Setup) : Nat := s.graph.nodeCount

/-- The base seed of the run: the one that the configuration names, or the one that is drawn. -/
def seed (s : Setup) : UInt64 := (s.config.seed.map Nat.toUInt64).getD s.drawn

/-- The nodes of each task of a phase. -/
def tasks (s : Setup) : List Partition :=
  partitions s.config.concurrency s.nodeCount s.config.minBatchSize

end Setup

/-- What a join phase or a part of it did: how many candidates came into lists, and how many
pairs were scored. -/
structure Tally where
  updates : Nat := 0
  pairs : Nat := 0
  deriving DecidableEq, Repr

namespace Tally

instance : Add Tally := ⟨fun a b => ⟨a.updates + b.updates, a.pairs + b.pairs⟩⟩

@[simp] theorem updates_add (a b : Tally) : (a + b).updates = a.updates + b.updates := rfl

@[simp] theorem pairs_add (a b : Tally) : (a + b).pairs = a.pairs + b.pairs := rfl

/-- What several parts did together. -/
def total (parts : List Tally) : Tally := parts.foldr (· + ·) {}

end Tally

/-- The state of a search. -/
structure Search.State where
  lists : Array NeighbourList
  log : Log := #[]
  /-- What each iteration did; nothing for one that is under way. -/
  rounds : Array (Option Tally) := #[]
  /-- The nodes that were taken up, in order. -/
  visits : Array Visit := #[]

/-- A search under way. -/
inductive Search (α : Type) : Type 1 where
  /-- It is over and has a value. -/
  | done (value : α)
  /-- It is over without a value. -/
  | failed (cause : SearchError)
  /-- It acts on the state next and goes on from the answer. -/
  | act {β : Type} (action : Search.State → β × Search.State) (next : β → Search α)

namespace Search

/-- Goes on with `f` from the value of a search. -/
protected def bind {α β : Type} : Search α → (α → Search β) → Search β
  | .done a, f => f a
  | .failed e, _ => .failed e
  | .act action next, f => .act action fun answer => (next answer).bind f

instance : Monad Search where
  pure := .done
  bind := Search.bind

@[simp] theorem done_bind {α β : Type} (a : α) (f : α → Search β) :
    (Search.done a >>= f) = f a := rfl

@[simp] theorem failed_bind {α β : Type} (e : SearchError) (f : α → Search β) :
    (Search.failed e >>= f) = .failed e := rfl

@[simp] theorem act_bind {α β γ : Type} (action : State → γ × State) (next : γ → Search α)
    (f : α → Search β) :
    (Search.act action next >>= f) = .act action fun answer => next answer >>= f := rfl

theorem pure_eq_done {α : Type} (a : α) : (pure a : Search α) = .done a := rfl

protected theorem bind_done {α : Type} (p : Search α) : (p >>= Search.done) = p := by
  induction p with
  | done | failed => rfl
  | act action next ih => simp [ih]

protected theorem bind_assoc {α β γ : Type} (p : Search α) (f : α → Search β)
    (g : β → Search γ) : (p >>= f >>= g) = p >>= fun a => f a >>= g := by
  induction p with
  | done | failed => rfl
  | act action next ih => simp [ih]

instance : LawfulMonad Search :=
  .mk' Search Search.bind_done (fun _ _ => rfl) Search.bind_assoc

/-- Carries a search out: what it gives, and the state it leaves behind. -/
def exec {α : Type} : Search α → State → Except SearchError α × State
  | .done a, s => (.ok a, s)
  | .failed e, s => (.error e, s)
  | .act action next, s => match action s with
    | (answer, s) => (next answer).exec s

@[simp] theorem exec_done {α : Type} (a : α) (s : State) :
    (Search.done a).exec s = (.ok a, s) := rfl

@[simp] theorem exec_pure {α : Type} (a : α) (s : State) :
    (pure a : Search α).exec s = (.ok a, s) := rfl

@[simp] theorem exec_failed {α : Type} (e : SearchError) (s : State) :
    (Search.failed e : Search α).exec s = (.error e, s) := rfl

@[simp] theorem exec_act {α β : Type} (action : State → β × State) (next : β → Search α)
    (s : State) : (Search.act action next).exec s = (next (action s).1).exec (action s).2 := rfl

/-- A search goes on from where the one before it ended, unless that one failed. -/
theorem exec_bind {α β : Type} (p : Search α) (f : α → Search β) (s : State) :
    (p >>= f).exec s =
      match p.exec s with
      | (.ok a, s) => (f a).exec s
      | (.error e, s) => (.error e, s) := by
  induction p generalizing s with
  | done | failed => rfl
  | act action next ih => simp [ih]

/-! ### Steps -/

/-- Acts on the state once. -/
def atomic {α : Type} (action : State → α × State) : Search α := .act action .done

/-- A state with one more event in its log. -/
def State.record (s : State) (e : Event) : State := { s with log := s.log.push e }

/-- Adds an event to the log. -/
def record (e : Event) : Search Unit := atomic fun s => ((), s.record e)

/-- A state with one more node taken up. -/
def State.visit (s : State) (phase : Phase) (node : Nat) : State :=
  { s with visits := s.visits.push ⟨phase, node, s.log.size⟩ }

/-- Takes up a node. -/
def visit (phase : Phase) (node : Nat) : Search Unit := atomic fun s => ((), s.visit phase node)

/-- Goes on only if the search is not to stop. -/
def proceed (setup : Setup) (phase : Phase) : Search Unit := do
  if ← atomic fun s => (setup.stopped s.log, s) then .failed (.cancelled phase.name)

/-- How many nodes a task works through between two questions whether to go on. -/
def checkInterval : Nat := 256

/-- Asks whether to go on, at the first node of a partition and at every 256th from there. -/
def checkpoint (setup : Setup) (p : Partition) (node : Nat) (phase : Phase) : Search Unit := do
  if (node - p.start) % checkInterval = 0 then proceed setup phase

/-- The score of a pair. -/
def score (setup : Setup) (origin : Origin) (left right : Nat) : Search Float := do
  record (.scored origin left right)
  match setup.metric.score left right with
  | .ok similarity => return similarity
  | .error cause => .failed (.score cause)

/-- Lets `f` work on the list of a node. -/
def State.withList {α : Type} (s : State) (node : Nat) (f : NeighbourList → α × NeighbourList)
    (otherwise : α) : α × State :=
  match s.lists[node]? with
  | none => (otherwise, s)
  | some list =>
    let (a, list) := f list
    (a, { s with lists := s.lists.setIfInBounds node list })

theorem State.lists_withList {α : Type} (s : State) (v : Nat) (f : NeighbourList → α × NeighbourList)
    (otherwise : α) : (s.withList v f otherwise).2.lists = s.lists.modify v fun l => (f l).2 := by
  apply Array.ext_getElem?
  intro w
  rw [State.withList, Array.getElem?_modify]
  by_cases eq : v = w
  · subst eq
    cases hl : s.lists[v]? with
    | none => simp [hl]
    | some l => simp [(Array.getElem?_eq_some_iff.1 hl).1]
  · cases s.lists[v]? <;> simp [eq]

theorem State.log_withList {α : Type} (s : State) (v : Nat) (f : NeighbourList → α × NeighbourList)
    (otherwise : α) : (s.withList v f otherwise).2.log = s.log := by
  unfold State.withList
  split <;> rfl

/-- The ids that the list of a node holds. -/
def listOf (node : Nat) : Search (List Nat) :=
  atomic fun s => (match s.lists[node]? with
    | some list => list.ids
    | none => [], s)

/-! ### The work on a node -/

/-- A search that takes random words from a generator of its own. -/
abbrev Work := StateT Generator Search

/-- Does the work on a node with the generator that the phase has for it. -/
def seeded {α : Type} (stream : Stream) (node : Nat) (work : Work α) : Search α :=
  work.run' (stream.generator node)

/-- Takes random words. -/
def draw {α : Type} (d : Draw α) : Work α := fun g => .done (d g)

/-- Lets `f` work on the list of a node. -/
def withList {α : Type} (node : Nat) (f : NeighbourList → Draw (α × NeighbourList))
    (otherwise : α) : Work α := fun g =>
  atomic fun s => s.withList node
    (fun l => let ((a, l), g) := f l g; ((a, g), l)) (otherwise, g)

/-- Logs that a candidate came into the list of a node, if it did, and counts one update. -/
def State.countEntered (origin : Origin) (node candidate : Nat) :
    (Bool × Generator) × State → (Nat × Generator) × State
  | ((true, g), s) => ((1, g), s.record (.entered origin node candidate))
  | ((false, g), s) => ((0, g), s)

/-- Offers a candidate to the list of a node, and counts one update if it came in. -/
def offer (setup : Setup) (origin : Origin) (node candidate : Nat) (similarity : Float) :
    Work Nat := fun g =>
  atomic fun s => State.countEntered origin node candidate <| s.withList node
    (fun l =>
      let ((entered, l), g) := l.add candidate similarity setup.config.perturbationRate g
      ((entered, g), l))
    (false, g)

/-- Scores a candidate of a node and offers it to the list of the node. -/
def consider (setup : Setup) (origin : Origin) (node candidate : Nat) : Work Tally := do
  let similarity ← score setup origin node candidate
  record (.considered node candidate similarity)
  let updates ← offer setup origin node candidate similarity
  return { updates, pairs := 1 }

end Search

end NeighbourGraph
