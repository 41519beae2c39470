/-
Phases: work on all nodes that is shared by tasks.

Each task works through the nodes of one partition, in order. The tasks of a phase act on one
state and take turns: `Turns` says at each moment which of them acts next, so the turns of a
phase range over all ways in which the actions of its tasks can follow each other. A phase is
over when all tasks are.
-/

import NeighbourGraph.Search.Basic

namespace NeighbourGraph

/-! ### Turns -/

/-- Whether a task acts next, before all tasks after it, by the number of the task and the
moment. -/
abbrev Turns := Nat → Nat → Bool

/-- Every task is done before the next one begins. -/
def Turns.inOrder : Turns := fun _ _ => true

/-- The turns in every phase, by the iteration that it belongs to. -/
abbrev Schedule := Phase → Nat → Turns

/-- In every phase each task is done before the next one begins. -/
def Schedule.inOrder : Schedule := fun _ _ => Turns.inOrder

namespace Search

/-- Lets a search act from `moment` on until another one's turn comes. Then it is as `turn`
says, and as `ended` says if the search is done before. -/
def meanwhile {β γ : Type} (turns : Nat → Bool) (turn : Nat → Search β → Search γ)
    (ended : β → Search γ) : Search β → Nat → Search γ
  | .done b, moment => if turns moment then turn (moment + 1) (.done b) else ended b
  | .failed e, moment => if turns moment then turn (moment + 1) (.failed e) else .failed e
  | .act action next, moment =>
    if turns moment then turn (moment + 1) (.act action next)
    else .act action fun answer => meanwhile turns turn ended (next answer) (moment + 1)

/-- Two searches on one state. Where both have something left to do, `turns` says whether the
first one acts next. One that failed ends both when its turn comes. -/
def beside {α β : Type} (turns : Nat → Bool) : Search α → Search β → Nat → Search (α × β)
  | .done a, other, _ => other >>= fun b => .done (a, b)
  | .failed e, other, moment =>
    meanwhile turns (fun _ _ => .failed e) (fun _ => .failed e) other moment
  | .act action next, other, moment =>
    meanwhile turns
      (fun moment other => .act action fun answer => beside turns (next answer) other moment)
      (fun b => .act action next >>= fun a => .done (a, b)) other moment

/-- Any number of searches on one state. -/
def together {α : Type} : Turns → List (Search α) → Search (List α)
  | _, [] => .done []
  | turns, p :: rest => do
    let (a, others) ← beside (turns 0) p (together (fun task => turns (task + 1)) rest) 0
    return a :: others

/-- With the turn always its own, the first of two searches is over before the second begins. -/
theorem beside_inOrder {α β : Type} (p : Search α) (q : Search β) (moment : Nat) :
    beside (fun _ => true) p q moment = p >>= fun a => q >>= fun b => .done (a, b) := by
  induction p generalizing moment with
  | done a => rfl
  | failed e => cases q <;> rfl
  | act action next ih => cases q <;> simp [beside, meanwhile, ih]

/-- In order, searches on one state follow one another. -/
theorem together_inOrder {α : Type} (ps : List (Search α)) :
    together Turns.inOrder ps = ps.mapM id := by
  induction ps with
  | nil => rfl
  | cons p rest ih =>
    have later : (fun task : Nat => Turns.inOrder (task + 1)) = Turns.inOrder := rfl
    have first : Turns.inOrder 0 = fun _ => true := rfl
    simp [together, later, first, ih, beside_inOrder, pure_eq_done]

/-! ### Phases -/

/-- Works through the nodes of a partition in order and reports it when it is done. -/
def overNodes {α : Type} (setup : Setup) (name : Phase) (work : Nat → Search α)
    (p : Partition) : Search (List α) := do
  let answers ← p.nodes.mapM fun node => do
    checkpoint setup p node name
    visit name node
    work node
  record (.advanced p.count)
  return answers

/-- A phase over all nodes: announced, worked through by tasks, ended. It has the answer of
each node, in the order of the partitions. -/
def phase {α : Type} (setup : Setup) (turns : Turns) (name : Phase) (work : Nat → Search α) :
    Search (List α) := do
  record (.started name setup.nodeCount)
  let answers ← together turns (setup.tasks.map (overNodes setup name work))
  record (.ended name)
  return answers.flatten

/-- In order, the tasks of a phase follow one another. -/
theorem phase_inOrder {α : Type} (setup : Setup) (name : Phase) (work : Nat → Search α) :
    phase setup Turns.inOrder name work = do
      record (.started name setup.nodeCount)
      let answers ← setup.tasks.mapM (overNodes setup name work)
      record (.ended name)
      return answers.flatten := by
  rw [phase, together_inOrder, List.mapM_map, Function.id_comp]

end Search

end NeighbourGraph
