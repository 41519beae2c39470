/-
Draws that check what they ask for.

A guarded draw is written like the draw itself, but every access says what it relies on: a count is
asked for below a positive bound only, no more distinct counts than there are, a number below a
bound that is positive and finite, and a relationship at a place where there is one. Where that does
not hold the draw has a fault. `Agrees` says that a guarded draw has none from any generator and
gives what the draw itself gives; it holds of all draws that a search takes.
-/

import NeighbourGraph.Proofs.Number.Order
import NeighbourGraph.Proofs.Sampler
import NeighbourGraph.Search.Candidates

namespace NeighbourGraph.Guarded

open NeighbourGraph.Number NeighbourGraph.Random NeighbourGraph.Sampler

/-- What must not be asked for. -/
inductive Fault where
  /-- The list of a node that has none. -/
  | list (node : Nat)
  /-- The row of a node that a map of candidates does not have. -/
  | row (node : Nat)
  /-- A count of an empty range. -/
  | emptyRange
  /-- More distinct counts than there are below the length. -/
  | subset (length amount : Nat)
  /-- A number below a bound that is not positive or not finite. -/
  | bound (bound : Float)
  /-- A relationship at a place that has none. -/
  | relationship (place : Nat)
  /-- The similarity of a pair that is not two distinct nodes. -/
  | pair (left right : Nat)

/-- A draw that may have a fault. -/
abbrev GuardedDraw := StateT Generator (Except Fault)

/-! ### Guards -/

/-- A draw that needs no guard. -/
def plainly {α : Type} (d : Draw α) : GuardedDraw α := fun g => .ok (d g)

/-- A draw that relies on `holds`. -/
def relying {α : Type} (holds : Prop) [Decidable holds] (fault : Fault) (d : Draw α) :
    GuardedDraw α := fun g => if holds then .ok (d g) else .error fault

def below (range : Nat) : GuardedDraw Nat := relying (0 < range) .emptyRange (Random.below range)

def subset (length amount : Nat) : GuardedDraw (List Nat) :=
  relying (amount ≤ length) (.subset length amount) (Random.subset length amount)

def realBelow (bound : Float) : GuardedDraw Float :=
  relying (0.0 < bound ∧ bound.isFinite = true) (.bound bound) (Random.realBelow bound)

/-- The target of the relationship at a place. -/
def targetAt (relationships : List Relationship) (place : Nat) : GuardedDraw Nat :=
  match relationships[place]? with
  | some r => pure r.target
  | none => fun _ => .error (.relationship place)

/-! ### Samplers -/

def uniform (nodeCount node count : Nat) : GuardedDraw (List Nat) := do
  let others := nodeCount - 1
  let amount := min count others
  if amount = 0 then return []
  return (← subset others amount).map (skip node)

def pickWeighted (relationships : List Relationship) :
    ExceptT WalkError GuardedDraw (Option Nat) := do
  if relationships.isEmpty then return none
  let total := sum (relationships.map (·.weight))
  if total ≤ 0.0 then
    let i ← below relationships.length
    return some (← targetAt relationships i)
  else if total.isFinite then return passing (← realBelow total) relationships
  else throw .weights

def walk (g : Graph) (start wanted : Nat) (current : Nat) (found : List Nat) :
    Nat → ExceptT WalkError GuardedDraw (List Nat)
  | 0 => return found
  | steps + 1 => do
    if wanted ≤ found.length then return found
    let position ←
      if current ≠ start then
        if ← (plainly (chance restartChance) : GuardedDraw Bool) then pure start else pure current
      else pure current
    match ← pickWeighted (g.relationships position) with
    | none => walk g start wanted start found steps
    | some next =>
      let found :=
        if next ≠ start ∧ next < g.nodeCount ∧ next ∉ found then found ++ [next] else found
      walk g start wanted next found steps

def randomWalk (g : Graph) (node count : Nat) : ExceptT WalkError GuardedDraw (List Nat) := do
  let wanted := min count (g.nodeCount - 1)
  if wanted = 0 ∨ g.degree node = 0 then return []
  let steps := min (wanted * stepsPerCandidate) countMax
  let found ← walk g node wanted node [] steps
  if wanted ≤ found.length then return found
  return topUp wanted found (← uniform g.nodeCount node wanted)

def sample (kind : SamplerKind) (g : Graph) (node count : Nat) :
    ExceptT WalkError GuardedDraw (List Nat) :=
  match kind with
  | .uniform => uniform g.nodeCount node count
  | .randomWalk => randomWalk g node count

/-! ### Handing out and working sets -/

def splitEntries (length sampled : Nat) :
    List Entry → GuardedDraw (List Entry × NeighbourList.Parts)
  | [] => return ([], {})
  | e :: rest => do
    if e.explored then
      let (entries, parts) ← splitEntries length sampled rest
      return (e :: entries, { parts with old := e.id :: parts.old })
    else if (← below length) < sampled then
      let (entries, parts) ← splitEntries length sampled rest
      return ({ e with explored := true } :: entries, { parts with new := e.id :: parts.new })
    else
      let (entries, parts) ← splitEntries length sampled rest
      return (e :: entries, parts)

def split (l : NeighbourList) (sampled : Nat) :
    GuardedDraw (NeighbourList × NeighbourList.Parts) := do
  let (entries, parts) ← splitEntries l.size sampled l.entries
  return ({ l with entries }, parts)

def addSample (length sampled : Nat) (out : List Nat) : List Nat → GuardedDraw (List Nat)
  | [] => return out
  | id :: rest => do
    let drawn := (← below length) < sampled
    addSample length sampled (if drawn && id ∉ out then out ++ [id] else out) rest

def workingSet (base reverse : List Nat) (sampled : Nat) : GuardedDraw (List Nat) :=
  addSample reverse.length sampled base reverse

/-! ### Agreement -/

/-- From any generator, the guarded draw has no fault and gives what the draw gives. -/
def Agrees {α : Type} (d : Draw α) (d' : GuardedDraw α) : Prop := ∀ g, d' g = .ok (d g)

section

variable {α β : Type} {d : Draw α} {d' : GuardedDraw α}

theorem agrees_pure (a : α) : Agrees (pure a) (pure a) := fun _ => rfl

theorem agrees_plainly (d : Draw α) : Agrees d (plainly d) := fun _ => rfl

theorem agrees_relying {holds : Prop} [Decidable holds] (h : holds) (fault : Fault) (d : Draw α) :
    Agrees d (relying holds fault d) :=
  fun _ => if_pos h

/-- One draw after the other, where the second one may rely on what the first one gave. -/
theorem Agrees.bind_of {f : α → Draw β} {f' : α → GuardedDraw β} {P : α → Prop} (h : Agrees d d')
    (gives : ∀ g, P (d g).1) (rest : ∀ a, P a → Agrees (f a) (f' a)) :
    Agrees (d >>= f) (d' >>= f') := by
  intro g
  change (d' g >>= fun r => f' r.1 r.2) = .ok (f (d g).1 (d g).2)
  rw [h g]
  exact rest _ (gives g) _

theorem Agrees.bind {f : α → Draw β} {f' : α → GuardedDraw β} (h : Agrees d d')
    (rest : ∀ a, Agrees (f a) (f' a)) : Agrees (d >>= f) (d' >>= f') :=
  h.bind_of (P := fun _ => True) (fun _ => trivial) fun a _ => rest a

theorem agrees_below {range : Nat} (pos : 0 < range) : Agrees (Random.below range) (below range) :=
  agrees_relying pos _ _

theorem agrees_targetAt {relationships : List Relationship} {place : Nat}
    (lt : place < relationships.length) :
    ∃ target, relationships[place]?.map (·.target) = some target ∧
      Agrees (pure target) (targetAt relationships place) := by
  refine ⟨relationships[place].target, by simp [lt], ?_⟩
  rw [targetAt, List.getElem?_eq_getElem lt]
  exact agrees_pure _

/-! ### Draws that may fail -/

/-- Agreement of draws that may fail, failures included. -/
abbrev AgreesOrFails (d : ExceptT WalkError Draw α) (d' : ExceptT WalkError GuardedDraw α) :
    Prop :=
  Agrees (ExceptT.run d) (ExceptT.run d')

variable {e : ExceptT WalkError Draw α} {e' : ExceptT WalkError GuardedDraw α}

theorem agreesOrFails_lift (h : Agrees d d') : AgreesOrFails (liftM d) (liftM d') :=
  h.bind fun a => agrees_pure (Except.ok a)

/-- The second draw may rely on what the first one gave, unless that failed. -/
theorem AgreesOrFails.bind_of {f : α → ExceptT WalkError Draw β}
    {f' : α → ExceptT WalkError GuardedDraw β} {P : α → Prop} (h : AgreesOrFails e e')
    (gives : Gives P e) (rest : ∀ a, P a → AgreesOrFails (f a) (f' a)) :
    AgreesOrFails (e >>= f) (e' >>= f') := by
  have goesOn : ∀ r, (∀ a, r = .ok a → P a) →
      Agrees (ExceptT.bindCont f r) (ExceptT.bindCont f' r) := by
    intro r given
    cases r with
    | ok a => exact rest a (given a rfl)
    | error cause => exact agrees_pure (Except.error cause)
  exact Agrees.bind_of h (P := fun r => ∀ a, r = Except.ok a → P a) gives goesOn

theorem AgreesOrFails.bind {f : α → ExceptT WalkError Draw β}
    {f' : α → ExceptT WalkError GuardedDraw β} (h : AgreesOrFails e e')
    (rest : ∀ a, AgreesOrFails (f a) (f' a)) : AgreesOrFails (e >>= f) (e' >>= f') :=
  h.bind_of (gives_true e) fun a _ => rest a

end

/-! ### The draws of a search -/

theorem agrees_uniform (nodeCount node count : Nat) :
    Agrees (Sampler.uniform nodeCount node count) (uniform nodeCount node count) := by
  unfold Sampler.uniform uniform
  dsimp only
  split
  · exact agrees_pure _
  · exact (agrees_relying (Nat.min_le_right _ _) _ _).bind fun _ => agrees_pure _

theorem agrees_pickWeighted (relationships : List Relationship) :
    AgreesOrFails (Sampler.pickWeighted relationships) (pickWeighted relationships) := by
  unfold Sampler.pickWeighted pickWeighted
  dsimp only
  split
  · exact agrees_pure _
  · next nonempty =>
    have pos : 0 < relationships.length := List.length_pos_iff.2 (by simpa using nonempty)
    split
    · refine AgreesOrFails.bind_of (agreesOrFails_lift (agrees_below pos))
        (P := (· < relationships.length)) ?_ fun i lt => ?_
      · rintro g _ ⟨⟩
        exact below_lt pos g
      · obtain ⟨target, eq, agrees⟩ := agrees_targetAt lt
        rw [eq]
        exact (agreesOrFails_lift agrees).bind fun _ => agrees_pure _
    · next positive =>
      split
      · next finite =>
        have zero : Float.isFinite 0.0 = true := by decide +kernel
        have pos : 0.0 < sum (relationships.map (·.weight)) :=
          (NeighbourGraph.Number.not_le zero finite).1 positive
        exact (agreesOrFails_lift (agrees_relying ⟨pos, finite⟩ _ _)).bind fun _ => agrees_pure _
      · exact agrees_pure _

theorem agrees_walk (graph : Graph) (start wanted current steps : Nat) (found : List Nat) :
    AgreesOrFails (Sampler.walk graph start wanted current found steps)
      (walk graph start wanted current found steps) := by
  induction steps generalizing current found with
  | zero => exact agrees_pure _
  | succ steps ih =>
    have goesOn : ∀ position, AgreesOrFails
        (do
          match ← Sampler.pickWeighted (graph.relationships position) with
          | none => Sampler.walk graph start wanted start found steps
          | some next =>
            let found := if next ≠ start ∧ next < graph.nodeCount ∧ next ∉ found
              then found ++ [next] else found
            Sampler.walk graph start wanted next found steps)
        (do
          match ← pickWeighted (graph.relationships position) with
          | none => walk graph start wanted start found steps
          | some next =>
            let found := if next ≠ start ∧ next < graph.nodeCount ∧ next ∉ found
              then found ++ [next] else found
            walk graph start wanted next found steps) := by
      refine fun position => (agrees_pickWeighted _).bind fun next => ?_
      cases next with
      | none => exact ih _ _
      | some next => exact ih _ _
    rw [Sampler.walk, walk]
    split
    · exact agrees_pure _
    · split
      · refine (agreesOrFails_lift (agrees_plainly _)).bind fun restart => ?_
        split
        · exact goesOn start
        · exact goesOn current
      · exact goesOn current

theorem agrees_randomWalk (graph : Graph) (node count : Nat) :
    AgreesOrFails (Sampler.randomWalk graph node count) (randomWalk graph node count) := by
  unfold Sampler.randomWalk randomWalk
  dsimp only
  split
  · exact agrees_pure _
  · refine (agrees_walk _ _ _ _ _ _).bind fun found => ?_
    split
    · exact agrees_pure _
    · exact (agreesOrFails_lift (agrees_uniform _ _ _)).bind fun _ => agrees_pure _

theorem agrees_sample (kind : SamplerKind) (graph : Graph) (node count : Nat) :
    AgreesOrFails (Sampler.sample kind graph node count) (sample kind graph node count) := by
  cases kind with
  | uniform => exact agreesOrFails_lift (agrees_uniform _ _ _)
  | randomWalk => exact agrees_randomWalk graph node count

theorem agrees_splitEntries {length : Nat} (pos : 0 < length) (sampled : Nat)
    (entries : List Entry) :
    Agrees (NeighbourList.splitEntries length sampled entries)
      (splitEntries length sampled entries) := by
  induction entries with
  | nil => exact agrees_pure _
  | cons e rest ih =>
    unfold NeighbourList.splitEntries splitEntries
    split
    · exact ih.bind fun _ => agrees_pure _
    · refine (agrees_below pos).bind fun drawn => ?_
      split
      · exact ih.bind fun _ => agrees_pure _
      · exact ih.bind fun _ => agrees_pure _

/-- A list that has something to hand out is not empty. -/
theorem agrees_split (l : NeighbourList) (sampled : Nat) :
    Agrees (l.split sampled) (split l sampled) := by
  have entries : Agrees (NeighbourList.splitEntries l.size sampled l.entries)
      (splitEntries l.size sampled l.entries) := by
    cases held : l.entries with
    | nil => exact agrees_pure _
    | cons e rest => exact agrees_splitEntries (by simp [NeighbourList.size, held]) sampled _
  exact entries.bind fun _ => agrees_pure _

theorem agrees_addSample {length : Nat} (pos : 0 < length) (sampled : Nat) (out ids : List Nat) :
    Agrees (Search.addSample length sampled out ids) (addSample length sampled out ids) := by
  induction ids generalizing out with
  | nil => exact agrees_pure _
  | cons id rest ih => exact (agrees_below pos).bind fun _ => ih _

theorem agrees_workingSet (base reverse : List Nat) (sampled : Nat) :
    Agrees (Search.workingSet base reverse sampled) (workingSet base reverse sampled) := by
  cases reverse with
  | nil => exact agrees_pure _
  | cons id rest => exact agrees_addSample (by simp) sampled base _

end NeighbourGraph.Guarded
