/-
What every search keeps true of its state.

A `Sound` state has one well-formed list for each node, which holds only candidates that were
scored for the node, with the similarity found then; and every candidate that was scored is
another node whose pair was not excluded. `upholding` makes contracts for searches that keep the
state sound and say besides how the lists may change.
-/

import NeighbourGraph.Proofs.NeighbourList.HandOut
import NeighbourGraph.Proofs.Sampler
import NeighbourGraph.Proofs.Search.Work
import NeighbourGraph.Search.Run

namespace NeighbourGraph

open NeighbourGraph.Search

/-! ### Scores -/

/-- Where a metric promises that the order of a pair does not matter, the scores of a pair both
ways are equal. -/
def Metric.Honest (m : Metric) : Prop :=
  m.symmetric = true → ∀ a b x, m.score a b = .ok x → ∃ y, m.score b a = .ok y ∧ (x == y) = true

theorem Metric.honest_of_comm {m : Metric}
    (comm : ∀ a b x, m.score a b = .ok x → m.score b a = .ok x) : m.Honest := by
  intro _ a b x score
  have le := Number.le_refl (Metric.isFinite_of_score score)
  exact ⟨x, comm a b x score, Number.beq_iff_le_and_ge.2 ⟨le, le⟩⟩

/-- The pair is not excluded, and this is its score. -/
def Setup.Admits (setup : Setup) (left right : Nat) (similarity : Float) : Prop :=
  setup.excluded left right = false ∧ setup.metric.score left right = .ok similarity

/-- `candidate` can come up for `node` with this similarity. A symmetric metric is also asked for
the pair turned around. -/
structure Setup.Genuine (setup : Setup) (node candidate : Nat) (similarity : Float) : Prop where
  node_lt : node < setup.nodeCount
  other : Sampler.IsOther setup.nodeCount node candidate
  scored : setup.Admits node candidate similarity ∨
    setup.metric.symmetric = true ∧ setup.Admits candidate node similarity

namespace Setup.Genuine

variable {setup : Setup} {node candidate : Nat} {x y : Float}

theorem isFinite (h : setup.Genuine node candidate x) : x.isFinite = true := by
  rcases h.scored with ⟨-, score⟩ | ⟨-, -, score⟩
  · exact Metric.isFinite_of_score score
  · exact Metric.isFinite_of_score score

/-- The similarity of a candidate is what the metric gives for the node and the candidate. -/
theorem score_eq (h : setup.Genuine node candidate x) (honest : setup.metric.Honest) :
    ∃ y, setup.metric.score node candidate = .ok y ∧ (x == y) = true := by
  rcases h.scored with ⟨-, score⟩ | ⟨symm, -, score⟩
  · have le := Number.le_refl h.isFinite
    exact ⟨x, score, Number.beq_iff_le_and_ge.2 ⟨le, le⟩⟩
  · exact honest symm candidate node x score

/-- The similarity is the score of the node and the candidate itself where the order of the pair
makes no difference at all. -/
theorem score_of_eq (h : setup.Genuine node candidate x)
    (same : setup.metric.symmetric = false ∨
      setup.metric.score candidate node = setup.metric.score node candidate) :
    setup.metric.score node candidate = .ok x := by
  rcases h.scored with ⟨-, score⟩ | ⟨symm, -, score⟩
  · exact score
  · rcases same with asymm | same
    · simp [symm] at asymm
    · exact same ▸ score

/-- A candidate has one similarity. -/
theorem le (h : setup.Genuine node candidate x) (h' : setup.Genuine node candidate y)
    (honest : setup.metric.Honest) : x ≤ y := by
  obtain ⟨z, score, eq⟩ := h.score_eq honest
  obtain ⟨z', score', eq'⟩ := h'.score_eq honest
  obtain rfl : z = z' := Except.ok.inj (score.symm.trans score')
  exact Number.le_trans (Number.beq_iff_le_and_ge.1 eq).1 (Number.beq_iff_le_and_ge.1 eq').2

end Setup.Genuine

/-! ### Failures -/

/-- Why a search may fail: it was told to stop, two nodes that the filter allows have no score, or
it walks where weights do not add up. -/
inductive Setup.MayFail (setup : Setup) : SearchError → Prop
  | stopped (log : Log) (name : Phase) : setup.stopped log = true →
      MayFail setup (.cancelled name.name)
  | score {left right : Nat} {cause : ScoreError} : left < setup.nodeCount →
      Sampler.IsOther setup.nodeCount left right → setup.excluded left right = false →
      setup.metric.score left right = .error cause → MayFail setup (.score cause)
  | walk (cause : Sampler.WalkError) : (∃ v, ¬Sampler.Summable setup.graph v) →
      setup.config.sampler = .randomWalk → MayFail setup (.walk cause)

/-! ### Sound states -/

/-- What the list of a node has to be after what was logged. -/
structure NeighbourList.SoundFor (l : NeighbourList) (node capacity : Nat) (log : Log) : Prop where
  owner : l.owner = node
  capacity : l.capacity = capacity
  wellFormed : l.WellFormed
  considered : ∀ n ∈ l.neighbours, Event.considered node n.id n.similarity ∈ log

namespace NeighbourList

theorem SoundFor.empty (v capacity : Nat) (log : Log) :
    SoundFor { owner := v, capacity } v capacity log :=
  ⟨rfl, rfl, .empty v capacity, by simp [neighbours]⟩

variable {l l' : NeighbourList} {node capacity id : Nat} {log : Log} {x : Float}
  {came : Bool}

/-- A list stays sound when a candidate is offered that was scored for its node. -/
theorem Offered.soundFor (h : Offered l id x came l') (sound : l.SoundFor node capacity log)
    (considered : Event.considered node id x ∈ log) (finite : x.isFinite = true) :
    l'.SoundFor node capacity log where
  owner := (h.follows sound.wellFormed).owner.trans sound.owner
  capacity := (h.follows sound.wellFormed).capacity.trans sound.capacity
  wellFormed := h.wellFormed sound.wellFormed finite
  considered := by
    rw [forall_mem_neighbours]
    intro e he
    rcases h.mem he with he | rfl
    · exact forall_mem_neighbours.1 sound.considered e he
    · exact considered

/-- A list stays sound when it hands out entries. -/
theorem SameNeighbours.soundFor (h : SameNeighbours l l')
    (sound : l.SoundFor node capacity log) : l'.SoundFor node capacity log :=
  ⟨h.owner.trans sound.owner, h.capacity.trans sound.capacity, h.wellFormed sound.wellFormed,
    h.neighbours ▸ sound.considered⟩

end NeighbourList

namespace Search

@[simp] theorem size_emptyLists (nodeCount capacity : Nat) :
    (emptyLists nodeCount capacity).size = nodeCount := by
  simp [emptyLists]

theorem getElem?_emptyLists {nodeCount capacity v : Nat} {l : NeighbourList} :
    (emptyLists nodeCount capacity)[v]? = some l ↔
      v < nodeCount ∧ ({ owner := v, capacity } : NeighbourList) = l := by
  simp [emptyLists, Array.getElem?_range]

/-- To put the list of a node back changes nothing. -/
theorem State.setList_self {s : State} {l : NeighbourList} {v : Nat} (hl : s.lists[v]? = some l) :
    { s with lists := s.lists.setIfInBounds v l } = s := by
  have : s.lists.setIfInBounds v l = s.lists := by
    apply Array.ext_getElem?
    intro w
    rw [Array.getElem?_setIfInBounds]
    split
    · next eq => rw [← eq, if_pos (Array.getElem?_eq_some_iff.1 hl).1, hl]
    · rfl
  rw [this]

/-- A list for each node that holds scored candidates, and a log of genuine ones. -/
structure Sound (setup : Setup) (capacity : Nat) (s : State) : Prop where
  size : s.lists.size = setup.nodeCount
  lists : ∀ (v : Nat) (l : NeighbourList), s.lists[v]? = some l → l.SoundFor v capacity s.log
  genuine : ∀ v c x, Event.considered v c x ∈ s.log → setup.Genuine v c x

/-- A way in which a list may change, step by step. -/
structure Change where
  rel : NeighbourList → NeighbourList → Prop
  refl : ∀ l, rel l l
  trans : ∀ {l l' l''}, rel l l' → rel l' l'' → rel l l''

namespace Change

/-- Nothing changes. -/
def none : Change := ⟨Eq, Eq.refl, Eq.trans⟩

/-- Anything may change. -/
def any : Change := ⟨fun _ _ => True, fun _ => trivial, fun _ _ => trivial⟩

/-- Candidates are offered. -/
def offers : Change := ⟨NeighbourList.Follows, .refl, .trans⟩

/-- Entries are handed out. -/
def handsOut : Change := ⟨NeighbourList.SameNeighbours, .refl, .trans⟩

variable {l l' : NeighbourList}

@[simp] theorem none_rel : none.rel l l' ↔ l = l' := Iff.rfl

end Change

/-- How a state may come after another one in an iteration: nothing is erased from the log, the
account of the iterations stays, and the list of each node changes as `change` allows. -/
structure Grows (change : Nat → Change) (s t : State) : Prop where
  log : ∀ e ∈ s.log, e ∈ t.log
  rounds : t.rounds = s.rounds
  lists : ∀ (v : Nat) (l : NeighbourList), s.lists[v]? = some l →
    ∃ l', t.lists[v]? = some l' ∧ (change v).rel l l'

namespace Grows

variable {change : Nat → Change} {s t u : State}

theorem refl (change : Nat → Change) (s : State) : Grows change s s :=
  ⟨fun _ he => he, rfl, fun v l hl => ⟨l, hl, (change v).refl l⟩⟩

theorem trans (h : Grows change s t) (h' : Grows change t u) : Grows change s u where
  log e he := h'.log e (h.log e he)
  rounds := h'.rounds.trans h.rounds
  lists v l hl := by
    obtain ⟨l', hl', r⟩ := h.lists v l hl
    obtain ⟨l'', hl'', r'⟩ := h'.lists v l' hl'
    exact ⟨l'', hl'', (change v).trans r r'⟩

theorem record (change : Nat → Change) (s : State) (e : Event) : Grows change s (s.record e) :=
  ⟨fun _ he => Array.mem_push.2 (.inl he), rfl, fun v l hl => ⟨l, hl, (change v).refl l⟩⟩

/-- One list changes. -/
theorem setList {v : Nat} {l l' : NeighbourList} (hl : s.lists[v]? = some l)
    (r : (change v).rel l l') :
    Grows change s { s with lists := s.lists.setIfInBounds v l' } where
  log _ he := he
  rounds := rfl
  lists w k hk := by
    by_cases eq : v = w
    · subst eq
      obtain rfl : l = k := Option.some.inj (hl.symm.trans hk)
      exact ⟨l', by simp [(Array.getElem?_eq_some_iff.1 hl).1], r⟩
    · exact ⟨k, by simpa [eq] using hk, (change w).refl k⟩

theorem visit (change : Nat → Change) (s : State) (name : Phase) (node : Nat) :
    Grows change s (s.visit name node) :=
  ⟨fun _ he => he, rfl, fun v l hl => ⟨l, hl, (change v).refl l⟩⟩

theorem notes (change : Nat → Change) {s t : State} (h : s.Notes t) : Grows change s t := by
  cases h with
  | report => exact .record change s _
  | visit name node => exact .visit change s name node

theorem imp {change' : Nat → Change} (h : Grows change s t)
    (imp : ∀ v l l', (change v).rel l l' → (change' v).rel l l') : Grows change' s t where
  log := h.log
  rounds := h.rounds
  lists v l hl := by
    obtain ⟨l', hl', r⟩ := h.lists v l hl
    exact ⟨l', hl', imp v l l' r⟩

end Grows

namespace Sound

variable {setup : Setup} {capacity : Nat} {s : State}

theorem list (h : Sound setup capacity s) {v : Nat} (hv : v < setup.nodeCount) :
    ∃ l, s.lists[v]? = some l ∧ l.SoundFor v capacity s.log := by
  have hv' : v < s.lists.size := h.size.symm ▸ hv
  exact ⟨s.lists[v], Array.getElem?_eq_getElem hv', h.lists v _ (Array.getElem?_eq_getElem hv')⟩

/-- An event that is no candidate, or a genuine one, may be logged. -/
theorem record (h : Sound setup capacity s) {e : Event}
    (he : ∀ v c x, e = .considered v c x → setup.Genuine v c x) :
    Sound setup capacity (s.record e) where
  size := h.size
  lists v l hl :=
    { h.lists v l hl with
      considered := fun n hn => Array.mem_push.2 (.inl ((h.lists v l hl).considered n hn)) }
  genuine v c x hx := by
    rcases Array.mem_push.1 hx with hx | rfl
    · exact h.genuine v c x hx
    · exact he v c x rfl

theorem report (h : Sound setup capacity s) {e : Event} (he : e.isProgress = true) :
    Sound setup capacity (s.record e) := by
  apply h.record
  rintro v c x rfl
  cases he

theorem visit (h : Sound setup capacity s) (name : Phase) (node : Nat) :
    Sound setup capacity (s.visit name node) :=
  ⟨h.size, h.lists, h.genuine⟩

theorem notes (h : Sound setup capacity s) {t : State} (noted : s.Notes t) :
    Sound setup capacity t := by
  cases noted with
  | report he => exact h.report he
  | visit name node => exact h.visit name node

theorem setList (h : Sound setup capacity s) {v : Nat} {l : NeighbourList}
    (hl : l.SoundFor v capacity s.log) :
    Sound setup capacity { s with lists := s.lists.setIfInBounds v l } where
  size := by simp [h.size]
  lists w k hk := by
    by_cases eq : v = w
    · subst eq
      obtain ⟨-, rfl⟩ : v < s.lists.size ∧ l = k := by
        simpa [Array.getElem?_setIfInBounds] using hk
      exact hl
    · exact h.lists w k (by simpa [eq] using hk)
  genuine := h.genuine

theorem start (setup : Setup) (capacity : Nat) :
    Sound setup capacity (State.start setup.nodeCount capacity) where
  size := by simp [State.start, emptyLists]
  lists v l hl := by
    obtain ⟨-, rfl⟩ := getElem?_emptyLists.1 hl
    exact .empty v capacity _
  genuine := by simp [State.start]

end Sound

/-! ### Contracts that keep a state sound -/

/-- A search that keeps the state sound, if it was, and changes the lists only as `guarantee`
allows, while others do the same as `rely` allows. -/
def upholding (setup : Setup) (capacity : Nat) (rely guarantee : Nat → Change) : Contract where
  rely s t := Sound setup capacity s → Sound setup capacity t ∧ Grows rely s t
  guarantee s t := Sound setup capacity s → Sound setup capacity t ∧ Grows guarantee s t
  fails := setup.MayFail
  rely_refl s sound := ⟨sound, .refl rely s⟩
  rely_trans h h' sound :=
    have ⟨sound, first⟩ := h sound
    have ⟨sound, second⟩ := h' sound
    ⟨sound, first.trans second⟩
  rely_notes noted sound := ⟨sound.notes noted, .notes rely noted⟩
  still s sound := ⟨sound, .refl guarantee s⟩
  notes noted sound := ⟨sound.notes noted, .notes guarantee noted⟩

theorem upholding_heeds {setup : Setup} {capacity : Nat} {rely guarantee : Nat → Change} :
    (upholding setup capacity rely guarantee).Heeds setup :=
  fun log name told => .stopped log name told

/-- The contract of searches that offer candidates to the lists of all nodes. -/
def offering (setup : Setup) (capacity : Nat) : Contract :=
  upholding setup capacity (fun _ => .offers) (fun _ => .offers)

section

variable {setup : Setup} {capacity : Nat} {rely guarantee : Nat → Change} {α : Type}
  {p : Search α} {post : Post α} {s t : State}

/-- Carried out alone from a sound state, a search leaves a sound one, also when it fails. -/
theorem Meets.sound (h : Meets (upholding setup capacity rely guarantee) p post s)
    (sound : Sound setup capacity s) :
    Sound setup capacity (p.exec s).2 ∧ Grows guarantee s (p.exec s).2 := by
  refine h.exec_guarantee (r := fun s t => Sound setup capacity s →
    Sound setup capacity t ∧ Grows guarantee s t) (fun s sound => ⟨sound, .refl _ s⟩) ?_
    (fun _ _ => id) sound
  intro s t u h h' sound
  obtain ⟨sound, first⟩ := h sound
  obtain ⟨sound, second⟩ := h' sound
  exact ⟨sound, first.trans second⟩

/-- Carried out alone from a sound state, a search that has a value ends as it should in a sound
one. -/
theorem Meets.sound_ok (h : Meets (upholding setup capacity rely guarantee) p post s)
    (sound : Sound setup capacity s) {a : α} (run : p.exec s = (.ok a, t)) :
    Sound setup capacity t ∧ Grows guarantee s t ∧
      ∃ events, t.log.toList = s.log.toList ++ events ∧ post a events t := by
  have after := h.sound sound
  rw [run] at after
  exact ⟨after.1, after.2, h.exec run⟩

end

end Search

end NeighbourGraph
