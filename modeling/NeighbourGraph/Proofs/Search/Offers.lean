/-
What offering candidates comes to.

Whatever is scored on the way is settled in the list it was offered to, and stays settled. Trying
a candidate and comparing a pair score what they are asked to, unless the filter excludes it.
-/

import NeighbourGraph.Proofs.Search.Sound

namespace NeighbourGraph.Search

open NeighbourGraph.Random

/-! ### What was scored -/

/-- A candidate has nothing left to gain in the list of a node. -/
def SettledIn (s : State) (node candidate : Nat) (similarity : Float) : Prop :=
  ∃ l, s.lists[node]? = some l ∧ l.Settles candidate similarity

/-- All candidates that were scored are settled. -/
def Settled (s : State) (events : List Event) : Prop :=
  ∀ v c x, Event.considered v c x ∈ events → SettledIn s v c x

/-- `candidate` was scored for `node`. -/
def Considers (events : List Event) (node candidate : Nat) : Prop :=
  ∃ x, Event.considered node candidate x ∈ events

/-- `candidate` was scored for `node`, if it is another node and not excluded. -/
def Tries (setup : Setup) (events : List Event) (node candidate : Nat) : Prop :=
  node ≠ candidate → setup.excluded node candidate = false → Considers events node candidate

/-- Two nodes were scored for each other, if they are not the same and neither order is
excluded. -/
def Compares (setup : Setup) (events : List Event) (a b : Nat) : Prop :=
  a ≠ b → setup.excluded a b = false → setup.excluded b a = false →
    Considers events a b ∧ Considers events b a

/-- Around `node`, each of `new` was tried for the node and compared with the others and with
`old`. -/
def Joins (setup : Setup) (node : Nat) (old new : List Nat) (events : List Event) : Prop :=
  ∀ x ∈ new, Tries setup events x node ∧ ∀ y, y ∈ old ∨ y ∈ new → Compares setup events x y

section

variable {setup : Setup} {events later : List Event} {a b : Nat} {s t : State}

theorem Considers.mono (h : Considers events a b) (sub : events ⊆ later) :
    Considers later a b :=
  h.imp fun _ hx => sub hx

theorem Tries.mono (h : Tries setup events a b) (sub : events ⊆ later) :
    Tries setup later a b :=
  fun ne ex => (h ne ex).mono sub

theorem Compares.mono (h : Compares setup events a b) (sub : events ⊆ later) :
    Compares setup later a b :=
  fun ne ex ex' => (h ne ex ex').imp (·.mono sub) (·.mono sub)

theorem Compares.symm (h : Compares setup events a b) : Compares setup events b a :=
  fun ne ex ex' => (h ne.symm ex' ex).symm

theorem Joins.mono {node : Nat} {old new : List Nat} (h : Joins setup node old new events)
    (sub : events ⊆ later) : Joins setup node old new later :=
  fun x hx => ⟨(h x hx).1.mono sub, fun y hy => ((h x hx).2 y hy).mono sub⟩

theorem Joins.cons {node first : Nat} {old rest : List Nat} (pivot : Tries setup events first node)
    (compares : ∀ x, x ∈ old ∨ x ∈ rest → Compares setup events first x)
    (joins : Joins setup node old rest events) : Joins setup node old (first :: rest) events := by
  have self : Compares setup events first first := fun ne => absurd rfl ne
  intro x hx
  rcases List.mem_cons.1 hx with rfl | hr
  · constructor
    · exact pivot
    · intro y hy
      rcases hy with hy | hy
      · exact compares y (.inl hy)
      · rcases List.mem_cons.1 hy with rfl | hy
        · exact self
        · exact compares y (.inr hy)
  · constructor
    · exact (joins x hr).1
    · intro y hy
      rcases hy with hy | hy
      · exact (joins x hr).2 y (.inl hy)
      · rcases List.mem_cons.1 hy with rfl | hy
        · exact (compares x (.inr hr)).symm
        · exact (joins x hr).2 y (.inr hy)

theorem SettledIn.grows {change : Nat → Change} {c : Nat} {x : Float} (h : SettledIn s a c x)
    (grows : Grows change s t)
    (settles : ∀ l l', (change a).rel l l' → l.Settles c x → l'.Settles c x) :
    SettledIn t a c x := by
  obtain ⟨l, hl, held⟩ := h
  obtain ⟨l', hl', r⟩ := grows.lists a l hl
  exact ⟨l', hl', settles l l' r held⟩

theorem settled_of_forall_ne (h : ∀ v c x, Event.considered v c x ∉ events) : Settled s events :=
  fun v c x hx => absurd hx (h v c x)

theorem Settled.cons {e : Event} (first : ∀ v c x, e = .considered v c x → SettledIn s v c x)
    (rest : Settled s events) : Settled s (e :: events) := by
  intro v c x hx
  rcases List.mem_cons.1 hx with eq | hx
  · exact first v c x eq.symm
  · exact rest v c x hx

theorem Settled.append (h : Settled s events) (h' : Settled s later) :
    Settled s (events ++ later) := by
  intro v c x hx
  rcases List.mem_append.1 hx with hx | hx
  · exact h v c x hx
  · exact h' v c x hx

end

/-! ### Steps -/

section

variable {setup : Setup} {capacity : Nat} {s : State}

/-- Work that settles what it scores, if the metric is honest, and scores what it has to. -/
def settling (setup : Setup) {α : Type} (scores : List Event → Prop) : Post α :=
  fun _ events t => (setup.metric.Honest → Settled t events) ∧ scores events

theorem offering_self : (offering setup capacity).Tolerates (offering setup capacity) :=
  fun _ _ => id

theorem meets_record {e : Event} (he : ∀ v c x, e = .considered v c x → setup.Genuine v c x) :
    Meets (offering setup capacity) (record e)
      (fun _ events t => events = [e] ∧ (Sound setup capacity s → e ∈ t.log)) s := by
  apply meets_atomic
  intro t r
  refine ⟨fun sound => ⟨sound.record he, .record _ t e⟩, [e], by simp [State.record], ?_⟩
  intro u r'
  constructor
  · rfl
  · intro sound
    exact (r' ((r sound).1.record he)).2.log e (Array.mem_push.2 (.inr rfl))

theorem meets_score (origin : Origin) {left right : Nat} (hl : left < setup.nodeCount)
    (other : Sampler.IsOther setup.nodeCount left right)
    (allowed : setup.excluded left right = false) :
    Meets (offering setup capacity) (score setup origin left right)
      (fun x events _ => setup.metric.score left right = .ok x ∧
        events = [.scored origin left right]) s := by
  refine Meets.bind ((meets_record (by simp)).imp ?_)
  rintro - _ t ⟨rfl, -⟩
  cases score : setup.metric.score left right with
  | ok x => exact fun u r => ⟨rfl, rfl⟩
  | error cause => exact .score hl other allowed score

/-- What an offer to a sound list brings about and later offers leave as it is holds of the list
from then on. -/
theorem does_offer_of {P : NeighbourList → Prop} (sound : Sound setup capacity s) {origin : Origin}
    {v c : Nat} {x : Float} (considered : .considered v c x ∈ s.log)
    (offered : ∀ (t : State) (l l' : NeighbourList) entered, Sound setup capacity t →
      .considered v c x ∈ t.log → l.SoundFor v capacity t.log → l.Offered c x entered l' → P l')
    (kept : ∀ l l' : NeighbourList, l.Follows l' → P l → P l') :
    Does (offering setup capacity) (offer setup origin v c x)
      (fun _ events t => (∀ v c x, Event.considered v c x ∉ events) ∧
        ∃ l, t.lists[v]? = some l ∧ P l) s := by
  intro g
  apply meets_atomic
  intro t r
  obtain ⟨sound, grows⟩ := r sound
  have considered := grows.log _ considered
  have genuine := sound.genuine v c x considered
  obtain ⟨l, hl, soundFor⟩ := sound.list genuine.node_lt
  have outcome := l.offered_add c x setup.config.perturbationRate g
  simp only [State.withList, hl]
  generalize l.add c x setup.config.perturbationRate g = r at outcome
  obtain ⟨⟨entered, l'⟩, g'⟩ := r
  have sound' := sound.setList (outcome.soundFor soundFor considered genuine.isFinite)
  have grows' : Grows (fun _ => .offers) t { t with lists := t.lists.setIfInBounds v l' } :=
    .setList hl (outcome.follows soundFor.wellFormed)
  have holds : P l' := offered t l l' entered sound considered soundFor outcome
  have mem : (t.lists.setIfInBounds v l')[v]? = some l' := by
    simp [(Array.getElem?_eq_some_iff.1 hl).1]
  -- What others do later leaves `P` true of the list.
  have later : ∀ {u}, Grows (fun _ => .offers)
      { t with lists := t.lists.setIfInBounds v l' } u → ∃ l, u.lists[v]? = some l ∧ P l := by
    intro u grows
    obtain ⟨l'', hl'', follows⟩ := grows.lists v l' mem
    exact ⟨l'', hl'', kept l' l'' follows holds⟩
  cases entered with
  | true =>
    refine ⟨fun _ => ⟨sound'.record (by simp), grows'.trans (.record _ _ _)⟩,
      [.entered origin v c], by simp [State.countEntered, State.record], ?_⟩
    exact fun u r => ⟨by simp,
      later ((Grows.record _ _ _).trans (r (sound'.record (by simp))).2)⟩
  | false =>
    refine ⟨fun _ => ⟨sound', grows'⟩, [], by simp [State.countEntered], ?_⟩
    exact fun u r => ⟨by simp, later (r sound').2⟩

/-- An offered candidate is settled. -/
theorem does_offer (sound : Sound setup capacity s) {origin : Origin} {v c : Nat} {x : Float}
    (considered : .considered v c x ∈ s.log) :
    Does (offering setup capacity) (offer setup origin v c x)
      (fun _ events t => (∀ v c x, Event.considered v c x ∉ events) ∧
        (setup.metric.Honest → SettledIn t v c x)) s := by
  refine (does_offer_of (P := fun l => setup.metric.Honest → l.Settles c x) sound considered
    (fun t l l' entered sound considered soundFor offered honest => ?_)
    fun l l' follows held honest => follows.settles c x (held honest)).imp ?_
  · have genuine := sound.genuine v c x considered
    refine offered.settles soundFor.wellFormed genuine.isFinite ?_ fun e he eq => ?_
    · exact soundFor.owner ▸ genuine.other.2
    · have entry := NeighbourList.forall_mem_neighbours.1 soundFor.considered e he
      exact genuine.le (eq ▸ sound.genuine _ _ _ entry) honest
  · rintro _ _ t ⟨quiet, l, hl, settles⟩
    exact ⟨quiet, fun honest => ⟨l, hl, settles honest⟩⟩

/-! ### Pairs -/

variable {α β : Type} {P Q R : List Event → Prop}

theorem does_return {a : α} (h : P []) :
    Does (offering setup capacity) (pure a : Work α) (settling setup P) s :=
  does_pure fun _ _ => ⟨fun _ => settled_of_forall_ne (by simp), h⟩

theorem Does.andReturn {w : Work α} (f : α → β)
    (h : Does (offering setup capacity) w (settling setup P) s) :
    Does (offering setup capacity) (do let a ← w; return f a) (settling setup P) s :=
  Does.map (f := f) h

/-- Work after work, whatever the first one answers. -/
theorem Does.andThen {w : Work α} {f : α → Work β}
    (first : Does (offering setup capacity) w (settling setup P) s)
    (rest : ∀ a, Does (offering setup capacity) (f a) (settling setup Q) s)
    (both : ∀ events later, P events → Q later → R (events ++ later)) :
    Does (offering setup capacity) (w >>= f) (settling setup R) s := by
  refine first.bind offering_self (Q := fun _ _ => settling setup Q)
    (fun a _ t r _ => (rest a).later r) ?_
  intro a events b later t h h'
  exact ⟨fun honest => (h.1 honest).append (h'.1 honest), both events later h.2 h'.2⟩

/-- Work goes on with a score, which settles nothing by itself. -/
theorem Does.afterScore {f : Float → Work α} {left right : Nat} (origin : Origin)
    (hl : left < setup.nodeCount) (other : Sampler.IsOther setup.nodeCount left right)
    (allowed : setup.excluded left right = false)
    (mono : ∀ {events later}, P events → events ⊆ later → P later)
    (rest : ∀ x t, setup.metric.score left right = .ok x → (offering setup capacity).rely s t →
      Does (offering setup capacity) (f x) (settling setup P) t) :
    Does (offering setup capacity) (do let x ← score setup origin left right; f x)
      (settling setup P) s := by
  refine (does_lift (meets_score origin hl other allowed)).bind offering_self
    (Q := fun _ _ => settling setup P) ?_ ?_
  · rintro x _ t r ⟨scored, -⟩
    exact rest x t scored r
  · rintro x _ a later t ⟨-, rfl⟩ ⟨settled, scores⟩
    constructor
    · intro honest
      exact .cons (by simp) (settled honest)
    · exact mono scores (List.subset_append_right _ _)

/-- Work goes on after the record of a candidate that was scored. -/
theorem Does.afterRecord {w : Work α} {Q : Post α} {v c : Nat} {x : Float}
    (sound : Sound setup capacity s) (genuine : setup.Genuine v c x)
    (rest : ∀ t, (offering setup capacity).rely s t → Sound setup capacity t →
      .considered v c x ∈ t.log → Does (offering setup capacity) w Q t) :
    Does (offering setup capacity) (do record (.considered v c x); w)
      (fun a events t => ∃ later, events = .considered v c x :: later ∧ Q a later t) s := by
  have one : ∀ v' c' x', Event.considered v c x = .considered v' c' x' →
      setup.Genuine v' c' x' := by
    rintro _ _ _ ⟨⟩
    exact genuine
  refine (does_lift ((meets_record one).frame (F := Sound setup capacity) (.refl _) sound
    (fun _ _ h r => (r h).1) (fun _ _ h r => (r h).1))).bind offering_self
    (Q := fun _ _ => Q) ?_ ?_
  · rintro - _ t r ⟨sound', -, logged⟩
    exact rest t r sound' (logged sound)
  · rintro - _ a later t ⟨-, rfl, -⟩ held
    exact ⟨later, rfl, held⟩

/-- Scoring a candidate and offering it to the list of the node. -/
theorem does_consider (sound : Sound setup capacity s) {origin : Origin} {v c : Nat}
    (hv : v < setup.nodeCount) (other : Sampler.IsOther setup.nodeCount v c)
    (allowed : setup.excluded v c = false) :
    Does (offering setup capacity) (consider setup origin v c)
      (settling setup (Considers · v c)) s := by
  apply Does.afterScore origin hv other allowed Considers.mono
  intro x t scored r
  have genuine : setup.Genuine v c x := ⟨hv, other, .inl ⟨allowed, scored⟩⟩
  refine (Does.afterRecord (r sound).1 genuine (Q := fun _ later u =>
    (∀ v c x, Event.considered v c x ∉ later) ∧ (setup.metric.Honest → SettledIn u v c x))
    fun u _ sound logged => (does_offer sound logged).map).imp ?_
  rintro tally _ u ⟨later, rfl, quiet, settled⟩
  constructor
  · intro honest
    refine .cons ?_ (settled_of_forall_ne quiet)
    rintro _ _ _ ⟨⟩
    exact settled honest
  · exact ⟨x, by simp⟩

theorem does_tryCandidate (sound : Sound setup capacity s) {node candidate : Nat}
    (hn : node < setup.nodeCount) (other : Sampler.IsOther setup.nodeCount node candidate) :
    Does (offering setup capacity) (tryCandidate setup node candidate)
      (settling setup (Tries setup · node candidate)) s := by
  unfold tryCandidate
  by_cases ex : setup.excluded node candidate = true
  · rw [if_pos ex]
    apply does_return
    intro _ allowed
    simp [ex] at allowed
  · rw [if_neg ex]
    apply (does_consider sound hn other (by simpa using ex)).imp
    intro _ _ _ h
    exact ⟨h.1, fun _ _ => h.2⟩

theorem does_joinOne (sound : Sound setup capacity s) (origin : Origin) {a b : Nat}
    (ha : a < setup.nodeCount) (hb : b < setup.nodeCount) :
    Does (offering setup capacity) (joinOne setup origin a b)
      (settling setup (Tries setup · a b)) s := by
  unfold joinOne
  by_cases skipped : (decide (a = b) || setup.excluded a b) = true
  · rw [if_pos skipped]
    apply does_return
    intro ne allowed
    simp [ne, allowed] at skipped
  · rw [if_neg skipped]
    simp only [Bool.or_eq_true, decide_eq_true_eq, not_or, Bool.not_eq_true] at skipped
    apply (does_consider sound ha ⟨hb, fun eq => skipped.1 eq.symm⟩ skipped.2).imp
    intro _ _ _ h
    exact ⟨h.1, fun _ _ => h.2⟩

/-- Two offers of candidates that were scored settle both. -/
theorem does_offerBoth (sound : Sound setup capacity s) {a b : Nat} {x : Float}
    (there : .considered a b x ∈ s.log) (back : .considered b a x ∈ s.log) :
    Does (offering setup capacity)
      (do
        let first ← offer setup .joining a b x
        let second ← offer setup .joining b a x
        return ({ updates := first + second, pairs := 1 } : Tally))
      (fun _ events t => (∀ v c x, Event.considered v c x ∉ events) ∧
        (setup.metric.Honest → SettledIn t a b x ∧ SettledIn t b a x)) s := by
  refine (does_offer sound there).bind offering_self
    (Q := fun _ _ _ events t => (∀ v c x, Event.considered v c x ∉ events) ∧
      (setup.metric.Honest → SettledIn t b a x)) ?_ ?_
  · intro first _ t r _
    exact ((does_offer sound back).later r).map
  · rintro _ events _ later t ⟨quiet, first⟩ ⟨quiet', second⟩
    constructor
    · intro v c x hx
      exact (List.mem_append.1 hx).elim (quiet v c x) (quiet' v c x)
    · intro honest
      exact ⟨first honest, second honest⟩

theorem does_joinBoth (sound : Sound setup capacity s) {a b : Nat} (ha : a < setup.nodeCount)
    (hb : b < setup.nodeCount) (ne : a ≠ b) (symm : setup.metric.symmetric = true) :
    Does (offering setup capacity) (joinBoth setup a b)
      (settling setup (Compares setup · a b)) s := by
  unfold joinBoth
  by_cases ex : setup.excluded a b = true
  · rw [if_pos ex]
    apply does_return
    intro _ allowed
    simp [ex] at allowed
  rw [if_neg ex]
  have allowed : setup.excluded a b = false := by simpa using ex
  apply Does.afterScore .pairing ha ⟨hb, ne.symm⟩ allowed Compares.mono
  intro x t scored r
  have there : setup.Genuine a b x := ⟨ha, ⟨hb, ne.symm⟩, .inl ⟨allowed, scored⟩⟩
  have back : setup.Genuine b a x := ⟨hb, ⟨ha, ne⟩, .inr ⟨symm, allowed, scored⟩⟩
  refine (Does.afterRecord (r sound).1 there fun u _ sound logged =>
    Does.afterRecord sound back fun v r sound' logged' =>
      does_offerBoth sound' ((r sound).2.log _ logged) logged').imp ?_
  rintro tally _ u ⟨_, rfl, later, rfl, quiet, settled⟩
  constructor
  · intro honest
    refine .cons ?_ (.cons ?_ (settled_of_forall_ne quiet))
    · rintro _ _ _ ⟨⟩
      exact (settled honest).1
    · rintro _ _ _ ⟨⟩
      exact (settled honest).2
  · exact fun _ _ _ => ⟨⟨x, by simp⟩, ⟨x, by simp⟩⟩

theorem does_joinPair (sound : Sound setup capacity s) {a b : Nat} (ha : a < setup.nodeCount)
    (hb : b < setup.nodeCount) :
    Does (offering setup capacity) (joinPair setup a b)
      (settling setup (Compares setup · a b)) s := by
  unfold joinPair
  by_cases eq : a = b
  · rw [if_pos eq]
    exact does_return fun ne => absurd eq ne
  rw [if_neg eq]
  by_cases symm : setup.metric.symmetric = true
  · rw [if_pos symm]
    exact does_joinBoth sound ha hb eq symm
  · rw [if_neg symm]
    refine (does_joinOne sound .joining ha hb).andThen
      (fun _ => (does_joinOne sound .joining hb ha).andReturn _) ?_
    intro events later there back ne ex ex'
    exact ⟨(there ne ex).mono (List.subset_append_left _ _),
      (back ne.symm ex').mono (List.subset_append_right _ _)⟩

end

end NeighbourGraph.Search
