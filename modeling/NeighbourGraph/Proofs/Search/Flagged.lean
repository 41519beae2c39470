/-
Searches under either flag of the metric.

`Setup.flagged` turns the flag of a metric that tells whether the order of a pair matters. Where
neither the metric nor the filter minds the order of two nodes, the work on every node makes the
same offers with the same random words under both flags: a pair is scored once or twice, but
always for both of its nodes, one after the other.
-/

import NeighbourGraph.Proofs.Search.Candidates
import NeighbourGraph.Proofs.Search.Twins

namespace NeighbourGraph

open NeighbourGraph.Random NeighbourGraph.Search

/-! ### Setups -/

/-- The setup with its metric flagged as symmetric, or not. -/
def Setup.flagged (setup : Setup) (symmetric : Bool) : Setup :=
  { setup with metric := { setup.metric with symmetric } }

section

variable (setup : Setup) (symmetric : Bool)

@[simp] theorem Setup.flagged_nodeCount :
    (setup.flagged symmetric).nodeCount = setup.nodeCount := rfl

@[simp] theorem Setup.flagged_config : (setup.flagged symmetric).config = setup.config := rfl

@[simp] theorem Setup.flagged_excluded :
    (setup.flagged symmetric).excluded = setup.excluded := rfl

@[simp] theorem Setup.flagged_stopped : (setup.flagged symmetric).stopped = setup.stopped := rfl

@[simp] theorem Setup.flagged_covered :
    (setup.flagged symmetric).metric.nodeCount = setup.metric.nodeCount := rfl

@[simp] theorem Setup.flagged_symmetric :
    (setup.flagged symmetric).metric.symmetric = symmetric := rfl

@[simp] theorem Setup.score_flagged :
    (setup.flagged symmetric).metric.score = setup.metric.score := rfl

end

/-- Neither the metric nor the filter minds the order of two nodes, and all pairs have scores. -/
structure Setup.EvenHanded (setup : Setup) (E : Float → Float → Prop) : Prop where
  scores : ∀ a < setup.nodeCount, ∀ b < setup.nodeCount, ∃ x y,
    setup.metric.score a b = .ok x ∧ setup.metric.score b a = .ok y ∧ E x y
  filter : ∀ a < setup.nodeCount, ∀ b < setup.nodeCount, setup.excluded a b = setup.excluded b a

/-- The search may be told to stop at some time. -/
def Setup.MayStop (setup : Setup) : Prop := ∃ log, setup.stopped log = true

/-- As many updates, and no more pairs than the other one, which has twice as many at most. -/
structure Tally.Saves (t t' : Tally) : Prop where
  updates : t.updates = t'.updates
  le : t.pairs ≤ t'.pairs
  le_double : t'.pairs ≤ 2 * t.pairs

namespace Tally.Saves

theorem refl (t : Tally) : t.Saves t := ⟨rfl, Nat.le_refl _, by omega⟩

theorem add {t t' u u' : Tally} (h : t.Saves t') (h' : u.Saves u') : (t + u).Saves (t' + u') where
  updates := by simp [h.updates, h'.updates]
  le := by
    have := h.le
    have := h'.le
    simp only [Tally.pairs_add]
    omega
  le_double := by
    have := h.le_double
    have := h'.le_double
    simp only [Tally.pairs_add]
    omega

theorem total {ts ts' : List Tally} (h : List.Forall₂ Saves ts ts') :
    (Tally.total ts).Saves (Tally.total ts') := by
  induction h with
  | nil => exact refl _
  | cons first _ ih => exact first.add ih

end Tally.Saves

namespace Search

section

variable {E : Float → Float → Prop} {setup : Setup} {α β : Type} {V : α → β → Prop} {s t : State}

/-! ### Steps -/

theorem twins_proceed (name : Phase) :
    Twins E setup.nodeCount setup.MayStop (fun _ _ => True)
      (proceed (setup.flagged true) name) (proceed (setup.flagged false) name) := by
  intro s t alike
  simp only [proceed, exec_bind, exec_atomic, Setup.flagged_stopped]
  cases hs : setup.stopped s.log <;> cases ht : setup.stopped t.log
  · exact .ok trivial alike
  · exact .stopped ⟨_, ht⟩ (.inr rfl)
  · exact .stopped ⟨_, hs⟩ (.inl rfl)
  · exact .error _

theorem twins_checkpoint (p : Partition) (node : Nat) (name : Phase) :
    Twins E setup.nodeCount setup.MayStop (fun _ _ => True)
      (checkpoint (setup.flagged true) p node name)
      (checkpoint (setup.flagged false) p node name) := by
  unfold checkpoint
  split
  · exact twins_proceed name
  · exact twins_pure trivial

theorem twins_score {a b c d : Nat} {x y : Float} (origin origin' : Origin)
    (hx : setup.metric.score a b = .ok x) (hy : setup.metric.score c d = .ok y) :
    Twins E setup.nodeCount setup.MayStop (fun u v => u = x ∧ v = y)
      (score (setup.flagged true) origin a b) (score (setup.flagged false) origin' c d) := by
  refine (twins_record _ _).bind fun _ _ _ => ?_
  rw [Setup.score_flagged, Setup.score_flagged, hx, hy]
  exact twins_pure ⟨rfl, rfl⟩

/-- A score that only the second one asks for makes no difference. -/
theorem TwinWorks.scoreRight {w : Work α} {f : Float → Work β} {a b : Nat} {y : Float}
    (hy : setup.metric.score a b = .ok y) (flag : Bool) (origin : Origin)
    (h : TwinWorks E setup.nodeCount setup.MayStop V w (f y)) :
    TwinWorks E setup.nodeCount setup.MayStop V w
      (do let y ← score (setup.flagged flag) origin a b; f y) := by
  have scored : score (setup.flagged flag) origin a b =
      (do record (.scored origin a b); return y) := by
    simp only [score, Setup.score_flagged, hy]
  rw [scored]
  exact h.logRight _

theorem State.Alike.countEntered {n : Nat} {r r' : (Bool × Generator) × State}
    (alike : r.2.Alike E n r'.2) (same : r.1 = r'.1) (origin : Origin) (v c : Nat) :
    (State.countEntered origin v c r).1 = (State.countEntered origin v c r').1 ∧
      (State.countEntered origin v c r).2.Alike E n (State.countEntered origin v c r').2 := by
  obtain ⟨⟨entered, g⟩, s⟩ := r
  obtain ⟨answer, t⟩ := r'
  obtain rfl : (entered, g) = answer := same
  cases entered with
  | true => exact ⟨rfl, alike.record _ _⟩
  | false => exact ⟨rfl, alike⟩

theorem twinWorks_offer (hE : Number.Congruent E) (origin : Origin) (v : Nat) {c : Nat}
    {x y : Float} (hc : c < setup.nodeCount) (hxy : E x y) :
    TwinWorks E setup.nodeCount setup.MayStop Eq (offer (setup.flagged true) origin v c x)
      (offer (setup.flagged false) origin v c y) := by
  intro g
  let rate := setup.config.perturbationRate
  have works : ∀ l l' : NeighbourList, l.Alike E l' → (∀ id ∈ l.ids, id < setup.nodeCount) →
      ((l.add c x rate g).1.1, (l.add c x rate g).2) =
          ((l'.add c y rate g).1.1, (l'.add c y rate g).2) ∧
        (l.add c x rate g).1.2.Alike E (l'.add c y rate g).1.2 ∧
        ∀ id ∈ (l.add c x rate g).1.2.ids, id < setup.nodeCount := by
    intro l l' alike known
    obtain ⟨entered, words, lists⟩ := alike.add hE.toComparable hxy c rate g
    refine ⟨Prod.ext entered words, lists, ?_⟩
    intro id hid
    obtain ⟨e, he, rfl⟩ := List.mem_map.1 hid
    rcases (l.offered_add c x rate g).mem he with he | rfl
    · exact known _ (List.mem_map_of_mem he)
    · exact hc
  apply twins_atomic
  intro s t alike
  have both := alike.withList (V := Eq) v (a := (false, g)) rfl
    (f := fun l => (((l.add c x rate g).1.1, (l.add c x rate g).2), (l.add c x rate g).1.2))
    (k := fun l => (((l.add c y rate g).1.1, (l.add c y rate g).2), (l.add c y rate g).1.2)) works
  obtain ⟨counted, alike⟩ := both.2.countEntered both.1 origin v c
  exact ⟨Prod.ext_iff.1 counted, alike⟩

/-! ### Pairs -/

/-- Scoring a candidate and offering it does the same under both flags. -/
theorem twinWorks_consider (hE : Number.Congruent E) (even : setup.EvenHanded E)
    (origin : Origin) {v c : Nat} (hv : v < setup.nodeCount) (hc : c < setup.nodeCount) :
    TwinWorks E setup.nodeCount setup.MayStop Tally.Saves
      (consider (setup.flagged true) origin v c) (consider (setup.flagged false) origin v c) := by
  obtain ⟨x, -, hx, -⟩ := even.scores v hv c hc
  refine (twinWorks_lift (twins_score origin origin hx hx)).bind ?_
  rintro _ _ ⟨rfl, rfl⟩
  refine (twinWorks_lift (twins_record _ _)).bind fun _ _ _ => ?_
  refine (twinWorks_offer hE origin v hc (hE.refl _)).bind ?_
  rintro updates _ rfl
  exact twinWorks_pure (.refl _)

theorem twinWorks_tryCandidate (hE : Number.Congruent E) (even : setup.EvenHanded E) {v c : Nat}
    (hv : v < setup.nodeCount) (hc : c < setup.nodeCount) :
    TwinWorks E setup.nodeCount setup.MayStop Tally.Saves
      (tryCandidate (setup.flagged true) v c) (tryCandidate (setup.flagged false) v c) := by
  by_cases ex : setup.excluded v c = true
  · simp only [tryCandidate, Setup.flagged_excluded, ex, if_true]
    exact twinWorks_pure (.refl _)
  · simp only [tryCandidate, Setup.flagged_excluded, ex]
    exact twinWorks_consider hE even .sampling hv hc

theorem twinWorks_joinOne (hE : Number.Congruent E) (even : setup.EvenHanded E) (origin : Origin)
    {a b : Nat} (ha : a < setup.nodeCount) (hb : b < setup.nodeCount) :
    TwinWorks E setup.nodeCount setup.MayStop Tally.Saves
      (joinOne (setup.flagged true) origin a b) (joinOne (setup.flagged false) origin a b) := by
  by_cases skipped : (decide (a = b) || setup.excluded a b) = true
  · simp only [joinOne, Setup.flagged_excluded, skipped, if_true]
    exact twinWorks_pure (.refl _)
  · simp only [joinOne, Setup.flagged_excluded, skipped]
    exact twinWorks_consider hE even origin ha hb

theorem joinOne_eq_pure {a b : Nat} (ex : setup.excluded a b = true) (origin : Origin) :
    joinOne setup origin a b = pure {} := by
  simp [joinOne, ex]

theorem joinOne_eq_consider {a b : Nat} (ne : a ≠ b) (allowed : setup.excluded a b = false)
    (origin : Origin) : joinOne setup origin a b = consider setup origin a b := by
  simp [joinOne, ne, allowed]

/-- A pair that is scored once and one that is scored twice make the same two offers. -/
theorem twinWorks_scoreOnce (hE : Number.Congruent E) (even : setup.EvenHanded E) {a b : Nat}
    (ha : a < setup.nodeCount) (hb : b < setup.nodeCount) :
    TwinWorks E setup.nodeCount setup.MayStop Tally.Saves
      (do
        let x ← score (setup.flagged true) .pairing a b
        record (.considered a b x)
        record (.considered b a x)
        let first ← offer (setup.flagged true) .joining a b x
        let second ← offer (setup.flagged true) .joining b a x
        return ({ updates := first + second, pairs := 1 } : Tally))
      (do
        let there ← consider (setup.flagged false) .joining a b
        let back ← consider (setup.flagged false) .joining b a
        return there + back) := by
  obtain ⟨x, y, hx, hy, hxy⟩ := even.scores a ha b hb
  simp only [consider, LawfulMonad.bind_assoc, pure_bind]
  refine (twinWorks_lift (twins_score .pairing .joining hx hx)).bind ?_
  rintro _ _ ⟨rfl, rfl⟩
  refine (twinWorks_lift (twins_record _ _)).bind fun _ _ _ => ?_
  refine TwinWorks.logLeft ?_ _
  refine (twinWorks_offer hE .joining a hb (hE.refl _)).bind ?_
  rintro first _ rfl
  refine TwinWorks.scoreRight hy false .joining (TwinWorks.logRight ?_ _)
  refine (twinWorks_offer hE .joining b ha hxy).bind ?_
  rintro second _ rfl
  exact twinWorks_pure ⟨rfl, by simp, by simp⟩

theorem twinWorks_joinBoth (hE : Number.Congruent E) (even : setup.EvenHanded E) {a b : Nat}
    (ha : a < setup.nodeCount) (hb : b < setup.nodeCount) (ne : a ≠ b) :
    TwinWorks E setup.nodeCount setup.MayStop Tally.Saves
      (joinBoth (setup.flagged true) a b)
      (do
        let there ← joinOne (setup.flagged false) .joining a b
        let back ← joinOne (setup.flagged false) .joining b a
        return there + back) := by
  have filter : (setup.flagged false).excluded a b = (setup.flagged false).excluded b a :=
    even.filter a ha b hb
  by_cases ex : (setup.flagged false).excluded a b = true
  · rw [joinOne_eq_pure ex, joinOne_eq_pure (filter ▸ ex)]
    rw [Setup.flagged_excluded] at ex
    simp only [joinBoth, Setup.flagged_excluded, ex, if_true]
    exact twinWorks_pure (.refl _)
  · rw [Bool.not_eq_true] at ex
    rw [joinOne_eq_consider ne ex, joinOne_eq_consider ne.symm (filter ▸ ex)]
    rw [Setup.flagged_excluded] at ex
    simp only [joinBoth, Setup.flagged_excluded, ex]
    exact twinWorks_scoreOnce hE even ha hb

theorem twinWorks_joinPair (hE : Number.Congruent E) (even : setup.EvenHanded E) {a b : Nat}
    (ha : a < setup.nodeCount) (hb : b < setup.nodeCount) :
    TwinWorks E setup.nodeCount setup.MayStop Tally.Saves
      (joinPair (setup.flagged true) a b) (joinPair (setup.flagged false) a b) := by
  by_cases eq : a = b
  · simp only [joinPair, if_pos eq]
    exact twinWorks_pure (.refl _)
  · simp only [joinPair, if_neg eq, Setup.flagged_symmetric, if_true]
    exact twinWorks_joinBoth hE even ha hb eq

/-! ### Nodes -/

theorem twinWorks_joinWith (hE : Number.Congruent E) (even : setup.EvenHanded E) {first : Nat}
    {others : List Nat} (hf : first < setup.nodeCount) (ho : ∀ x ∈ others, x < setup.nodeCount) :
    TwinWorks E setup.nodeCount setup.MayStop Tally.Saves
      (joinWith (setup.flagged true) first others)
      (joinWith (setup.flagged false) first others) :=
  (twinWorks_mapM fun x hx => twinWorks_joinPair hE even hf (ho x hx)).bind fun _ _ h =>
    twinWorks_pure (.total h)

theorem twinWorks_joinNew (hE : Number.Congruent E) (even : setup.EvenHanded E) {node : Nat}
    {old new : List Nat} (hn : node < setup.nodeCount) (hold : ∀ x ∈ old, x < setup.nodeCount)
    (hnew : ∀ x ∈ new, x < setup.nodeCount) :
    TwinWorks E setup.nodeCount setup.MayStop Tally.Saves
      (joinNew (setup.flagged true) node old new) (joinNew (setup.flagged false) node old new) := by
  induction new with
  | nil => exact twinWorks_pure (.refl _)
  | cons first rest ih =>
    have hf := hnew first (by simp)
    have hr : ∀ x ∈ rest, x < setup.nodeCount := fun x hx => hnew x (by simp [hx])
    apply (twinWorks_joinOne hE even .joining hf hn).bind
    intro _ _ pivot
    apply (twinWorks_joinWith hE even hf hr).bind
    intro _ _ among
    apply (twinWorks_joinWith hE even hf hold).bind
    intro _ _ across
    exact (ih hr).bind fun _ _ others =>
      twinWorks_pure (((pivot.add among).add across).add others)

theorem twinWorks_joinRandom (hE : Number.Congruent E) (even : setup.EvenHanded E) {node : Nat}
    (hn : node < setup.nodeCount) (others : 2 ≤ setup.nodeCount) (count : Nat) :
    TwinWorks E setup.nodeCount setup.MayStop Tally.Saves
      (joinRandom (setup.flagged true) node count)
      (joinRandom (setup.flagged false) node count) := by
  have other : TwinWorks E setup.nodeCount setup.MayStop Tally.Saves
      (joinOther (setup.flagged true) node) (joinOther (setup.flagged false) node) := by
    refine (twinWorks_draw (P := (· < setup.nodeCount - 1)) (below_lt (by omega))).bind ?_
    rintro number _ ⟨rfl, lt⟩
    exact twinWorks_joinOne hE even .chance hn (Sampler.isOther_skip lt).1
  refine (twinWorks_mapM fun _ _ => other).bind fun ts ts' h => twinWorks_pure ?_
  exact ⟨rfl, (Tally.Saves.total h).le, (Tally.Saves.total h).le_double⟩

theorem twinWorks_joinNode (hE : Number.Congruent E) (even : setup.EvenHanded E)
    {c : Candidates} {node : Nat} (hn : node < setup.nodeCount) (others : 2 ≤ setup.nodeCount)
    (sampled : Nat) (known : c.Known setup.nodeCount) :
    TwinWorks E setup.nodeCount setup.MayStop Tally.Saves
      (joinNode (setup.flagged true) c sampled node)
      (joinNode (setup.flagged false) c sampled node) := by
  refine (twinWorks_draw (P := fun set => ∀ x ∈ set, x < setup.nodeCount)
    fun g x hx => ?_).bind ?_
  · exact (mem_workingSet hx).elim (known.old node x) (known.reverseOld node x)
  rintro old _ ⟨rfl, hold⟩
  refine (twinWorks_draw (P := fun set => ∀ x ∈ set, x < setup.nodeCount)
    fun g x hx => ?_).bind ?_
  · exact (mem_workingSet hx).elim (known.new node x) (known.reverseNew node x)
  rintro new _ ⟨rfl, hnew⟩
  apply (twinWorks_joinNew hE even hn hold hnew).bind
  intro _ _ joined
  exact (twinWorks_joinRandom hE even hn others _).bind fun _ _ random =>
    twinWorks_pure (joined.add random)

theorem twinWorks_fillNode (hE : Number.Congruent E) (even : setup.EvenHanded E) {node : Nat}
    (hn : node < setup.nodeCount) (count : Nat) :
    TwinWorks E setup.nodeCount setup.MayStop Tally.Saves
      (fillNode (setup.flagged true) count node) (fillNode (setup.flagged false) count node) := by
  have sample : TwinWorks E setup.nodeCount setup.MayStop
      (fun xs ys => xs = ys ∧ ∀ x ∈ xs, x < setup.nodeCount)
      (sampleCandidates (setup.flagged true) node count)
      (sampleCandidates (setup.flagged false) node count) := by
    refine (twinWorks_draw (P := fun r : Except Sampler.WalkError (List Nat) =>
      ∀ xs, r = .ok xs → ∀ x ∈ xs, Sampler.IsOther setup.nodeCount node x)
      (Sampler.gives_sample setup.config.sampler setup.graph node count)).bind ?_
    rintro r _ ⟨rfl, others⟩
    cases r with
    | ok xs => exact twinWorks_pure ⟨rfl, fun x hx => (others xs rfl x hx).1⟩
    | error cause => exact twinWorks_lift (twins_failed _)
  have ids : Twins E setup.nodeCount setup.MayStop (fun _ _ => True) (listOf node)
      (listOf node) := twins_atomic fun _ _ alike => ⟨trivial, alike⟩
  refine sample.bind ?_
  rintro xs _ ⟨rfl, known⟩
  refine (twinWorks_mapM fun x hx => twinWorks_tryCandidate hE even hn (known x hx)).bind ?_
  intro ts ts' h
  refine (twinWorks_lift ids).bind fun _ _ _ => ?_
  exact (twinWorks_lift (twins_record _ _)).bind fun _ _ _ => twinWorks_pure (.total h)

/-! ### Phases -/

theorem twins_overNodes {U : Nat → α → β → Prop} {work : Nat → Search α} {work' : Nat → Search β}
    (name : Phase) {p : Partition}
    (h : ∀ v ∈ p.nodes, Twins E setup.nodeCount setup.MayStop (U v) (work v) (work' v)) :
    Twins E setup.nodeCount setup.MayStop (Paired U p.nodes)
      (overNodes (setup.flagged true) name work p)
      (overNodes (setup.flagged false) name work' p) := by
  have visited : ∀ v, Twins E setup.nodeCount setup.MayStop (fun _ _ => True) (visit name v)
      (visit name v) := fun v => twins_atomic fun _ _ alike =>
    ⟨trivial, alike.size, alike.size', alike.lists, alike.known⟩
  refine (twins_mapM fun v hv => (twins_checkpoint p v name).bind fun _ _ _ =>
    (visited v).bind fun _ _ _ => h v hv).bind ?_
  exact fun as bs paired => (twins_record _ _).bind fun _ _ _ => twins_pure paired

/-- Phases whose tasks follow one another. -/
theorem twins_phase {U : Nat → α → β → Prop} {work : Nat → Search α} {work' : Nat → Search β}
    (name : Phase)
    (h : ∀ v < setup.nodeCount, Twins E setup.nodeCount setup.MayStop (U v) (work v) (work' v)) :
    Twins E setup.nodeCount setup.MayStop (Paired U (List.range setup.nodeCount))
      (phase (setup.flagged true) Turns.inOrder name work)
      (phase (setup.flagged false) Turns.inOrder name work') := by
  have nodes : setup.tasks.flatMap Partition.nodes = List.range setup.nodeCount :=
    flatMap_nodes_partitions ..
  have tasks : Twins E setup.nodeCount setup.MayStop
      (Paired (fun p => Paired U p.nodes) setup.tasks)
      (setup.tasks.mapM (overNodes (setup.flagged true) name work))
      (setup.tasks.mapM (overNodes (setup.flagged false) name work')) := by
    refine twins_mapM fun p hp => twins_overNodes name fun v hv => h v ?_
    rw [← List.mem_range, ← nodes]
    exact List.mem_flatMap.2 ⟨p, hp, hv⟩
  rw [phase_inOrder, phase_inOrder]
  refine (twins_record _ _).bind fun _ _ _ => tasks.bind ?_
  intro as bs paired
  exact (twins_record _ _).bind fun _ _ _ => twins_pure (nodes ▸ paired.flatten)

/-- The account of a phase whose work on each node saves pairs. -/
theorem twins_phase_total {work work' : Nat → Search Tally} (name : Phase)
    (h : ∀ v < setup.nodeCount,
      Twins E setup.nodeCount setup.MayStop Tally.Saves (work v) (work' v)) :
    Twins E setup.nodeCount setup.MayStop Tally.Saves
      (do return Tally.total (← phase (setup.flagged true) Turns.inOrder name work))
      (do return Tally.total (← phase (setup.flagged false) Turns.inOrder name work')) :=
  (twins_phase name h).bind fun _ _ paired =>
    twins_pure (.total (paired.forall₂ fun _ _ _ _ => id))

theorem twins_fill (hE : Number.Congruent E) (even : setup.EvenHanded E) (stream : Stream)
    (count : Nat) :
    Twins E setup.nodeCount setup.MayStop Tally.Saves
      (fill (setup.flagged true) Turns.inOrder stream count)
      (fill (setup.flagged false) Turns.inOrder stream count) :=
  twins_phase_total .initialization fun v hv =>
    twins_seeded (twinWorks_fillNode hE even hv count) stream v

theorem twins_join (hE : Number.Congruent E) (even : setup.EvenHanded E)
    (others : 2 ≤ setup.nodeCount) {c : Candidates} (known : c.Known setup.nodeCount)
    (stream : Stream) (sampled : Nat) :
    Twins E setup.nodeCount setup.MayStop Tally.Saves
      (join (setup.flagged true) Turns.inOrder c stream sampled)
      (join (setup.flagged false) Turns.inOrder c stream sampled) :=
  (twins_proceed .join).bind fun _ _ _ => twins_phase_total .join fun v hv =>
    twins_seeded (twinWorks_joinNode hE even hv others sampled known) stream v

/-- Alike lists hand out the same ids. -/
theorem twinWorks_splitNode (sampled v : Nat) :
    TwinWorks E setup.nodeCount setup.MayStop
      (fun parts parts' => parts = parts' ∧
        ∀ id, id ∈ parts.old ∨ id ∈ parts.new → id < setup.nodeCount)
      (splitNode sampled v) (splitNode sampled v) := by
  intro g
  apply twins_atomic
  intro s t alike
  refine alike.withList (V := fun r r' : NeighbourList.Parts × Generator => (r.1 = r'.1 ∧
    ∀ id, id ∈ r.1.old ∨ id ∈ r.1.new → id < setup.nodeCount) ∧ r.2 = r'.2) v
    ⟨⟨rfl, by simp⟩, rfl⟩ fun l l' alike known => ?_
  obtain ⟨parts, words, lists⟩ := alike.split sampled g
  refine ⟨⟨⟨parts, ?_⟩, words⟩, lists, ?_⟩
  · intro id hid
    exact known id ((l.handedOut_split sampled g).mem_ids hid)
  · intro id hid
    apply known id
    rw [NeighbourList.ids_eq_map_neighbours] at hid ⊢
    rwa [← (l.sameNeighbours_split sampled g).neighbours]

theorem twins_candidates (stream : Stream) (sampled : Nat) :
    Twins E setup.nodeCount setup.MayStop (fun c c' => c = c' ∧ c.Known setup.nodeCount)
      (candidates (setup.flagged true) Turns.inOrder stream sampled)
      (candidates (setup.flagged false) Turns.inOrder stream sampled) := by
  refine (twins_proceed .split).bind fun _ _ _ => ?_
  refine (twins_phase .split fun v _ =>
    twins_seeded (twinWorks_splitNode sampled v) stream v).bind fun parts parts' paired => ?_
  have same : List.Forall₂ Eq parts parts' := paired.forall₂ fun _ _ _ _ h => h.1
  rw [List.forall₂_eq_eq_eq] at same
  subst same
  have known : ∀ p ∈ parts, ∀ id, id ∈ p.old ∨ id ∈ p.new → id < setup.nodeCount := by
    have := paired.forall₂ (V := fun p _ => ∀ id, id ∈ p.old ∨ id ∈ p.new → id < setup.nodeCount)
      fun _ _ _ _ h => h.2
    exact List.forall₂_same.1 this
  refine (twins_proceed .reverse).bind fun _ _ _ => ?_
  refine (twins_record _ _).bind fun _ _ _ => (twins_record _ _).bind fun _ _ _ => ?_
  refine (twins_record _ _).bind fun _ _ _ => twins_pure ⟨rfl, ?_⟩
  exact Candidates.known_of_parts (by simpa using paired.length_eq) known

end

end Search

end NeighbourGraph
