/-
Only the order of scores matters.

If the scores of a metric are replaced by others in the same order, a search holds the same
neighbours in the same order, each with what its score was replaced by. Whatever looks at a score
compares it with other scores, so both searches take the same random words and act in the same way
throughout, under any turns: `State.Rescaled` relates their states.
-/

import NeighbourGraph.Proofs.NeighbourList.Alike
import NeighbourGraph.Proofs.Results
import NeighbourGraph.Proofs.Search.Mimics

namespace NeighbourGraph

open NeighbourGraph.Random NeighbourGraph.Search

/-! ### Scores in the same order -/

namespace Metric

variable {m : Metric} {f : Float → Float}

/-- The numbers that a metric gives. -/
def Gives (m : Metric) (x : Float) : Prop := ∃ a b, m.similarity a b = .ok x

/-- The function maps what the metric gives to finite numbers in the same order. -/
structure KeepsOrder (m : Metric) (f : Float → Float) : Prop where
  finite : ∀ x, m.Gives x → (f x).isFinite = true
  lt : ∀ x y, m.Gives x → m.Gives y → x < y → f x < f y
  beq : ∀ x y, m.Gives x → m.Gives y → (x == y) = true → (f x == f y) = true

/-- The metric that gives `f x` where the other one gives `x`. -/
def rescale (m : Metric) (f : Float → Float) : Metric :=
  { m with similarity := fun a b => (m.similarity a b).map f }

/-- Something that the metric gives, and what it is replaced by. -/
def Rescales (m : Metric) (f : Float → Float) (x y : Float) : Prop := m.Gives x ∧ y = f x

/-- Scores compare with each other as what they are replaced by does. -/
theorem comparable_rescales (finite : ∀ x, m.Gives x → x.isFinite = true)
    (keeps : m.KeepsOrder f) : Number.Comparable (m.Rescales f) where
  le_iff := by
    rintro x _ y _ ⟨givesX, rfl⟩ ⟨givesY, rfl⟩
    constructor
    · intro le
      by_cases ge : y ≤ x
      · have eq := keeps.beq x y givesX givesY (Number.beq_iff_le_and_ge.2 ⟨le, ge⟩)
        exact (Number.beq_iff_le_and_ge.1 eq).1
      · have lt := keeps.lt x y givesX givesY (Number.lt_iff_le_not_ge.2 ⟨le, ge⟩)
        exact (Number.lt_iff_le_not_ge.1 lt).1
    · intro le
      by_contra not
      have lt := keeps.lt y x givesY givesX
        ((Number.not_le (finite y givesY) (finite x givesX)).1 not)
      exact (Number.lt_iff_le_not_ge.1 lt).2 le

/-- A score is replaced, and what is no score stays the same error. -/
theorem score_rescale (finite : ∀ x, m.Gives x → x.isFinite = true) (keeps : m.KeepsOrder f)
    (a b : Nat) :
    (∃ x, m.Gives x ∧ m.score a b = .ok x ∧ (m.rescale f).score a b = .ok (f x)) ∨
      ∃ e, m.score a b = .error e ∧ (m.rescale f).score a b = .error e := by
  cases given : m.similarity a b with
  | error cause => exact .inr ⟨.failed a b cause, by simp [score, given],
      by simp [score, rescale, given, Except.map]⟩
  | ok x =>
    have gives : m.Gives x := ⟨a, b, given⟩
    exact .inl ⟨x, gives, by simp [score, given, finite x gives],
      by simp [score, rescale, given, Except.map, keeps.finite x gives]⟩

end Metric

/-- The setup of the same search with the scores replaced. -/
def Setup.rescale (setup : Setup) (f : Float → Float) : Setup :=
  { setup with metric := setup.metric.rescale f }

/-- The event with the score in it replaced. -/
def Event.rescale (f : Float → Float) : Event → Event
  | .considered node candidate similarity => .considered node candidate (f similarity)
  | e => e

theorem Event.rescale_of_isProgress {e : Event} (he : e.isProgress = true) (f : Float → Float) :
    e.rescale f = e := by
  cases e with
  | started | advanced | ended => rfl
  | offered | considered | scored | entered => cases he

/-- The neighbour with its similarity replaced. -/
def Neighbour.rescale (f : Float → Float) (n : Neighbour) : Neighbour :=
  { n with similarity := f n.similarity }

/-- The result with all similarities replaced. -/
def Result.rescale (f : Float → Float) (r : Result) : Result :=
  { r with neighbours := r.neighbours.map (List.map (Neighbour.rescale f)) }

/-! ### Lists -/

namespace NeighbourList

/-- Lists in two arrays that are alike place by place. -/
def AllAlike (E : Float → Float → Prop) (lists lists' : Array NeighbourList) : Prop :=
  ∀ v : Nat, Option.Rel (Alike E) lists[v]? lists'[v]?

namespace AllAlike

variable {E : Float → Float → Prop} {lists lists' : Array NeighbourList}

theorem empty (E : Float → Float → Prop) (nodeCount capacity : Nat) :
    AllAlike E (emptyLists nodeCount capacity) (emptyLists nodeCount capacity) := by
  intro v
  cases hl : (emptyLists nodeCount capacity)[v]? with
  | none => exact .none
  | some l =>
    obtain ⟨-, rfl⟩ := getElem?_emptyLists.1 hl
    exact .some ⟨rfl, rfl, .nil⟩

theorem modify (h : AllAlike E lists lists') (v : Nat) {k k' : NeighbourList → NeighbourList}
    (alike : ∀ l l', l.Alike E l' → (k l).Alike E (k' l')) :
    AllAlike E (lists.modify v k) (lists'.modify v k') := by
  intro w
  have held := h w
  rw [Array.getElem?_modify, Array.getElem?_modify]
  generalize lists[w]? = l at held
  generalize lists'[w]? = l' at held
  split
  · cases held with
    | none => exact .none
    | some r => exact .some (alike _ _ r)
  · exact held

/-- What alike lists are mapped to alike is the same. -/
theorem map_eq {β : Type} (h : AllAlike E lists lists') {k k' : NeighbourList → β}
    (eq : ∀ l l', l.Alike E l' → k l = k' l') : lists.map k = lists'.map k' := by
  apply Array.ext_getElem?
  intro v
  have held := h v
  rw [Array.getElem?_map, Array.getElem?_map]
  generalize lists[v]? = l at held
  generalize lists'[v]? = l' at held
  cases held with
  | none => rfl
  | some r => exact congrArg some (eq _ _ r)

end AllAlike

/-- Alike lists have the same neighbours but for the scores. -/
theorem Alike.neighbours_rescale {m : Metric} {f : Float → Float} {l l' : NeighbourList}
    (h : l.Alike (m.Rescales f) l') : l'.neighbours = l.neighbours.map (Neighbour.rescale f) := by
  have entries := h.entries
  unfold neighbours
  generalize l.entries = es at entries
  generalize l'.entries = es' at entries
  induction entries with
  | nil => rfl
  | @cons e e' _ _ first _ ih =>
    have same : e'.toNeighbour = e.toNeighbour.rescale f := by
      rw [Neighbour.rescale, first.id, ← first.similarity.2]
    rw [List.map_cons, List.map_cons, List.map_cons, ih, same]

end NeighbourList

namespace Search

/-! ### States -/

/-- The same lists and the same events but for the scores. -/
structure State.Rescaled (m : Metric) (f : Float → Float) (s t : State) : Prop where
  lists : NeighbourList.AllAlike (m.Rescales f) s.lists t.lists
  log : t.log = s.log.map (Event.rescale f)

variable {m : Metric} {f : Float → Float} {s t : State} {α : Type}

theorem State.Rescaled.record (h : s.Rescaled m f t) (e : Event) :
    (s.record e).Rescaled m f (t.record (e.rescale f)) :=
  ⟨h.lists, by simp [State.record, h.log]⟩

/-- The same work on alike lists leaves the states related. -/
theorem State.Rescaled.withList (h : s.Rescaled m f t) (v : Nat)
    {k k' : NeighbourList → α × NeighbourList} (otherwise : α)
    (alike : ∀ l l', l.Alike (m.Rescales f) l' →
      (k l).1 = (k' l').1 ∧ (k l).2.Alike (m.Rescales f) (k' l').2) :
    (s.withList v k otherwise).1 = (t.withList v k' otherwise).1 ∧
      (s.withList v k otherwise).2.Rescaled m f (t.withList v k' otherwise).2 := by
  have lists := h.lists.modify v fun l l' r => (alike l l' r).2
  rw [← State.lists_withList s v k otherwise, ← State.lists_withList t v k' otherwise] at lists
  refine ⟨?_, lists, by rw [State.log_withList, State.log_withList, h.log]⟩
  have held := h.lists v
  unfold State.withList
  generalize s.lists[v]? = l at held
  generalize t.lists[v]? = l' at held
  cases held with
  | none => rfl
  | some r => exact (alike _ _ r).1

/-- Whether a candidate came in is told and logged in the same way. -/
theorem State.countEntered_rescaled {r r' : (Bool × Generator) × State}
    (same : r.1 = r'.1 ∧ r.2.Rescaled m f r'.2) (origin : Origin) (v c : Nat) :
    (State.countEntered origin v c r).1 = (State.countEntered origin v c r').1 ∧
      (State.countEntered origin v c r).2.Rescaled m f (State.countEntered origin v c r').2 := by
  obtain ⟨⟨entered, g⟩, s⟩ := r
  obtain ⟨_, t⟩ := r'
  obtain ⟨answer, related⟩ := same
  cases answer
  cases entered with
  | true => exact ⟨rfl, related.record (.entered origin v c)⟩
  | false => exact ⟨rfl, related⟩

/-! ### Searches -/

section

variable {setup : Setup} (finite : ∀ x, setup.metric.Gives x → x.isFinite = true)
  (keeps : setup.metric.KeepsOrder f)
  (heeds : ∀ log : Log, setup.stopped (log.map (Event.rescale f)) = setup.stopped log)

/-- Searches that act in the same way but for the scores. -/
abbrev Matches (setup : Setup) (f : Float → Float) {α : Type} (p q : Search α) : Prop :=
  Mimics (State.Rescaled setup.metric f) p q

theorem congruence_matches : Congruence (Matches setup f) where
  toChained := chained_mimics _
  rounds _ := mimics_atomic fun _ _ related => ⟨rfl, related.lists, related.log⟩

theorem matches_record (e : Event) : Matches setup f (record e) (record (e.rescale f)) :=
  mimics_record fun _ _ related => related.record e

theorem matches_report {e : Event} (he : e.isProgress = true) :
    Matches setup f (record e) (record e) := by
  have report : Matches setup f (record e) (record (e.rescale f)) := matches_record e
  rwa [Event.rescale_of_isProgress he] at report

include heeds in
theorem matches_proceed (name : Phase) :
    Matches setup f (proceed setup name) (proceed (setup.rescale f) name) := by
  refine Mimics.bind (mimics_atomic fun s t related => ⟨?_, related⟩) fun told => ?_
  · exact (related.log ▸ heeds s.log).symm
  · split
    · exact .failed _
    · exact .done _

include finite keeps in
/-- What follows a score follows what it is replaced by. -/
theorem matches_score (origin : Origin) (a b : Nat) {k k' : Float → Work α}
    (rest : ∀ x, setup.metric.Gives x → Works (Matches setup f) (k x) (k' (f x))) :
    Works (Matches setup f) (liftM (score setup origin a b) >>= k)
      (liftM (score (setup.rescale f) origin a b) >>= k') := by
  refine fun g => .act (fun s t related => ⟨rfl, related.record (.scored origin a b)⟩) fun _ => ?_
  rcases setup.metric.score_rescale finite keeps a b with
    ⟨x, gives, score, score'⟩ | ⟨e, score, score'⟩
  · simp only [Setup.rescale, score, score']
    exact rest x gives g
  · simp only [Setup.rescale, score, score']
    exact .failed (.score e)

theorem matches_considered (v c : Nat) (x : Float) :
    Works (Matches setup f) (liftM (record (.considered v c x)))
      (liftM (record (.considered v c (f x)))) :=
  congruence_matches.works_lift (matches_record (.considered v c x))

include finite keeps in
theorem matches_offer (origin : Origin) (v c : Nat) {x : Float} (gives : setup.metric.Gives x) :
    Works (Matches setup f) (offer setup origin v c x)
      (offer (setup.rescale f) origin v c (f x)) := by
  refine fun g => mimics_atomic fun s t related => ?_
  refine State.countEntered_rescaled (related.withList v _ fun l l' alike => ?_) origin v c
  obtain ⟨entered, words, lists⟩ := alike.add (setup.metric.comparable_rescales finite keeps)
    ⟨gives, rfl⟩ c setup.config.perturbationRate g
  exact ⟨Prod.ext entered words, lists⟩

include finite keeps in
theorem matches_consider (origin : Origin) (v c : Nat) :
    Works (Matches setup f) (consider setup origin v c)
      (consider (setup.rescale f) origin v c) :=
  matches_score finite keeps origin v c fun x gives =>
    congruence_matches.works_bind (matches_considered v c x) fun _ =>
      congruence_matches.works_bind (matches_offer finite keeps origin v c gives) fun _ =>
        congruence_matches.works_pure _

include finite keeps in
theorem matches_joinBoth (a b : Nat) :
    Works (Matches setup f) (joinBoth setup a b) (joinBoth (setup.rescale f) a b) := by
  have excluded : (setup.rescale f).excluded = setup.excluded := rfl
  unfold joinBoth
  rw [excluded]
  split
  · exact congruence_matches.works_pure _
  · exact matches_score finite keeps .pairing a b fun x gives =>
      congruence_matches.works_bind (matches_considered a b x) fun _ =>
        congruence_matches.works_bind (matches_considered b a x) fun _ =>
          congruence_matches.works_bind (matches_offer finite keeps .joining a b gives) fun _ =>
            congruence_matches.works_bind (matches_offer finite keeps .joining b a gives) fun _ =>
              congruence_matches.works_pure _

theorem matches_listOf (v : Nat) : Matches setup f (listOf v) (listOf v) := by
  refine mimics_atomic fun s t related => ⟨?_, related⟩
  have held := related.lists v
  generalize s.lists[v]? = l at held
  generalize t.lists[v]? = l' at held
  cases held with
  | none => rfl
  | some r => exact r.ids_eq

theorem matches_splitNode (sampled v : Nat) :
    Works (Matches setup f) (splitNode sampled v) (splitNode sampled v) := by
  refine fun g => mimics_atomic fun s t related => related.withList v _ fun l l' alike => ?_
  obtain ⟨parts, words, lists⟩ := alike.split sampled g
  exact ⟨Prod.ext parts words, lists⟩

include finite keeps in
theorem steps_matches : Steps (Matches setup f) setup (setup.rescale f) fun _ => True where
  toChained := congruence_matches.toChained
  rules := ⟨rfl, rfl, rfl, rfl, rfl⟩
  consider v c _ := matches_consider finite keeps _ v c
  joinBoth a b _ _ := matches_joinBoth finite keeps a b
  failed cause := .failed cause
  listOf := matches_listOf
  offered v ids := matches_record (.offered v ids)
  splitNode := matches_splitNode

include finite keeps heeds in
theorem matches_refine (schedule : Schedule) (k : ListSize) (limit : Nat) :
    Matches setup f (refine setup schedule k limit) (refine (setup.rescale f) schedule k limit) := by
  have nodeCount : setup.nodeCount = (setup.rescale f).nodeCount := rfl
  have phases : Phases (Matches setup f) setup (setup.rescale f) schedule :=
    phases_mimics congruence_matches nodeCount rfl (matches_proceed heeds) matches_report
      (fun name v => mimics_atomic fun s t related => ⟨rfl, related.lists, related.log⟩) schedule
  exact phases.refine (steps_matches finite keeps) (fun _ _ => trivial) ⟨rfl, rfl, rfl⟩ k limit

/-! ### Runs -/

/-- Without a cutoff a descent ends with its refined lists. -/
theorem exec_descend_uncut (uncut : ¬0.0 < setup.config.similarityCutoff) (schedule : Schedule)
    (k : ListSize) (s : State) :
    (descend setup schedule k).exec s =
      match (refine setup schedule k setup.config.maxIterations).exec s with
      | (.ok r, t) => (.ok ⟨t.lists.map NeighbourList.neighbours, r.iterations, r.converged,
          r.pairs, t.lists.size⟩, t)
      | (.error e, t) => (.error e, t) := by
  simp only [descend, applyCutoff, if_neg uncut, exec_bind]
  rcases (refine setup schedule k setup.config.maxIterations).exec s with ⟨_ | r, t⟩ <;> rfl

include finite keeps heeds in
/-- Two descents come to the same but for the scores. -/
theorem exec_descend_rescale (uncut : ¬0.0 < setup.config.similarityCutoff) (schedule : Schedule)
    (k : ListSize) :
    let plain := (descend setup schedule k).exec (.start setup.nodeCount k.bounded)
    let scaled := (descend (setup.rescale f) schedule k).exec (.start setup.nodeCount k.bounded)
    scaled.1 = plain.1.map (Result.rescale f) ∧ scaled.2.log = plain.2.log.map (Event.rescale f) := by
  have uncut' : ¬0.0 < (setup.rescale f).config.similarityCutoff := uncut
  have limit : (setup.rescale f).config.maxIterations = setup.config.maxIterations := rfl
  have start : (State.start setup.nodeCount k.bounded).Rescaled setup.metric f
      (State.start setup.nodeCount k.bounded) := ⟨.empty _ _ _, by simp [State.start]⟩
  obtain ⟨answer, related⟩ := (matches_refine finite keeps heeds schedule k
    setup.config.maxIterations).exec start
  dsimp only
  rw [exec_descend_uncut uncut, exec_descend_uncut uncut', limit]
  generalize (refine setup schedule k _).exec _ = r at answer related ⊢
  generalize (refine (setup.rescale f) schedule k _).exec _ = r' at answer related ⊢
  obtain ⟨_ | refinement, s⟩ := r
  · obtain ⟨_, t⟩ := r'
    cases answer
    exact ⟨rfl, related.log⟩
  · obtain ⟨_, t⟩ := r'
    cases answer
    have neighbours := related.lists.map_eq fun _ _ r => r.neighbours_rescale.symm
    have size : s.lists.size = t.lists.size := by simpa using congrArg Array.size neighbours
    refine ⟨congrArg Except.ok ?_, related.log⟩
    simp only [Result.rescale, Array.map_map, Function.comp_def, neighbours, size]

include finite keeps heeds in
theorem runUnder_rescale (uncut : ¬0.0 < setup.config.similarityCutoff) (schedule : Schedule) :
    (runUnder schedule (setup.rescale f)).outcome =
        (runUnder schedule setup).outcome.map (Result.rescale f) ∧
      (runUnder schedule (setup.rescale f)).log =
        (runUnder schedule setup).log.map (Event.rescale f) := by
  have way := outset schedule setup
  have empty : (#[] : Log) = (#[] : Log).map (Event.rescale f) := by simp
  generalize runUnder schedule setup = r at way ⊢
  cases way with
  | uncovered nodes ne =>
    have nodes' : (setup.rescale f).metric.nodeCount = some _ := nodes
    rw [runUnder_of_not_covered nodes' ne]
    exact ⟨rfl, empty⟩
  | few covered few =>
    have covered' : (setup.rescale f).Covered := covered
    rw [runUnder_of_few covered' few]
    refine ⟨?_, empty⟩
    simp [Except.map, Result.rescale, Result.empty, Setup.rescale, Setup.nodeCount]
  | told covered others told =>
    have covered' : (setup.rescale f).Covered := covered
    have told' : (setup.rescale f).stopped #[] = true := told
    rw [runUnder_of_told covered' others told']
    exact ⟨rfl, empty⟩
  | @goesOn k covered others told size =>
    have covered' : (setup.rescale f).Covered := covered
    have told' : (setup.rescale f).stopped #[] = false := told
    rw [runUnder_of_goesOn covered' others told' size]
    exact exec_descend_rescale finite keeps heeds uncut schedule k

/-! ### Searches for chosen nodes -/

include finite keeps in
/-- Second lists that watch events with genuine scores stay alike. -/
theorem watched_rescale (target : NodeFilter) (nodeCount capacity : Nat) (log : Log)
    (gives : ∀ v c x, Event.considered v c x ∈ log → setup.metric.Gives x) :
    NeighbourList.AllAlike (setup.metric.Rescales f) (watched target nodeCount capacity log)
      (watched target nodeCount capacity (log.map (Event.rescale f))) := by
  unfold watched
  rw [← Array.foldl_toList, ← Array.foldl_toList, Array.toList_map, List.foldl_map]
  refine List.foldl_rel (.empty _ nodeCount capacity) fun e he lists lists' alike => ?_
  cases e with
  | started | advanced | ended | offered | scored | entered => exact alike
  | considered v c x =>
    have score := gives v c x (Array.mem_toList_iff.1 he)
    dsimp only [watch, Event.rescale, Event.considered?]
    split
    · exact alike.modify v fun l l' r =>
        r.addKeepingTies (setup.metric.comparable_rescales finite keeps) ⟨score, rfl⟩ c
    · exact alike

end

/-- Without a cutoff, alike lists leave a source with the same neighbours but for the scores. -/
theorem chosen_rescale (source : NodeFilter) {cutoff : Float} (uncut : cutoff ≤ 0.0)
    {l l' : NeighbourList} (h : l.Alike (m.Rescales f) l') :
    chosen source cutoff l' = (chosen source cutoff l).map (Neighbour.rescale f) := by
  unfold chosen
  rw [h.owner, h.neighbours_rescale]
  split <;> simp [uncut]

theorem gives_of_genuine {setup : Setup} {v c : Nat} {x : Float} (h : setup.Genuine v c x) :
    setup.metric.Gives x := by
  have gives : ∀ {a b}, setup.metric.score a b = .ok x → setup.metric.Gives x := by
    intro a b score
    refine ⟨a, b, ?_⟩
    unfold Metric.score at score
    split at score
    · cases score
    · split at score <;> cases score
      assumption
  rcases h.scored with ⟨-, score⟩ | ⟨-, -, score⟩ <;> exact gives score

end Search

/-- **Only the order of scores matters.** Let a metric give nothing but finite scores, and let `f`
map them to finite scores in the same order. Then a search without a cutoff that cannot tell the two
apart when it is told to stop comes to the same if each score `x` is replaced by `f x`: it fails for
the same reason, or it has the same neighbours in the same order after as many iterations and as
many scored pairs, each neighbour with `f` of its similarity. So does a search for chosen nodes. -/
theorem score_order_decides (schedule : Schedule) (setup : Setup) (source target : NodeFilter)
    (f : Float → Float) (finite : ∀ x, setup.metric.Gives x → x.isFinite = true)
    (keeps : setup.metric.KeepsOrder f)
    (uncut : (setup.config.similarityCutoff == 0.0) = true)
    (heeds : ∀ log : Log, setup.stopped (log.map (Event.rescale f)) = setup.stopped log) :
    (runUnder schedule (setup.rescale f)).outcome =
        (runUnder schedule setup).outcome.map (Result.rescale f) ∧
      (runFilteredUnder schedule (setup.rescale f) source target).outcome =
        (runFilteredUnder schedule setup source target).outcome.map (Result.rescale f) := by
  have zero := (Number.beq_iff_le_and_ge.1 uncut).1
  have positive := (setup.config.cutoff_le_zero_iff).1 zero
  obtain ⟨outcome, log⟩ := runUnder_rescale finite keeps heeds positive schedule
  refine ⟨outcome, ?_⟩
  cases plain : (runUnder schedule setup).outcome with
  | error e =>
    rw [plain] at outcome
    simp only [runFilteredUnder, outcome, plain]
    rfl
  | ok result =>
    rw [plain] at outcome
    have gives : ∀ v c x, Event.considered v c x ∈ (runUnder schedule setup).log →
        setup.metric.Gives x := fun v c x hx => gives_of_genuine (genuine_of_logged plain v c x hx)
    have alike := watched_rescale finite keeps target setup.nodeCount
      (min setup.config.topK (setup.nodeCount - 1)) _ gives
    have lists := alike.map_eq fun _ _ r => (chosen_rescale source zero r).symm
    simp only [runFilteredUnder, outcome, plain, log, Except.map, Result.rescale, Array.map_map,
      Function.comp_def, lists]
    rfl

/-- A number on a scale from below nothing to above one. -/
def stretched (x : Float) : Float := 4.0 * x - 1.0

theorem gives_fourNodes {x : Float} (gives : fourNodes.metric.Gives x) :
    x = 0.9 ∨ x = 0.5 ∨ x = 0.1 := by
  obtain ⟨a, b, given⟩ := gives
  simp only [fourNodes, Metric.ofFunction, Except.ok.injEq] at given
  split at given
  · exact .inl given.symm
  · split at given
    · exact .inr (.inl given.symm)
    · exact .inr (.inr given.symm)

theorem keepsOrder_stretched : fourNodes.metric.KeepsOrder stretched where
  finite x hx := by
    rcases gives_fourNodes hx with rfl | rfl | rfl <;> decide +kernel
  lt x y hx hy := by
    rcases gives_fourNodes hx with rfl | rfl | rfl <;>
      rcases gives_fourNodes hy with rfl | rfl | rfl <;> decide +kernel
  beq x y hx hy := by
    rcases gives_fourNodes hx with rfl | rfl | rfl <;>
      rcases gives_fourNodes hy with rfl | rfl | rfl <;> decide +kernel

theorem fourNodes_score_order_decides :
    ∃ r, (run fourNodes).outcome = .ok r ∧
      (run (fourNodes.rescale stretched)).outcome = .ok (r.rescale stretched) ∧
      (r.neighboursOf 0).map (·.id) = [1, 2] := by
  have finite : ∀ x, fourNodes.metric.Gives x → x.isFinite = true := by
    intro x gives
    rcases gives_fourNodes gives with rfl | rfl | rfl <;> decide +kernel
  have uncut : (fourNodes.config.similarityCutoff == 0.0) = true := by decide +kernel
  have lists : ((run fourNodes).outcome.toOption.any fun r =>
      (r.neighboursOf 0).map (·.id) == [1, 2]) = true := by decide +kernel
  have same := (score_order_decides .inOrder fourNodes .all .all stretched finite
    keepsOrder_stretched uncut fun _ => rfl).1
  unfold run at lists ⊢
  generalize (runUnder .inOrder fourNodes).outcome = found at same lists
  cases found with
  | error e => cases lists
  | ok r => exact ⟨r, rfl, same, by simpa [Except.toOption] using lists⟩

end NeighbourGraph
