/-
Plateaus stop after one iteration.

Where all pairs score the same and no tie is broken in favour of a candidate, the lists are on a
plateau once they are filled: each is full of entries that no score is above. Work on a node then
leaves all lists as they are, whatever is compared, so a join phase makes no update. The first
iteration converges, and the lists are the ones that the search began with.
-/

import NeighbourGraph.Proofs.Failures
import NeighbourGraph.Proofs.Fullness
import NeighbourGraph.Proofs.MoreIterations
import NeighbourGraph.Proofs.Search.Accounts

namespace NeighbourGraph

open NeighbourGraph.Random NeighbourGraph.Search

/-- Whatever is as similar as the last entry of a full list stays out where no tie is broken. -/
theorem NeighbourList.add_eq_of_full {l : NeighbourList} {x rate : Float} (full : l.isFull = true)
    (least : ∀ e ∈ l.entries, x ≤ e.similarity) (never : ¬0.0 < rate) (id : Nat) (g : Generator) :
    l.add id x rate g = ((false, l), g) := by
  have standing : l.standing id x ≠ .accepted := Settles.standing_ne_accepted (.inr ⟨full, least⟩)
  rw [add_eq_addKeepingTies never, addKeepingTies]
  cases h : l.standing id x with
  | accepted => contradiction
  | refused | tied => rfl

namespace Search

/-- Every list is full of entries that `x` is not above. -/
def OnPlateau (x : Float) (s : State) : Prop :=
  ∀ (v : Nat) (l : NeighbourList), s.lists[v]? = some l →
    l.isFull = true ∧ ∀ e ∈ l.entries, x ≤ e.similarity

/-- The contract of searches that leave all lists as they are. -/
def resting : Contract where
  rely s t := t.lists = s.lists
  guarantee s t := t.lists = s.lists
  fails _ := True
  rely_refl _ := rfl
  rely_trans h h' := h'.trans h
  rely_notes h := by
    cases h with
    | report | visit => rfl
  still _ := rfl
  notes h := by
    cases h with
    | report | visit => rfl

section

variable {setup : Setup} {x : Float} {capacity : Nat} {s t u : State}

theorem OnPlateau.of_lists_eq (h : OnPlateau x s) (same : t.lists = s.lists) : OnPlateau x t := by
  unfold OnPlateau
  rw [same]
  exact h

/-! ### Work on a plateau -/

/-- On a plateau the search leaves the lists as they are and lets nothing in. -/
def Rests (x : Float) {α : Type} (p : Search α) : Prop :=
  ∀ s, OnPlateau x s →
    Meets resting p (fun _ events t => OnPlateau x t ∧ ∀ e ∈ events, e.entered? = none) s

theorem chained_rests : Chained fun p _ => Rests x p where
  pure _ _ plateau _ same := ⟨plateau.of_lists_eq same, by simp⟩
  bind h rest s plateau := by
    refine Meets.bind ((h s plateau).imp ?_)
    rintro a events t ⟨plateau, silent⟩
    refine (rest a t plateau).imp ?_
    rintro _ later u ⟨plateau, silent'⟩
    exact ⟨plateau, List.forall_mem_append.2 ⟨silent, silent'⟩⟩

theorem rests_record {e : Event} (he : e.entered? = none) : Rests x (record e) :=
  fun _ plateau => meets_atomic fun _ same => ⟨rfl, [e], by simp [State.record], fun _ same' =>
    ⟨plateau.of_lists_eq (Eq.trans same' same), by simpa using he⟩⟩

/-- Nothing that scores `x` comes into a list. -/
theorem rests_offer (never : ¬0.0 < setup.config.perturbationRate) (origin : Origin) (v c : Nat)
    (g : Generator) : Rests x (offer setup origin v c x g) := by
  refine fun s plateau => meets_atomic fun t same => ?_
  have plateau := plateau.of_lists_eq same
  cases hl : t.lists[v]? with
  | none =>
    simp only [State.withList, hl, State.countEntered]
    exact ⟨rfl, [], by simp, fun u same => ⟨plateau.of_lists_eq same, by simp⟩⟩
  | some l =>
    obtain ⟨full, least⟩ := plateau v l hl
    simp only [State.withList, hl, NeighbourList.add_eq_of_full full least never,
      State.countEntered, State.setList_self hl]
    exact ⟨rfl, [], by simp, fun u same => ⟨plateau.of_lists_eq same, by simp⟩⟩

/-- Where all pairs score `x`, asking for a score is no more than noting it. -/
theorem lift_score_bind (constant : ∀ a b, setup.metric.score a b = .ok x) (origin : Origin)
    (a b : Nat) {β : Type} (f : Float → Work β) :
    (liftM (score setup origin a b) : Work Float) >>= f =
      (liftM (record (.scored origin a b)) : Work Unit) >>= fun _ => f x := by
  simp only [score, constant]
  rfl

theorem works_record {e : Event} (he : e.entered? = none) :
    Works (fun p _ => Rests x p) (liftM (record e)) (liftM (record e)) :=
  chained_rests.works_lift (rests_record he)

/-- Where all pairs score `x`, no comparison lets anything in. -/
theorem comparing_rests (constant : ∀ a b, setup.metric.score a b = .ok x)
    (never : ¬0.0 < setup.config.perturbationRate) :
    Comparing (fun p _ => Rests x p) setup setup fun _ => True where
  toChained := chained_rests
  rules := .refl setup
  consider {origin} v c _ := by
    unfold consider
    rw [lift_score_bind constant]
    exact chained_rests.works_bind (works_record rfl) fun _ =>
      chained_rests.works_bind (works_record rfl) fun _ =>
        chained_rests.works_bind (rests_offer never origin v c) fun _ =>
          chained_rests.works_pure _
  joinBoth a b _ _ := by
    unfold joinBoth
    split
    · exact chained_rests.works_pure _
    · rw [lift_score_bind constant]
      exact chained_rests.works_bind (works_record rfl) fun _ =>
        chained_rests.works_bind (works_record rfl) fun _ =>
          chained_rests.works_bind (works_record rfl) fun _ =>
            chained_rests.works_bind (rests_offer never .joining a b) fun _ =>
              chained_rests.works_bind (rests_offer never .joining b a) fun _ =>
                chained_rests.works_pure _
  failed _ _ _ := trivial

/-- A join phase on a plateau leaves the lists as they are and makes no update. -/
theorem exec_join_plateau (constant : ∀ a b, setup.metric.score a b = .ok x)
    (never : ¬0.0 < setup.config.perturbationRate) (plateau : OnPlateau x s) {turns : Turns}
    {c : Candidates} {stream : Stream} {sampled : Nat} {tally : Tally}
    (run : (join setup turns c stream sampled).exec s = (.ok tally, t)) :
    t.lists = s.lists ∧ tally.updates = 0 := by
  have comparing := comparing_rests constant never
  have rests : Meets resting (join setup turns c stream sampled)
      (fun _ events _ => ∀ e ∈ events, e.entered? = none) s := by
    refine Meets.bind ((meets_proceed (fun _ _ _ => trivial) .join).imp ?_)
    rintro _ _ u ⟨rfl, same⟩
    have works : ∀ v, Rests x (seeded stream v (joinNode setup c sampled v)) := fun v =>
      comparing.seeded (comparing.joinNode trivial trivial c sampled v) stream v
    refine Meets.map (f := Tally.total) ((meets_phase_shared (fun _ _ => id)
      (fun _ _ _ => trivial) (fun v _ => works v u (plateau.of_lists_eq same)) turns).imp ?_)
    intro _ events _ each
    exact each.forall_mem (fun _ => Event.entered?_of_isProgress) fun _ _ _ _ h => h.2
  constructor
  · have kept := rests.exec_guarantee (r := fun s t => t.lists = s.lists) (fun _ => rfl)
      (fun h h' => h'.trans h) fun _ _ => id
    rwa [run] at kept
  · obtain ⟨events, log, silent⟩ := rests.exec run
    obtain ⟨events', log', counts⟩ := (logs_join turns c stream sampled s).exec run
    obtain rfl := List.append_cancel_left (log.symm.trans log')
    rw [counts.updates, List.countP_eq_zero]
    intro e he update
    cases e with
    | entered => cases silent _ he
    | started | advanced | ended | offered | considered | scored => cases update

/-! ### One iteration -/

/-- Lists that are full where all pairs score `x` are on a plateau. -/
theorem onPlateau_of_full (constant : ∀ a b, setup.metric.score a b = .ok x)
    (sound : Sound setup capacity s)
    (full : ∀ v < setup.nodeCount, ∃ l, s.lists[v]? = some l ∧ capacity ≤ l.size) :
    OnPlateau x s := by
  intro v l hl
  have soundFor := sound.lists v l hl
  obtain ⟨k, hk, enough⟩ := full v (sound.size ▸ (Array.getElem?_eq_some_iff.1 hl).1)
  obtain rfl : l = k := Option.some.inj (hl.symm.trans hk)
  refine ⟨NeighbourList.isFull_iff.2 (soundFor.capacity ▸ enough), ?_⟩
  refine NeighbourList.forall_mem_neighbours (P := fun n => x ≤ n.similarity).1 fun n hn => ?_
  have same : n.similarity = x := by
    rcases (sound.genuine v _ _ (soundFor.considered n hn)).scored with ⟨-, score⟩ | ⟨-, -, score⟩
    · exact Except.ok.inj (score.symm.trans (constant _ _))
    · exact Except.ok.inj (score.symm.trans (constant _ _))
  rw [same]
  exact Number.le_refl (Metric.isFinite_of_score (constant 0 0))

/-- Handing out entries leaves all lists on a plateau. -/
theorem OnPlateau.handsOut (plateau : OnPlateau x s) (sound : Sound setup capacity s)
    (sound' : Sound setup capacity t) (grows : Grows (fun _ => .handsOut) s t) :
    OnPlateau x t := by
  intro v l' hl'
  obtain ⟨l, hl, same⟩ := grows.list sound sound' hl'
  have same : NeighbourList.SameNeighbours l l' := same
  obtain ⟨full, least⟩ := plateau v l hl
  rw [← NeighbourList.forall_mem_neighbours (P := fun n => x ≤ n.similarity)] at least ⊢
  rw [NeighbourList.isFull_iff] at full ⊢
  exact ⟨same.size_eq ▸ same.capacity ▸ full, same.neighbours ▸ least⟩

/-- Handing out entries leaves everything that is held. -/
theorem neighbours_handsOut (sound : Sound setup capacity s) (sound' : Sound setup capacity t)
    (grows : Grows (fun _ => .handsOut) s t) :
    t.lists.map NeighbourList.neighbours = s.lists.map NeighbourList.neighbours := by
  apply Array.ext_getElem?
  intro v
  rw [Array.getElem?_map, Array.getElem?_map]
  by_cases hv : v < setup.nodeCount
  · obtain ⟨l, hl, -⟩ := sound.list hv
    obtain ⟨l', hl', same⟩ := grows.lists v l hl
    have same : NeighbourList.SameNeighbours l l' := same
    rw [hl, hl', Option.map_some, Option.map_some, same.neighbours]
  · rw [Array.getElem?_eq_none (sound'.size ▸ Nat.le_of_not_lt hv),
      Array.getElem?_eq_none (sound.size ▸ Nat.le_of_not_lt hv)]

/-- An iteration on a plateau makes no update and leaves everything that is held. -/
theorem exec_iteration_plateau (constant : ∀ a b, setup.metric.score a b = .ok x)
    (never : ¬0.0 < setup.config.perturbationRate) (sound : Sound setup capacity s)
    (plateau : OnPlateau x s) {turns : Phase → Turns} {sampled : Nat}
    {splitStream joinStream : Stream} {tally : Tally}
    (run : (iteration setup turns sampled splitStream joinStream).exec s = (.ok tally, t)) :
    tally.updates = 0 ∧
      t.lists.map NeighbourList.neighbours = s.lists.map NeighbourList.neighbours := by
  obtain ⟨c, u, w, split, joined, rfl⟩ := exec_iteration_ok.1 run
  have sound : Sound setup capacity { s with rounds := s.rounds.push none } :=
    ⟨sound.size, sound.lists, sound.genuine⟩
  have handsOut := exec_candidates sound split
  have plateau : OnPlateau x { s with rounds := s.rounds.push none } := plateau
  have same := neighbours_handsOut sound handsOut.sound handsOut.grows
  obtain ⟨rest, noUpdates⟩ := exec_join_plateau constant never
    (plateau.handsOut sound handsOut.sound handsOut.grows) joined
  exact ⟨noUpdates, (congrArg (Array.map NeighbourList.neighbours) rest).trans same⟩

/-! ### Runs -/

/-- A search that may iterate converges in its first iteration, where its lists were filled. -/
theorem refined_plateau (constant : ∀ a b, setup.metric.score a b = .ok x)
    (never : ¬0.0 < setup.config.perturbationRate) (others : 2 ≤ setup.nodeCount)
    (uniform : setup.config.sampler = .uniform) (standard : setup.excluded = .standard)
    {schedule : Schedule} {limit : Nat} {reached : Refinement}
    (ok : refined schedule setup (limit + 1) = (.ok reached, t)) :
    reached.iterations = 1 ∧ reached.converged = true ∧
      ∃ filled s, refined schedule setup 0 = (.ok filled, s) ∧
        t.lists.map NeighbourList.neighbours = s.lists.map NeighbourList.neighbours := by
  obtain ⟨k, size⟩ := ListSize.of_config setup.config setup.nodeCount
  rw [refined, if_neg (by omega)] at ok
  simp only [size] at ok
  obtain ⟨tally, s, filled, iterated⟩ := exec_bind_ok.1 ok
  have filled : refined schedule setup 0 = (.ok { pairs := tally.pairs }, s) := by
    rw [refined, if_neg (by omega)]
    simp only [size]
    exact exec_bind_ok.2 ⟨tally, s, filled, rfl⟩
  have sound := (refined_ok filled).sound
  have full := refined_full others standard filled
  have supplied : ∀ v, setup.Supplied v := fun v walks => by simp [uniform] at walks
  have plateau := onPlateau_of_full constant sound fun v hv => full v hv (supplied v)
  obtain ⟨first, u, iterated, rest⟩ := exec_bind_ok.1 iterated
  obtain ⟨noUpdates, same⟩ := exec_iteration_plateau constant never sound plateau iterated
  rw [if_pos (by omega)] at rest
  cases rest
  exact ⟨rfl, rfl, _, s, filled, same⟩

/-- Where all pairs have a score and no walk is needed, a search that is not told to stop has a
result. -/
theorem exists_outcome (scores : ∀ a b, ∃ x, setup.metric.score a b = .ok x)
    (covered : setup.Covered) (uniform : setup.config.sampler = .uniform)
    (goesOn : ∀ log, setup.stopped log = false) (schedule : Schedule) :
    ∃ result, (runUnder schedule setup).outcome = .ok result := by
  cases outcome : (runUnder schedule setup).outcome with
  | ok result => exact ⟨result, rfl⟩
  | error e =>
    cases runUnder_error covered outcome with
    | stopped log name told => simp [goesOn log] at told
    | @score a b cause lt other allowed lacking =>
      obtain ⟨x, score⟩ := scores a b
      simp [score] at lacking
    | walk cause _ walks => simp [uniform] at walks

end

end Search

/-- **Plateaus stop after one iteration.** Where the metric gives one finite score to all pairs, the
sampler is the uniform one, the filter the standard one, no tie is broken and nothing is cut off, a
search that may iterate has a result, which converged in the first iteration, with the very lists of
the search that may not iterate. -/
theorem plateau_stops (schedule : Schedule) (setup : Setup) {c : Float}
    (finite : c.isFinite = true) (constant : ∀ a b, setup.metric.similarity a b = .ok c)
    (covered : ∀ n, setup.metric.nodeCount = some n → n = setup.nodeCount)
    (others : 2 ≤ setup.nodeCount) (uniform : setup.config.sampler = .uniform)
    (standard : setup.excluded = .standard)
    (never : (setup.config.perturbationRate == 0.0) = true)
    (uncut : (setup.config.similarityCutoff == 0.0) = true)
    (goesOn : ∀ log, setup.stopped log = false) (iterates : 1 ≤ setup.config.maxIterations) :
    ∃ result filled, (runUnder schedule setup).outcome = .ok result ∧
      (runUnder schedule (setup.withIterations 0)).outcome = .ok filled ∧
      result.converged = true ∧ result.iterations = 1 ∧
      result.neighbours = filled.neighbours := by
  have constant : ∀ a b, setup.metric.score a b = .ok c := by
    intro a b
    rw [Metric.score, constant]
    exact if_pos finite
  have never : ¬0.0 < setup.config.perturbationRate :=
    Number.not_lt_of_le (Number.beq_iff_le_and_ge.1 never).1
  have uncut : ¬0.0 < setup.config.similarityCutoff :=
    Number.not_lt_of_le (Number.beq_iff_le_and_ge.1 uncut).1
  have ends : ∀ m, ∃ result,
      (runUnder schedule (setup.withIterations m)).outcome = .ok result := by
    intro m
    have scores : ∀ a b, ∃ x, (setup.withIterations m).metric.score a b = .ok x :=
      fun a b => ⟨c, constant a b⟩
    exact exists_outcome scores covered uniform goesOn schedule
  obtain ⟨limit, hlimit⟩ := Nat.exists_eq_add_of_le' iterates
  obtain ⟨result, ok⟩ := ends (limit + 1)
  obtain ⟨filled, ok'⟩ := ends 0
  have whole : setup = setup.withIterations (limit + 1) := by
    rw [← hlimit]
    rfl
  refine ⟨result, filled, whole ▸ ok, ok', ?_⟩
  obtain ⟨reached, t, ran, rfl, -⟩ := refined_of_outcome uncut ok
  obtain ⟨begun, s, ran', rfl, -⟩ := refined_of_outcome uncut ok'
  obtain ⟨iterations, converged, _, s', start, same⟩ :=
    refined_plateau constant never others uniform standard ran
  obtain ⟨rfl, rfl⟩ : _ ∧ _ := by simpa using ran'.symm.trans start
  have cut : ∀ l : NeighbourList, setup.cut l = l := fun l => if_neg uncut
  refine ⟨converged, iterations, ?_⟩
  simpa only [Refinement.result, cut] using same

/-- Five nodes, all of which are as near to each other. -/
def levelNodes : Setup where
  graph := .nodesOnly 5
  metric := .ofFunction true fun _ _ => 0.5
  excluded := .standard
  config :=
    { topK := 2, sampleRate := 1.0, maxIterations := 4, randomJoins := 3, seed := some 7
      concurrency := 2, minBatchSize := 1, valid := by decide +kernel }

theorem levelNodes_stop :
    (0.5 : Float).isFinite = true ∧ (levelNodes.config.perturbationRate == 0.0) = true ∧
      (levelNodes.config.similarityCutoff == 0.0) = true ∧
      ∃ result filled, (run levelNodes).outcome = .ok result ∧
        (run (levelNodes.withIterations 0)).outcome = .ok filled ∧
        result.converged = true ∧ result.iterations = 1 ∧
        result.neighbours = filled.neighbours := by
  have finite : (0.5 : Float).isFinite = true := by decide +kernel
  have never : (levelNodes.config.perturbationRate == 0.0) = true := by decide +kernel
  have uncut : (levelNodes.config.similarityCutoff == 0.0) = true := by decide +kernel
  exact ⟨finite, never, uncut, plateau_stops .inOrder levelNodes finite (fun _ _ => rfl) nofun
    (by decide) rfl rfl never uncut (fun _ => rfl) (by decide)⟩

end NeighbourGraph
