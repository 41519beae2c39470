/-
What the turns of the tasks decide.

The turns decide ties and nothing else that a list holds: where no two candidates of a node are
equally similar to it, runs of as many iterations find the same neighbours, whatever the turns
are, and they fail for the same reason. How many iterations there are is decided by the number of
updates, and a candidate that others outdo later counts as an update only if it came first. With a
threshold of zero and no random comparisons that does not matter either.
-/

import NeighbourGraph.Proofs.Search.Abreast

namespace NeighbourGraph

open NeighbourGraph.Random NeighbourGraph.Search

/-- Of two tasks the later one acts first, until it is over. -/
def Schedule.lastFirst : Schedule := fun _ _ _ _ => false

/-- One neighbour of a node, as two searches found it. Its similarity is the very same number
unless a symmetric metric has another zero for the pair turned around. -/
structure Setup.SameNeighbour (setup : Setup) (v : Nat) (n n' : Neighbour) : Prop where
  id : n.id = n'.id
  similarity : (n.similarity == n'.similarity) = true
  exact : setup.metric.symmetric = false ∨
    setup.metric.score n.id v = setup.metric.score v n.id → n.similarity = n'.similarity

namespace Search

section

variable {setup : Setup} {capacity : Nat} {s s' t t' : State} {schedule schedule' : Schedule}
  {sampled threshold limit : Nat} {streams : Streams} {soFar soFar' r r' : Refinement}

/-! ### The loop -/

/-- Iterations only add up, and with none more the state stays as it is. -/
theorem exec_iterate_le
    (run : (iterate setup schedule sampled threshold streams soFar limit).exec s = (.ok r, t)) :
    soFar.iterations ≤ r.iterations ∧ (r.iterations = soFar.iterations → s = t) := by
  induction limit generalizing s streams soFar with
  | zero =>
    cases run
    exact ⟨Nat.le_refl _, fun _ => rfl⟩
  | succ limit ih =>
    simp only [iterate, exec_bind_ok] at run
    obtain ⟨tally, u, -, rest⟩ := run
    split at rest
    · cases rest
      exact ⟨Nat.le_succ _, fun eq => absurd eq (Nat.succ_ne_self _)⟩
    · have more := (ih rest).1
      dsimp only at more
      exact ⟨by omega, by omega⟩

/-- Two loops that start abreast come to their ends, and end abreast if they took as many
iterations. They do if nodes are not compared with random others and the threshold is zero. -/
theorem exec_iterate_abreast (decisive : setup.Decisive) (others : 2 ≤ setup.nodeCount)
    (schedule schedule' : Schedule) (refined : Refined setup capacity s)
    (refined' : Refined setup capacity s') (h : Abreast setup capacity s s')
    (soFar soFar' : Refinement) (same : soFar.iterations = soFar'.iterations) :
    ∃ r t r' t',
      (iterate setup schedule sampled threshold streams soFar limit).exec s = (.ok r, t) ∧
      (iterate setup schedule' sampled threshold streams soFar' limit).exec s' = (.ok r', t') ∧
      (r.iterations = r'.iterations → Abreast setup capacity t t') ∧
      (setup.config.randomJoins = 0 → threshold = 0 → soFar.converged = soFar'.converged →
        r.iterations = r'.iterations ∧ r.converged = r'.converged) := by
  induction limit generalizing s s' streams soFar soFar' with
  | zero => exact ⟨_, _, _, _, rfl, rfl, fun _ => h, fun _ _ converged => ⟨same, converged⟩⟩
  | succ limit ih =>
    obtain ⟨tally, u, tally', u', first, first', refined, refined', h, alike⟩ :=
      exec_iteration_abreast decisive others refined refined' h (schedule · soFar.iterations)
        (schedule' · soFar'.iterations) sampled streams.take.1 streams.take.2.take.1
    obtain ⟨r, t, r', t', rest, rest', together, stop⟩ := @ih u u' streams.take.2.take.2 refined
      refined' h ⟨soFar.iterations + 1, false, soFar.pairs + tally.pairs⟩
      ⟨soFar'.iterations + 1, false, soFar'.pairs + tally'.pairs⟩ (congrArg (· + 1) same)
    simp only [iterate, exec_bind, first, first']
    by_cases few : tally.updates ≤ threshold
    · by_cases few' : tally'.updates ≤ threshold
      · rw [if_pos few, if_pos few']
        exact ⟨_, _, _, _, rfl, rfl, fun _ => h, fun _ _ _ => ⟨congrArg (· + 1) same, rfl⟩⟩
      · rw [if_pos few, if_neg few']
        refine ⟨_, _, r', t', rfl, rest', fun eq => ?_, fun noJoins zero => ?_⟩
        · have := (exec_iterate_le rest').2 (eq.symm.trans (congrArg (· + 1) same))
          exact this ▸ h
        · have := alike noJoins
          omega
    · by_cases few' : tally'.updates ≤ threshold
      · rw [if_neg few, if_pos few']
        refine ⟨r, t, _, _, rest, rfl, fun eq => ?_, fun noJoins zero => ?_⟩
        · have := (exec_iterate_le rest).2 (eq.trans (congrArg (· + 1) same.symm))
          exact this ▸ h
        · have := alike noJoins
          omega
      · rw [if_neg few, if_neg few']
        exact ⟨r, t, r', t', rest, rest', together, fun noJoins zero _ => stop noJoins zero rfl⟩

/-! ### Filling the lists -/

/-- Filling comes to its end only if the sampler has candidates for every node. -/
theorem sampled_of_fill {turns : Turns} {stream : Stream} {count : Nat} {tally : Tally}
    (run : (fill setup turns stream count).exec (State.start setup.nodeCount capacity) =
      (.ok tally, t)) : setup.Sampled stream count := by
  have start := Sound.start setup capacity
  have works : ∀ v < setup.nodeCount, Meets (offering setup capacity)
      (seeded stream v (fillNode setup count v)) (fun _ _ _ => ∃ candidates,
        (Sampler.sample setup.config.sampler setup.graph v count (stream.generator v)).1 =
          .ok candidates) (State.start setup.nodeCount capacity) := by
    intro v hv
    cases sample :
        (Sampler.sample setup.config.sampler setup.graph v count (stream.generator v)).1 with
    | ok candidates =>
      exact (meets_seeded (does_fillNode start hv count)).imp fun _ _ _ _ => ⟨candidates, rfl⟩
    | error cause =>
      have fails : seeded stream v (fillNode setup count v) = .failed (.walk cause) := by
        change (sampleCandidates setup v count (stream.generator v) >>= _) >>= _ = _
        rw [sampleCandidates_apply, sample]
        rfl
      rw [fails]
      exact .walk cause (Sampler.failsOnlyIf_sample _ _ v count _ _ sample)
        (Sampler.failsOnlyIf_walks _ _ v count _ _ sample)
  obtain ⟨tallies, u, filled, -⟩ := exec_bind_ok.1 run
  obtain ⟨events, -, each⟩ :=
    (meets_phase_shared offering_self upholding_heeds works turns).exec filled
  intro v hv
  obtain ⟨-, -, -, sampled⟩ := each.of_mem (List.mem_range.2 hv)
  exact sampled

/-! ### Whole searches -/

/-- Two searches refine their lists abreast, if the sampler has candidates for every node. -/
theorem exec_refine_abreast (decisive : setup.Decisive) (others : 2 ≤ setup.nodeCount)
    {k : ListSize} (samples : setup.Sampled ({ base := setup.seed } : Streams).take.1 k.bounded)
    (schedule schedule' : Schedule) (limit : Nat) :
    ∃ r t r' t',
      (refine setup schedule k limit).exec (State.start setup.nodeCount capacity) = (.ok r, t) ∧
      (refine setup schedule' k limit).exec (State.start setup.nodeCount capacity) =
        (.ok r', t') ∧
      (r.iterations = r'.iterations → Abreast setup capacity t t') ∧
      (setup.config.randomJoins = 0 → setup.config.updateThreshold setup.nodeCount = 0 →
        r.iterations = r'.iterations ∧ r.converged = r'.converged) := by
  obtain ⟨tally, s, tally', s', filled, filled', refined, refined', h⟩ :=
    exec_fill_abreast decisive samples (schedule .initialization 0) (schedule' .initialization 0)
  obtain ⟨r, t, r', t', run, run', together, stop⟩ := exec_iterate_abreast decisive others schedule
    schedule' refined refined' h { pairs := tally.pairs } { pairs := tally'.pairs } rfl
  exact ⟨r, t, r', t', exec_bind_ok.2 ⟨_, _, filled, run⟩, exec_bind_ok.2 ⟨_, _, filled', run'⟩,
    together, fun noJoins zero => stop noJoins zero rfl⟩

/-- Whatever the turns are, a search comes to its end if the sampler has candidates for every
node. -/
theorem exec_descend_of_sampled (decisive : setup.Decisive) (others : 2 ≤ setup.nodeCount)
    {k : ListSize} (samples : setup.Sampled ({ base := setup.seed } : Streams).take.1 k.bounded)
    (schedule : Schedule) :
    ∃ result t, (descend setup schedule k).exec (.start setup.nodeCount k.bounded) =
      (.ok result, t) := by
  obtain ⟨r, t, -, -, ran, -⟩ :=
    exec_refine_abreast decisive others samples schedule schedule setup.config.maxIterations
  obtain ⟨answer, u, cut⟩ := (finishes_applyCutoff decisive.goesOn (schedule .cutoff 0)).exec t
  exact ⟨_, _, exec_bind_ok.2 ⟨r, t, ran, exec_bind_ok.2 ⟨answer, u, cut, rfl⟩⟩⟩

/-- What two runs made of the lists in front of their cutoffs. -/
theorem refined_abreast (decisive : setup.Decisive)
    (run : refined schedule setup limit = (.ok r, t))
    (run' : refined schedule' setup limit = (.ok r', t')) :
    (r.iterations = r'.iterations → Abreast setup setup.capacity t t') ∧
      (setup.config.randomJoins = 0 → setup.config.updateThreshold setup.nodeCount = 0 →
        r.iterations = r'.iterations ∧ r.converged = r'.converged) := by
  unfold refined at run run'
  by_cases few : setup.nodeCount < 2
  · rw [if_pos few] at run run'
    cases run
    cases run'
    have : setup.capacity = 0 := by
      unfold Setup.capacity
      omega
    exact ⟨fun _ => this ▸ .start setup 0, fun _ _ => ⟨rfl, rfl⟩⟩
  · rw [if_neg few] at run run'
    split at run
    · cases run
    · next k size =>
      simp only [size] at run'
      rw [bounded_of size] at run run'
      obtain ⟨tally, u, filled, -⟩ := exec_bind_ok.1 run
      obtain ⟨_, _, _, _, same, same', together, stop⟩ := exec_refine_abreast decisive (by omega)
        (sampled_of_fill filled) schedule schedule' limit
      obtain ⟨rfl, rfl⟩ : _ ∧ _ := by simpa using same.symm.trans run
      obtain ⟨rfl, rfl⟩ : _ ∧ _ := by simpa using same'.symm.trans run'
      exact ⟨together, stop⟩

/-- Such a search has one reason to fail: weights that do not add up. -/
theorem eq_walk_of_mayFail (decisive : setup.Decisive) {e : SearchError}
    (reason : setup.MayFail e) : e = .walk .weights := by
  cases reason with
  | stopped log name told => simp [decisive.goesOn log] at told
  | score lt other _ lacking =>
    obtain ⟨x, score⟩ := decisive.scores _ lt _ other.1 other.2.symm
    simp [score] at lacking
  | walk cause _ => rfl

/-- Whether a search fails does not depend on the turns. -/
theorem outcome_error_of_error (decisive : setup.Decisive) {e : SearchError}
    (fails : (runUnder schedule setup).outcome = .error e) :
    (runUnder schedule' setup).outcome = .error e := by
  have way := outset schedule setup
  generalize runUnder schedule setup = r at way fails
  cases way with
  | uncovered nodes ne => rwa [runUnder_of_not_covered nodes ne]
  | few => cases fails
  | told _ _ told => simp [decisive.goesOn] at told
  | @goesOn k covered others goesOn size =>
    rw [runUnder_of_goesOn covered others goesOn size]
    dsimp only [Run.of] at fails ⊢
    obtain rfl := eq_walk_of_mayFail decisive (mayFail_of_descend others (Prod.ext fails rfl))
    cases run' : (descend setup schedule' k).exec (.start setup.nodeCount k.bounded) with
    | mk outcome t' =>
      cases outcome with
      | error e => exact congrArg _ (eq_walk_of_mayFail decisive (mayFail_of_descend others run'))
      | ok result =>
        -- The other one filled its lists, so both come to their ends.
        obtain ⟨_, u, refined, -⟩ := exec_bind_ok.1 run'
        obtain ⟨_, _, filled, -⟩ := exec_bind_ok.1 refined
        obtain ⟨found, t, ran⟩ :=
          exec_descend_of_sampled decisive others (sampled_of_fill filled) schedule
        simp [ran] at fails

/-! ### Results -/

/-- Searches that are abreast hold the same neighbours. -/
theorem Abreast.sameNeighbours (h : Abreast setup capacity s t) (honest : setup.metric.Honest)
    {v : Nat} {l l' : NeighbourList} (hl : s.lists[v]? = some l) (hl' : t.lists[v]? = some l') :
    List.Forall₂ (fun e e' : Entry => setup.SameNeighbour v e.toNeighbour e'.toNeighbour)
      l.entries l'.entries := by
  refine forall₂_imp_of_mem (h.lists v l l' hl hl').entries fun e he e' he' alike => ?_
  have genuine := h.sound.genuine_of_mem hl he
  have genuine' := h.sound'.genuine_of_mem hl' he'
  rw [← alike.id] at genuine'
  refine ⟨alike.id, Number.beq_iff_le_and_ge.2
    ⟨genuine.le genuine' honest, genuine'.le genuine honest⟩, fun same => ?_⟩
  exact Except.ok.inj ((genuine.score_of_eq same).symm.trans (genuine'.score_of_eq same))

/-- The cutoff drops a neighbour in both or in neither. -/
theorem sameNeighbours_cut {v : Nat} {l l' : NeighbourList}
    (h : List.Forall₂ (fun e e' : Entry => setup.SameNeighbour v e.toNeighbour e'.toNeighbour)
      l.entries l'.entries) :
    List.Forall₂ (setup.SameNeighbour v) (setup.cut l).neighbours (setup.cut l').neighbours := by
  have cut : List.Forall₂
      (fun e e' : Entry => setup.SameNeighbour v e.toNeighbour e'.toNeighbour)
      (setup.cut l).entries (setup.cut l').entries := by
    unfold Setup.cut
    split
    · refine List.rel_filter (fun e e' same => ?_) h
      obtain ⟨le, ge⟩ := Number.beq_iff_le_and_ge.1 same.similarity
      simp only [decide_eq_true_eq]
      exact ⟨fun above => Number.le_trans above le, fun above => Number.le_trans above ge⟩
    · exact h
  rwa [NeighbourList.neighbours, NeighbourList.neighbours, List.forall₂_map_left_iff,
    List.forall₂_map_right_iff]

/-- What a run found for a node is what the cutoff leaves of its list. -/
theorem Ended.neighboursOf_eq {result : Result} (h : Ended schedule setup result r s t) (v : Nat) :
    result.neighboursOf v = ((s.lists[v]?.map setup.cut).map NeighbourList.neighbours).getD [] := by
  rw [Result.neighboursOf, h.neighbours, h.lists, Array.getD_eq_getD_getElem?, Array.getElem?_map,
    Array.getElem?_map]

end

/-- **The turns of tasks decide ties only.** Where all pairs have scores, the search is never told
to stop, and no two candidates of a node are equally similar to it, the turns of the tasks make no
difference to what a list holds. Under any turns the search fails for the same reason, and results
of as many iterations have the same neighbours. The number of iterations is the same as well if
nodes are not compared with random others and only one without updates counts as converged. -/
theorem turns_decide_ties_only (schedule schedule' : Schedule) (setup : Setup)
    (decisive : setup.Decisive) :
    (∀ e, (runUnder schedule setup).outcome = .error e ↔
      (runUnder schedule' setup).outcome = .error e) ∧
    ∀ r r', (runUnder schedule setup).outcome = .ok r →
      (runUnder schedule' setup).outcome = .ok r' →
      (r.iterations = r'.iterations →
        ∀ v, List.Forall₂ (setup.SameNeighbour v) (r.neighboursOf v) (r'.neighboursOf v)) ∧
      (setup.config.randomJoins = 0 → setup.config.updateThreshold setup.nodeCount = 0 →
        r.iterations = r'.iterations ∧ r.converged = r'.converged) := by
  constructor
  · exact fun e => ⟨outcome_error_of_error decisive, outcome_error_of_error decisive⟩
  intro r r' ok ok'
  obtain ⟨refinement, s, t, ended⟩ := runUnder_ok ok
  obtain ⟨refinement', s', t', ended'⟩ := runUnder_ok ok'
  obtain ⟨together, stop⟩ := refined_abreast decisive ended.refined ended'.refined
  rw [ended.iterations, ended'.iterations, ended.converged, ended'.converged]
  refine ⟨fun same v => ?_, stop⟩
  have abreast := together same
  rw [ended.neighboursOf_eq, ended'.neighboursOf_eq]
  by_cases hv : v < setup.nodeCount
  · obtain ⟨l, hl, -⟩ := abreast.sound.list hv
    obtain ⟨l', hl', -⟩ := abreast.sound'.list hv
    rw [hl, hl']
    exact sameNeighbours_cut (abreast.sameNeighbours decisive.honest hl hl')
  · rw [Array.getElem?_eq_none (abreast.sound.size ▸ Nat.le_of_not_lt hv),
      Array.getElem?_eq_none (abreast.sound'.size ▸ Nat.le_of_not_lt hv)]
    exact .nil

/-- Four nodes, every two of which are the more similar the later they are. -/
def rankedNodes : Setup where
  graph := .nodesOnly 4
  metric := .ofFunction true fun a b => 0.1 * (a + b).toFloat
  excluded := .standard
  config :=
    { topK := 2, sampleRate := 1.0, deltaThreshold := 0.001, maxIterations := 3, randomJoins := 0
      seed := some 7, concurrency := 2, minBatchSize := 1, valid := by decide +kernel }

theorem score_rankedNodes {a b : Nat} (ha : a < 4) (hb : b < 4) :
    rankedNodes.metric.score a b = .ok (0.1 * (a + b).toFloat) := by
  have finite : ∀ a < 4, ∀ b < 4, (0.1 * (a + b).toFloat).isFinite = true := by decide +kernel
  simp only [Metric.score, rankedNodes, Metric.ofFunction]
  rw [if_pos (finite a ha b hb)]

theorem score_rankedNodes_comm (a b : Nat) (x : Float)
    (score : rankedNodes.metric.score a b = .ok x) : rankedNodes.metric.score b a = .ok x := by
  simp only [Metric.score, rankedNodes, Metric.ofFunction, Nat.add_comm b a] at score ⊢
  split at score
  · next finite => rwa [if_pos finite]
  · cases score

theorem decisive_rankedNodes : rankedNodes.Decisive where
  honest := Metric.honest_of_comm score_rankedNodes_comm
  tieFree := by
    have apart : ∀ v < 4, ∀ a < 4, ∀ b < 4,
        (0.1 * (v + a).toFloat == 0.1 * (v + b).toFloat) = true → a = b := by decide +kernel
    have similarity : ∀ {v a x}, rankedNodes.Genuine v a x → x = 0.1 * (v + a).toFloat := by
      intro v a x genuine
      have score := score_rankedNodes genuine.node_lt genuine.other.1
      rcases genuine.scored with ⟨-, scored⟩ | ⟨-, -, scored⟩
      · exact Except.ok.inj (scored.symm.trans score)
      · exact Except.ok.inj ((score_rankedNodes_comm _ _ _ scored).symm.trans score)
    intro v a b x y genuine genuine' tie
    rw [similarity genuine, similarity genuine'] at tie
    exact apart v genuine.node_lt a genuine.other.1 b genuine'.other.1 tie
  scores a ha b hb _ := ⟨_, score_rankedNodes ha hb⟩
  goesOn _ := rfl

theorem rankedNodes_under_any_turns :
    ∃ r r', (runUnder .inOrder rankedNodes).outcome = .ok r ∧
      (runUnder .lastFirst rankedNodes).outcome = .ok r' ∧
      r.iterations = r'.iterations ∧ r.converged = r'.converged ∧
      ∀ v, List.Forall₂ (rankedNodes.SameNeighbour v) (r.neighboursOf v) (r'.neighboursOf v) := by
  have ok : (runUnder .inOrder rankedNodes).outcome.isOk = true := by decide +kernel
  have ok' : (runUnder .lastFirst rankedNodes).outcome.isOk = true := by decide +kernel
  have same := (turns_decide_ties_only .inOrder .lastFirst rankedNodes decisive_rankedNodes).2
  generalize (runUnder .inOrder rankedNodes).outcome = outcome at ok same
  generalize (runUnder .lastFirst rankedNodes).outcome = outcome' at ok' same
  cases outcome with
  | error => cases ok
  | ok r =>
    cases outcome' with
    | error => cases ok'
    | ok r' =>
      obtain ⟨together, stop⟩ := same r r' rfl rfl
      obtain ⟨iterations, converged⟩ := stop rfl (by decide +kernel)
      exact ⟨r, r', rfl, rfl, iterations, converged, together iterations⟩

/-- Three nodes, all equally similar. The outer two start with the one in the middle, which has
room for one of them. -/
def rivals : Setup where
  graph := .ofRows #[[⟨1, 1.0⟩], [], [⟨1, 1.0⟩]]
  metric := .ofFunction true fun _ _ => 1.0
  excluded := .standard
  config :=
    { topK := 1, sampleRate := 1.0, maxIterations := 1, randomJoins := 0, sampler := .randomWalk
      seed := some 7, concurrency := 2, minBatchSize := 1, valid := by decide +kernel }

/-- In a tie the list keeps whom it was offered first, so the turns of the two tasks decide who is
found. -/
theorem rivals_found_by_turns :
    rivals.metric.Honest ∧ (∀ a b, rivals.metric.score a b = .ok 1.0) ∧
      ∃ r r', (runUnder .inOrder rivals).outcome = .ok r ∧
        (runUnder .lastFirst rivals).outcome = .ok r' ∧
        (r.neighboursOf 1).map (·.id) = [0] ∧ (r'.neighboursOf 1).map (·.id) = [2] := by
  have found : (runUnder .inOrder rivals).outcome.toOption.map
      (fun r => (r.neighboursOf 1).map (·.id)) = some [0] := by decide +kernel
  have found' : (runUnder .lastFirst rivals).outcome.toOption.map
      (fun r => (r.neighboursOf 1).map (·.id)) = some [2] := by decide +kernel
  have score : ∀ a b, rivals.metric.score a b = .ok 1.0 := by
    intro a b
    simp only [Metric.score, rivals, Metric.ofFunction]
    rw [if_pos (by decide +kernel)]
  refine ⟨Metric.honest_of_comm fun a b x eq => by rwa [score] at eq ⊢, score, ?_⟩
  generalize (runUnder .inOrder rivals).outcome = outcome at found
  generalize (runUnder .lastFirst rivals).outcome = outcome' at found'
  cases outcome with
  | error => cases found
  | ok r =>
    cases outcome' with
    | error => cases found'
    | ok r' =>
      exact ⟨r, r', rfl, rfl, by simpa [Except.toOption] using found,
        by simpa [Except.toOption] using found'⟩

end Search

end NeighbourGraph
