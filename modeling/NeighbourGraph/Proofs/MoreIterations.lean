/-
More iterations never hurt.

A search goes the same way however often it may iterate, so one that may iterate more often comes
through the lists of one that may iterate less often. If that one converged, both end there. If it
did not, whatever is settled in its lists stays settled in the iterations that follow, and a list
that settles what another one does is at least as similar at every place.
-/

import NeighbourGraph.Proofs.NeighbourList.TopOffers
import NeighbourGraph.Proofs.Search.Extent

namespace NeighbourGraph

open NeighbourGraph.Random NeighbourGraph.Search

namespace Search

/-! ### Iterations -/

/-- The second search went on from where the first one was: it made more of everything, and all that
was settled is. -/
structure GoesOn (reached reached' : Refinement) (s t : State) : Prop where
  iterations : reached.iterations ≤ reached'.iterations
  pairs : reached.pairs ≤ reached'.pairs
  settled : ∀ v c x, SettledIn s v c x → SettledIn t v c x

variable {setup : Setup} {schedule : Schedule} {capacity m m' : Nat}
  {reached reached' : Refinement} {s t : State}

theorem GoesOn.refl (reached : Refinement) (s : State) : GoesOn reached reached s s :=
  ⟨Nat.le_refl _, Nat.le_refl _, fun _ _ _ => id⟩

theorem goesOn_kept (others : 2 ≤ setup.nodeCount) (sampled threshold : Nat)
    (reached : Refinement) (s : State) :
    KeptByIteration setup sampled threshold fun reached' t =>
      Refined setup capacity t ∧ GoesOn reached reached' s t := by
  rintro reached' t turns splitStream joinStream tally u - ⟨refined, goesOn⟩ run
  refine ⟨exec_iteration others refined run, ?_, ?_, ?_⟩
  · exact goesOn.iterations.trans (Nat.le_succ _)
  · exact goesOn.pairs.trans (Nat.le_add_right _ _)
  · exact fun v c x settled => (goesOn.settled v c x settled).iteration others refined run

/-- A search that may iterate more often either ends where the other one converged or goes on from
where that one used up its iterations. -/
theorem refined_more (le : m ≤ m') (ok : refined schedule setup m = (.ok reached, s))
    (ok' : refined schedule setup m' = (.ok reached', t)) :
    reached.converged = true ∧ reached' = reached ∧ t = s ∨
      reached.converged = false ∧ GoesOn reached reached' s t ∧
        reached.iterations = if setup.nodeCount < 2 then 0 else m := by
  have refined := refined_ok ok
  unfold Search.refined at ok ok'
  by_cases few : setup.nodeCount < 2
  · rw [if_pos few] at ok ok'
    cases ok
    cases ok'
    exact .inr ⟨rfl, .refl _ _, (if_pos few).symm⟩
  rw [if_neg few] at ok ok' ⊢
  obtain ⟨k, size⟩ := ListSize.of_config setup.config setup.nodeCount
  simp only [size] at ok ok'
  obtain ⟨n, rfl⟩ := Nat.exists_eq_add_of_le le
  obtain ⟨tally, u, filled, iterated⟩ := exec_bind_ok.1 ok
  obtain ⟨tally', u', filled', iterated'⟩ := exec_bind_ok.1 ok'
  cases filled.symm.trans filled'
  dsimp only at iterated iterated'
  rw [iterate_add _ _ _ _ _ _ _ _ rfl, exec_bind, iterated] at iterated'
  have ended := (exec_iterate_ok (I := fun _ _ => True) (fun _ _ _ _ _ _ _ _ _ _ => trivial)
    rfl trivial iterated).2
  cases converged : reached.converged with
  | true =>
    simp only [converged, if_true] at iterated'
    cases iterated'
    exact .inl ⟨rfl, rfl, rfl⟩
  | false =>
    simp only [converged, Bool.false_eq_true, if_false] at iterated'
    have others : 2 ≤ setup.nodeCount := by omega
    obtain ⟨⟨-, goesOn⟩, -⟩ := exec_iterate_ok (goesOn_kept others _ _ reached s) converged
      ⟨refined, .refl reached s⟩ iterated'
    rw [converged] at ended
    exact .inr ⟨rfl, goesOn, (ended.resolve_left Bool.false_ne_true).trans (Nat.zero_add m)⟩

/-- A list of a search that went on is at least as similar at every place. -/
theorem GoesOn.le (goesOn : GoesOn reached reached' s t) (sound : Sound setup capacity s)
    (sound' : Sound setup capacity t) {v i : Nat} {l : NeighbourList} {e : Entry}
    (hl : s.lists[v]? = some l) (he : l.entries[i]? = some e) :
    ∃ l', t.lists[v]? = some l' ∧
      ∃ e', l'.entries[i]? = some e' ∧ e.similarity ≤ e'.similarity := by
  have hv : v < setup.nodeCount := sound.size ▸ (Array.getElem?_eq_some_iff.1 hl).1
  obtain ⟨l', hl', soundFor'⟩ := sound'.list hv
  have soundFor := sound.lists v l hl
  refine ⟨l', hl', soundFor.wellFormed.le_of_settles soundFor'.wellFormed
    (soundFor'.capacity.trans soundFor.capacity.symm) (fun f hf => ?_) he⟩
  have held : l.Settles f.id f.similarity :=
    .inl ⟨f, hf, rfl, Number.le_refl (soundFor.wellFormed.finite f hf)⟩
  obtain ⟨k, hk, settles⟩ := goesOn.settled v f.id f.similarity ⟨l, hl, held⟩
  obtain rfl : l' = k := Option.some.inj (hl'.symm.trans hk)
  exact settles

end Search

/-! ### Runs -/

/-- The setup of the same search with another limit on its iterations. -/
def Setup.withIterations (setup : Setup) (maxIterations : Nat) : Setup :=
  setup.ending maxIterations setup.config.similarityCutoff setup.config.isFinite_similarityCutoff

namespace Search

variable {setup : Setup} {schedule : Schedule} {m m' : Nat}

/-- A run under any limit that has a result came through refined lists, and kept them all without a
cutoff. -/
theorem refined_of_outcome (uncut : ¬0.0 < setup.config.similarityCutoff) {result : Result}
    (ok : (runUnder schedule (setup.withIterations m)).outcome = .ok result) :
    ∃ reached s, refined schedule setup m = (.ok reached, s) ∧
      result = reached.result setup s ∧
      ∀ v, result.neighboursOf v = (s.lists[v]?.map NeighbourList.neighbours).getD [] := by
  obtain ⟨reached, s, t, ended⟩ := runUnder_ok ok
  have ran : refined schedule setup m = (.ok reached, s) :=
    (refined_ending setup schedule m).symm.trans ended.refined
  refine ⟨reached, s, ran, ended.result_eq, fun v => ?_⟩
  have kept : ∀ l : NeighbourList, (setup.withIterations m).cut l = l := fun l => if_neg uncut
  rw [ended.result_eq, Result.neighboursOf, Refinement.result, Array.getD_eq_getD_getElem?,
    Array.getElem?_map]
  simp only [kept]

end Search

/-- **More iterations never hurt.** Without a cutoff, of two searches with the same seed that have
results the one that may iterate more often has the same result if the other one converged. If that
one did not converge, it used up its iterations, unless there was nothing to compare, and the one
that may iterate more often iterated and scored at least as much: at each place of each list, its
neighbour is at least as similar. -/
theorem more_iterations_no_worse (schedule : Schedule) (setup : Setup)
    (uncut : (setup.config.similarityCutoff == 0.0) = true) {m m' : Nat} (le : m ≤ m')
    {r r' : Result} (ok : (runUnder schedule (setup.withIterations m)).outcome = .ok r)
    (ok' : (runUnder schedule (setup.withIterations m')).outcome = .ok r') :
    (r.converged = true → r' = r) ∧
    (r.converged = false →
      r.iterations = (if setup.nodeCount < 2 then 0 else m) ∧ r.iterations ≤ r'.iterations ∧
      r.pairs ≤ r'.pairs ∧
      ∀ v, (r.neighboursOf v).length ≤ (r'.neighboursOf v).length ∧
        ∀ (i : Nat) (n : Neighbour), (r.neighboursOf v)[i]? = some n →
          ∃ n', (r'.neighboursOf v)[i]? = some n' ∧ n.similarity ≤ n'.similarity) := by
  have uncut : ¬0.0 < setup.config.similarityCutoff :=
    fun positive => (Number.lt_iff_le_not_ge.1 positive).2 (Number.beq_iff_le_and_ge.1 uncut).1
  obtain ⟨reached, s, ran, rfl, lists⟩ := refined_of_outcome uncut ok
  obtain ⟨reached', t, ran', rfl, lists'⟩ := refined_of_outcome uncut ok'
  rcases refined_more le ran ran' with ⟨converged, rfl, rfl⟩ | ⟨converged, goesOn, iterations⟩
  · exact ⟨fun _ => rfl, fun goesOn => nomatch converged.symm.trans goesOn⟩
  refine ⟨fun ended => (nomatch converged.symm.trans ended), fun _ =>
    ⟨iterations, goesOn.iterations, goesOn.pairs, fun v => ?_⟩⟩
  have better : ∀ (i : Nat) (n : Neighbour), ((reached.result setup s).neighboursOf v)[i]? = some n →
      ∃ n', ((reached'.result setup t).neighboursOf v)[i]? = some n' ∧
        n.similarity ≤ n'.similarity := by
    intro i n hn
    rw [lists v] at hn
    cases hl : s.lists[v]? with
    | none => simp [hl] at hn
    | some l =>
      rw [hl, Option.map_some, Option.getD_some, NeighbourList.neighbours, List.getElem?_map,
        Option.map_eq_some_iff] at hn
      obtain ⟨e, he, rfl⟩ := hn
      obtain ⟨l', hl', e', he', le⟩ := goesOn.le (refined_ok ran).sound (refined_ok ran').sound hl he
      refine ⟨e'.toNeighbour, ?_, le⟩
      rw [lists' v, hl', Option.map_some, Option.getD_some, NeighbourList.neighbours,
        List.getElem?_map, he', Option.map_some]
  refine ⟨?_, better⟩
  -- The last place of the one list has an entry in the other one.
  by_contra shorter
  obtain ⟨n', hn', -⟩ := better _ _
    (List.getElem?_eq_getElem (i := ((reached'.result setup t).neighboursOf v).length) (by omega))
  exact absurd (List.getElem?_eq_some_iff.1 hn').1 (Nat.lt_irrefl _)

theorem fourNodes_more_iterations :
    ∃ r r', (run (fourNodes.withIterations 1)).outcome = .ok r ∧
      (run (fourNodes.withIterations 3)).outcome = .ok r' ∧ r.converged = false ∧
      r.pairs ≤ r'.pairs ∧ (r.neighboursOf 0).length ≤ (r'.neighboursOf 0).length := by
  have uncut : (fourNodes.config.similarityCutoff == 0.0) = true := by decide +kernel
  have found : (run (fourNodes.withIterations 3)).outcome.isOk = true := by decide +kernel
  have early : (run (fourNodes.withIterations 1)).outcome.toOption.any (!·.converged) = true := by
    decide +kernel
  unfold run at found early ⊢
  cases ok : (runUnder .inOrder (fourNodes.withIterations 1)).outcome with
  | error e => simp [ok, Except.toOption] at early
  | ok r =>
    cases ok' : (runUnder .inOrder (fourNodes.withIterations 3)).outcome with
    | error e => simp [ok', Except.isOk, Except.toBool] at found
    | ok r' =>
      have goesOn : r.converged = false := by simpa [ok, Except.toOption] using early
      obtain ⟨-, -, pairs, lists⟩ :=
        (more_iterations_no_worse .inOrder fourNodes uncut (by decide) ok ok').2 goesOn
      exact ⟨r, r', rfl, rfl, goesOn, pairs, (lists 0).1⟩

/-- One node, which has nothing to be compared with. -/
def loneNode : Setup where
  graph := .nodesOnly 1
  metric := .ofFunction true fun _ _ => 1.0
  excluded := .standard
  config := { maxIterations := 1, seed := some 7, valid := by decide +kernel }

/-- Over one node a search neither converges nor uses up its iterations. -/
theorem loneNode_never_iterates :
    (loneNode.config.similarityCutoff == 0.0) = true ∧
      ∃ r, (run (loneNode.withIterations 1)).outcome = .ok r ∧ r.converged = false ∧
        r.iterations ≠ 1 :=
  ⟨by decide +kernel, .empty 1, rfl, rfl, by decide⟩

end NeighbourGraph
