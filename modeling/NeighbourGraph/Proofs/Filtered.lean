/-
A search for chosen nodes is exact over what it scored.

The search itself does not depend on the node filters: it fails with the same errors and comes to
the same numbers as the search over all nodes. The list of an accepted source is what sorting
would make of the accepted targets that were scored for it: each as it was scored first, best
first, equal ones in the order in which they were scored, and as many as there is room for.
-/

import NeighbourGraph.Proofs.NeighbourList.Ranked
import NeighbourGraph.Proofs.Results
import NeighbourGraph.Proofs.Settings

namespace NeighbourGraph.Search

/-! ### Accepted candidates -/

/-- The candidate that an event scores for `node`, if its target is accepted. -/
def acceptedFor (target : NodeFilter) (node : Nat) (e : Event) : Option Neighbour :=
  e.considered?.bind fun (v, c, x) => if v = node ∧ target c = true then some ⟨c, x⟩ else none

/-- All accepted candidates that were scored for a node, in order. -/
def scoredFor (target : NodeFilter) (log : Log) (node : Nat) : List Neighbour :=
  log.toList.filterMap (acceptedFor target node)

/-- What a cutoff leaves of some neighbours; one that is not positive leaves all. -/
def cutBelow (cutoff : Float) (ns : List Neighbour) : List Neighbour :=
  if 0.0 < cutoff then ns.filter fun n => cutoff ≤ n.similarity else ns

variable {target : NodeFilter} {log : Log} {nodeCount capacity v : Nat} {n : Neighbour}

theorem acceptedFor_eq_some_iff {e : Event} :
    acceptedFor target v e = some n ↔
      e = .considered v n.id n.similarity ∧ target n.id = true := by
  obtain ⟨id, similarity⟩ := n
  cases e with
  | considered w c x =>
    simp only [acceptedFor, Event.considered?, Option.bind_some, Option.ite_none_right_eq_some,
      Option.some.injEq, Neighbour.mk.injEq, Event.considered.injEq]
    grind
  | started | advanced | ended | offered | scored | entered => simp [acceptedFor, Event.considered?]

theorem mem_scoredFor :
    n ∈ scoredFor target log v ↔
      Event.considered v n.id n.similarity ∈ log ∧ target n.id = true := by
  simp [scoredFor, acceptedFor_eq_some_iff]

/-- An event is an offer to the list of `v`, or nothing to it. -/
theorem getElem?_watch (target : NodeFilter) (lists : Array NeighbourList) (e : Event) (v : Nat) :
    (watch target lists e)[v]? =
      lists[v]?.map fun l => l.offerAll (acceptedFor target v e).toList := by
  unfold watch acceptedFor
  cases considered : e.considered? with
  | none => simp [NeighbourList.offerAll]
  | some scored =>
    obtain ⟨w, c, x⟩ := scored
    dsimp only
    by_cases accepted : target c = true
    · by_cases own : w = v
      · simp [accepted, own, NeighbourList.offerAll, Array.getElem?_modify]
      · simp [accepted, own, NeighbourList.offerAll, Array.getElem?_modify]
    · simp [accepted, NeighbourList.offerAll]

/-- The list that watched for a node was offered the accepted candidates scored for it. -/
theorem getElem?_watched (hv : v < nodeCount) :
    (watched target nodeCount capacity log)[v]? =
      some (NeighbourList.offerAll { owner := v, capacity } (scoredFor target log v)) := by
  unfold watched scoredFor
  rw [← Array.foldl_toList]
  induction log.toList using List.reverseRecOn with
  | nil => exact getElem?_emptyLists.2 ⟨hv, rfl⟩
  | append_singleton events e ih =>
    rw [List.foldl_append, List.foldl_cons, List.foldl_nil, getElem?_watch, ih,
      List.filterMap_append, NeighbourList.offerAll_append]
    cases accepted : acceptedFor target v e <;> simp [accepted]

/-- What a list has after it watched a log in which every candidate of a node has one similarity. -/
theorem neighbours_watched {setup : Setup} (honest : setup.metric.Honest)
    (genuine : ∀ v c x, Event.considered v c x ∈ log → setup.Genuine v c x)
    (hv : v < setup.nodeCount) :
    ∃ l, (watched target setup.nodeCount capacity log)[v]? = some l ∧ l.owner = v ∧
      l.neighbours = (ranked (firsts (scoredFor target log v))).take capacity := by
  have came : ∀ n ∈ scoredFor target log v, setup.Genuine v n.id n.similarity :=
    fun n hn => genuine _ _ _ (mem_scoredFor.1 hn).1
  obtain ⟨ranks, owner, eqCapacity⟩ := NeighbourList.ranks_offerAll v capacity
    (fun n hn => (came n hn).isFinite) (fun n hn => (came n hn).other.2)
    fun m hm n hn eq => (came n hn).le (eq ▸ came m hm) honest
  exact ⟨_, getElem?_watched hv, owner, by rw [ranks.neighbours, eqCapacity]⟩

/-- What a source is left with at the end. -/
theorem chosen_eq (source : NodeFilter) (config : Config) (l : NeighbourList) :
    chosen source config.similarityCutoff l =
      if source l.owner then cutBelow config.similarityCutoff l.neighbours else [] := by
  unfold chosen cutBelow
  have := config.cutoff_le_zero_iff
  by_cases positive : 0.0 < config.similarityCutoff <;> simp_all

/-- **A search for chosen nodes is exact on what was scored.** It fails as the search over all nodes
does, and else comes to the same numbers. An accepted source has exactly the accepted targets that
were scored for it, each once as it was scored first, sorted by falling similarity, equal ones in
the order in which they were scored, as many as there is room for, and none below a positive cutoff.
Other nodes have none. -/
theorem filtered_exact (schedule : Schedule) (setup : Setup) (honest : setup.metric.Honest)
    (source target : NodeFilter) :
    (∀ e, (runFilteredUnder schedule setup source target).outcome = .error e ↔
      (runUnder schedule setup).outcome = .error e) ∧
    ∀ found, (runUnder schedule setup).outcome = .ok found →
      ∃ result, (runFilteredUnder schedule setup source target).outcome = .ok result ∧
        result.iterations = found.iterations ∧ result.converged = found.converged ∧
        result.pairs = found.pairs ∧ result.nodesCompared = found.nodesCompared ∧
        result.neighbours.size = setup.nodeCount ∧
        ∀ v < setup.nodeCount, result.neighboursOf v =
          if source v then
            cutBelow setup.config.similarityCutoff
              ((ranked (firsts (scoredFor target (runUnder schedule setup).log v))).take
                (min setup.config.topK (setup.nodeCount - 1)))
          else [] := by
  constructor
  · intro e
    unfold runFilteredUnder
    cases plain : (runUnder schedule setup).outcome <;> simp [plain, Except.map]
  · intro found plain
    have genuine := genuine_of_logged plain
    refine ⟨{ found with
      neighbours := (watched target setup.nodeCount setup.capacity
        (runUnder schedule setup).log).map (chosen source setup.config.similarityCutoff) },
      ?_, rfl, rfl, rfl, rfl, ?_, ?_⟩
    · simp [runFilteredUnder, plain, Except.map, Setup.capacity]
    · have sound : SoundLists setup.nodeCount setup.capacity _ _ :=
        soundLists_watched target genuine
      exact Array.size_map.trans sound.1
    · intro v hv
      obtain ⟨l, hl, owner, neighbours⟩ := neighbours_watched honest genuine hv
      rw [Result.neighboursOf, Array.getD_eq_getD_getElem?, Array.getElem?_map, hl,
        Option.map_some, Option.getD_some, chosen_eq, owner, neighbours, Setup.capacity]

theorem fourNodes_filtered_exact :
    ∃ result, (runFilteredUnder .inOrder fourNodes (· < 3) (1 < ·)).outcome = .ok result ∧
      (scoredFor (1 < ·) (runUnder .inOrder fourNodes).log 0).length = 8 ∧
      result.neighboursOf 0 = (ranked (firsts
        (scoredFor (1 < ·) (runUnder .inOrder fourNodes).log 0))).take 2 ∧
      result.neighboursOf 3 = [] := by
  have ok : (runUnder .inOrder fourNodes).outcome.isOk = true := by decide +kernel
  have scored : (scoredFor (1 < ·) (runUnder .inOrder fourNodes).log 0).length = 8 := by
    decide +kernel
  have cut : ¬0.0 < fourNodes.config.similarityCutoff := by decide +kernel
  generalize outcome : (runUnder .inOrder fourNodes).outcome = plain at ok
  cases plain with
  | error cause => cases ok
  | ok found =>
    obtain ⟨result, filtered, -, -, -, -, -, lists⟩ :=
      (filtered_exact .inOrder fourNodes honest_fourNodes (· < 3) (1 < ·)).2 found outcome
    refine ⟨result, filtered, scored, ?_, ?_⟩
    · rw [lists 0 (by decide), if_pos (by decide), cutBelow, if_neg cut]
      rfl
    · rw [lists 3 (by decide), if_neg (by decide)]

end NeighbourGraph.Search
