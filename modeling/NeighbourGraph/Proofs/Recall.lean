/-
Recall is a true fraction.

The truth for a query are the nodes that come first among all others, in the total order of their
scores and then by id. Read as numbers the scores fall, and nodes with equal ones are in the order
of their ids, but for the zeros: a node with `0.0` comes before one with `-0.0` whatever their ids.
The list of a node names nobody twice, so it cannot name more of the truth than there is, and it
names as much only if it names all of it. That adds up over the queries. Lists that were full of
all other nodes name every truth.
-/

import NeighbourGraph.Proofs.Fullness
import NeighbourGraph.Proofs.Number.TotalOrder
import NeighbourGraph.Proofs.Outcomes
import NeighbourGraph.Recall

namespace NeighbourGraph.Recall

open NeighbourGraph.Number NeighbourGraph.Search

/-! ### The truth -/

/-- `a` comes before `b` for a query: its score stands later in the total order, or the scores are
the same and its id is smaller. -/
def Precedes (scores : Scores) (query a b : ℕ) : Prop :=
  ∃ x y, scores query a = .ok x ∧ scores query b = .ok y ∧
    (totalKey y < totalKey x ∨ x = y ∧ a < b)

/-- `a` is nearer than `b` to a query: its score is the larger number, or the scores are equal
numbers and its id is smaller. -/
def Nearer (scores : Scores) (query a b : ℕ) : Prop :=
  ∃ x y, scores query a = .ok x ∧ scores query b = .ok y ∧
    (y.toFloat < x.toFloat ∨ (x.toFloat == y.toFloat) = true ∧ a < b)

/-- The scores of `a` and `b` are both zero, and the sign puts `a` behind though its id is
smaller. -/
def ZeroBehind (scores : Scores) (query a b : ℕ) : Prop :=
  a < b ∧ scores query a = .ok (.ofFloat negativeZero) ∧ scores query b = .ok (.ofFloat 0.0)

/-- The nodes that come first for a query: `k` of the other nodes or all of them, none twice, in
order, and no node that is left out comes before one of them. -/
structure IsTruth (before : ℕ → ℕ → Prop) (nodeCount query k : ℕ) (truth : List ℕ) : Prop where
  length_eq : truth.length = min k (nodeCount - 1)
  nodup : truth.Nodup
  others : ∀ id ∈ truth, id < nodeCount ∧ id ≠ query
  ordered : truth.Pairwise before
  best : ∀ id < nodeCount, id ≠ query → id ∉ truth → ∀ found ∈ truth, ¬before id found

/-- The scores of all other nodes for a query are numbers. -/
def AllNumbers (scores : Scores) (nodeCount query : ℕ) : Prop :=
  ∀ id < nodeCount, id ≠ query → ∃ x, scores query id = .ok x ∧ ¬x.toFloat.isNaN = true

section

variable {scores : Scores} {nodeCount query k a b : ℕ}

theorem Precedes.asymm (h : Precedes scores query a b) : ¬Precedes scores query b a := by
  obtain ⟨x, y, hx, hy, before⟩ := h
  rintro ⟨y', x', hy', hx', after⟩
  obtain rfl := Except.ok.inj (hx.symm.trans hx')
  obtain rfl := Except.ok.inj (hy.symm.trans hy')
  rcases before with higher | ⟨rfl, smaller⟩
  · rcases after with higher' | ⟨rfl, -⟩
    · omega
    · omega
  · omega

/-! ### The two orders -/

theorem Nearer.asymm (h : Nearer scores query a b) : ¬Nearer scores query b a := by
  obtain ⟨x, y, hx, hy, before⟩ := h
  rintro ⟨y', x', hy', hx', after⟩
  obtain rfl := Except.ok.inj (hx.symm.trans hx')
  obtain rfl := Except.ok.inj (hy.symm.trans hy')
  rcases before with larger | ⟨equal, smaller⟩ <;> rcases after with larger' | ⟨equal', smaller'⟩
  · exact Number.not_lt_of_le (Number.lt_iff_le_not_ge.1 larger').1 larger
  · exact Number.not_lt_of_le (Number.beq_iff_le_and_ge.1 equal').2 larger
  · exact Number.not_lt_of_le (Number.beq_iff_le_and_ge.1 equal).2 larger'
  · omega

/-- Of two nodes that are scored with numbers one is nearer. -/
theorem nearer_total (numbers : AllNumbers scores nodeCount query)
    (ha : a < nodeCount ∧ a ≠ query) (hb : b < nodeCount ∧ b ≠ query) (ne : a ≠ b) :
    Nearer scores query a b ∨ Nearer scores query b a := by
  obtain ⟨x, hx, numberA⟩ := numbers a ha.1 ha.2
  obtain ⟨y, hy, numberB⟩ := numbers b hb.1 hb.2
  by_cases le : x.toFloat ≤ y.toFloat <;> by_cases ge : y.toFloat ≤ x.toFloat
  · have equal := Number.beq_iff_le_and_ge.2 ⟨le, ge⟩
    have equal' := Number.beq_iff_le_and_ge.2 ⟨ge, le⟩
    rcases Nat.lt_or_gt_of_ne ne with less | greater
    · exact .inl ⟨x, y, hx, hy, .inr ⟨equal, less⟩⟩
    · exact .inr ⟨y, x, hy, hx, .inr ⟨equal', greater⟩⟩
  · exact .inr ⟨y, x, hy, hx, .inl (Number.lt_iff_le_not_ge.2 ⟨le, ge⟩)⟩
  · exact .inl ⟨x, y, hx, hy, .inl (Number.lt_iff_le_not_ge.2 ⟨ge, le⟩)⟩
  · exact absurd (Number.le_total numberA numberB) (not_or.2 ⟨le, ge⟩)

/-- A nearer node comes first, unless the sign of its zero puts it behind. -/
theorem Nearer.precedes_or (h : Nearer scores query a b) :
    Precedes scores query a b ∨ ZeroBehind scores query a b := by
  obtain ⟨x, y, hx, hy, larger | ⟨equal, smaller⟩⟩ := h
  · exact .inl ⟨x, y, hx, hy, .inl (totalKey_lt_of_lt larger)⟩
  · obtain rfl | ⟨rfl, rfl⟩ | ⟨rfl, rfl⟩ := eq_or_zeros_of_beq equal
    · exact .inl ⟨x, x, hx, hy, .inr ⟨rfl, smaller⟩⟩
    · exact .inl ⟨_, _, hx, hy, .inl (by decide +kernel)⟩
    · exact .inr ⟨smaller, hx, hy⟩

theorem ZeroBehind.nearer (h : ZeroBehind scores query a b) : Nearer scores query a b :=
  ⟨_, _, h.2.1, h.2.2, .inr ⟨by decide +kernel, h.1⟩⟩

theorem ZeroBehind.precedes (h : ZeroBehind scores query a b) : Precedes scores query b a :=
  ⟨_, _, h.2.2, h.2.1, .inl (by decide +kernel)⟩

/-- A list that is in two orders has any two of its elements in the same order by both. -/
theorem ordered_alike {R S : ℕ → ℕ → Prop} {ids : List ℕ} (hR : ids.Pairwise R)
    (hS : ids.Pairwise S) (ha : a ∈ ids) (hb : b ∈ ids) (ne : a ≠ b) :
    R a b ∧ S a b ∨ R b a ∧ S b a := by
  obtain ⟨i, hi, rfl⟩ := List.getElem_of_mem ha
  obtain ⟨j, hj, rfl⟩ := List.getElem_of_mem hb
  rw [List.pairwise_iff_getElem] at hR hS
  rcases Nat.lt_trichotomy i j with less | rfl | greater
  · exact .inl ⟨hR i j hi hj less, hS i j hi hj less⟩
  · exact absurd rfl ne
  · exact .inr ⟨hR j i hj hi greater, hS j i hj hi greater⟩

/-- The nodes that come first are the nearest, in the order of numbers and ids, exactly if no zero
among them is in front of one with a smaller id for its sign. -/
theorem IsTruth.nearer_iff {truth : List ℕ} (numbers : AllNumbers scores nodeCount query)
    (isTruth : IsTruth (Precedes scores query) nodeCount query k truth) :
    IsTruth (Nearer scores query) nodeCount query k truth ↔
      ∀ b ∈ truth, ∀ a ≠ query, ¬ZeroBehind scores query a b := by
  constructor
  · intro nearest b hb a other behind
    by_cases ha : a ∈ truth
    · rcases ordered_alike isTruth.ordered nearest.ordered ha hb behind.1.ne with
        ⟨first, -⟩ | ⟨-, nearer⟩
      · exact first.asymm behind.precedes
      · exact nearer.asymm behind.nearer
    · have known : a < nodeCount := behind.1.trans (isTruth.others b hb).1
      exact nearest.best a known other ha b hb behind.nearer
  · intro apart
    refine ⟨isTruth.length_eq, isTruth.nodup, isTruth.others, ?_, ?_⟩
    · refine isTruth.ordered.imp_of_mem fun {a b} ha hb before => ?_
      have ne : a ≠ b := by
        rintro rfl
        exact before.asymm before
      refine (nearer_total numbers (isTruth.others a ha) (isTruth.others b hb) ne).resolve_right ?_
      intro nearer
      rcases nearer.precedes_or with after | behind
      · exact after.asymm before
      · exact apart a ha b (isTruth.others b hb).2 behind
    · intro id known other left found hfound nearer
      rcases nearer.precedes_or with before | behind
      · exact isTruth.best id known other left found hfound before
      · exact apart found hfound id other behind

/-! ### Finding the truth -/

/-- Where all of some nodes are scored, each has its score. -/
theorem exists_scoreAll {ids : List ℕ}
    (all : ∀ id ∈ ids, ∃ x, scores query id = .ok x) :
    ∃ scored, scoreAll scores query ids = .ok scored ∧ scored.map (·.id) = ids ∧
      ∀ s ∈ scored, scores query s.id = .ok s.similarity := by
  induction ids with
  | nil => exact ⟨[], rfl, rfl, nofun⟩
  | cons id rest ih =>
    obtain ⟨x, first⟩ := all id List.mem_cons_self
    obtain ⟨scored, ran, named, genuine⟩ := ih fun id' h => all id' (List.mem_cons_of_mem _ h)
    refine ⟨⟨id, x⟩ :: scored, ?_, by rw [List.map_cons, named], ?_⟩
    · rw [scoreAll, first, ran]
      rfl
    · rintro s hs
      rcases List.mem_cons.1 hs with rfl | hs
      · exact first
      · exact genuine s hs

namespace Scored

variable {a b : Scored}

theorem before_iff : a.before b = true ↔ totalKey b.similarity < totalKey a.similarity ∨
    totalKey a.similarity = totalKey b.similarity ∧ a.id ≤ b.id := by
  simp [before]

theorem before_trans (a b c : Scored) (hab : a.before b = true) (hbc : b.before c = true) :
    a.before c = true := by
  rw [before_iff] at *
  omega

theorem before_total (a b : Scored) : a.before b || b.before a := by
  rw [Bool.or_eq_true, before_iff, before_iff]
  omega

/-- Scored nodes are sorted into their order. -/
theorem exists_ranked (scored : List Scored) :
    ∃ ranked, scored.mergeSort before = ranked ∧ ranked.Perm scored ∧
      ranked.Pairwise fun a b => a.before b = true :=
  ⟨_, rfl, List.mergeSort_perm scored before,
    List.pairwise_mergeSort before_trans before_total scored⟩

/-- Of different nodes with their scores, the one that is sorted in front comes first. -/
theorem precedes_of_before (before : a.before b = true) (ne : a.id ≠ b.id)
    (ha : scores query a.id = .ok a.similarity) (hb : scores query b.id = .ok b.similarity) :
    Precedes scores query a.id b.id := by
  refine ⟨_, _, ha, hb, ?_⟩
  rcases before_iff.1 before with higher | ⟨same, le⟩
  · exact .inl higher
  · exact .inr ⟨totalKey_injective same, by omega⟩

end Scored

/-- The other nodes of a query. -/
theorem perm_others_facts {ids : List ℕ} (known : query < nodeCount)
    (perm : ids.Perm ((List.range nodeCount).filter (· ≠ query))) :
    ids.length = nodeCount - 1 ∧ ids.Nodup ∧ ∀ id, id ∈ ids ↔ id < nodeCount ∧ id ≠ query := by
  have erased : (List.range nodeCount).filter (· ≠ query) = (List.range nodeCount).erase query := by
    rw [List.nodup_range.erase_eq_filter]
    exact List.filter_congr fun id _ => by simp [bne, beq_eq_decide]
  refine ⟨?_, perm.nodup_iff.2 (List.nodup_range.filter _), fun id => by simp [perm.mem_iff]⟩
  rw [perm.length_eq, erased, List.length_erase_of_mem (List.mem_range.2 known),
    List.length_range]

/-- The first of all other nodes in order are a truth. -/
theorem isTruth_take {ids : List ℕ} (known : query < nodeCount)
    (perm : ids.Perm ((List.range nodeCount).filter (· ≠ query)))
    (ordered : ids.Pairwise (Precedes scores query)) (k : ℕ) :
    IsTruth (Precedes scores query) nodeCount query k (ids.take k) := by
  obtain ⟨length, nodup, member⟩ := perm_others_facts known perm
  have split := List.take_append_drop k ids
  constructor
  · rw [List.length_take, length]
  · exact nodup.sublist (List.take_sublist k ids)
  · exact fun id hid => (member id).1 (List.mem_of_mem_take hid)
  · exact ordered.sublist (List.take_sublist k ids)
  · intro id known other left found hfound
    have out : id ∈ ids.drop k := by
      have any := (member id).2 ⟨known, other⟩
      rw [← split, List.mem_append] at any
      exact any.resolve_left left
    rw [← split] at ordered
    exact ((List.pairwise_append.1 ordered).2.2 found hfound id out).asymm

/-- Where the other nodes of a query are scored, its truth is found. -/
theorem exists_nearest (known : query < nodeCount)
    (all : ∀ id < nodeCount, id ≠ query → ∃ x, scores query id = .ok x) (k : ℕ) :
    ∃ truth, nearest scores nodeCount query k = .ok truth ∧
      IsTruth (Precedes scores query) nodeCount query k truth := by
  have others : ∀ id ∈ (List.range nodeCount).filter (· ≠ query),
      ∃ x, scores query id = .ok x := by
    intro id h
    rw [List.mem_filter, List.mem_range, decide_eq_true_eq] at h
    exact all id h.1 h.2
  obtain ⟨scored, ran, named, genuine⟩ := exists_scoreAll others
  obtain ⟨ranked, sort, perm, sorted⟩ := Scored.exists_ranked scored
  have near : nearest scores nodeCount query k = .ok ((ranked.map (·.id)).take k) := by
    rw [nearest, ran, ← List.map_take, ← sort]
    rfl
  refine ⟨_, near, ?_⟩
  have ids : (ranked.map (·.id)).Perm ((List.range nodeCount).filter (· ≠ query)) :=
    named ▸ perm.map _
  have distinct := List.pairwise_map.1 (perm_others_facts known ids).2.1
  refine isTruth_take known ids (List.pairwise_map.2 ?_) k
  exact (sorted.and distinct).imp_of_mem fun ha hb h => Scored.precedes_of_before h.1 h.2
    (genuine _ (perm.mem_iff.1 ha)) (genuine _ (perm.mem_iff.1 hb))

end

/-! ### Scores -/

section

variable {result : Result} {scores : Scores} {query k : ℕ} {truth : List ℕ}

/-- Which of the neighbours are true ones. -/
theorem hits_scoreOf (result : Result) (query : ℕ) (truth : List ℕ) :
    (scoreOf result query truth).hits =
      (((result.neighboursOf query).map (·.id)).filter (· ∈ truth)).length := by
  rw [scoreOf, ← List.countP_eq_length_filter, List.countP_map]
  rfl

/-- A list that names nobody twice names no more of the truth than there is. -/
theorem hits_le_total (once : ((result.neighboursOf query).map (·.id)).Nodup) :
    (scoreOf result query truth).hits ≤ (scoreOf result query truth).total := by
  rw [hits_scoreOf]
  exact ((once.filter _).subperm fun id hid => by simpa using List.of_mem_filter hid).length_le

/-- The list names as much as there is if it names all of it. -/
theorem hits_eq_total_iff (once : ((result.neighboursOf query).map (·.id)).Nodup)
    (nodup : truth.Nodup) :
    (scoreOf result query truth).hits = (scoreOf result query truth).total ↔
      ∀ id ∈ truth, id ∈ (result.neighboursOf query).map (·.id) := by
  rw [hits_scoreOf]
  constructor
  · intro all id hid
    have sub : (((result.neighboursOf query).map (·.id)).filter (· ∈ truth)).Subperm truth :=
      (once.filter _).subperm fun id hid => by simpa using List.of_mem_filter hid
    exact List.mem_of_mem_filter ((sub.perm_of_length_le all.ge).mem_iff.2 hid)
  · intro all
    refine Nat.le_antisymm (hits_scoreOf result query truth ▸ hits_le_total once) ?_
    exact (nodup.subperm fun id hid => List.mem_filter.2 ⟨all id hid, by simpa using hid⟩).length_le

/-- The list of a query names its whole truth. -/
def NamesTruth (result : Result) (scores : Scores) (k query : ℕ) : Prop :=
  ∀ truth, nearest scores result.nodesCompared query k = .ok truth →
    ∀ id ∈ truth, id ∈ (result.neighboursOf query).map (·.id)

/-- Scores that are within their totals stay so over more queries, and come up to them if they did
and each list names its whole truth. -/
theorem exists_foldlM_score {queries : List ℕ}
    (once : ∀ query, ((result.neighboursOf query).map (·.id)).Nodup)
    (truths : ∀ query ∈ queries, ∃ truth, nearest scores result.nodesCompared query k = .ok truth ∧
      IsTruth (Precedes scores query) result.nodesCompared query k truth)
    (start : Score) (le : start.hits ≤ start.total) :
    ∃ score, queries.foldlM (fun score query => do
        let truth ← nearest scores result.nodesCompared query k
        return score + scoreOf result query truth) start = .ok score ∧
      score.total = start.total + queries.length * min k (result.nodesCompared - 1) ∧
      score.hits ≤ score.total ∧
      (score.hits = score.total ↔
        start.hits = start.total ∧ ∀ query ∈ queries, NamesTruth result scores k query) := by
  induction queries generalizing start with
  | nil => exact ⟨start, rfl, by simp, le, by simp⟩
  | cons query rest ih =>
    obtain ⟨truth, near, isTruth⟩ := truths query List.mem_cons_self
    have first : (scoreOf result query truth).hits ≤ (scoreOf result query truth).total :=
      hits_le_total (once query)
    have names : (scoreOf result query truth).hits = (scoreOf result query truth).total ↔
        NamesTruth result scores k query := by
      rw [hits_eq_total_iff (once query) isTruth.nodup]
      exact ⟨fun all _ h => Except.ok.inj (near.symm.trans h) ▸ all, fun all => all truth near⟩
    have length : (scoreOf result query truth).total = min k (result.nodesCompared - 1) :=
      isTruth.length_eq
    have hits : (start + scoreOf result query truth).hits =
      start.hits + (scoreOf result query truth).hits := rfl
    have total : (start + scoreOf result query truth).total =
      start.total + (scoreOf result query truth).total := rfl
    obtain ⟨score, ran, sum, within, all⟩ :=
      ih (fun q hq => truths q (List.mem_cons_of_mem _ hq))
        (start + scoreOf result query truth) (by omega)
    refine ⟨score, ?_, ?_, within, ?_⟩
    · rw [List.foldlM_cons, near]
      exact ran
    · rw [sum, total, length, List.length_cons, Nat.succ_mul, Nat.add_assoc,
        Nat.add_comm (min _ _)]
    · rw [all, List.forall_mem_cons, ← names, hits, total, ← and_assoc]
      exact and_congr_left fun _ => by omega

end

/-! ### Runs -/

section

variable {schedule : Schedule} {setup : Setup} {result : Result}

/-- A run over all nodes leaves nobody's id twice in a list. -/
theorem nodup_of_run (ok : (runUnder schedule setup).outcome = .ok result) (query : ℕ) :
    ((result.neighboursOf query).map (·.id)).Nodup :=
  ((runUnder_wellFormed ok).neighboursOf query).nodup

/-- Where nothing is excluded or cut off, there is room for everyone and the candidates are drawn
from all nodes, every list names all other nodes. -/
theorem names_others_of_run (standard : setup.excluded = .standard)
    (uncut : (setup.config.similarityCutoff == 0.0) = true)
    (uniform : setup.config.sampler = .uniform)
    (room : result.nodesCompared - 1 ≤ setup.config.topK)
    (ok : (runUnder schedule setup).outcome = .ok result) {query id : ℕ}
    (known : query < result.nodesCompared) (other : id < result.nodesCompared ∧ id ≠ query) :
    id ∈ (result.neighboursOf query).map (·.id) := by
  obtain ⟨refinement, s, t, ended⟩ := runUnder_ok ok
  have compared := ended.compared
  have others : 2 ≤ setup.nodeCount := by
    by_contra few
    rw [if_pos (by omega)] at compared
    omega
  rw [if_neg (by omega)] at compared
  rw [compared] at known other room
  obtain ⟨l, hl, full⟩ := refined_full others standard ended.refined query known
    fun walks => nomatch uniform.symm.trans walks
  have uncut : ¬0.0 < setup.config.similarityCutoff :=
    (Config.cutoff_le_zero_iff _).1 (Number.beq_iff_le_and_ge.1 uncut).1
  have neighbours : result.neighboursOf query = l.neighbours := by
    rw [Result.neighboursOf, ended.neighbours, ended.lists, Array.getD_eq_getD_getElem?,
      Array.getElem?_map, Array.getElem?_map, hl, Option.map_some, Option.map_some,
      Option.getD_some, Setup.cut, if_neg uncut]
  have are := (runUnder_wellFormed ok).neighboursOf query
  refine (are.mem_iff_isOther known ?_ id).2 other
  rw [NeighbourList.size_eq_length_neighbours, Setup.capacity, Nat.min_eq_right room] at full
  rwa [neighbours]

end

/-- **Recall is a true fraction**, for scores of all pairs of the nodes that a run compared. For
each query the nodes that come first are found, and where the scores are numbers these are the
nearest ones by number and id, exactly if no `0.0` among them comes before the `-0.0` of a smaller
id. The hits are no more than the total, and as many exactly if the list of each query names its
whole truth. They are as many for all queries if nothing was excluded or cut off, the candidates
were drawn from all nodes and there was room for all of them. -/
theorem recall_is_fraction (schedule : Schedule) (setup : Setup) {result : Result}
    (ok : (runUnder schedule setup).outcome = .ok result) (scores : Scores)
    (all : ∀ a < result.nodesCompared, ∀ b < result.nodesCompared, b ≠ a →
      ∃ x, scores a b = .ok x)
    (k : ℕ) (queries : List ℕ) (known : ∀ query ∈ queries, query < result.nodesCompared) :
    (∀ query ∈ queries, ∃ truth, nearest scores result.nodesCompared query k = .ok truth ∧
        IsTruth (Precedes scores query) result.nodesCompared query k truth ∧
        (AllNumbers scores result.nodesCompared query →
          (IsTruth (Nearer scores query) result.nodesCompared query k truth ↔
            ∀ b ∈ truth, ∀ a ≠ query, ¬ZeroBehind scores query a b))) ∧
      ∃ score, measure result scores queries k = .ok score ∧
        score.total = queries.length * min k (result.nodesCompared - 1) ∧
        score.hits ≤ score.total ∧
        (score.hits = score.total ↔ ∀ query ∈ queries, NamesTruth result scores k query) ∧
        (setup.excluded = .standard → (setup.config.similarityCutoff == 0.0) = true →
          setup.config.sampler = .uniform → result.nodesCompared - 1 ≤ setup.config.topK →
          score.hits = score.total) := by
  have truths : ∀ query ∈ queries, ∃ truth,
      nearest scores result.nodesCompared query k = .ok truth ∧
        IsTruth (Precedes scores query) result.nodesCompared query k truth :=
    fun query hq => exists_nearest (known query hq) (all query (known query hq)) k
  obtain ⟨score, ran, total, within, whole⟩ :=
    exists_foldlM_score (nodup_of_run ok) truths {} le_rfl
  have whole : score.hits = score.total ↔ ∀ query ∈ queries, NamesTruth result scores k query :=
    whole.trans (and_iff_right rfl)
  refine ⟨fun query hq => ?_, score, ran, by simpa using total, within, whole, ?_⟩
  · obtain ⟨truth, near, isTruth⟩ := truths query hq
    exact ⟨truth, near, isTruth, isTruth.nearer_iff⟩
  · intro standard uncut uniform room
    refine whole.2 fun query hq truth near id hid => ?_
    obtain ⟨truth', near', isTruth⟩ := truths query hq
    obtain rfl := Except.ok.inj (near.symm.trans near')
    exact names_others_of_run standard uncut uniform room ok (known query hq)
      (isTruth.others id hid)

/-- Four nodes with room for all others in their lists. -/
def roomyNodes : Setup :=
  { fourNodes with config := { fourNodes.config with topK := 9, valid := by decide +kernel } }

theorem roomyNodes_recall :
    ∃ result, (runUnder .inOrder roomyNodes).outcome = .ok result ∧ result.nodesCompared = 4 ∧
      ∃ score, measure result fourNodes.metric [0, 3, 0] 2 = .ok score ∧
        score.hits = 6 ∧ score.total = 6 := by
  have found : (runUnder .inOrder roomyNodes).outcome.isOk = true := by decide +kernel
  obtain ⟨result, ok⟩ := exists_of_isOk found
  obtain ⟨_, _, _, ended⟩ := runUnder_ok ok
  have compared : result.nodesCompared = 4 := ended.compared
  obtain ⟨-, score, ran, total, -, -, all⟩ := recall_is_fraction .inOrder roomyNodes ok
    fourNodes.metric (fun a _ b _ _ => ⟨_, rfl⟩) 2 [0, 3, 0] (by rw [compared]; decide)
  rw [compared] at total all
  exact ⟨result, ok, compared, score, ran,
    (all rfl (by decide +kernel) rfl (by decide)).trans total, total⟩

/-- Three nodes, of which the first scores the second with `-0.0` and the third with `0.0`. -/
def bothZeros : Setup where
  graph := .nodesOnly 3
  metric := .ofFunction true fun a b =>
    if a + b = 1 then negativeZero else if a + b = 2 then 0.0 else 0.5
  excluded := .standard
  config :=
    { topK := 2, sampleRate := 1.0, maxIterations := 2, randomJoins := 0, seed := some 7
      valid := by decide +kernel }

theorem nearest_bothZeros : nearest bothZeros.metric 3 0 2 = .ok [2, 1] := by
  have scored : scoreAll bothZeros.metric 0 ((List.range 3).filter (· ≠ 0)) =
    .ok [⟨1, .ofFloat negativeZero⟩, ⟨2, .ofFloat 0.0⟩] := rfl
  have after : Scored.before ⟨1, .ofFloat negativeZero⟩ ⟨2, .ofFloat 0.0⟩ = false := by
    decide +kernel
  have ranked : List.mergeSort [⟨1, .ofFloat negativeZero⟩, ⟨2, .ofFloat 0.0⟩] Scored.before =
      [⟨2, .ofFloat 0.0⟩, ⟨1, .ofFloat negativeZero⟩] := by
    simp [List.mergeSort, after]
  rw [nearest, scored]
  exact congrArg (fun nodes => Except.ok ((nodes.take 2).map (·.id))) ranked

/-- Equal scores are not in the order of ids: the third node comes before the second. -/
theorem bothZeros_out_of_order :
    ∃ result, (runUnder .inOrder bothZeros).outcome = .ok result ∧ result.nodesCompared = 3 ∧
      (∀ a < 3, ∀ b < 3, b ≠ a → ∃ x, bothZeros.metric.similarity a b = .ok x) ∧
      nearest bothZeros.metric 3 0 2 = .ok [2, 1] ∧
      ¬IsTruth (Nearer bothZeros.metric 0) 3 0 2 [2, 1] := by
  have found : (runUnder .inOrder bothZeros).outcome.isOk = true := by decide +kernel
  obtain ⟨result, ok⟩ := exists_of_isOk found
  obtain ⟨_, _, _, ended⟩ := runUnder_ok ok
  have behind : ZeroBehind bothZeros.metric 0 1 2 := ⟨by decide, rfl, rfl⟩
  refine ⟨result, ok, ended.compared, fun a _ b _ _ => ⟨_, rfl⟩,
    nearest_bothZeros, fun isTruth => ?_⟩
  exact (List.rel_of_pairwise_cons isTruth.ordered (by simp)).asymm behind.nearer

end NeighbourGraph.Recall
