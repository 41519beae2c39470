/-
Setups without ties.

Where no two candidates of a node are equally similar to it, nothing but the set of candidates
that were scored for a node decides what its list holds, and in which order: lists that hold the
same ids are in the same order, and lists that hold the best of the same candidates hold the same
ids. When the candidates came makes no difference.
-/

import Mathlib.Data.List.Perm.Subperm
import NeighbourGraph.Proofs.Best

namespace NeighbourGraph

open NeighbourGraph.Search

/-- No two candidates of a node are equally similar to it. -/
def Setup.TieFree (setup : Setup) : Prop :=
  ∀ v a b x y, setup.Genuine v a x → setup.Genuine v b y → (x == y) = true → a = b

/-- Of two candidates of a node, the first one is more similar to it. -/
def Setup.Prefers (setup : Setup) (v a b : Nat) : Prop :=
  ∃ x y, setup.Genuine v a x ∧ setup.Genuine v b y ∧ y < x

theorem Setup.Prefers.asymm {setup : Setup} {v a b : Nat} (h : setup.Prefers v a b)
    (honest : setup.metric.Honest) : ¬setup.Prefers v b a := by
  rintro ⟨y', x', genuineB', genuineA', lt'⟩
  obtain ⟨x, y, genuineA, genuineB, lt⟩ := h
  rw [Number.lt_iff_le_not_ge] at lt lt'
  have := Number.le_trans (genuineA.le genuineA' honest) lt'.1
  exact lt.2 (Number.le_trans this (genuineB'.le genuineB honest))

namespace Search

section

variable {setup : Setup} {capacity : Nat} {s t : State} {v : Nat} {l l' : NeighbourList}

/-! ### What sound lists hold -/

theorem Sound.genuine_of_mem (h : Sound setup capacity s) (hl : s.lists[v]? = some l) {e : Entry}
    (he : e ∈ l.entries) : setup.Genuine v e.id e.similarity :=
  h.genuine _ _ _ (NeighbourList.forall_mem_neighbours.1 (h.lists v l hl).considered e he)

theorem Sound.mem_candidatesOf (h : Sound setup capacity s) (hl : s.lists[v]? = some l) {c : Nat}
    (hc : c ∈ l.ids) : c ∈ candidatesOf s.log v := by
  obtain ⟨e, he, rfl⟩ := List.mem_map.1 hc
  exact Search.mem_candidatesOf.2
    ⟨_, NeighbourList.forall_mem_neighbours.1 (h.lists v l hl).considered e he⟩

/-- A candidate that is held is settled. -/
theorem Sound.settledIn (h : Sound setup capacity s) (honest : setup.metric.Honest)
    (hl : s.lists[v]? = some l) {c : Nat} {x : Float} (genuine : setup.Genuine v c x)
    (hc : c ∈ l.ids) : SettledIn s v c x := by
  obtain ⟨e, he, rfl⟩ := List.mem_map.1 hc
  exact ⟨l, hl, .inl ⟨e, he, rfl, genuine.le (h.genuine_of_mem hl he) honest⟩⟩

/-- What is settled in the list of a node is settled in any list of the node with the same ids. -/
theorem SettledIn.of_ids_eq {c : Nat} {x : Float} (h : SettledIn s v c x)
    (sound : Sound setup capacity s) (sound' : Sound setup capacity t)
    (honest : setup.metric.Honest) (hl : s.lists[v]? = some l) (hl' : t.lists[v]? = some l')
    (ids : l.ids = l'.ids) (genuine : setup.Genuine v c x) : SettledIn t v c x := by
  obtain ⟨k, hk, settles⟩ := h
  obtain rfl : l = k := Option.some.inj (hl.symm.trans hk)
  rcases settles with ⟨e, he, rfl, -⟩ | ⟨full, least⟩
  · exact sound'.settledIn honest hl' genuine (ids ▸ List.mem_map_of_mem he)
  · have size : l.size = l'.size := by
      simpa [NeighbourList.ids, NeighbourList.size] using congrArg List.length ids
    have capacities := (sound.lists v l hl).capacity.trans (sound'.lists v l' hl').capacity.symm
    refine ⟨l', hl', .inr ⟨?_, fun e' he' => ?_⟩⟩
    · rwa [NeighbourList.isFull_iff, ← size, ← capacities, ← NeighbourList.isFull_iff]
    · obtain ⟨e, he, eq⟩ := List.mem_map.1 (ids ▸ List.mem_map_of_mem he' : e'.id ∈ l.ids)
      have genuine := eq ▸ sound.genuine_of_mem hl he
      exact Number.le_trans (least e he) (genuine.le (sound'.genuine_of_mem hl' he') honest)

/-! ### The order of a list -/

/-- Without ties, a list is in the order of preference. -/
theorem Sound.pairwise_prefers (h : Sound setup capacity s) (tieFree : setup.TieFree)
    (hl : s.lists[v]? = some l) : l.ids.Pairwise (setup.Prefers v) := by
  have wf := (h.lists v l hl).wellFormed
  have distinct : l.entries.Pairwise fun a b => a.id ≠ b.id := List.pairwise_map.1 wf.nodup
  refine List.pairwise_map.2 ((wf.ordered.and distinct).imp_of_mem ?_)
  rintro a b ha hb ⟨le, ne⟩
  have genuineA := h.genuine_of_mem hl ha
  have genuineB := h.genuine_of_mem hl hb
  refine ⟨_, _, genuineA, genuineB, Number.lt_iff_le_not_ge.2 ⟨le, fun ge => ne ?_⟩⟩
  exact tieFree v _ _ _ _ genuineA genuineB (Number.beq_iff_le_and_ge.2 ⟨ge, le⟩)

/-- Without ties, lists of a node with the same ids have them in the same order. -/
theorem Sound.ids_eq_of_perm (sound : Sound setup capacity s) (sound' : Sound setup capacity t)
    (honest : setup.metric.Honest) (tieFree : setup.TieFree) (hl : s.lists[v]? = some l)
    (hl' : t.lists[v]? = some l') (perm : l.ids.Perm l'.ids) : l.ids = l'.ids :=
  List.Perm.eq_of_pairwise (fun _ _ _ _ there back => absurd back (there.asymm honest))
    (sound.pairwise_prefers tieFree hl) (sound'.pairwise_prefers tieFree hl') perm

/-- Without ties, a candidate that one list holds is in every list that holds as many of the best
of the same candidates. -/
theorem Refined.mem_ids_of_mem (h : Refined setup capacity s) (h' : Refined setup capacity t)
    (honest : setup.metric.Honest) (tieFree : setup.TieFree) (hl : s.lists[v]? = some l)
    (hl' : t.lists[v]? = some l') (same : candidatesOf s.log v = candidatesOf t.log v) {c : Nat}
    (hc : c ∈ l.ids) : c ∈ l'.ids := by
  by_contra out
  have length : l.ids.length = l'.ids.length := by
    have := (h.size_eq honest hl).trans (same ▸ (h'.size_eq honest hl').symm)
    simpa [NeighbourList.ids, NeighbourList.size] using this
  -- The other list holds a candidate in its place, which is left out here.
  obtain ⟨d, hd, missing⟩ : ∃ d ∈ l'.ids, d ∉ l.ids := by
    by_contra all
    push Not at all
    have sub := (h'.sound.lists v l' hl').wellFormed.nodup.subperm all
    exact out ((sub.perm_of_length_le length.le).mem_iff.2 hc)
  obtain ⟨x, score, below⟩ :=
    h'.le_of_notMem honest hl' (same ▸ h.sound.mem_candidatesOf hl hc) out
  obtain ⟨y, score', below'⟩ :=
    h.le_of_notMem honest hl (same ▸ h'.sound.mem_candidatesOf hl' hd) missing
  obtain ⟨e, he, rfl⟩ := List.mem_map.1 hc
  obtain ⟨e', he', rfl⟩ := List.mem_map.1 hd
  have genuine := h.sound.genuine_of_mem hl he
  have genuine' := h'.sound.genuine_of_mem hl' he'
  obtain ⟨x', scored, eq⟩ := genuine.score_eq honest
  obtain ⟨y', scored', eq'⟩ := genuine'.score_eq honest
  obtain rfl : x = x' := Except.ok.inj (score.symm.trans scored)
  obtain rfl : y = y' := Except.ok.inj (score'.symm.trans scored')
  have le := Number.le_trans (Number.beq_iff_le_and_ge.1 eq).1 (below e' he')
  have ge := Number.le_trans (Number.beq_iff_le_and_ge.1 eq').1 (below' e he)
  have tie := tieFree v _ _ _ _ genuine genuine' (Number.beq_iff_le_and_ge.2 ⟨le, ge⟩)
  exact missing (tie ▸ List.mem_map_of_mem he)

/-- Without ties, the candidates that were scored for a node decide what its list holds. -/
theorem Refined.ids_eq (h : Refined setup capacity s) (h' : Refined setup capacity t)
    (honest : setup.metric.Honest) (tieFree : setup.TieFree) (hl : s.lists[v]? = some l)
    (hl' : t.lists[v]? = some l') (same : candidatesOf s.log v = candidatesOf t.log v) :
    l.ids = l'.ids := by
  refine h.sound.ids_eq_of_perm h'.sound honest tieFree hl hl' ?_
  rw [List.perm_ext_iff_of_nodup (h.sound.lists v l hl).wellFormed.nodup
    (h'.sound.lists v l' hl').wellFormed.nodup]
  exact fun c => ⟨h.mem_ids_of_mem h' honest tieFree hl hl' same,
    h'.mem_ids_of_mem h honest tieFree hl' hl same.symm⟩

end

end Search

end NeighbourGraph
