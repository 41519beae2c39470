/-
A neighbour list holds the best of all it was offered.

Offers are `Steady` if each id always comes with one finite similarity. Whatever the draws that
break ties, the list then settles every candidate it was ever offered, also one that had to leave
and was offered again. Two lists of one capacity that settle the same candidates are equally
similar at every place, and hold every candidate more similar than their last one. So the order of
the offers makes no difference to either, and the similarities are those of the ranking that
offers without ties broken build up.
-/

import Mathlib.Data.List.Perm.Subperm
import NeighbourGraph.Proofs.NeighbourList.Alike
import NeighbourGraph.Proofs.NeighbourList.Ranked

namespace NeighbourGraph

open NeighbourGraph.Random

/-- Each id comes with one finite similarity, however often it comes. -/
structure Steady (ns : List Neighbour) : Prop where
  finite : ∀ n ∈ ns, n.similarity.isFinite = true
  same : ∀ m ∈ ns, ∀ n ∈ ns, m.id = n.id → (m.similarity == n.similarity) = true

theorem Steady.subset {ms ns : List Neighbour} (h : Steady ns) (sub : ms ⊆ ns) : Steady ms :=
  ⟨fun n hn => h.finite n (sub hn), fun m hm n hn => h.same m (sub hm) n (sub hn)⟩

/-- The best `capacity` of the candidates other than the owner, each as it came first, and equally
similar ones in the order in which they came. -/
def topOffers (owner capacity : Nat) (ns : List Neighbour) : List Neighbour :=
  (ranked (firsts (ns.filter (·.id ≠ owner)))).take capacity

/-- The same numbers at the same places. -/
def EquallySimilar : List Float → List Float → Prop :=
  List.Forall₂ fun x y => (x == y) = true

namespace NeighbourList

variable {l l' : NeighbourList} {owner capacity : Nat} {ns ms : List Neighbour} {n : Neighbour}
  {rate : Float}

/-- Offers several candidates in turn, ties broken at one rate. -/
def addAll (rate : Float) (l : NeighbourList) : List Neighbour → Draw NeighbourList
  | [] => return l
  | n :: rest => do
    let (_, l') ← l.add n.id n.similarity rate
    addAll rate l' rest

/-- `id` is held as more similar than what is last. -/
def HoldsAboveLast (l : NeighbourList) (id : Nat) : Prop :=
  ∃ last, l.neighbours.getLast? = some last ∧
    ∃ n ∈ l.neighbours, n.id = id ∧ last.similarity < n.similarity

/-! ### Comparing lists -/

/-- What comes first in a list is no less similar than what comes later. -/
theorem WellFormed.le_of_mem_take (wf : l.WellFormed) {i : Nat} (hi : i < l.entries.length)
    {e : Entry} (he : e ∈ l.entries.take (i + 1)) : l.entries[i].similarity ≤ e.similarity := by
  obtain ⟨j, hj, rfl⟩ := List.mem_iff_getElem.1 he
  rw [List.length_take_of_le hi] at hj
  rw [List.getElem_take]
  rcases Nat.lt_or_eq_of_le (Nat.le_of_lt_succ hj) with before | rfl
  · exact List.pairwise_iff_getElem.1 wf.ordered j i (by omega) hi before
  · exact Number.le_refl (wf.finite _ (List.getElem_mem hi))

/-- A list that settles whatever another one of the same capacity holds has an entry at each of
its places, and that is at least as similar. -/
theorem WellFormed.le_of_settles (wf : l.WellFormed) (wf' : l'.WellFormed)
    (capacity : l'.capacity = l.capacity)
    (settles : ∀ e ∈ l.entries, l'.Settles e.id e.similarity) {i : Nat} {e : Entry}
    (he : l.entries[i]? = some e) :
    ∃ e', l'.entries[i]? = some e' ∧ e.similarity ≤ e'.similarity := by
  obtain ⟨hi, rfl⟩ := List.getElem?_eq_some_iff.1 he
  set x := l.entries[i].similarity
  by_cases full : l'.isFull = true ∧ ∀ e' ∈ l'.entries, x ≤ e'.similarity
  · have room : i < l'.entries.length := by
      have := isFull_iff.1 full.1
      have := wf.size_le
      unfold size at *
      omega
    exact ⟨_, List.getElem?_eq_getElem room, full.2 _ (List.getElem_mem room)⟩
  · -- What comes first in the one list is held in the other one, where all of it is as similar.
    have held : (l.entries.take (i + 1)).map (·.id) ⊆
        (l'.entries.filter fun f => x ≤ f.similarity).map (·.id) := by
      intro id hid
      obtain ⟨f, hf, rfl⟩ := List.mem_map.1 hid
      have settled := (settles f (List.mem_of_mem_take hf)).of_le (wf.le_of_mem_take hi hf)
      obtain ⟨f', hf', same, le⟩ := settled.resolve_right full
      exact same ▸ List.mem_map_of_mem (List.mem_filter.2 ⟨hf', decide_eq_true le⟩)
    have nodup : ((l.entries.take (i + 1)).map (·.id)).Nodup :=
      wf.nodup.sublist ((List.take_sublist _ _).map _)
    -- So there are as many of these, and they come first.
    have enough := (nodup.subperm held).length_le
    rw [List.length_map, List.length_map, List.length_take_of_le hi] at enough
    have begins := filter_reaching_begins (fun f : Entry => f.similarity) wf'.ordered x
    have at_i := begins.getElem enough
    refine ⟨_, List.getElem?_eq_getElem (enough.trans begins.length_le), ?_⟩
    exact at_i ▸ of_decide_eq_true (List.mem_filter.1 (List.getElem_mem enough)).2

/-- So it is no shorter. -/
theorem WellFormed.size_le_of_settles (wf : l.WellFormed) (wf' : l'.WellFormed)
    (capacity : l'.capacity = l.capacity)
    (settles : ∀ e ∈ l.entries, l'.Settles e.id e.similarity) : l.size ≤ l'.size := by
  by_contra shorter
  obtain ⟨e', he', -⟩ := wf.le_of_settles wf' capacity settles
    (List.getElem?_eq_getElem (Nat.lt_of_not_le shorter))
  exact Nat.lt_irrefl _ (List.getElem?_eq_some_iff.1 he').1

/-- Lists of one capacity that settle what the other one holds are equally similar. -/
theorem WellFormed.equallySimilar (wf : l.WellFormed) (wf' : l'.WellFormed)
    (capacity : l'.capacity = l.capacity)
    (settles : ∀ e ∈ l.entries, l'.Settles e.id e.similarity)
    (settles' : ∀ e ∈ l'.entries, l.Settles e.id e.similarity) :
    EquallySimilar l.similarities l'.similarities := by
  rw [EquallySimilar, similarities, similarities, List.forall₂_map_left_iff,
    List.forall₂_map_right_iff, List.forall₂_iff_get]
  refine ⟨Nat.le_antisymm (wf.size_le_of_settles wf' capacity settles)
    (wf'.size_le_of_settles wf capacity.symm settles'), fun i hi hi' => ?_⟩
  obtain ⟨e', he', noMore⟩ :=
    wf.le_of_settles wf' capacity settles (List.getElem?_eq_getElem hi)
  obtain ⟨e, he, noLess⟩ :=
    wf'.le_of_settles wf capacity.symm settles' (List.getElem?_eq_getElem hi')
  obtain ⟨_, rfl⟩ := List.getElem?_eq_some_iff.1 he'
  obtain ⟨_, rfl⟩ := List.getElem?_eq_some_iff.1 he
  exact Number.beq_iff_le_and_ge.2 ⟨noMore, noLess⟩

/-! ### What a list keeps of its offers -/

/-- What a list holds was offered, and whatever else was offered is settled. -/
structure Keeps (owner capacity : Nat) (ns : List Neighbour) (l : NeighbourList) : Prop where
  owner_eq : l.owner = owner
  capacity_eq : l.capacity = capacity
  wellFormed : l.WellFormed
  came : l.neighbours ⊆ ns
  settles : ∀ n ∈ ns, n.id ≠ owner → l.Settles n.id n.similarity

namespace Keeps

theorem empty (owner capacity : Nat) : Keeps owner capacity [] { owner, capacity } :=
  ⟨rfl, rfl, .empty owner capacity, List.nil_subset _, by simp⟩

/-- One more offer. That it settles its candidate needs that the candidate, if held, is held with
the similarity it comes with. -/
theorem offered (h : Keeps owner capacity ns l) (steady : Steady (ns ++ [n])) {entered : Bool}
    (offered : Offered l n.id n.similarity entered l') : Keeps owner capacity (ns ++ [n]) l' := by
  have finite := steady.finite n (by simp)
  have follows := offered.follows h.wellFormed
  refine ⟨follows.owner.trans h.owner_eq, follows.capacity.trans h.capacity_eq,
    offered.wellFormed h.wellFormed finite, ?_, ?_⟩
  · intro m hm
    obtain ⟨e, he, rfl⟩ := List.mem_map.1 hm
    rcases offered.mem he with held | rfl
    · exact List.mem_append_left _ (h.came (List.mem_map_of_mem held))
    · simp
  · intro m hm other
    rcases List.mem_append.1 hm with hm | hm
    · exact follows.settles _ _ (h.settles m hm other)
    · obtain rfl := List.mem_singleton.1 hm
      refine offered.settles h.wellFormed finite (h.owner_eq ▸ other) fun e he same => ?_
      have came : e.toNeighbour ∈ ns ++ [m] :=
        List.mem_append_left _ (h.came (List.mem_map_of_mem he))
      exact (Number.beq_iff_le_and_ge.1 (steady.same m (by simp) _ came same.symm)).1

theorem addAll (h : Keeps owner capacity ms l) (steady : Steady (ms ++ ns)) (rate : Float)
    (g : Generator) : Keeps owner capacity (ms ++ ns) (l.addAll rate ns g).1 := by
  induction ns generalizing ms l g with
  | nil => rwa [List.append_nil]
  | cons n rest ih =>
    rw [List.append_cons] at steady ⊢
    have next := h.offered (steady.subset (List.subset_append_left _ rest))
      (l.offered_add n.id n.similarity rate g)
    exact ih next steady _

theorem id_ne (h : Keeps owner capacity ns l) (hn : n ∈ l.neighbours) : n.id ≠ owner := by
  rintro rfl
  apply h.wellFormed.owner_notMem
  rw [h.owner_eq, ids_eq_map_neighbours]
  exact List.mem_map_of_mem hn

/-- Whatever list kept the same offers settles what is held. -/
theorem settles_held (h : Keeps owner capacity ns l) (h' : Keeps owner capacity ms l')
    (sub : ns ⊆ ms) {e : Entry} (he : e ∈ l.entries) : l'.Settles e.id e.similarity :=
  have held : e.toNeighbour ∈ l.neighbours := List.mem_map_of_mem he
  h'.settles e.toNeighbour (sub (h.came held)) (h.id_ne held)

theorem equallySimilar (h : Keeps owner capacity ns l) (h' : Keeps owner capacity ms l')
    (sub : ns ⊆ ms) (sup : ms ⊆ ns) : EquallySimilar l.similarities l'.similarities :=
  h.wellFormed.equallySimilar h'.wellFormed (h'.capacity_eq.trans h.capacity_eq.symm)
    (fun _ he => h.settles_held h' sub he) fun _ he => h'.settles_held h sup he

/-- What was offered as more similar than what is last is held, and no less similar. -/
theorem held_of_lt (h : Keeps owner capacity ns l) {last : Neighbour}
    (hlast : l.neighbours.getLast? = some last) (hn : n ∈ ns) (other : n.id ≠ owner)
    (better : last.similarity < n.similarity) :
    ∃ m ∈ l.neighbours, m.id = n.id ∧ n.similarity ≤ m.similarity := by
  rcases settles_iff.1 (h.settles n hn other) with held | ⟨-, least⟩
  · exact held
  · exact absurd better (Number.not_lt_of_le (least last (List.mem_of_getLast? hlast)))

/-- Offers of the same candidates leave the same ids above what is last. -/
theorem holdsAboveLast (h : Keeps owner capacity ns l) (h' : Keeps owner capacity ms l')
    (sub : ns ⊆ ms) (sup : ms ⊆ ns) {id : Nat} (above : l.HoldsAboveLast id) :
    l'.HoldsAboveLast id := by
  obtain ⟨last, hlast, n, hn, rfl, better⟩ := above
  have equal := h.equallySimilar h' sub sup
  have similar : List.Forall₂ (fun m m' : Neighbour => (m.similarity == m'.similarity) = true)
      l.neighbours l'.neighbours := by
    rwa [similarities_eq_map_neighbours, similarities_eq_map_neighbours, EquallySimilar,
      List.forall₂_map_left_iff, List.forall₂_map_right_iff] at equal
  have ends := forall₂_getLast? similar
  rw [hlast] at ends
  generalize hlast' : l'.neighbours.getLast? = found at ends
  cases ends with
  | @some _ last' same =>
    have worse : last'.similarity < n.similarity :=
      (Number.congruent_equal.lt_iff (.inr same) (Number.congruent_equal.refl _)).1 better
    obtain ⟨m, hm, same, le⟩ := h'.held_of_lt hlast' (sub (h.came hn)) (h.id_ne hn) worse
    exact ⟨last', hlast', m, hm, same, Number.lt_of_lt_of_le worse le⟩

end Keeps

/-! ### Offers without ties broken -/

theorem addAll_eq_offerAll (never : ¬0.0 < rate) (l : NeighbourList) (ns : List Neighbour)
    (g : Generator) : l.addAll rate ns g = (l.offerAll ns, g) := by
  induction ns generalizing l with
  | nil => rfl
  | cons n rest ih =>
    rw [addAll, Draw.bind_apply, add_eq_addKeepingTies never]
    exact ih _

/-- To offer a list its owner changes nothing. -/
theorem offerAll_filter (l : NeighbourList) (ns : List Neighbour) :
    l.offerAll (ns.filter (·.id ≠ l.owner)) = l.offerAll ns := by
  induction ns generalizing l with
  | nil => rfl
  | cons n rest ih =>
    have rest := ih (l.addKeepingTies n.id n.similarity).2
    rw [(l.offered_addKeepingTies n.id n.similarity).owner_eq] at rest
    by_cases own : n.id = l.owner
    · have stays : (l.addKeepingTies n.id n.similarity).2 = l :=
        addKeepingTies_of_ne_accepted fun accepted =>
          (of_standing_ne_refused (l := l) (by rw [accepted]; decide)).1 own
      rw [stays] at rest
      rw [List.filter_cons_of_neg (by simp [own]), rest, offerAll, offerAll, List.foldl_cons, stays]
    · rw [List.filter_cons_of_pos (by simp [own])]
      exact rest

/-- Offers without ties broken build up the ranking of what was offered. -/
theorem neighbours_offerAll (steady : Steady ns) (owner capacity : Nat) :
    (offerAll { owner, capacity } ns).neighbours = topOffers owner capacity ns := by
  have others := steady.subset (List.filter_subset_self (p := fun n => decide (n.id ≠ owner)) ns)
  obtain ⟨ranks, -, eqCapacity⟩ := ranks_offerAll owner capacity others.finite
    (fun n hn => by simpa using (List.mem_filter.1 hn).2)
    fun m hm n hn same => (Number.beq_iff_le_and_ge.1 (others.same m hm n hn same)).2
  rw [← offerAll_filter, ranks.neighbours, eqCapacity, topOffers]

/-! ### The best of all offers -/

/-- **A neighbour list is an online top of its offers.** Each id coming with one finite similarity,
as often as it may be offered, leave and be offered again, what is held afterwards was offered,
falls and is as similar, place by place, as the best of the candidates other than the owner, and
every candidate more similar than what is last is held. So neither the similarities nor the ids
above the last one depend on the order of the offers or on the draws that break ties. Without ties
broken the list is the beginning of the ranking, equally similar ones in the order in which they
came. -/
theorem addAll_holds_top (steady : Steady ns) (owner capacity : Nat) (rate : Float)
    (g : Generator) {held : NeighbourList}
    (added : held = (addAll rate { owner, capacity } ns g).1) :
    held.neighbours ⊆ ns ∧
    held.similarities.Pairwise (fun x y => y ≤ x) ∧
    EquallySimilar held.similarities ((topOffers owner capacity ns).map (·.similarity)) ∧
    (∀ last, held.neighbours.getLast? = some last →
      ∀ n ∈ ns, n.id ≠ owner → last.similarity < n.similarity → n.id ∈ held.ids) ∧
    (∀ ms, ms.Perm ns → ∀ (rate' : Float) (g' : Generator) (held' : NeighbourList),
      held' = (addAll rate' { owner, capacity } ms g').1 →
      EquallySimilar held'.similarities held.similarities ∧
        ∀ id, held'.HoldsAboveLast id ↔ held.HoldsAboveLast id) ∧
    (¬0.0 < rate → held.neighbours = topOffers owner capacity ns) ∧
    (offerAll { owner, capacity } ns).neighbours = topOffers owner capacity ns := by
  have keeps : ∀ {ms}, Steady ms → ∀ (rate' : Float) (g' : Generator),
      Keeps owner capacity ms (addAll rate' { owner, capacity } ms g').1 :=
    fun steady rate' g' => (Keeps.empty owner capacity).addAll steady rate' g'
  have never : ¬(0.0 : Float) < 0.0 := by decide +kernel
  have unbroken := keeps steady 0.0 g
  rw [addAll_eq_offerAll never] at unbroken
  have top := neighbours_offerAll steady owner capacity
  have kept := keeps steady rate g
  rw [← added] at kept
  refine ⟨kept.came, ?_, ?_, ?_, ?_, ?_, top⟩
  · rw [similarities, List.pairwise_map]
    exact kept.wellFormed.ordered
  · have equal := kept.equallySimilar unbroken (List.Subset.refl ns) (List.Subset.refl ns)
    rwa [similarities_eq_map_neighbours (offerAll _ ns), top] at equal
  · intro last hlast n hn other better
    obtain ⟨m, hm, same, -⟩ := kept.held_of_lt hlast hn other better
    rw [ids_eq_map_neighbours, ← same]
    exact List.mem_map_of_mem hm
  · rintro ms perm rate' g' held' rfl
    have kept' := keeps (steady.subset perm.subset) rate' g'
    exact ⟨kept'.equallySimilar kept perm.subset perm.symm.subset, fun id =>
      ⟨kept'.holdsAboveLast kept perm.subset perm.symm.subset,
        kept.holdsAboveLast kept' perm.symm.subset perm.subset⟩⟩
  · intro never
    rw [added, addAll_eq_offerAll never, top]

/-- Offers with a tie between two that come again, and one of the owner. -/
def tiedOffers : List Neighbour :=
  [{ id := 1, similarity := 0.5 }, { id := 2, similarity := 0.75 }, { id := 0, similarity := 1.0 },
    { id := 3, similarity := 0.5 }, { id := 1, similarity := 0.5 }, { id := 3, similarity := 0.5 },
    { id := 4, similarity := 0.25 }]

/-- In the opposite order the tie is broken the other way, but the list is as similar. -/
theorem tiedOffers_reverse :
    Steady tiedOffers ∧
      (addAll 1.0 { owner := 0, capacity := 2 } tiedOffers (.ofSeed 7)).1.ids = [2, 3] ∧
      (addAll 1.0 { owner := 0, capacity := 2 } tiedOffers.reverse (.ofSeed 7)).1.ids = [2, 1] ∧
      EquallySimilar
        (addAll 1.0 { owner := 0, capacity := 2 } tiedOffers.reverse (.ofSeed 7)).1.similarities
        (addAll 1.0 { owner := 0, capacity := 2 } tiedOffers (.ofSeed 7)).1.similarities := by
  have steady : Steady tiedOffers := ⟨by decide +kernel, by decide +kernel⟩
  obtain ⟨-, -, -, -, permuted, -, -⟩ := addAll_holds_top steady 0 2 1.0 (.ofSeed 7) rfl
  exact ⟨steady, by decide +kernel, by decide +kernel,
    (permuted _ (List.reverse_perm _) 1.0 (.ofSeed 7) _ rfl).1⟩

end NeighbourList

end NeighbourGraph
