/-
A neighbour list is an online ranking.

`firsts` leaves each id once, where it was first offered, and `ranked` sorts candidates by falling
similarity, equal ones in the order in which they came. What a list holds after offers that leave
it as it is in a tie is the beginning of that ranking, as long as its capacity, if each id always
comes with the same similarity: an id that has left the list does not come back, and a new one
stands behind those at least as similar.
-/

import Mathlib.Data.List.Induction
import NeighbourGraph.Proofs.NeighbourList.HandOut

namespace NeighbourGraph

/-! ### Stable sorting -/

section

variable {α : Type} {le : α → α → Bool}

/-- Puts an element in front of all those that it may come before. -/
def ahead (le : α → α → Bool) (x : α) (xs : List α) : List α :=
  (xs.filter fun y => !le x y) ++ x :: xs.filter fun y => le x y

/-- Puts an element behind all those that may come before it. -/
def behind (le : α → α → Bool) (x : α) (xs : List α) : List α :=
  (xs.filter fun y => le y x) ++ x :: xs.filter fun y => !le y x

/-- It makes no difference which of two elements is put in first, one ahead and one behind. -/
theorem behind_ahead (trans : ∀ a b c, le a b → le b c → le a c) (total : ∀ a b, le a b || le b a)
    (x y : α) (xs : List α) : behind le y (ahead le x xs) = ahead le x (behind le y xs) := by
  have swap : ∀ z b, (le z y && b) = (b && le z y) := fun z b => Bool.and_comm _ b
  have swap' : ∀ z b, (!le z y && b) = (b && !le z y) := fun z b => Bool.and_comm _ b
  simp only [behind, ahead, List.filter_append, List.filter_cons, List.filter_filter, swap, swap']
  cases xy : le x y with
  | true =>
    have before : ∀ z, le x z = false → le z y = true := fun z h =>
      trans z x y (by simpa [h] using total x z) xy
    have first : ∀ z, (!le x z && le z y) = !le x z := fun z => by
      cases h : le x z <;> simp [before z, h]
    have last : ∀ z, (le x z && !le z y) = !le z y := fun z => by
      cases h : le x z <;> simp [before z, h]
    have nowhere : ∀ z, (!le x z && !le z y) = false := fun z => by
      cases h : le x z <;> simp [before z, h]
    simp [first, last, nowhere, -Bool.and_eq_false_imp]
  | false =>
    have apart : ∀ z, le x z = true → le z y = false := fun z h => by
      by_contra h'
      simp [trans x z y h (by simpa using h')] at xy
    have first : ∀ z, (!le x z && le z y) = le z y := fun z => by
      cases h : le x z <;> simp [apart z, h]
    have last : ∀ z, (le x z && !le z y) = le x z := fun z => by
      cases h : le x z <;> simp [apart z, h]
    have nowhere : ∀ z, (le x z && le z y) = false := fun z => by
      cases h : le x z <;> simp [apart z, h]
    simp [first, last, nowhere]

theorem mergeSort_cons_eq (trans : ∀ a b c, le a b → le b c → le a c)
    (total : ∀ a b, le a b || le b a) (x : α) (xs : List α) :
    (x :: xs).mergeSort le = ahead le x (xs.mergeSort le) := by
  obtain ⟨before, after, sorted, rest, strict⟩ := List.mergeSort_cons trans total x xs
  have ordered := List.pairwise_mergeSort trans total (x :: xs)
  rw [sorted, List.pairwise_append, List.pairwise_cons] at ordered
  have le_after := ordered.2.1.1
  have noneBefore : before.filter (fun y => le x y) = [] := by
    rw [List.filter_eq_nil_iff]
    intro y hy
    simpa using strict y hy
  have noneAfter : after.filter (fun y => !le x y) = [] := by
    rw [List.filter_eq_nil_iff]
    intro y hy
    simp [le_after y hy]
  rw [sorted, rest, ahead, List.filter_append, List.filter_append, noneBefore, noneAfter,
    List.filter_eq_self.2 strict, List.filter_eq_self.2 le_after, List.append_nil, List.nil_append]

/-- What comes last is sorted behind all that may come before it. -/
theorem mergeSort_concat (trans : ∀ a b c, le a b → le b c → le a c)
    (total : ∀ a b, le a b || le b a) (xs : List α) (y : α) :
    (xs ++ [y]).mergeSort le = behind le y (xs.mergeSort le) := by
  induction xs with
  | nil => simp [behind]
  | cons x xs ih =>
    rw [List.cons_append, mergeSort_cons_eq trans total, mergeSort_cons_eq trans total, ih,
      behind_ahead trans total]

/-- Relations that agree on the elements of a list sort it alike. -/
theorem mergeSort_congr {le' : α → α → Bool} {xs : List α}
    (agree : ∀ a ∈ xs, ∀ b ∈ xs, le a b = le' a b) : xs.mergeSort le = xs.mergeSort le' := by
  simpa using List.map_mergeSort (f := id) agree

theorem behind_congr {le' : α → α → Bool} {x : α} {xs : List α}
    (agree : ∀ a ∈ xs, le a x = le' a x) : behind le x xs = behind le' x xs := by
  unfold behind
  rw [List.filter_congr agree, List.filter_congr fun a ha => congrArg (!·) (agree a ha)]

end

/-! ### Rankings -/

/-- `a` is no less similar than `b`. -/
def Neighbour.noWorse (a b : Neighbour) : Bool := b.similarity ≤ a.similarity

/-- Best first, equally similar ones in the order in which they came. -/
def ranked (ns : List Neighbour) : List Neighbour := ns.mergeSort Neighbour.noWorse

/-- Each id once, as it came first. -/
def firsts : List Neighbour → List Neighbour
  | [] => []
  | n :: rest => n :: (firsts rest).filter (·.id ≠ n.id)

theorem mem_ranked {n : Neighbour} {ns : List Neighbour} : n ∈ ranked ns ↔ n ∈ ns :=
  List.mem_mergeSort

/-- The same order on the places of the similarities, which is total. -/
def Neighbour.noLower (a b : Neighbour) : Bool :=
  Number.place b.similarity ≤ Number.place a.similarity

theorem Neighbour.noLower_trans (a b c : Neighbour) (h : a.noLower b = true)
    (h' : b.noLower c = true) : a.noLower c = true :=
  decide_eq_true ((of_decide_eq_true h').trans (of_decide_eq_true h))

theorem Neighbour.noLower_total (a b : Neighbour) : (a.noLower b || b.noLower a) = true := by
  simpa [noLower] using le_total (Number.place b.similarity) (Number.place a.similarity)

theorem noWorse_eq_noLower {a b : Neighbour} (ha : a.similarity.isFinite = true)
    (hb : b.similarity.isFinite = true) : a.noWorse b = a.noLower b := by
  have := Number.isNaN_of_isFinite ha
  have := Number.isNaN_of_isFinite hb
  rw [Neighbour.noWorse, Neighbour.noLower, decide_eq_decide, Number.le_iff_place]
  tauto

theorem ranked_eq {ns : List Neighbour} (finite : ∀ m ∈ ns, m.similarity.isFinite = true) :
    ranked ns = ns.mergeSort Neighbour.noLower :=
  mergeSort_congr fun a ha b hb => noWorse_eq_noLower (finite a ha) (finite b hb)

/-- A ranking falls. -/
theorem pairwise_ranked {ns : List Neighbour} (finite : ∀ m ∈ ns, m.similarity.isFinite = true) :
    (ranked ns).Pairwise fun a b => a.noWorse b = true := by
  have finite' : ∀ m ∈ ranked ns, m.similarity.isFinite = true :=
    fun m hm => finite m (mem_ranked.1 hm)
  have falling : (ranked ns).Pairwise fun a b => a.noLower b = true := by
    rw [ranked_eq finite]
    exact List.pairwise_mergeSort Neighbour.noLower_trans Neighbour.noLower_total ns
  apply falling.imp_of_mem
  intro a b ha hb h
  rwa [noWorse_eq_noLower (finite' a ha) (finite' b hb)]

theorem ranked_concat {ns : List Neighbour} {n : Neighbour}
    (finite : ∀ m ∈ ns ++ [n], m.similarity.isFinite = true) :
    ranked (ns ++ [n]) = behind Neighbour.noWorse n (ranked ns) := by
  have before : ∀ m ∈ ns, m.similarity.isFinite = true := fun m hm => finite m (by simp [hm])
  calc ranked (ns ++ [n])
    _ = (ns ++ [n]).mergeSort Neighbour.noLower := ranked_eq finite
    _ = behind Neighbour.noLower n (ns.mergeSort Neighbour.noLower) :=
      mergeSort_concat Neighbour.noLower_trans Neighbour.noLower_total ns n
    _ = behind Neighbour.noLower n (ranked ns) := by rw [ranked_eq before]
    _ = behind Neighbour.noWorse n (ranked ns) := behind_congr fun a ha =>
      (noWorse_eq_noLower (before a (mem_ranked.1 ha)) (finite n (by simp))).symm

theorem firsts_subset (ns : List Neighbour) : firsts ns ⊆ ns := by
  induction ns with
  | nil => exact List.Subset.refl _
  | cons n rest ih =>
    intro m hm
    rcases List.mem_cons.1 hm with rfl | hm
    · simp
    · exact List.mem_cons_of_mem _ (ih (List.mem_of_mem_filter hm))

theorem firsts_concat (ns : List Neighbour) (n : Neighbour) :
    firsts (ns ++ [n]) = if ∃ m ∈ ns, m.id = n.id then firsts ns else firsts ns ++ [n] := by
  induction ns with
  | nil => simp [firsts]
  | cons m rest ih =>
    rw [List.cons_append, firsts, ih, firsts]
    by_cases eq : m.id = n.id
    · have known : ∃ x ∈ m :: rest, x.id = n.id := ⟨m, by simp, eq⟩
      rw [if_pos known]
      split <;> simp [eq]
    · simp only [List.exists_mem_cons_iff, eq, false_or]
      split
      · rfl
      · simp [Ne.symm eq]

/-- The beginning of a ranking after one more came in: the same as before if there are enough in
front of it, and else what is left with one place less, and it. -/
theorem take_behind {α : Type} {le : α → α → Bool} {x : α} {xs : List α}
    (first : xs.Pairwise fun a b => le b x = true → le a x = true) (k : Nat) :
    (behind le x xs).take k =
      if k ≤ (xs.filter fun y => le y x).length then xs.take k
      else behind le x (xs.take (k - 1)) := by
  have split : (xs.filter fun y => le y x) ++ (xs.filter fun y => !le y x) = xs := by
    obtain ⟨taken, dropped⟩ := take_drop_partitionPoint first
    rw [← taken, ← dropped, List.take_append_drop]
  have front : ∀ y ∈ xs.filter (fun y => le y x), le y x = true :=
    fun y hy => (List.mem_filter.1 hy).2
  have back : ∀ y ∈ xs.filter (fun y => !le y x), le y x = false :=
    fun y hy => by simpa using (List.mem_filter.1 hy).2
  unfold behind
  generalize xs.filter (fun y => le y x) = as at *
  generalize xs.filter (fun y => !le y x) = bs at *
  subst split
  split
  · next enough => rw [List.take_append_of_le_length enough, List.take_append_of_le_length enough]
  · next room =>
    obtain ⟨j, rfl⟩ : ∃ j, k = as.length + (j + 1) := ⟨k - as.length - 1, by omega⟩
    have rest : ∀ y ∈ bs.take j, le y x = false := fun y hy => back y (List.mem_of_mem_take hy)
    have left : (as ++ bs).take (as.length + (j + 1) - 1) = as ++ bs.take j :=
      List.take_length_add_append j
    rw [left, List.take_length_add_append, List.take_succ_cons, List.filter_append,
      List.filter_append, List.filter_eq_self.2 front,
      List.filter_eq_nil_iff.2 (by simpa using rest),
      List.filter_eq_nil_iff.2 (by simpa using front),
      List.filter_eq_self.2 (by simpa using rest), List.append_nil, List.nil_append]

namespace NeighbourList

/-! ### Offers -/

/-- Offers several candidates, what is held staying in a tie. -/
def offerAll (l : NeighbourList) (ns : List Neighbour) : NeighbourList :=
  ns.foldl (fun l n => (l.addKeepingTies n.id n.similarity).2) l

theorem offerAll_append (l : NeighbourList) (ns ms : List Neighbour) :
    l.offerAll (ns ++ ms) = (l.offerAll ns).offerAll ms :=
  List.foldl_append

/-- What a list is after it was offered `ns`. -/
structure Ranks (l : NeighbourList) (ns : List Neighbour) : Prop where
  wellFormed : l.WellFormed
  neighbours : l.neighbours = (ranked (firsts ns)).take l.capacity
  settles : ∀ n ∈ ns, l.Settles n.id n.similarity

variable {l : NeighbourList} {ns : List Neighbour} {n : Neighbour}

theorem Ranks.empty (owner capacity : Nat) : Ranks { owner, capacity } [] :=
  ⟨.empty owner capacity, by simp [NeighbourList.neighbours, firsts, ranked], by simp⟩

/-- A candidate that comes in stands behind those at least as similar. -/
theorem neighbours_place (wf : l.WellFormed) (n : Neighbour) :
    (l.place n.id n.similarity).neighbours =
      behind Neighbour.noWorse n (l.kept.map (·.toNeighbour)) := by
  rw [neighbours, place_entries wf.ordered, behind, List.filter_map, List.filter_map, List.map_append,
    List.map_cons]
  rfl

theorem addKeepingTies_of_ne_accepted {id : Nat} {x : Float} (h : l.standing id x ≠ .accepted) :
    (l.addKeepingTies id x).2 = l := by
  rw [addKeepingTies]
  cases standing : l.standing id x with
  | accepted => contradiction
  | refused | tied => rfl

/-- The entries that stay are those of a list with one place less. -/
theorem map_kept (held : l.neighbours = ns.take l.capacity) :
    l.kept.map (·.toNeighbour) = ns.take (l.capacity - 1) := by
  have size : l.entries.length = (ns.take l.capacity).length := by
    rw [← held, neighbours, List.length_map]
  rw [List.length_take] at size
  unfold kept
  split
  · next full =>
    rw [isFull_iff, NeighbourList.size] at full
    rw [List.map_dropLast]
    change l.neighbours.dropLast = _
    rw [held, List.dropLast_eq_take, List.take_take, List.length_take]
    congr 1
    omega
  · next room =>
    rw [isFull_iff, NeighbourList.size] at room
    change l.neighbours = _
    rw [held, List.take_of_length_le (by omega), List.take_of_length_le (by omega)]

/-- A list is full of entries at least as similar as `n` if as many in the ranking are. -/
theorem full_and_le_iff (held : l.neighbours = ns.take l.capacity)
    (first : ns.Pairwise fun a b => b.noWorse n = true → a.noWorse n = true) :
    (l.isFull = true ∧ ∀ e ∈ l.entries, n.similarity ≤ e.similarity) ↔
      l.capacity ≤ (ns.filter fun m => m.noWorse n).length := by
  have entries : (∀ e ∈ l.entries, n.similarity ≤ e.similarity) ↔
      ∀ m ∈ ns.take l.capacity, m.noWorse n = true := by
    rw [← held, forall_mem_neighbours]
    simp [Neighbour.noWorse]
  rw [entries, isFull_iff, size_eq_length_neighbours, held, List.length_take]
  constructor
  · rintro ⟨full, best⟩
    have sub := (List.take_sublist l.capacity ns).filter fun m => m.noWorse n
    rw [List.filter_eq_self.2 best] at sub
    have le := sub.length_le
    rw [List.length_take] at le
    omega
  · intro enough
    have le := List.length_filter_le (fun m : Neighbour => m.noWorse n) ns
    refine ⟨by omega, fun m hm => ?_⟩
    obtain ⟨front, -⟩ := take_drop_partitionPoint first
    rw [← front, List.length_take] at enough
    have mem := List.take_subset_take_left ns (enough.trans (Nat.min_le_left _ _)) hm
    rw [front] at mem
    exact (List.mem_filter.1 mem).2

/-- A new candidate is put into the ranking. -/
theorem neighbours_addKeepingTies (wf : l.WellFormed) (held : l.neighbours = ns.take l.capacity)
    (ordered : ns.Pairwise fun a b => a.noWorse b = true) (other : n.id ≠ l.owner)
    (new : n.id ∉ l.ids) (finite : n.similarity.isFinite = true) :
    (l.addKeepingTies n.id n.similarity).2.neighbours =
      (behind Neighbour.noWorse n ns).take l.capacity := by
  have first : ns.Pairwise fun a b => b.noWorse n = true → a.noWorse n = true :=
    ordered.imp fun h h' =>
      decide_eq_true (Number.le_trans (of_decide_eq_true h') (of_decide_eq_true h))
  rw [take_behind first]
  by_cases standing : l.standing n.id n.similarity = .accepted
  · have room : ¬l.capacity ≤ (ns.filter fun m => m.noWorse n).length := fun enough =>
      Settles.standing_ne_accepted (.inr ((full_and_le_iff held first).2 enough)) standing
    rw [if_neg room, addKeepingTies, standing]
    dsimp only
    rw [neighbours_place wf, map_kept held]
  · have enough : l.capacity ≤ (ns.filter fun m => m.noWorse n).length := by
      rcases of_standing_ne_accepted wf finite standing with owner | known | full
      · contradiction
      · contradiction
      · exact (full_and_le_iff held first).1 full
    rw [if_pos enough, addKeepingTies_of_ne_accepted standing, held]

theorem Ranks.mem (h : Ranks l ns) {e : Entry} (he : e ∈ l.entries) : e.toNeighbour ∈ ns := by
  have held : e.toNeighbour ∈ l.neighbours := List.mem_map_of_mem he
  rw [h.neighbours] at held
  exact firsts_subset ns (mem_ranked.1 (List.mem_of_mem_take held))

/-- One more offer, of an id that is new or comes with the same similarity as before. -/
theorem Ranks.offer (h : Ranks l ns) (finite : ∀ m ∈ ns ++ [n], m.similarity.isFinite = true)
    (other : n.id ≠ l.owner)
    (same : ∀ m ∈ ns, m.id = n.id → n.similarity ≤ m.similarity) :
    Ranks (l.addKeepingTies n.id n.similarity).2 (ns ++ [n]) := by
  have finite' := finite n (by simp)
  have offered := l.offered_addKeepingTies n.id n.similarity
  have follows := offered.follows h.wellFormed
  refine ⟨offered.wellFormed h.wellFormed finite', ?_, ?_⟩
  · rw [firsts_concat, follows.capacity]
    split
    · next known =>
      obtain ⟨m, hm, eq⟩ := known
      have settled := (h.settles m hm).of_le (same m hm eq)
      rw [addKeepingTies_of_ne_accepted (eq ▸ settled).standing_ne_accepted, h.neighbours]
    · next new =>
      have absent : n.id ∉ l.ids := by
        rintro held
        obtain ⟨e, he, eq⟩ := List.mem_map.1 held
        exact new ⟨e.toNeighbour, h.mem he, eq⟩
      have finite : ∀ m ∈ firsts ns ++ [n], m.similarity.isFinite = true := fun m hm =>
        finite m (List.mem_append.2 ((List.mem_append.1 hm).imp_left (firsts_subset ns ·)))
      rw [ranked_concat finite, neighbours_addKeepingTies h.wellFormed h.neighbours
        (pairwise_ranked fun m hm => finite m (by simp [hm])) other absent finite']
  · intro m hm
    rcases List.mem_append.1 hm with hm | hm
    · exact follows.settles _ _ (h.settles m hm)
    · obtain rfl := List.mem_singleton.1 hm
      exact offered.settles h.wellFormed finite' other fun e he => same e.toNeighbour (h.mem he)

/-- Any number of offers, where each id always comes with the same similarity. -/
theorem ranks_offerAll (owner capacity : Nat)
    (finite : ∀ n ∈ ns, n.similarity.isFinite = true) (other : ∀ n ∈ ns, n.id ≠ owner)
    (same : ∀ m ∈ ns, ∀ n ∈ ns, m.id = n.id → n.similarity ≤ m.similarity) :
    Ranks (offerAll { owner, capacity } ns) ns ∧
      (offerAll { owner, capacity } ns).owner = owner ∧
      (offerAll { owner, capacity } ns).capacity = capacity := by
  induction ns using List.reverseRecOn with
  | nil => exact ⟨.empty owner capacity, rfl, rfl⟩
  | append_singleton ns n ih =>
    have sub : ns ⊆ ns ++ [n] := List.subset_append_left ns [n]
    obtain ⟨ranks, eqOwner, eqCapacity⟩ := ih (fun m hm => finite m (sub hm))
      (fun m hm => other m (sub hm)) fun m hm m' hm' => same m (sub hm) m' (sub hm')
    have last : n ∈ ns ++ [n] := by simp
    have offered := (offerAll { owner, capacity } ns).offered_addKeepingTies n.id n.similarity
    have follows := offered.follows ranks.wellFormed
    have other' : n.id ≠ (offerAll { owner, capacity } ns).owner := by
      rw [eqOwner]
      exact other n last
    rw [offerAll, List.foldl_append]
    refine ⟨ranks.offer finite other' fun m hm => same m (sub hm) n last, ?_, ?_⟩
    · exact follows.owner.trans eqOwner
    · exact follows.capacity.trans eqCapacity

end NeighbourList

end NeighbourGraph
