/-
Contracts of phases.

If the work on every node meets a contract of its own and tolerates the work on the other nodes,
a phase does all of it, whatever the partitions are and however their tasks take turns. `Each`
puts together what the pieces of work came to: the answers in the order of the nodes, and the
events of all of them in any order, with the reports of progress.
-/

import NeighbourGraph.Proofs.Partition
import NeighbourGraph.Proofs.Search.Contract

namespace NeighbourGraph.Search

/-! ### Pieces of work -/

/-- Each of several pieces of work ended as `post` says. The events are theirs, in any order and
with reports of progress among them. -/
inductive Each {ι α : Type} (post : ι → Post α) : List ι → Post (List α)
  | nil {s : State} : Each post [] [] [] s
  | cons {i : ι} {is : List ι} {a : α} {as : List α} {events later : List Event} {s : State} :
      post i a events s → Each post is as later s →
      Each post (i :: is) (a :: as) (events ++ later) s
  | report {is : List ι} {as : List α} {e : Event} {events : List Event} {s : State} :
      e.isProgress = true → Each post is as events s → Each post is as (e :: events) s
  | perm {is : List ι} {as : List α} {events events' : List Event} {s : State} :
      events.Perm events' → Each post is as events s → Each post is as events' s

namespace Each

variable {ι α : Type} {post post' : ι → Post α} {is js : List ι} {as bs : List α}
  {events later : List Event} {s t : State}

theorem append (h : Each post is as events s) (h' : Each post js bs later s) :
    Each post (is ++ js) (as ++ bs) (events ++ later) s := by
  induction h with
  | nil => exact h'
  | cons first _ ih =>
    rw [List.append_assoc]
    exact .cons first (ih h')
  | report he _ ih => exact .report he (ih h')
  | perm hp _ ih => exact .perm (hp.append_right _) (ih h')

/-- Pieces of work that are each made of several pieces. -/
theorem flatten {κ : Type} {pieces : κ → List ι} {ks : List κ} {answers : List (List α)}
    (h : Each (fun k => Each post (pieces k)) ks answers events s) :
    Each post (ks.flatMap pieces) answers.flatten events s := by
  induction h with
  | nil => exact .nil
  | cons first _ ih => exact first.append ih
  | report he _ ih => exact .report he ih
  | perm hp _ ih => exact .perm hp ih

theorem length_eq (h : Each post is as events s) : as.length = is.length := by
  induction h with
  | nil => rfl
  | cons _ _ ih => simp [ih]
  | report _ _ ih | perm _ _ ih => exact ih

/-- What holds of the events of every piece and of reports holds of all events. -/
theorem forall_mem {P : Event → Prop} (h : Each post is as events s)
    (reports : ∀ e, e.isProgress = true → P e)
    (pieces : ∀ i ∈ is, ∀ a events, post i a events s → ∀ e ∈ events, P e) :
    ∀ e ∈ events, P e := by
  induction h with
  | nil => simp
  | cons first _ ih =>
    intro e he
    rcases List.mem_append.1 he with he | he
    · exact pieces _ (by simp) _ _ first e he
    · exact ih (fun i hi => pieces i (by simp [hi])) e he
  | report hr _ ih =>
    intro e he
    rcases List.mem_cons.1 he with rfl | he
    · exact reports _ hr
    · exact ih pieces e he
  | perm hp _ ih => exact fun e he => ih pieces e (hp.mem_iff.2 he)

/-- If reports do not count and every piece has as many events that do, so do all of them. -/
theorem countP_eq {counts : Event → Bool} {count : Nat} (h : Each post is as events s)
    (reports : ∀ e, e.isProgress = true → counts e = false)
    (pieces : ∀ i ∈ is, ∀ a events, post i a events s → events.countP counts = count) :
    events.countP counts = is.length * count := by
  induction h with
  | nil => simp
  | cons first _ ih =>
    rw [List.countP_append, pieces _ (by simp) _ _ first,
      ih fun i hi => pieces i (by simp [hi]), List.length_cons, Nat.succ_mul, Nat.add_comm]
  | report he _ ih => rw [List.countP_cons, reports _ he, ih pieces]; rfl
  | perm hp _ ih => rw [← hp.countP_eq, ih pieces]

/-- The piece at a place has its answer there, and its events are among all events. -/
theorem get (h : Each post is as events s) {n : Nat} {i : ι} (hi : is[n]? = some i) :
    ∃ a own, as[n]? = some a ∧ own ⊆ events ∧ post i a own s := by
  induction h generalizing n with
  | nil => simp at hi
  | cons first _ ih =>
    cases n with
    | zero =>
      obtain rfl : _ = i := by simpa using hi
      exact ⟨_, _, rfl, List.subset_append_left _ _, first⟩
    | succ n =>
      obtain ⟨a, own, ha, sub, holds⟩ := ih (by simpa using hi)
      exact ⟨a, own, by simpa using ha, List.subset_append_of_subset_right _ sub, holds⟩
  | report _ _ ih =>
    obtain ⟨a, own, ha, sub, holds⟩ := ih hi
    exact ⟨a, own, ha, List.subset_cons_of_subset _ sub, holds⟩
  | perm hp _ ih =>
    obtain ⟨a, own, ha, sub, holds⟩ := ih hi
    exact ⟨a, own, ha, List.Subset.trans sub hp.subset, holds⟩

theorem of_mem (h : Each post is as events s) {i : ι} (hi : i ∈ is) :
    ∃ a own, own ⊆ events ∧ post i a own s := by
  obtain ⟨n, hn⟩ := List.mem_iff_getElem?.1 hi
  obtain ⟨a, own, -, sub, holds⟩ := h.get hn
  exact ⟨a, own, sub, holds⟩

end Each

section

variable {ι α : Type} {k : ι → Contract} {p : ι → Search α} {post : ι → Post α} {is : List ι}
  {s : State}

/-! ### Tasks -/

/-- Any number of searches under any turns, all of which tolerate each other. -/
theorem meets_together (meets : ∀ i ∈ is, Meets (k i) (p i) (post i) s)
    (apart : is.Pairwise fun i j => (k i).Tolerates (k j) ∧ (k j).Tolerates (k i))
    (turns : Turns) :
    Meets (Contract.group (is.map k)) (together turns (is.map p)) (Each post is) s := by
  induction is generalizing turns with
  | nil => exact fun t _ => .nil
  | cons i is ih =>
    obtain ⟨first, apart⟩ := List.pairwise_cons.1 apart
    have rest := ih (fun j hj => meets j (by simp [hj])) apart fun task => turns (task + 1)
    have both := meets_beside (meets i (by simp)) rest
      (Contract.covers_group (by simp) : (Contract.group ((i :: is).map k)).Covers (k i))
      (Contract.covers_group_of_forall fun c hc => Contract.covers_group (by simp_all)) ?_ ?_
      (turns 0) 0
    · refine Meets.map (both.imp ?_)
      rintro ⟨a, as⟩ events t ⟨own, others, perm, ha, has⟩
      exact .perm perm.symm (.cons ha has)
    · rintro s t (rfl | noted | ⟨d, hd, g⟩)
      · exact (k i).rely_refl s
      · exact (k i).rely_notes noted
      · obtain ⟨j, hj, rfl⟩ := List.mem_map.1 hd
        exact (first j hj).1 s t g
    · intro s t g d hd
      obtain ⟨j, hj, rfl⟩ := List.mem_map.1 hd
      exact (first j hj).2 s t g

/-- One search after the other, all of which tolerate each other. -/
theorem meets_mapM (meets : ∀ i ∈ is, Meets (k i) (p i) (post i) s)
    (apart : is.Pairwise fun i j => (k i).Tolerates (k j) ∧ (k j).Tolerates (k i)) :
    Meets (Contract.group (is.map k)) (is.mapM p) (Each post is) s := by
  have := meets_together meets apart Turns.inOrder
  rwa [together_inOrder, List.mapM_map] at this

/-! ### Phases -/

/-- The search may fail when it is told to stop. -/
def Contract.Heeds (c : Contract) (setup : Setup) : Prop :=
  ∀ (log : Log) (name : Phase), setup.stopped log = true → c.fails (.cancelled name.name)

theorem meets_proceed {c : Contract} {setup : Setup} (heeds : c.Heeds setup) (name : Phase) :
    Meets c (proceed setup name) (fun _ events t => events = [] ∧ c.rely s t) s := by
  apply Meets.bind
  apply meets_atomic
  intro t r
  refine ⟨c.still t, [], by simp, ?_⟩
  intro u r'
  split
  · next told => exact heeds t.log name told
  · exact fun v r'' => ⟨rfl, c.rely_trans r (c.rely_trans r' r'')⟩

theorem meets_checkpoint {c : Contract} {setup : Setup} (heeds : c.Heeds setup) (p : Partition)
    (node : Nat) (name : Phase) :
    Meets c (checkpoint setup p node name) (fun _ events t => events = [] ∧ c.rely s t) s := by
  unfold checkpoint
  split
  · exact meets_proceed heeds name
  · exact fun t r => ⟨rfl, r⟩

end

section

variable {α : Type} {k : Nat → Contract} {work : Nat → Search α} {post : Nat → Post α}
  {setup : Setup} {name : Phase} {s : State}

theorem meets_overNodes {p : Partition}
    (heeds : ∀ v, (k v).Heeds setup)
    (meets : ∀ node ∈ p.nodes, Meets (k node) (work node) (post node) s)
    (apart : ∀ v w, v ≠ w → (k v).Tolerates (k w)) :
    Meets (Contract.group (p.nodes.map k)) (overNodes setup name work p) (Each post p.nodes) s := by
  have checked : ∀ node ∈ p.nodes, Meets (k node)
      (do checkpoint setup p node name; visit name node; work node) (post node) s := by
    refine fun node hn => Meets.bind ((meets_checkpoint (heeds node) p node name).imp ?_)
    rintro _ _ t ⟨rfl, r⟩
    exact ((meets node hn).later r).visitBefore name node
  have nodup : p.nodes.Nodup := List.nodup_range'
  have all := meets_mapM checked (nodup.imp fun ne => ⟨apart _ _ ne, apart _ _ ne.symm⟩)
  refine (all.reportAfter (e := .advanced p.count) rfl).imp ?_
  rintro as _ t ⟨events, rfl, each⟩
  exact .perm (List.perm_append_singleton _ _).symm (.report rfl each)

/-- A phase does the work on every node. -/
theorem meets_phase (heeds : ∀ v, (k v).Heeds setup)
    (meets : ∀ node < setup.nodeCount, Meets (k node) (work node) (post node) s)
    (apart : ∀ v w, v ≠ w → (k v).Tolerates (k w)) (turns : Turns) :
    Meets (Contract.group ((List.range setup.nodeCount).map k)) (phase setup turns name work)
      (Each post (List.range setup.nodeCount)) s := by
  have nodes : setup.tasks.flatMap Partition.nodes = List.range setup.nodeCount :=
    flatMap_nodes_partitions ..
  have disjoint : setup.tasks.Pairwise fun p q => p.nodes.Disjoint q.nodes :=
    disjoint_partitions ..
  have sub : ∀ p ∈ setup.tasks, p.nodes ⊆ List.range setup.nodeCount :=
    fun p hp node hn => nodes ▸ List.mem_flatMap.2 ⟨p, hp, hn⟩
  let task (p : Partition) : Contract := Contract.group (p.nodes.map k)
  have task_tolerates : ∀ {p q : Partition}, p.nodes.Disjoint q.nodes →
      (task p).Tolerates (task q) := by
    intro p q apart'
    apply Contract.group_tolerates
    simp only [List.mem_map, forall_exists_index, and_imp, forall_apply_eq_imp_iff₂]
    exact fun v hv w hw => apart v w fun eq => apart' hv (eq ▸ hw)
  have tasks : Meets (Contract.group (setup.tasks.map task))
      (together turns (setup.tasks.map (overNodes setup name work)))
      (Each (fun p => Each post p.nodes) setup.tasks) s := by
    refine meets_together (fun p hp => meets_overNodes heeds (fun node hn => ?_) apart)
      (disjoint.imp fun apart' =>
        ⟨task_tolerates apart', task_tolerates (List.disjoint_symm apart')⟩) turns
    exact meets node (List.mem_range.1 (sub p hp hn))
  have covers : (Contract.group ((List.range setup.nodeCount).map k)).Covers
      (Contract.group (setup.tasks.map task)) := by
    apply Contract.covers_group_of_forall
    intro _ ht
    obtain ⟨p, hp, rfl⟩ := List.mem_map.1 ht
    apply Contract.covers_group_of_forall
    intro c hc
    exact Contract.covers_group (List.map_subset k (sub p hp) hc)
  have all : Meets (Contract.group ((List.range setup.nodeCount).map k))
      (together turns (setup.tasks.map (overNodes setup name work)))
      (fun answers => Each post (List.range setup.nodeCount) answers.flatten) s :=
    (tasks.cover covers).imp fun _ _ _ each => nodes ▸ each.flatten
  refine ((all.reportAfter (e := .ended name) rfl).reportBefore
    (e := .started name setup.nodeCount) rfl).imp ?_
  rintro as _ t ⟨_, rfl, events, rfl, each⟩
  exact .report rfl (.perm (List.perm_append_singleton _ _).symm (.report rfl each))

/-- A phase under one contract for the work on all nodes. -/
theorem meets_phase_shared {c : Contract} (self : c.Tolerates c) (heeds : c.Heeds setup)
    (meets : ∀ node < setup.nodeCount, Meets c (work node) (post node) s) (turns : Turns) :
    Meets c (phase setup turns name work) (Each post (List.range setup.nodeCount)) s := by
  apply (meets_phase (k := fun _ => c) (fun _ => heeds) meets (fun _ _ _ => self) turns).cover
  apply Contract.covers_group_of_forall
  intro d hd
  obtain ⟨v, -, rfl⟩ := List.mem_map.1 hd
  exact .refl c

end

end NeighbourGraph.Search
