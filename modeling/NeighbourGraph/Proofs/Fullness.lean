/-
Lists are full.

The sampler has as many different candidates for a node as its list has room for, and the standard
filter excludes none of them. Once a candidate was offered, the list holds it or is full, and no
later offer undoes that; so after the lists were filled they are full. Neither an eviction nor a
tie nor handing out entries makes a list shorter, so without a cutoff they are full at the end.
Where there is room for all other nodes, a full list names every one of them.
-/

import NeighbourGraph.Proofs.Results

namespace NeighbourGraph

open NeighbourGraph.Random NeighbourGraph.Search

/-! ### Offered candidates -/

namespace NeighbourList

variable {l l' : NeighbourList} {id : Nat} {x : Float} {came : Bool}

/-- The list holds the candidate, or it is full. Both are said through what is settled, which
offers keep. -/
def Received (l : NeighbourList) (id : Nat) : Prop := ∃ x, l.Settles id x

theorem Received.follows (h : l.Received id) (follows : Follows l l') : l'.Received id :=
  h.imp fun x => follows.settles id x

/-- Whatever its similarity, a candidate that was offered is received. -/
theorem Offered.received (h : Offered l id x came l') (wf : l.WellFormed)
    (finite : x.isFinite = true) (other : id ≠ l.owner) : l'.Received id := by
  cases h with
  | stayed refused =>
    rcases of_standing_ne_accepted wf finite refused with owner | held | full
    · contradiction
    · obtain ⟨e, he, rfl⟩ := List.mem_map.1 held
      exact ⟨e.similarity, .inl ⟨e, he, rfl, Number.le_refl (wf.finite e he)⟩⟩
    · exact ⟨x, .inr full⟩
  | entered => exact ⟨x, .inl ⟨_, mem_place.2 (.inl rfl), rfl, Number.le_refl finite⟩⟩

/-- A list that received different candidates holds as many of them as it has room for. -/
theorem min_length_le_size {ids : List Nat} (nodup : ids.Nodup)
    (received : ∀ id ∈ ids, l.Received id) : min ids.length l.capacity ≤ l.size := by
  by_cases room : l.size < l.capacity
  · have held : ids ⊆ l.ids := fun id hid => (received id hid).elim fun _ h => h.mem_ids room
    have le : ids.length ≤ l.ids.length := (nodup.subperm held).length_le
    rw [NeighbourList.ids, List.length_map] at le
    exact (Nat.min_le_left _ _).trans le
  · omega

end NeighbourList

/-- The sampler has candidates for the node: a walk needs relationships to follow, wherever they
lead. -/
def Setup.Supplied (setup : Setup) (v : Nat) : Prop :=
  setup.config.sampler = .randomWalk → setup.graph.degree v ≠ 0

namespace Search

section

variable {setup : Setup} {capacity count : Nat} {s t u : State}

/-! ### Filling the lists -/

/-- The list of a node received a candidate. -/
def ReceivedIn (s : State) (v c : Nat) : Prop := ∃ l, s.lists[v]? = some l ∧ l.Received c

theorem does_consider_received (sound : Sound setup capacity s) {origin : Origin} {v c : Nat}
    (hv : v < setup.nodeCount) (other : Sampler.IsOther setup.nodeCount v c)
    (allowed : setup.excluded v c = false) :
    Does (offering setup capacity) (consider setup origin v c)
      (fun _ _ t => ReceivedIn t v c) s := by
  refine (does_lift (meets_score origin hv other allowed)).bind offering_self
    (Q := fun _ _ _ _ t => ReceivedIn t v c) ?_ fun _ _ _ _ _ _ => id
  rintro x _ t r ⟨scored, -⟩
  have genuine : setup.Genuine v c x := ⟨hv, other, .inl ⟨allowed, scored⟩⟩
  refine (Does.afterRecord (r sound).1 genuine (Q := fun _ _ u => ReceivedIn u v c)
    fun u _ sound logged => ?_).imp fun _ _ _ ⟨_, _, h⟩ => h
  refine Does.map ((does_offer_of (P := (·.Received c)) sound logged ?_
    fun l l' follows received => received.follows follows).imp fun _ _ _ h => h.2)
  intro t l l' entered sound _ soundFor offered
  exact offered.received soundFor.wellFormed genuine.isFinite (soundFor.owner ▸ other.2)

/-- The standard filter excludes no other node. -/
theorem standard_isOther {v c : Nat} (standard : setup.excluded = .standard)
    (other : Sampler.IsOther setup.nodeCount v c) : setup.excluded v c = false := by
  rw [standard, PairFilter.standard, beq_eq_false_iff_ne]
  exact other.2.symm

/-- The list of a node holds `amount` neighbours, or as many as it has room for. -/
def Stocked (s : State) (v amount : Nat) : Prop :=
  ∀ l, s.lists[v]? = some l → min amount l.capacity ≤ l.size

/-- Filling the list of a node leaves no room that a candidate could have taken. -/
theorem does_fillNode_stocked (sound : Sound setup capacity s) {node : Nat}
    (hn : node < setup.nodeCount) (standard : setup.excluded = .standard)
    (supplied : setup.Supplied node) :
    Does (offering setup capacity) (fillNode setup count node)
      (fun _ _ t => Stocked t node (min count (setup.nodeCount - 1))) s := by
  have gives := Sampler.gives_and (Sampler.enough_sample supplied count)
    (Sampler.gives_sample setup.config.sampler setup.graph node count)
  refine (does_sampleCandidates gives).bind offering_self
    (Q := fun _ _ _ _ t => Stocked t node (min count (setup.nodeCount - 1))) ?_
    fun _ _ _ _ _ _ => id
  rintro candidates _ t r ⟨⟨⟨nodup, enough⟩, others⟩, rfl⟩
  have tried : Does (offering setup capacity) (candidates.mapM (tryCandidate setup node))
      (Each (fun c _ _ t => ReceivedIn t node c) candidates) t := by
    refine does_mapM offering_self fun c hc => ?_
    rw [tryCandidate, if_neg (by simp [standard_isOther standard (others c hc)])]
    exact does_consider_received (r sound).1 hn (others c hc)
      (standard_isOther standard (others c hc))
  have announced : ∀ (tallies : List Tally) (u : State), Does (offering setup capacity) (do
      record (.offered node (← listOf node))
      return Tally.total tallies : Work Tally) (settling setup fun _ => True) u :=
    fun tallies u => (does_listOf node).andThen (fun ids => (does_note (by simp)).andReturn _)
      fun _ _ _ _ => trivial
  refine tried.bind offering_self (Q := fun _ _ => settling setup fun _ => True)
    (fun tallies _ u _ _ => announced tallies u) ?_
  intro tallies events _ later u each _ l hl
  have received : ∀ c ∈ candidates, l.Received c := by
    intro c hc
    obtain ⟨_, _, _, l', hl', received⟩ := each.of_mem hc
    exact Option.some.inj (hl.symm.trans hl') ▸ received
  have full := NeighbourList.min_length_le_size nodup received
  have enough : min count (setup.nodeCount - 1) ≤ candidates.length := enough
  omega

/-- When the lists are filled, the list of every node that has candidates is full. -/
theorem meets_fill_stocked (sound : Sound setup capacity s) (standard : setup.excluded = .standard)
    (turns : Turns) (stream : Stream) (count : Nat) :
    Meets (offering setup capacity) (fill setup turns stream count)
      (fun _ _ t => ∀ v < setup.nodeCount, setup.Supplied v →
        Stocked t v (min count (setup.nodeCount - 1))) s := by
  have stocked : ∀ v < setup.nodeCount, Meets (offering setup capacity)
      (seeded stream v (fillNode setup count v))
      (fun _ _ t => setup.Supplied v → Stocked t v (min count (setup.nodeCount - 1))) s := by
    intro v hv
    by_cases supplied : setup.Supplied v
    · exact (meets_seeded (does_fillNode_stocked sound hv standard supplied)).imp
        fun _ _ _ stocked _ => stocked
    · exact (meets_seeded (does_fillNode sound hv count)).imp
        fun _ _ _ _ holds => absurd holds supplied
  refine Meets.map (f := Tally.total)
    ((meets_phase_shared offering_self upholding_heeds stocked turns).imp ?_)
  intro tallies events t each v hv
  obtain ⟨_, _, _, full⟩ := each.of_mem (List.mem_range.2 hv)
  exact full

/-! ### Full lists -/

/-- The list of every node that has candidates is full. -/
def Full (setup : Setup) (capacity : Nat) (s : State) : Prop :=
  ∀ v < setup.nodeCount, setup.Supplied v → ∃ l, s.lists[v]? = some l ∧ capacity ≤ l.size

/-- As long as no list gets shorter, all stay full. -/
theorem Full.grows {change : Nat → Change} (h : Full setup capacity s) (grows : Grows change s t)
    (longer : ∀ v l l', (change v).rel l l' → l.size ≤ l'.size) : Full setup capacity t := by
  intro v hv supplied
  obtain ⟨l, hl, full⟩ := h v hv supplied
  obtain ⟨l', hl', changed⟩ := grows.lists v l hl
  exact ⟨l', hl', full.trans (longer v l l' changed)⟩

/-- Handing out and offering make no list shorter. -/
theorem Full.iteration (h : Full setup capacity s) (others : 2 ≤ setup.nodeCount)
    (refined : Refined setup capacity s) {turns : Phase → Turns} {sampled : Nat}
    {splitStream joinStream : Stream} {tally : Tally}
    (run : (iteration setup turns sampled splitStream joinStream).exec s = (.ok tally, t)) :
    Full setup capacity t := by
  obtain ⟨u, w, handsOut, offers, rfl⟩ := exec_iteration_grows others refined run
  have h : Full setup capacity { s with rounds := s.rounds.push none } := h
  have handedOut := h.grows handsOut fun _ _ _ same => same.size_eq.ge
  have offered : Full setup capacity w := handedOut.grows offers fun _ _ _ follows =>
    follows.size_le
  exact offered

/-- In front of the cutoff, the list of every node that has candidates is full. -/
theorem refined_full (others : 2 ≤ setup.nodeCount) (standard : setup.excluded = .standard)
    {schedule : Schedule} {limit : Nat} {refinement : Refinement}
    (ok : refined schedule setup limit = (.ok refinement, s)) : Full setup setup.capacity s := by
  rw [refined, if_neg (by omega)] at ok
  split at ok
  · cases ok
  · next k size =>
    rw [bounded_of size] at ok
    have kept : KeptByIteration setup k.sampled (setup.config.updateThreshold setup.nodeCount)
        fun _ s => Refined setup setup.capacity s ∧ Full setup setup.capacity s :=
      fun _ _ _ _ _ _ _ _ h run =>
        ⟨exec_iteration others h.1 run, h.2.iteration others h.1 run⟩
    refine (exec_refine_ok kept (fun turns stream tally u filled => ?_) ok).1.2
    refine ⟨exec_fill filled, fun v hv supplied => ?_⟩
    have start : Sound setup setup.capacity (.start setup.nodeCount setup.capacity) :=
      .start setup _
    obtain ⟨sound, -, _, -, stocked⟩ :=
      (meets_fill_stocked start standard turns stream k.bounded).sound_ok start filled
    obtain ⟨l, hl, soundFor⟩ := sound.list hv
    have full := stocked v hv supplied l hl
    rw [soundFor.capacity, bounded_of size, ← Setup.capacity] at full
    exact ⟨l, hl, by simpa [Setup.capacity] using full⟩

end

end Search

/-! ### Results -/

/-- As many neighbours as there are other nodes are all of them. -/
theorem AreNeighbours.mem_iff_isOther {nodeCount capacity v : Nat} {ns : List Neighbour}
    (h : AreNeighbours nodeCount capacity v ns) (hv : v < nodeCount)
    (all : nodeCount - 1 ≤ ns.length) (c : Nat) :
    c ∈ ns.map (·.id) ↔ Sampler.IsOther nodeCount v c := by
  have other : ∀ c ∈ ns.map (·.id), Sampler.IsOther nodeCount v c := by
    intro c hc
    obtain ⟨n, hn, rfl⟩ := List.mem_map.1 hc
    exact ⟨h.id_lt n hn, fun eq => h.node_notMem (eq ▸ hc)⟩
  have mem_others : ∀ c, c ∈ (List.range nodeCount).erase v ↔ Sampler.IsOther nodeCount v c := by
    intro c
    rw [List.nodup_range.mem_erase_iff, List.mem_range, Sampler.IsOther, and_comm]
  have sub : (ns.map (·.id)).Subperm ((List.range nodeCount).erase v) :=
    h.nodup.subperm fun c hc => (mem_others c).2 (other c hc)
  have length : ((List.range nodeCount).erase v).length = nodeCount - 1 := by
    rw [List.length_erase_of_mem (List.mem_range.2 hv), List.length_range]
  have same := sub.perm_of_length_le (by rw [length, List.length_map]; exact all)
  rw [same.mem_iff, mem_others]

namespace Search

/-- **Lists are full.** Without a cutoff and with the standard filter, the list of every node is
full: of every node if the sampler is the uniform one, and of every node with relationships if it
walks. Where there is room for all other nodes the list names each of them once. Every similarity is
the one that the metric gives for the pair. -/
theorem lists_full (schedule : Schedule) (setup : Setup) (others : 2 ≤ setup.nodeCount)
    (standard : setup.excluded = .standard)
    (uncut : (setup.config.similarityCutoff == 0.0) = true) {result : Result}
    (ok : (runUnder schedule setup).outcome = .ok result) {v : Nat} (hv : v < setup.nodeCount)
    (supplied : setup.config.sampler = .randomWalk → setup.graph.degree v ≠ 0) :
    (result.neighboursOf v).length = min setup.config.topK (setup.nodeCount - 1) ∧
      (setup.nodeCount - 1 ≤ setup.config.topK →
        ((result.neighboursOf v).map (·.id)).Nodup ∧
          ∀ c, c ∈ (result.neighboursOf v).map (·.id) ↔ c < setup.nodeCount ∧ c ≠ v) ∧
      ∀ n ∈ result.neighboursOf v, setup.Genuine v n.id n.similarity := by
  obtain ⟨refinement, s, t, ended⟩ := runUnder_ok ok
  have uncut : ¬0.0 < setup.config.similarityCutoff :=
    (Config.cutoff_le_zero_iff _).1 (Number.beq_iff_le_and_ge.1 uncut).1
  obtain ⟨l, hl, full⟩ := refined_full others standard ended.refined v hv supplied
  have kept : t.lists[v]? = some l := by
    rw [ended.lists, Array.getElem?_map, hl, Option.map_some, Setup.cut, if_neg uncut]
  have soundFor := ended.sound.lists v l kept
  have neighbours : result.neighboursOf v = l.neighbours := by
    rw [Result.neighboursOf, ended.neighbours, Array.getD_eq_getD_getElem?, Array.getElem?_map,
      kept, Option.map_some, Option.getD_some]
  have are := NeighbourList.SoundFor.areNeighbours soundFor ended.sound.genuine
  have length : l.neighbours.length = setup.capacity := by
    rw [NeighbourList.size_eq_length_neighbours] at full
    exact Nat.le_antisymm are.length_le full
  rw [neighbours]
  refine ⟨length, fun room => ⟨are.nodup, are.mem_iff_isOther hv ?_⟩, fun n hn => ?_⟩
  · rw [length, Setup.capacity, Nat.min_eq_right room]
  · exact ended.sound.genuine v _ _ (soundFor.considered n hn)

/-- Three nodes whose relationships lead to themselves and to nodes that are not there. -/
def strayWalks : Setup where
  graph := .ofRows #[[⟨0, 1.0⟩, ⟨9, 1.0⟩], [⟨1, 2.0⟩], []]
  metric := .ofFunction true fun _ _ => 1.0
  excluded := .standard
  config :=
    { topK := 5, sampleRate := 1.0, maxIterations := 0, randomJoins := 0, seed := some 7
      sampler := .randomWalk, valid := by decide +kernel }

theorem lists_full_fourNodes_strayWalks :
    (∃ result, (runUnder .inOrder fourNodes).outcome = .ok result ∧
      (result.neighboursOf 3).length = 2) ∧
    ∃ result, (runUnder .inOrder strayWalks).outcome = .ok result ∧
      ∀ c, c ∈ (result.neighboursOf 0).map (·.id) ↔ c < 3 ∧ c ≠ 0 := by
  have found : (runUnder .inOrder fourNodes).outcome.isOk = true := by decide +kernel
  have found' : (runUnder .inOrder strayWalks).outcome.isOk = true := by decide +kernel
  constructor
  · obtain ⟨result, ok⟩ := exists_of_isOk found
    exact ⟨result, ok, (lists_full .inOrder fourNodes (by decide) rfl (by decide +kernel) ok
      (v := 3) (by decide) nofun).1⟩
  · obtain ⟨result, ok⟩ := exists_of_isOk found'
    exact ⟨result, ok, ((lists_full .inOrder strayWalks (by decide) rfl (by decide +kernel) ok
      (v := 0) (by decide) fun _ => by decide).2.1 (by decide)).2⟩

end Search

end NeighbourGraph
