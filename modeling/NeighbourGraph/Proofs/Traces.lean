/-
What a run announces.

A run that has a result goes through the initialization, through a split, a reverse and a join
phase for each of its iterations and through a cutoff phase if there is a cutoff, and announces no
list that a node has not at that moment. A run that fails has logged the beginning of such a trace,
in which no phase but the last one can be open.

Runs here are carried out one partition after the other.
-/

import NeighbourGraph.Proofs.Search.Brackets
import NeighbourGraph.Proofs.Search.Written

namespace NeighbourGraph

open NeighbourGraph.Random NeighbourGraph.Search

namespace Search

/-! ### Work within a phase -/

/-- A search within a phase that does as much work and announces the lists of these nodes; failing,
it has done no more. -/
abbrev Advances (n amount : Nat) (nodes : List Nat) {α : Type} (p : Search α) : Prop :=
  Writes n (fun _ => Inside amount nodes) (Partway amount nodes) p

section

variable {setup : Setup} {n amount amount' : Nat} {nodes nodes' : List Nat} {ι α β : Type}
  {p : Search α}

theorem advances_pure (a : α) : Advances n 0 [] (pure a : Search α) := writes_pure inside_nil

theorem advances_failed (cause : SearchError) (amount : Nat) (nodes : List Nat) :
    Advances n amount nodes (.failed cause : Search α) :=
  writes_failed (partway_nil amount nodes)

theorem Advances.bind {f : α → Search β} (h : Advances n amount nodes p)
    (rest : ∀ a, Advances n amount' nodes' (f a)) :
    Advances n (amount + amount') (nodes ++ nodes') (p >>= f) :=
  Writes.bind h rest (fun _ _ _ _ => Inside.append) (fun _ partway => partway.more _ _)
    fun _ _ _ => Inside.partway

/-- Before other work, what reports none and announces no list makes no difference. -/
theorem Advances.before {f : α → Search β} (h : Advances n 0 [] p)
    (rest : ∀ a, Advances n amount nodes (f a)) : Advances n amount nodes (p >>= f) := by
  have := h.bind rest
  rwa [Nat.zero_add, List.nil_append] at this

theorem Advances.map (h : Advances n amount nodes p) (f : α → β) :
    Advances n amount nodes (do let a ← p; return f a) := by
  have := h.bind fun a => advances_pure (f a)
  rwa [Nat.add_zero, List.append_nil] at this

theorem advances_mapM {f : ι → Search α} {amounts : ι → Nat} {announced : ι → List Nat}
    {is : List ι} (h : ∀ i ∈ is, Advances n (amounts i) (announced i) (f i)) :
    Advances n (is.map amounts).sum (is.flatMap announced) (is.mapM f) := by
  induction is with
  | nil => exact advances_pure []
  | cons i is ih =>
    rw [List.mapM_cons, List.map_cons, List.sum_cons, List.flatMap_cons]
    exact (h i (by simp)).bind fun a => (ih fun j hj => h j (by simp [hj])).map (a :: ·)

/-- An event that reports no work and announces no list. -/
theorem advances_record {e : Event} (within : e.isWithin = true)
    (unannounced : e.announced? = none) : Advances n e.amount [] (record e) := by
  refine writes_record ?_ ⟨by simpa using within, by simp, by simp [unannounced]⟩
  rintro v ids rfl
  cases unannounced

/-- What a search does to a list is nothing that a trace shows. -/
theorem advances_withList (v : Nat) (f : NeighbourList → α × NeighbourList) (a : α) :
    Advances n 0 [] (atomic fun s => s.withList v f a) :=
  writes_silent (fun s => by rw [State.lists_withList, Array.size_modify])
    (fun s => s.log_withList ..) fun _ => inside_nil

theorem advances_countEntered (origin : Origin) (v c : Nat)
    (f : NeighbourList → (Bool × Generator) × NeighbourList) (a : Bool × Generator) :
    Advances n 0 [] (atomic fun s => State.countEntered origin v c (s.withList v f a)) := by
  have sizes : ∀ s : State, (s.withList v f a).2.lists.size = s.lists.size := fun s => by
    rw [State.lists_withList, Array.size_modify]
  refine writes_atomic (fun s => ?_) fun s => ?_
  · rw [← sizes s]
    rcases s.withList v f a with ⟨⟨_ | _, g⟩, t⟩ <;> rfl
  · have same : (s.withList v f a).2.log = s.log := s.log_withList ..
    generalize s.withList v f a = r at same
    obtain ⟨⟨entered, g⟩, t⟩ := r
    dsimp only at same
    cases entered with
    | false => exact ⟨[], by simp [State.countEntered, same], by simp, inside_nil⟩
    | true =>
      exact ⟨[.entered origin v c], by simp [State.countEntered, State.record, same], by simp,
        by simp [Event.isWithin], rfl, rfl⟩

theorem advances_score (origin : Origin) (a b : Nat) :
    Advances n 0 [] (score setup origin a b) := by
  have asked : Advances n 0 [] (record (.scored origin a b)) :=
    advances_record (e := .scored origin a b) rfl rfl
  refine asked.before fun _ => ?_
  cases setup.metric.score a b with
  | ok similarity => exact advances_pure similarity
  | error cause => exact advances_failed _ 0 []

/-- Nothing that nodes are compared by is work that is reported or a list that is announced. -/
theorem comparing_advances (setup : Setup) (n : Nat) :
    Comparing (fun p _ => Advances n 0 [] p) setup setup fun _ => True :=
  Chained.comparing ⟨advances_pure, Advances.before⟩ (.refl setup)
    (fun cause => advances_failed cause 0 []) advances_score
    (fun v c x => advances_record (e := .considered v c x) rfl rfl)
    fun origin v c _ _ => advances_countEntered origin v c _ _

/-- Filling the list of a node announces it, as the last thing and so as it is then. -/
theorem advances_fillNode {v : Nat} (hv : v < n) (stream : Stream) (count : Nat) :
    Advances n 0 [v] (seeded stream v (fillNode setup count v)) := by
  have comparing := comparing_advances setup n
  have announced : ∀ (tallies : List Tally) g, Advances n 0 [v] ((do
      record (.offered v (← listOf v))
      return Tally.total tallies : Work Tally) g) :=
    fun tallies g => writes_announce (b := (Tally.total tallies, g)) hv fun ids =>
      ⟨by simp [Event.isWithin], rfl, rfl⟩
  have work : ∀ g, Advances n 0 [v] (fillNode setup count v g) := fun g =>
    Advances.before (comparing.sampleCandidates v count g) fun sampled =>
      Advances.before (comparing.works_mapM (fun c _ => comparing.tryCandidate trivial v c) sampled.2)
        fun tried => announced tried.1 tried.2
  exact (work _).map Prod.fst

/-! ### Phases -/

theorem advances_checkpoint (p : Partition) (v : Nat) (name : Phase) :
    Advances n 0 [] (checkpoint setup p v name) := by
  unfold checkpoint
  split
  · exact writes_proceed name inside_nil (partway_nil 0 [])
  · exact advances_pure _

/-- A task reports as much work as it has nodes. -/
theorem advances_overNodes {name : Phase} {work : Nat → Search α} {announced : Nat → List Nat}
    {p : Partition} (h : ∀ v ∈ p.nodes, Advances n 0 (announced v) (work v)) :
    Advances n p.count (p.nodes.flatMap announced) (overNodes setup name work p) := by
  have visited : ∀ v, Advances n 0 [] (visit name v) := fun _ =>
    writes_silent (fun _ => rfl) (fun _ => rfl) fun _ => inside_nil
  have node : ∀ v ∈ p.nodes, Advances n 0 (announced v) (do
      checkpoint setup p v name
      visit name v
      work v) := fun v hv =>
    (advances_checkpoint p v name).before fun _ => (visited v).before fun _ => h v hv
  have reported : Advances n p.count [] (record (.advanced p.count)) :=
    advances_record (e := .advanced p.count) rfl rfl
  have all := (advances_mapM node).bind fun answers => reported.map fun _ => answers
  have noAmount : (p.nodes.map fun _ => 0).sum = 0 := by simp
  rw [noAmount, Nat.zero_add, List.append_nil] at all
  exact all

/-- All tasks together report as much work as there are nodes. -/
theorem sum_count_tasks (setup : Setup) :
    (setup.tasks.map Partition.count).sum = setup.nodeCount := by
  have nodes := congrArg List.length (flatMap_nodes_partitions setup.config.concurrency
    setup.nodeCount setup.config.minBatchSize)
  simpa [Setup.tasks, List.length_flatMap, Partition.nodes] using nodes

/-- A search that goes through whole phases of these names; failing, it is in one of them. -/
abbrev Undergoes (n : Nat) (names : List Phase) {α : Type} (p : Search α) : Prop :=
  Writes n (fun _ => Trace n names) (TracePart n names) p

theorem undergoes_pure (a : α) : Undergoes n [] (pure a : Search α) := writes_pure .nil

theorem Undergoes.bind {names names' : List Phase} {f : α → Search β} (h : Undergoes n names p)
    (rest : ∀ a, Undergoes n names' (f a)) : Undergoes n (names ++ names') (p >>= f) :=
  Writes.bind h rest (fun _ _ _ _ => Trace.append) (fun _ part => part.more _)
    fun _ _ _ => Trace.part

theorem Undergoes.map {names : List Phase} (h : Undergoes n names p) (f : α → β) :
    Undergoes n names (do let a ← p; return f a) := by
  have := h.bind fun a => undergoes_pure (f a)
  rwa [List.append_nil] at this

theorem undergoes_proceed (name : Phase) : Undergoes n [] (proceed setup name) :=
  writes_proceed name .nil (.stopped [])

theorem undergoes_rounds (f : State → Array (Option Tally)) :
    Undergoes n [] (atomic fun s => ((), { s with rounds := f s })) :=
  writes_silent (fun _ => rfl) (fun _ => rfl) fun _ => .nil

/-- Between its beginning and its end, a phase does as much work as it has announced. -/
theorem undergoes_bracket {name : Phase} (h : Advances n n (announcedIn name n) p) (f : α → β) :
    Undergoes n [name] (do
      record (.started name n)
      let a ← p
      record (.ended name)
      return f a) := by
  have started : Writes n (fun _ events => events = [.started name n]) (fun _ => False)
      (record (.started name n)) := writes_record nofun rfl
  have ended : Writes n (fun _ events => events = [.ended name]) (fun _ => False)
      (record (.ended name)) := writes_record nofun rfl
  have closed : ∀ a, Writes n (fun _ events => events = [.ended name]) (fun _ => False)
      (do record (.ended name); return f a) := fun a =>
    ended.map (fun _ => f a) fun _ _ => id
  -- Past its beginning, the phase comes to its end or breaks off among what is logged within.
  have inner : Writes n (fun _ events => ∃ inner, events = inner ++ [.ended name] ∧
      Inside n (announcedIn name n) inner) (Partway n (announcedIn name n))
      (do let a ← p; record (.ended name); return f a) :=
    Writes.bind h closed (fun _ _ inner _ inside eq => ⟨inner, eq ▸ rfl, inside⟩) (fun _ => id)
      fun _ _ _ _ => False.elim
  refine started.bind (fun _ => inner) ?_ (fun _ => False.elim) ?_
  · rintro _ _ _ _ rfl ⟨inner, rfl, inside⟩
    exact Bracket.trace ⟨inner, by simp, inside⟩
  · rintro _ _ inner rfl partway
    exact .opened ⟨inner, rfl, partway⟩

/-- A phase is a whole one, if the work on each node announces what it is to announce. -/
theorem undergoes_phase {name : Phase} {work : Nat → Search α} (announced : Nat → List Nat)
    (h : ∀ v < setup.nodeCount, Advances setup.nodeCount 0 (announced v) (work v))
    (all : (List.range setup.nodeCount).flatMap announced = announcedIn name setup.nodeCount) :
    Undergoes setup.nodeCount [name] (phase setup Turns.inOrder name work) := by
  -- The tasks share out the nodes in order, so the amounts add up and the lists are in order.
  have nodes : setup.tasks.flatMap Partition.nodes = List.range setup.nodeCount :=
    flatMap_nodes_partitions ..
  have known : ∀ p ∈ setup.tasks, ∀ v ∈ p.nodes, v < setup.nodeCount := fun p hp v hv =>
    List.mem_range.1 (nodes ▸ List.mem_flatMap.2 ⟨p, hp, hv⟩)
  have task : ∀ p ∈ setup.tasks, Advances setup.nodeCount p.count (p.nodes.flatMap announced)
      (overNodes setup name work p) := fun p hp =>
    advances_overNodes fun v hv => h v (known p hp v hv)
  have tasks := advances_mapM task
  rw [sum_count_tasks, ← List.flatMap_assoc, nodes, all] at tasks
  rw [phase_inOrder]
  exact undergoes_bracket tasks List.flatten

/-! ### Searches -/

theorem undergoes_fill (setup : Setup) (stream : Stream) (count : Nat) :
    Undergoes setup.nodeCount [.initialization]
      (fill setup (Schedule.inOrder .initialization 0) stream count) := by
  have filled : Undergoes setup.nodeCount [.initialization]
      (phase setup Turns.inOrder .initialization fun v =>
        seeded stream v (fillNode setup count v)) :=
    undergoes_phase (fun v => [v]) (fun v hv => advances_fillNode hv stream count)
      (by simp [announcedIn])
  exact filled.map Tally.total

theorem undergoes_candidates (setup : Setup) (round : Nat) (stream : Stream) (sampled : Nat) :
    Undergoes setup.nodeCount [.split, .reverse]
      (candidates setup (Schedule.inOrder .split round) stream sampled) := by
  have split : Undergoes setup.nodeCount [.split]
      (phase setup Turns.inOrder .split fun v => seeded stream v (splitNode sampled v)) :=
    undergoes_phase (fun _ => [])
      (fun v _ => (advances_withList v _ _).map Prod.fst) (by simp [announcedIn])
  have reverse : ∀ parts : List NeighbourList.Parts, Undergoes setup.nodeCount [.reverse] (do
      record (.started .reverse setup.nodeCount)
      record (.advanced setup.nodeCount)
      record (.ended .reverse)
      return { old := (parts.map (·.old)).toArray, new := (parts.map (·.new)).toArray :
        Candidates }) := fun parts =>
    undergoes_bracket (advances_record (e := .advanced setup.nodeCount) rfl rfl) fun _ => _
  exact (undergoes_proceed .split).bind fun _ => split.bind fun parts =>
    (undergoes_proceed .reverse).bind fun _ => reverse parts

theorem undergoes_join (setup : Setup) (round : Nat) (c : Candidates) (stream : Stream)
    (sampled : Nat) :
    Undergoes setup.nodeCount [.join]
      (join setup (Schedule.inOrder .join round) c stream sampled) := by
  have joined : Undergoes setup.nodeCount [.join]
      (phase setup Turns.inOrder .join fun v => seeded stream v (joinNode setup c sampled v)) :=
    undergoes_phase (fun _ => [])
      (fun v _ => (comparing_advances setup _).seeded
        ((comparing_advances setup _).joinNode trivial trivial c sampled v) stream v)
      (by simp [announcedIn])
  exact (undergoes_proceed .join).bind fun _ => joined.map Tally.total

theorem undergoes_iteration (setup : Setup) (round sampled : Nat)
    (splitStream joinStream : Stream) :
    Undergoes setup.nodeCount [.split, .reverse, .join]
      (iteration setup (Schedule.inOrder · round) sampled splitStream joinStream) :=
  (undergoes_rounds _).bind fun _ => (undergoes_candidates setup round splitStream sampled).bind
    fun c => (undergoes_join setup round c joinStream sampled).bind fun tally =>
      (undergoes_rounds _).map fun _ => tally

/-- The phases after the iterations: there is one if there is a cutoff. -/
def cutoffPhases (setup : Setup) : List Phase :=
  if 0.0 < setup.config.similarityCutoff then [.cutoff] else []

theorem undergoes_applyCutoff (setup : Setup) :
    Undergoes setup.nodeCount (cutoffPhases setup)
      (applyCutoff setup (Schedule.inOrder .cutoff 0)) := by
  unfold applyCutoff cutoffPhases
  dsimp only
  split
  · have cut : Undergoes setup.nodeCount [.cutoff]
        (phase setup Turns.inOrder .cutoff (dropNode setup.config.similarityCutoff)) :=
      undergoes_phase (fun _ => []) (fun v _ => advances_withList v _ _)
        (by simp [announcedIn])
    exact (undergoes_proceed .cutoff).bind fun _ => cut.map fun _ => ()
  · exact undergoes_pure ()

/-- The phases of a number of iterations. -/
def rounds (iterations : Nat) : List Phase :=
  (List.replicate iterations [.split, .reverse, .join]).flatten

theorem rounds_succ (iterations : Nat) :
    rounds (iterations + 1) = [.split, .reverse, .join] ++ rounds iterations := by
  simp [rounds, List.replicate_succ]

/-- A loop with so many iterations done that goes through the phases of those it adds, `limit` at
most; failing, through the phases of as many as it had begun. -/
abbrev Iterates (n past limit : Nat) (p : Search Refinement) : Prop :=
  Writes n
    (fun refinement events => ∃ more ≤ limit, refinement.iterations = past + more ∧
      Trace n (rounds more) events)
    (fun events => ∃ more ≤ limit, TracePart n (rounds more) events) p

theorem iterates_pure {refinement : Refinement} {past : Nat} (h : refinement.iterations = past)
    (limit : Nat) : Iterates n past limit (pure refinement) :=
  writes_pure ⟨0, Nat.zero_le _, h, .nil⟩

/-- A loop goes on after an iteration. If the iteration fails, it is the last one begun. -/
theorem Iterates.after {past limit : Nat} {f : α → Search Refinement}
    (h : Undergoes n [.split, .reverse, .join] p) (rest : ∀ a, Iterates n (past + 1) limit (f a)) :
    Iterates n past (limit + 1) (p >>= f) := by
  refine Writes.bind h rest ?_ ?_ ?_
  · rintro _ refinement events later first ⟨more, le, iterations, trace⟩
    refine ⟨more + 1, by omega, by omega, ?_⟩
    rw [rounds_succ]
    exact first.append trace
  · intro events part
    refine ⟨1, by omega, ?_⟩
    rw [rounds_succ]
    exact part.more _
  · rintro _ events later first ⟨more, le, part⟩
    refine ⟨more + 1, by omega, ?_⟩
    rw [rounds_succ]
    exact first.part part

theorem iterates_iterate (setup : Setup) (sampled threshold limit : Nat) (streams : Streams)
    (soFar : Refinement) :
    Iterates setup.nodeCount soFar.iterations limit
      (iterate setup .inOrder sampled threshold streams soFar limit) := by
  induction limit generalizing streams soFar with
  | zero => exact iterates_pure rfl 0
  | succ limit ih =>
    refine Iterates.after (undergoes_iteration setup soFar.iterations sampled _ _) fun tally => ?_
    split
    · apply iterates_pure
      rfl
    · exact ih _ { iterations := soFar.iterations + 1, pairs := soFar.pairs + tally.pairs }

/-- The phases of a run with a number of iterations. -/
def phasesOf (setup : Setup) (iterations : Nat) : List Phase :=
  .initialization :: rounds iterations ++ cutoffPhases setup

theorem writes_refine (setup : Setup) (k : ListSize) (limit : Nat) :
    Writes setup.nodeCount
      (fun refinement events => refinement.iterations ≤ limit ∧
        Trace setup.nodeCount (.initialization :: rounds refinement.iterations) events)
      (fun events => ∃ iterations ≤ limit,
        TracePart setup.nodeCount (.initialization :: rounds iterations) events)
      (refine setup .inOrder k limit) := by
  refine Writes.bind (undergoes_fill setup _ _) (fun _ => iterates_iterate setup _ _ limit _ _) ?_
    (fun events part => ⟨0, Nat.zero_le _, part.more _⟩) ?_
  · rintro _ refinement events later first ⟨more, le, iterations, trace⟩
    obtain rfl : refinement.iterations = more := iterations.trans (Nat.zero_add more)
    exact ⟨le, first.append trace⟩
  · rintro _ events later first ⟨more, le, part⟩
    exact ⟨more, le, first.part part⟩

/-- After the iterations there is a cutoff phase or none, whatever becomes of the lists. -/
theorem writes_ending (setup : Setup) (iterations : Nat) {f : Array NeighbourList → Result}
    (h : ∀ lists, (f lists).iterations = iterations) :
    Writes setup.nodeCount
      (fun result events => result.iterations = iterations ∧
        Trace setup.nodeCount (cutoffPhases setup) events)
      (TracePart setup.nodeCount (cutoffPhases setup))
      (do
        applyCutoff setup (Schedule.inOrder .cutoff 0)
        let lists ← atomic fun s => (s.lists, s)
        return f lists) := by
  have lists : Undergoes setup.nodeCount [] (atomic fun s => (s.lists, s)) :=
    writes_silent (fun _ => rfl) (fun _ => rfl) fun _ => .nil
  have returned : Writes setup.nodeCount
      (fun result events => result.iterations = iterations ∧ Trace setup.nodeCount [] events)
      (TracePart setup.nodeCount [])
      (do let lists ← atomic fun s => (s.lists, s); return f lists) :=
    Writes.map lists f fun all _ empty => ⟨h all, empty⟩
  refine Writes.bind (undergoes_applyCutoff setup) (fun _ => returned) ?_ (fun _ => id) ?_
  · rintro _ result events later cut ⟨same, empty⟩
    exact ⟨same, by simpa using cut.append empty⟩
  · intro _ events later cut empty
    simpa using cut.part empty

theorem writes_descend (setup : Setup) (k : ListSize) :
    Writes setup.nodeCount
      (fun result events => Trace setup.nodeCount (phasesOf setup result.iterations) events)
      (fun events => ∃ iterations ≤ setup.config.maxIterations,
        TracePart setup.nodeCount (phasesOf setup iterations) events)
      (descend setup .inOrder k) := by
  refine (writes_refine setup k _).bind
    (fun refinement => writes_ending setup refinement.iterations fun _ => rfl) ?_ ?_ ?_
  · rintro refinement result events later ⟨-, first⟩ ⟨iterations, cut⟩
    rw [phasesOf, iterations]
    exact first.append cut
  · rintro events ⟨iterations, le, part⟩
    exact ⟨iterations, le, part.more _⟩
  · rintro refinement events later ⟨le, first⟩ cut
    exact ⟨refinement.iterations, le, first.part cut⟩

end

/-! ### Runs -/

/-- A run comes through the state, from empty lists on. -/
def ComesThrough (setup : Setup) (u : State) : Prop :=
  ∃ k, ListSize.of setup.config.topK setup.config.sampleRate setup.nodeCount = .ok k ∧
    Passes (descend setup .inOrder k) (.start setup.nodeCount k.bounded) u

/-- **Runs leave whole traces.** A run over at least two nodes that has a result logs a whole trace:
the initialization, a split, a reverse and a join phase for each of its iterations, and a cutoff
phase if there is a cutoff. One that fails logs the beginning of such a trace, of which only the
last phase can be open. Whenever the list of a node is announced, the node has that list. -/
theorem run_trace (setup : Setup) :
    (∀ result, (run setup).outcome = .ok result → 2 ≤ setup.nodeCount →
      Trace setup.nodeCount (phasesOf setup result.iterations) (run setup).log.toList) ∧
    (∀ cause, (run setup).outcome = .error cause →
      ∃ iterations ≤ setup.config.maxIterations,
        TracePart setup.nodeCount (phasesOf setup iterations) (run setup).log.toList ∧
        ∃ rest, Trace setup.nodeCount (phasesOf setup iterations)
          ((run setup).log.toList ++ rest)) ∧
    ∀ before v ids after, (run setup).log.toList = before ++ .offered v ids :: after →
      ∃ u, ComesThrough setup u ∧ u.log.toList = before ++ [.offered v ids] ∧ u.Holds v ids := by
  have way := outset .inOrder setup
  unfold run
  generalize runUnder .inOrder setup = r at way
  -- A run that fails before its first phase has logged nothing.
  have stopped : ∃ iterations ≤ setup.config.maxIterations,
      TracePart setup.nodeCount (phasesOf setup iterations) [] ∧
      ∃ rest, Trace setup.nodeCount (phasesOf setup iterations) ([] ++ rest) :=
    ⟨0, Nat.zero_le _, .stopped _, (TracePart.stopped _).completes⟩
  cases way with
  | uncovered | told => exact ⟨nofun, fun _ _ => stopped, by simp⟩
  | few _ few => exact ⟨fun _ _ others => by omega, nofun, by simp⟩
  | @goesOn k _ _ _ size =>
    obtain ⟨events, written⟩ := writes_descend setup k (.start setup.nodeCount k.bounded) (by
      simp [State.start])
    have log := written.log
    rw [show (State.start setup.nodeCount k.bounded).log.toList = [] from rfl, List.nil_append]
      at log
    refine ⟨fun result ok _ => ?_, fun cause fails => ?_, fun before v ids after eq => ?_⟩
    · exact (congrArg _ log).mpr (written.whole result ok)
    · obtain ⟨iterations, le, part⟩ := written.part cause fails
      exact ⟨iterations, le, log ▸ part, log ▸ part.completes⟩
    · obtain ⟨u, passes, logged, holds⟩ :=
        written.truthful before v ids after (log.symm.trans eq)
      exact ⟨u, ⟨k, size, passes⟩, by simpa [State.start] using logged, holds⟩

/-- Four nodes, of a search that is told to stop soon. -/
def stoppedNodes : Setup := { fourNodes with stopped := Log.reaches Event.isAnnounced 20 }

theorem fourNodes_trace :
    (∃ result, (run fourNodes).outcome = .ok result ∧
      Trace 4 (phasesOf fourNodes result.iterations) (run fourNodes).log.toList) ∧
    ∃ cause, (run stoppedNodes).outcome = .error cause ∧ ∃ iterations ≤ 3,
      TracePart 4 (phasesOf stoppedNodes iterations) (run stoppedNodes).log.toList := by
  have found : (run fourNodes).outcome.isOk = true := by decide +kernel
  have cancelled : (run stoppedNodes).outcome.isOk = false := by decide +kernel
  constructor
  · obtain ⟨result, ok⟩ := exists_of_isOk found
    exact ⟨result, ok, (run_trace fourNodes).1 result ok (by decide)⟩
  · obtain ⟨cause, fails⟩ := exists_of_not_isOk cancelled
    obtain ⟨iterations, le, part, -⟩ := (run_trace stoppedNodes).2.1 cause fails
    exact ⟨cause, fails, iterations, le, part⟩

end Search

end NeighbourGraph
