/-
Relations between searches that phases inherit from single steps.

The work on a node asks for scores and offers candidates in two places only: `consider` and
`joinBoth`. A relation that is `Comparing` under two setups holds of them and so of the joins around
every node; `Steps` collects what it has to hold of besides to hold of all work on a node, and
`Phases` is how a phase inherits it from the nodes. With both, two searches are related until their
lists are refined.
-/

import NeighbourGraph.Proofs.Search.Congruence

namespace NeighbourGraph

open NeighbourGraph.Random NeighbourGraph.Search

/-- Two setups under which the same pairs are excluded and the same random words are taken. -/
structure Setup.SameRules (setup setup' : Setup) : Prop where
  graph : setup.graph = setup'.graph
  excluded : setup.excluded = setup'.excluded
  symmetric : setup.metric.symmetric = setup'.metric.symmetric
  sampler : setup.config.sampler = setup'.config.sampler
  randomJoins : setup.config.randomJoins = setup'.config.randomJoins

theorem Setup.SameRules.refl (setup : Setup) : setup.SameRules setup := ⟨rfl, rfl, rfl, rfl, rfl⟩

theorem Setup.SameRules.nodeCount {setup setup' : Setup} (rules : setup.SameRules setup') :
    setup.nodeCount = setup'.nodeCount :=
  congrArg Graph.nodeCount rules.graph

namespace Search

variable {R : {α : Type} → Search α → Search α → Prop} {setup setup' : Setup}

/-! ### Work -/

/-- Work that is related whatever random words it takes. -/
abbrev Works (R : {α : Type} → Search α → Search α → Prop) {α : Type} (w w' : Work α) : Prop :=
  ∀ g, R (w g) (w' g)

namespace Chained

variable {ι α β : Type} {w w' : Work α} (chained : Chained R)

include chained

theorem works_pure (a : α) : Works R (pure a) (pure a) := fun g => chained.pure (a, g)

theorem works_bind {f f' : α → Work β} (h : Works R w w') (rest : ∀ a, Works R (f a) (f' a)) :
    Works R (w >>= f) (w' >>= f') :=
  fun g => chained.bind (h g) fun r => rest r.1 r.2

theorem works_lift {p q : Search α} (h : R p q) : Works R (liftM p : Work α) (liftM q) :=
  fun _ => chained.bind h fun _ => chained.pure _

theorem works_draw (d : Draw α) : Works R (draw d) (draw d) := fun g => chained.pure (d g)

theorem works_mapM {f f' : ι → Work α} {is : List ι} (h : ∀ i ∈ is, Works R (f i) (f' i)) :
    Works R (is.mapM f) (is.mapM f') := by
  induction is with
  | nil => exact chained.works_pure []
  | cons i is ih =>
    rw [List.mapM_cons, List.mapM_cons]
    exact chained.works_bind (h i (by simp)) fun _ =>
      chained.works_bind (ih fun j hj => h j (by simp [hj])) fun _ => chained.works_pure _

theorem seeded (h : Works R w w') (stream : Stream) (v : Nat) :
    R (seeded stream v w) (seeded stream v w') :=
  chained.bind (h (stream.generator v)) fun _ => chained.pure _

end Chained

/-! ### The work on a node -/

/-- A chained relation that holds of the two places where work asks for scores and offers
candidates, as far as they belong to the given parts of a search, and of failures. -/
structure Comparing (R : {α : Type} → Search α → Search α → Prop) (setup setup' : Setup)
    (parts : Origin → Prop) : Prop extends Chained R where
  rules : setup.SameRules setup'
  consider {origin : Origin} (v c : Nat) : parts origin →
    Works R (consider setup origin v c) (consider setup' origin v c)
  joinBoth (a b : Nat) : parts .joining → setup.metric.symmetric = true →
    Works R (joinBoth setup a b) (joinBoth setup' a b)
  failed {α : Type} (cause : SearchError) : R (.failed cause : Search α) (.failed cause)

/-- Such a relation that holds of every other step on a node that touches the state, too. -/
structure Steps (R : {α : Type} → Search α → Search α → Prop) (setup setup' : Setup)
    (parts : Origin → Prop) : Prop extends Comparing R setup setup' parts where
  listOf (v : Nat) : R (listOf v) (listOf v)
  offered (v : Nat) (ids : List Nat) : R (record (.offered v ids)) (record (.offered v ids))
  splitNode (sampled v : Nat) : Works R (splitNode sampled v) (splitNode sampled v)

/-- Such a relation need not tell the parts apart if it holds of every score, of what is noted of
it and of every offer. -/
theorem Chained.comparing {parts : Origin → Prop} (chained : Chained R)
    (rules : setup.SameRules setup')
    (fails : ∀ {α : Type} (cause : SearchError), R (.failed cause : Search α) (.failed cause))
    (scored : ∀ origin a b, R (score setup origin a b) (score setup' origin a b))
    (considered : ∀ v c x, R (record (.considered v c x)) (record (.considered v c x)))
    (offered : ∀ origin v c x, Works R (offer setup origin v c x) (offer setup' origin v c x)) :
    Comparing R setup setup' parts where
  toChained := chained
  rules := rules
  consider {origin} v c _ :=
    chained.works_bind (chained.works_lift (scored origin v c)) fun x =>
      chained.works_bind (chained.works_lift (considered v c x)) fun _ =>
        chained.works_bind (offered origin v c x) fun _ => chained.works_pure _
  joinBoth a b _ _ := by
    unfold Search.joinBoth
    rw [rules.excluded]
    split
    · exact chained.works_pure _
    · exact chained.works_bind (chained.works_lift (scored .pairing a b)) fun x =>
        chained.works_bind (chained.works_lift (considered a b x)) fun _ =>
          chained.works_bind (chained.works_lift (considered b a x)) fun _ =>
            chained.works_bind (offered .joining a b x) fun _ =>
              chained.works_bind (offered .joining b a x) fun _ => chained.works_pure _
  failed := fails

namespace Comparing

variable {parts : Origin → Prop} (comparing : Comparing R setup setup' parts)

include comparing

theorem tryCandidate (sampling : parts .sampling) (v c : Nat) :
    Works R (tryCandidate setup v c) (tryCandidate setup' v c) := by
  unfold Search.tryCandidate
  rw [comparing.rules.excluded]
  split
  · exact comparing.works_pure _
  · exact comparing.consider v c sampling

theorem sampleCandidates (v count : Nat) :
    Works R (sampleCandidates setup v count) (sampleCandidates setup' v count) := by
  unfold Search.sampleCandidates
  rw [comparing.rules.sampler, comparing.rules.graph]
  refine comparing.works_bind (comparing.works_draw _) fun sampled => ?_
  split
  · exact comparing.works_pure _
  · exact comparing.works_lift (comparing.failed _)

theorem joinOne {origin : Origin} (part : parts origin) (a b : Nat) :
    Works R (joinOne setup origin a b) (joinOne setup' origin a b) := by
  unfold Search.joinOne
  rw [comparing.rules.excluded]
  split
  · exact comparing.works_pure _
  · exact comparing.consider a b part

theorem joinPair (joining : parts .joining) (a b : Nat) :
    Works R (joinPair setup a b) (joinPair setup' a b) := by
  unfold Search.joinPair
  rw [← comparing.rules.symmetric]
  split
  · exact comparing.works_pure _
  · split
    · next symmetric => exact comparing.joinBoth a b joining symmetric
    · exact comparing.works_bind (comparing.joinOne joining a b) fun _ =>
        comparing.works_bind (comparing.joinOne joining b a) fun _ => comparing.works_pure _

theorem joinWith (joining : parts .joining) (first : Nat) (others : List Nat) :
    Works R (joinWith setup first others) (joinWith setup' first others) :=
  comparing.works_bind (comparing.works_mapM fun c _ => comparing.joinPair joining first c) fun _ =>
    comparing.works_pure _

theorem joinNew (joining : parts .joining) (v : Nat) (old new : List Nat) :
    Works R (joinNew setup v old new) (joinNew setup' v old new) := by
  induction new with
  | nil => exact comparing.works_pure _
  | cons first rest ih =>
    exact comparing.works_bind (comparing.joinOne joining first v) fun _ =>
      comparing.works_bind (comparing.joinWith joining first rest) fun _ =>
        comparing.works_bind (comparing.joinWith joining first old) fun _ =>
          comparing.works_bind ih fun _ => comparing.works_pure _

theorem joinRandom (chance : parts .chance) (v count : Nat) :
    Works R (joinRandom setup v count) (joinRandom setup' v count) := by
  have other : Works R (joinOther setup v) (joinOther setup' v) := by
    unfold joinOther
    rw [comparing.rules.nodeCount]
    exact comparing.works_bind (comparing.works_draw _) fun _ => comparing.joinOne chance v _
  exact comparing.works_bind (comparing.works_mapM fun _ _ => other) fun _ => comparing.works_pure _

theorem joinNode (joining : parts .joining) (chance : parts .chance) (c : Candidates)
    (sampled v : Nat) : Works R (joinNode setup c sampled v) (joinNode setup' c sampled v) := by
  unfold Search.joinNode
  rw [comparing.rules.randomJoins]
  exact comparing.works_bind (comparing.works_draw _) fun old =>
    comparing.works_bind (comparing.works_draw _) fun new =>
      comparing.works_bind (comparing.joinNew joining v old new) fun _ =>
        comparing.works_bind (comparing.joinRandom chance v _) fun _ => comparing.works_pure _

end Comparing

theorem Steps.fillNode {parts : Origin → Prop} (steps : Steps R setup setup' parts)
    (sampling : parts .sampling) (count v : Nat) :
    Works R (fillNode setup count v) (fillNode setup' count v) :=
  steps.works_bind (steps.sampleCandidates v count) fun _ =>
    steps.works_bind (steps.works_mapM fun c _ => steps.tryCandidate sampling v c) fun _ =>
      steps.works_bind (steps.works_lift (steps.listOf v)) fun ids =>
        steps.works_bind (steps.works_lift (steps.offered v ids)) fun _ => steps.works_pure _

/-! ### Phases -/

/-- A congruence that phases inherit from the work on every node. -/
structure Phases (R : {α : Type} → Search α → Search α → Prop) (setup setup' : Setup)
    (schedule : Schedule) : Prop extends Congruence R where
  proceed (name : Phase) : R (proceed setup name) (proceed setup' name)
  report {e : Event} : e.isProgress = true → R (record e) (record e)
  phase (name : Phase) (round : Nat) {α : Type} {work work' : Nat → Search α} :
    (∀ v, R (work v) (work' v)) →
      R (phase setup (schedule name round) name work)
        (phase setup' (schedule name round) name work')

/-- What a task does is made of what it asks and notes and of the work on its nodes. -/
theorem Chained.overNodes (chained : Chained R) {name : Phase} {α : Type}
    {work work' : Nat → Search α} (proceed : R (proceed setup name) (proceed setup' name))
    (advanced : ∀ count, R (record (.advanced count)) (record (.advanced count)))
    (visit : ∀ v, R (visit name v) (visit name v)) (h : ∀ v, R (work v) (work' v))
    (p : Partition) : R (overNodes setup name work p) (overNodes setup' name work' p) := by
  have checked : ∀ v, R (checkpoint setup p v name) (checkpoint setup' p v name) := by
    intro v
    unfold checkpoint
    split
    · exact proceed
    · exact chained.pure _
  exact chained.bind (chained.mapM fun v _ => chained.bind (checked v) fun _ =>
    chained.bind (visit v) fun _ => h v) fun _ =>
      chained.bind (advanced _) fun _ => chained.pure _

/-- In order, the tasks of a phase follow one another. -/
theorem Congruence.phases_inOrder (congr : Congruence R)
    (nodeCount : setup.nodeCount = setup'.nodeCount) (tasks : setup.tasks = setup'.tasks)
    (proceed : ∀ name, R (proceed setup name) (proceed setup' name))
    (report : ∀ {e : Event}, e.isProgress = true → R (record e) (record e))
    (visit : ∀ name v, R (visit name v) (visit name v)) : Phases R setup setup' .inOrder where
  toCongruence := congr
  proceed := proceed
  report := report
  phase name _ {_} {work work'} h := by
    change R (Search.phase setup Turns.inOrder name work)
      (Search.phase setup' Turns.inOrder name work')
    rw [phase_inOrder, phase_inOrder, nodeCount, tasks]
    exact congr.bind (report rfl) fun _ =>
      congr.bind (congr.mapM fun p _ =>
        congr.overNodes (proceed name) (fun _ => report rfl) (visit name) h p) fun _ =>
          congr.bind (report rfl) fun _ => congr.pure _

namespace Phases

variable {schedule : Schedule} {parts : Origin → Prop} (phases : Phases R setup setup' schedule)
  (steps : Steps R setup setup' parts)

include phases steps

theorem fill (sampling : parts .sampling) (stream : Stream) (count : Nat) :
    R (fill setup (schedule .initialization 0) stream count)
      (fill setup' (schedule .initialization 0) stream count) :=
  phases.bind (phases.phase .initialization 0 fun v =>
    steps.seeded (steps.fillNode sampling count v) stream v) fun _ => phases.pure _

theorem candidates (round : Nat) (stream : Stream) (sampled : Nat) :
    R (candidates setup (schedule .split round) stream sampled)
      (candidates setup' (schedule .split round) stream sampled) := by
  unfold Search.candidates
  rw [steps.rules.nodeCount]
  exact phases.bind (phases.proceed .split) fun _ =>
    phases.bind (phases.phase .split round fun v =>
      steps.seeded (steps.splitNode sampled v) stream v) fun _ =>
    phases.bind (phases.proceed .reverse) fun _ => phases.bind (phases.report rfl) fun _ =>
      phases.bind (phases.report rfl) fun _ => phases.bind (phases.report rfl) fun _ =>
        phases.pure _

theorem join (joining : parts .joining) (chance : parts .chance) (round : Nat) (c : Candidates)
    (stream : Stream) (sampled : Nat) :
    R (join setup (schedule .join round) c stream sampled)
      (join setup' (schedule .join round) c stream sampled) :=
  phases.bind (phases.proceed .join) fun _ =>
    phases.bind (phases.phase .join round fun v =>
      steps.seeded (steps.joinNode joining chance c sampled v) stream v) fun _ => phases.pure _

/-- The lists are refined in related ways. -/
theorem refine (all : ∀ origin ≠ .pairing, parts origin) (course : setup.SameCourse setup')
    (k : ListSize) (limit : Nat) :
    R (refine setup schedule k limit) (refine setup' schedule k limit) :=
  phases.toCongruence.refine course (fun stream => phases.fill steps (all _ nofun) stream _)
    (fun round stream => phases.candidates steps round stream _)
    (fun round c stream => phases.join steps (all _ nofun) (all _ nofun) round c stream _) limit

/-- Whole searches are related, if dropping neighbours and a look at the lists are. -/
theorem descend (all : ∀ origin ≠ .pairing, parts origin) (extent : setup.SameExtent setup')
    (dropped : ∀ cutoff v, R (dropNode cutoff v) (dropNode cutoff v))
    (lists : R (atomic fun s => (s.lists, s)) (atomic fun s => (s.lists, s))) (k : ListSize) :
    R (descend setup schedule k) (descend setup' schedule k) :=
  phases.toCongruence.descend extent lists (fun stream => phases.fill steps (all _ nofun) stream _)
    (fun round stream => phases.candidates steps round stream _)
    (fun round c stream => phases.join steps (all _ nofun) (all _ nofun) round c stream _)
    fun cutoff => phases.bind (phases.proceed .cutoff) fun _ =>
      phases.phase .cutoff 0 fun v => dropped cutoff v

end Phases

end Search

end NeighbourGraph
