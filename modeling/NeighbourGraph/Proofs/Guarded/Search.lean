/-
Searches that check what they rely on.

A guarded search does what the search does, in the same actions and under the same turns, and checks
besides that every list and every row of candidates it looks up is there, that every draw is asked
for something there is, and that every pair that is scored, or announced with its score, consists of
two distinct nodes. Where a check fails there is a fault in place of a value. A fault of one task of
a phase shows when the phase is over.
-/

import NeighbourGraph.Proofs.Guarded.Draws
import NeighbourGraph.Search.Run

namespace NeighbourGraph.Guarded

open NeighbourGraph.Random NeighbourGraph.Search

/-- A search that may have a fault. -/
abbrev GuardedSearch := ExceptT Fault Search

/-- Work on a node that may have a fault. -/
abbrev GuardedWork := StateT Generator GuardedSearch

/-! ### Guards -/

/-- The pair has to be two distinct nodes. -/
def requirePair (setup : Setup) (left right : Nat) : GuardedSearch Unit :=
  if left < setup.nodeCount ∧ right < setup.nodeCount ∧ left ≠ right then pure ()
  else throw (.pair left right)

/-- The row of a node in a map of candidates. -/
def row (m : IdMap) (node : Nat) : GuardedSearch (List Nat) :=
  match m[node]? with
  | some ids => pure ids
  | none => throw (.row node)

/-- A search whose first action needs the list of a node. -/
def onList {α : Type} (node : Nat) : Search α → GuardedSearch α
  | .act action next =>
    .act (fun s =>
      if node < s.lists.size then (some (action s).1, (action s).2) else (none, s))
      fun
      | some answer => ExceptT.lift (next answer)
      | none => .done (.error (.list node))
  | other => ExceptT.lift other

/-- Takes random words. -/
def draw {α : Type} (d : GuardedDraw α) : GuardedWork α := fun g => ExceptT.mk (.done (d g))

/-- What several tasks came to, unless one of them had a fault. -/
def gather {α : Type} (tasks : Search (List (Except Fault α))) : GuardedSearch (List α) :=
  ExceptT.mk (tasks >>= fun answers => .done (answers.mapM id))

/-! ### Steps -/

def score (setup : Setup) (origin : Origin) (left right : Nat) : GuardedSearch Float := do
  requirePair setup left right
  Search.score setup origin left right

/-- Announces a scored candidate. -/
def announce (setup : Setup) (node candidate : Nat) (similarity : Float) : GuardedSearch Unit := do
  requirePair setup node candidate
  record (.considered node candidate similarity)

def offer (setup : Setup) (origin : Origin) (node candidate : Nat) (similarity : Float) :
    GuardedWork Nat := fun g =>
  onList node (Search.offer setup origin node candidate similarity g)

def consider (setup : Setup) (origin : Origin) (node candidate : Nat) : GuardedWork Tally := do
  let similarity ← score setup origin node candidate
  announce setup node candidate similarity
  let updates ← offer setup origin node candidate similarity
  return { updates, pairs := 1 }

/-! ### Filling the lists -/

def sampleCandidates (setup : Setup) (node count : Nat) : GuardedWork (List Nat) := do
  match ← draw (sample setup.config.sampler setup.graph node count) with
  | .ok candidates => return candidates
  | .error cause => (Search.failed (.walk cause) : Search (List Nat))

def tryCandidate (setup : Setup) (node candidate : Nat) : GuardedWork Tally := do
  if setup.excluded node candidate then return {}
  consider setup .sampling node candidate

def fillNode (setup : Setup) (count node : Nat) : GuardedWork Tally := do
  let candidates ← sampleCandidates setup node count
  let tallies ← candidates.mapM (tryCandidate setup node)
  let ids ← onList node (listOf node)
  record (.offered node ids)
  return Tally.total tallies

/-! ### Handing out entries -/

def splitNode (sampled node : Nat) : GuardedWork NeighbourList.Parts := fun g =>
  ExceptT.mk <| atomic fun s =>
    match s.lists[node]? with
    | none => (.error (.list node), s)
    | some l => match split l sampled g with
      | .error fault => (.error fault, s)
      | .ok ((l, parts), g) =>
        (.ok (parts, g), { s with lists := s.lists.setIfInBounds node l })

/-! ### Joining -/

def joinOne (setup : Setup) (origin : Origin) (base candidate : Nat) : GuardedWork Tally := do
  if base = candidate || setup.excluded base candidate then return {}
  consider setup origin base candidate

def joinBoth (setup : Setup) (first second : Nat) : GuardedWork Tally := do
  if setup.excluded first second then return {}
  let similarity ← score setup .pairing first second
  announce setup first second similarity
  announce setup second first similarity
  let a ← offer setup .joining first second similarity
  let b ← offer setup .joining second first similarity
  return { updates := a + b, pairs := 1 }

def joinPair (setup : Setup) (first second : Nat) : GuardedWork Tally := do
  if first = second then return {}
  if setup.metric.symmetric then joinBoth setup first second
  else
    let there ← joinOne setup .joining first second
    let back ← joinOne setup .joining second first
    return there + back

def joinWith (setup : Setup) (first : Nat) (others : List Nat) : GuardedWork Tally := do
  return Tally.total (← others.mapM (joinPair setup first))

def joinNew (setup : Setup) (node : Nat) (old : List Nat) : List Nat → GuardedWork Tally
  | [] => return {}
  | first :: rest => do
    let pivot ← joinOne setup .joining first node
    let among ← joinWith setup first rest
    let across ← joinWith setup first old
    return pivot + among + across + (← joinNew setup node old rest)

def joinOther (setup : Setup) (node : Nat) : GuardedWork Tally := do
  let other := Sampler.skip node (← draw (below (setup.nodeCount - 1)))
  joinOne setup .chance node other

def joinRandom (setup : Setup) (node count : Nat) : GuardedWork Tally := do
  let tallies ← (List.range count).mapM fun _ => joinOther setup node
  return { Tally.total tallies with updates := 0 }

def joinNode (setup : Setup) (c : Candidates) (sampled node : Nat) : GuardedWork Tally := do
  let old ← draw (workingSet (← row c.old node) (← row c.reverseOld node) sampled)
  let new ← draw (workingSet (← row c.new node) (← row c.reverseNew node) sampled)
  let joined ← joinNew setup node old new
  let random ← joinRandom setup node setup.config.randomJoins
  return joined + random

/-! ### Phases -/

def seeded {α : Type} (stream : Stream) (node : Nat) (work : GuardedWork α) : GuardedSearch α :=
  work.run' (stream.generator node)

def overNodes {α : Type} (setup : Setup) (name : Phase) (work : Nat → GuardedSearch α)
    (p : Partition) : GuardedSearch (List α) := do
  let answers ← p.nodes.mapM fun node => do
    checkpoint setup p node name
    visit name node
    work node
  record (.advanced p.count)
  return answers

def phase {α : Type} (setup : Setup) (turns : Turns) (name : Phase) (work : Nat → GuardedSearch α) :
    GuardedSearch (List α) := do
  record (.started name setup.nodeCount)
  let answers ← gather (together turns (setup.tasks.map fun p => overNodes setup name work p))
  record (.ended name)
  return answers.flatten

def fill (setup : Setup) (turns : Turns) (stream : Stream) (count : Nat) : GuardedSearch Tally := do
  let tallies ← phase setup turns .initialization fun node =>
    seeded stream node (fillNode setup count node)
  return Tally.total tallies

def candidates (setup : Setup) (turns : Turns) (stream : Stream) (sampled : Nat) :
    GuardedSearch Candidates := do
  proceed setup .split
  let parts ← phase setup turns .split fun node => seeded stream node (splitNode sampled node)
  proceed setup .reverse
  record (.started .reverse setup.nodeCount)
  record (.advanced setup.nodeCount)
  record (.ended .reverse)
  return { old := (parts.map (·.old)).toArray, new := (parts.map (·.new)).toArray }

def join (setup : Setup) (turns : Turns) (c : Candidates) (stream : Stream) (sampled : Nat) :
    GuardedSearch Tally := do
  proceed setup .join
  let tallies ← phase setup turns .join fun node =>
    seeded stream node (joinNode setup c sampled node)
  return Tally.total tallies

/-! ### Whole searches -/

def iteration (setup : Setup) (turns : Phase → Turns) (sampled : Nat)
    (splitStream joinStream : Stream) : GuardedSearch Tally := do
  (atomic fun s => ((), { s with rounds := s.rounds.push none }) : Search Unit)
  let c ← candidates setup (turns .split) splitStream sampled
  let tally ← join setup (turns .join) c joinStream sampled
  (atomic fun s => ((), { s with rounds := s.rounds.pop.push (some tally) }) : Search Unit)
  return tally

def iterate (setup : Setup) (schedule : Schedule) (sampled threshold : Nat) (streams : Streams)
    (soFar : Refinement) : Nat → GuardedSearch Refinement
  | 0 => return soFar
  | limit + 1 => do
    let (splitStream, streams) := streams.take
    let (joinStream, streams) := streams.take
    let tally ←
      iteration setup (schedule · soFar.iterations) sampled splitStream joinStream
    let iterations := soFar.iterations + 1
    let pairs := soFar.pairs + tally.pairs
    if tally.updates ≤ threshold then return { iterations, converged := true, pairs }
    else iterate setup schedule sampled threshold streams { iterations, pairs } limit

def refine (setup : Setup) (schedule : Schedule) (k : ListSize) (limit : Nat) :
    GuardedSearch Refinement := do
  let (stream, streams) := ({ base := setup.seed } : Streams).take
  let filled ← fill setup (schedule .initialization 0) stream k.bounded
  let threshold := setup.config.updateThreshold setup.nodeCount
  iterate setup schedule k.sampled threshold streams { pairs := filled.pairs } limit

def applyCutoff (setup : Setup) (turns : Turns) : GuardedSearch Unit := do
  let cutoff := setup.config.similarityCutoff
  if 0.0 < cutoff then
    proceed setup .cutoff
    let _ ← phase setup turns .cutoff fun node => onList node (dropNode cutoff node)

def descend (setup : Setup) (schedule : Schedule) (k : ListSize) : GuardedSearch Result := do
  let refined ← refine setup schedule k setup.config.maxIterations
  applyCutoff setup (schedule .cutoff 0)
  let lists ← (atomic fun s => (s.lists, s) : Search (Array NeighbourList))
  return ⟨lists.map NeighbourList.neighbours, refined.iterations, refined.converged,
    refined.pairs, lists.size⟩

/-- The run of a search, or the fault it had. -/
def runUnder (schedule : Schedule) (setup : Setup) : Except Fault Run :=
  match setup.metric.nodeCount with
  | some covered =>
    if covered ≠ setup.nodeCount then
      .ok { outcome := .error (.nodeCountMismatch setup.nodeCount covered) }
    else go
  | none => go
where
  go : Except Fault Run :=
    if setup.nodeCount < 2 then .ok { outcome := .ok (.empty setup.nodeCount) }
    else if setup.stopped #[] then
      .ok { outcome := .error (.cancelled Phase.initialization.name) }
    else
      match ListSize.of setup.config.topK setup.config.sampleRate setup.nodeCount with
      | .error cause => .ok { outcome := .error (.settings cause) }
      | .ok k =>
        let (outcome, state) :=
          Search.exec (descend setup schedule k) (.start setup.nodeCount k.bounded)
        let ran (outcome : Except SearchError Result) : Run :=
          ⟨outcome, state.log, state.rounds.toList, state.visits.toList⟩
        match outcome with
        | .error cause => .ok (ran (.error cause))
        | .ok (.error fault) => .error fault
        | .ok (.ok result) => .ok (ran (.ok result))

end NeighbourGraph.Guarded
