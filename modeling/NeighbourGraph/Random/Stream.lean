/-
Seeds of a run.

A run draws from one base seed. Each phase takes a stream from it, in the order in which phases
start, and each node of a phase has a generator of its own, seeded from the stream and the node
alone. What a node draws therefore depends neither on the other nodes nor on who works on them.
`mix` derives the seed with an index from a base: indices are spread by an odd multiple and the
result is scrambled by a bijection of 64-bit words.
-/

import NeighbourGraph.Random.Generator

namespace NeighbourGraph.Random

/-- `2 ^ 64` over the golden ratio, made odd. -/
def goldenGap : UInt64 := 0x9E3779B97F4A7C15

/-- The scrambling of splitmix64: one step by `goldenGap`, then xor-shifts and odd products. -/
def splitmix (s : UInt64) : UInt64 :=
  let x := s + goldenGap
  let y := (x ^^^ (x >>> 30)) * 0xBF58476D1CE4E5B9
  let z := (y ^^^ (y >>> 27)) * 0x94D049BB133111EB
  z ^^^ (z >>> 31)

/-- The seed with the given index under a base. -/
def mix (base index : UInt64) : UInt64 := splitmix (base ^^^ ((index + 1) * goldenGap))

/-- The seed of one phase. -/
structure Stream where
  seed : UInt64
  deriving DecidableEq, Repr

/-- The generator of a node in a phase. -/
def Stream.generator (s : Stream) (node : Nat) : Generator :=
  Generator.ofSeed (mix s.seed node.toUInt64)

/-- Hands out the streams of a run. -/
structure Streams where
  base : UInt64
  next : UInt64 := 0
  deriving DecidableEq, Repr

/-- The next stream. -/
def Streams.take (s : Streams) : Stream × Streams :=
  (⟨mix s.base s.next⟩, { s with next := s.next + 1 })

end NeighbourGraph.Random
