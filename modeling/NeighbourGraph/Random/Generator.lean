/-
The word generator: xoshiro256++ with a seed spread over its state by a congruential stream.

`Draw α` is a computation that takes words from a generator and leaves the next one.
-/

namespace NeighbourGraph.Random

/-- The state of xoshiro256++. -/
structure Generator where
  s0 : UInt64
  s1 : UInt64
  s2 : UInt64
  s3 : UInt64
  deriving DecidableEq, Repr, Inhabited

/-- A computation that takes words from a generator. -/
abbrev Draw := StateM Generator

theorem Draw.pure_apply {α : Type} (a : α) (g : Generator) : (pure a : Draw α) g = (a, g) := rfl

theorem Draw.bind_apply {α β : Type} (d : Draw α) (f : α → Draw β) (g : Generator) :
    (d >>= f) g = f (d g).1 (d g).2 := rfl

/-- `x` with its bits moved `k` places up, those pushed out coming back in below, for
`0 < k < 64`. -/
def rotateLeft (x k : UInt64) : UInt64 := (x <<< k) ||| (x >>> (64 - k))

/-- The word and the state that follow a state. -/
def Generator.next (g : Generator) : UInt64 × Generator :=
  let word := rotateLeft (g.s0 + g.s3) 23 + g.s0
  let s2 := g.s2 ^^^ g.s0
  let s3 := g.s3 ^^^ g.s1
  let s1 := g.s1 ^^^ s2
  let s0 := g.s0 ^^^ s3
  (word, ⟨s0, s1, s2 ^^^ (g.s1 <<< 17), rotateLeft s3 45⟩)

/-! ### Seeding -/

/-- One step of the congruential stream that spreads a seed. -/
def seedStep (s : UInt64) : UInt64 := s * 6364136223846793005 + 11634580027462260723

/-- The 32-bit word read from a state of the stream: an xor-shift, then a rotation to the right
by the top five bits. -/
def seedWord (s : UInt64) : UInt32 :=
  let x := (((s >>> 18) ^^^ s) >>> 27).toUInt32
  let turn := (s >>> 59).toUInt32
  (x >>> turn) ||| (x <<< ((32 - turn) % 32))

/-- Two words of the stream as one 64-bit word, the first one low, and the state after them. -/
def seedPair (s : UInt64) : UInt64 × UInt64 :=
  let first := seedStep s
  let second := seedStep first
  ((seedWord first).toUInt64 ||| ((seedWord second).toUInt64 <<< 32), second)

/-- The generator of a seed. -/
def Generator.ofSeed (seed : UInt64) : Generator :=
  let (s0, a) := seedPair seed
  let (s1, b) := seedPair a
  let (s2, c) := seedPair b
  let (s3, _) := seedPair c
  ⟨s0, s1, s2, s3⟩

/-! ### Words -/

/-- The next 64-bit word. -/
def word : Draw UInt64 := fun g => g.next

/-- The next 32-bit word: the upper half of a 64-bit word. -/
def halfWord : Draw UInt32 := do
  let w ← word
  return (w >>> 32).toUInt32

end NeighbourGraph.Random
