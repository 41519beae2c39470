/-
Kernels: scores of two vectors, two numbers or two sorted lists of ids.

Features are binary32 and are widened before anything is computed with them. Accumulations run
from left to right over the pairs that both vectors have.
-/

import NeighbourGraph.Number.Count

namespace NeighbourGraph.Kernel

open NeighbourGraph.Number

/-- `x` moved to the nearest end of `[0, 1]` if it lies outside; NaN stays NaN. -/
def clampUnit (x : Float) : Float := if x < 0.0 then 0.0 else if 1.0 < x then 1.0 else x

/-- A vector of features, widened. -/
def widened (v : List Float32) : List Float := v.map Float32.toFloat

/-! ### Vectors -/

/-- The products that cosine and correlation are made of. -/
structure Moments where
  cross : Float := 0.0
  left : Float := 0.0
  right : Float := 0.0

/-- Takes one more pair in. -/
def Moments.add (m : Moments) (pair : Float × Float) : Moments :=
  ⟨m.cross + pair.1 * pair.2, m.left + pair.1 * pair.1, m.right + pair.2 * pair.2⟩

/-- The moments of two sequences. -/
def moments (left right : List Float) : Moments := (left.zip right).foldl Moments.add {}

/-- The cosine of the angle that the moments describe, negative ones cut to zero. A side without
length has cosine zero. -/
def Moments.cosine (m : Moments) : Float :=
  if m.left == 0.0 || m.right == 0.0 then 0.0
  else clampUnit (m.cross / (m.left.sqrt * m.right.sqrt))

/-- The cosine of two vectors. -/
def cosine (left right : List Float32) : Float := (moments (widened left) (widened right)).cosine

/-- One over one plus the distance of two vectors. -/
def euclidean (left right : List Float32) : Float :=
  let squares := ((widened left).zip (widened right)).map fun (l, r) => (l - r) * (l - r)
  1.0 / (1.0 + (sum squares).sqrt)

/-- The correlation of two vectors: the cosine of what is left of each after its mean is taken
off. Both means divide by the shorter length. -/
def pearson (left right : List Float32) : Float :=
  let length := min left.length right.length
  if length = 0 then 0.0
  else
    let count := ofCount length
    let centred (v : List Float) : List Float := let mean := sum v / count; v.map (· - mean)
    (moments (centred (widened left)) (centred (widened right))).cosine

/-- The kernels that compare vectors. -/
inductive VectorKernel where
  | cosine
  | euclidean
  | pearson
  deriving DecidableEq, Repr

def VectorKernel.apply : VectorKernel → List Float32 → List Float32 → Float
  | .cosine => Kernel.cosine
  | .euclidean => Kernel.euclidean
  | .pearson => Kernel.pearson

/-! ### Numbers -/

/-- One over one plus the distance of two numbers. -/
def scalar (left right : Float) : Float := 1.0 / (1.0 + (left - right).abs)

/-! ### Sets -/

/-- How many ids a merge of two lists meets in both. For strictly increasing lists this is the
size of the intersection. -/
def shared : List Nat → List Nat → Nat
  | [], _ => 0
  | _, [] => 0
  | l :: left, r :: right =>
    if l < r then shared left (r :: right)
    else if r < l then shared (l :: left) right
    else shared left right + 1
termination_by left right => left.length + right.length

/-- The quotient of two counts; nothing over nothing is zero. -/
def ratio (part whole : Nat) : Float := if whole = 0 then 0.0 else ofCount part / ofCount whole

/-- The shared ids over all ids. -/
def jaccard (left right : List Nat) : Float :=
  let common := shared left right
  ratio common (left.length + right.length - common)

/-- The shared ids over the ids of the smaller list. -/
def overlap (left right : List Nat) : Float :=
  ratio (shared left right) (min left.length right.length)

/-- The kernels that compare sets. -/
inductive SetKernel where
  | jaccard
  | overlap
  deriving DecidableEq, Repr

def SetKernel.apply : SetKernel → List Nat → List Nat → Float
  | .jaccard => Kernel.jaccard
  | .overlap => Kernel.overlap

end NeighbourGraph.Kernel
