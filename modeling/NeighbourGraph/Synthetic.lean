/-
Synthetic vectors: points spread evenly over a cube, and points scattered around the centres of
clusters. The same seed gives the same points.
-/

import NeighbourGraph.Metric.Vectors
import NeighbourGraph.Random.Single

namespace NeighbourGraph.Synthetic

open NeighbourGraph.Random

/-- Why no points can be made. -/
inductive Error where
  | noPoints
  | noDimensions
  | noClusters
  | notPositive (parameter : String)
  deriving DecidableEq, Repr

def Error.message : Error → String
  | .noPoints => "point count must be greater than zero"
  | .noDimensions => "dimension count must be greater than zero"
  | .noClusters => "cluster count must be greater than zero"
  | .notPositive parameter => s!"parameter `{parameter}` must be finite and positive"

/-- There are points, and they have coordinates. -/
def checkShape (points dimensions : Nat) : Except Error Unit := do
  if points = 0 then throw .noPoints
  if dimensions = 0 then throw .noDimensions

/-- A parameter is finite and positive. -/
def checkPositive (parameter : String) (x : Float32) : Except Error Unit :=
  if x.isFinite && 0.0 < x then .ok () else .error (.notPositive parameter)

/-- The results of `count` repetitions of a draw. -/
def repeated {α : Type} (d : Draw α) : Nat → Draw (List α)
  | 0 => return []
  | count + 1 => do
    let a ← d
    return a :: (← repeated d count)

/-- The vectors of the values that were drawn. -/
def vectorsOf (dimension : Nat) (values : List Float32) : Except Error DenseVectors :=
  (DenseVectors.ofValues dimension values).mapError fun _ => .noDimensions

/-! ### Cubes -/

/-- Points of the cube `[-1, 1)` in every dimension. -/
def uniform (points dimensions : Nat) (seed : UInt64) : Except Error DenseVectors := do
  checkShape points dimensions
  let rows := repeated (repeated (singleBetween (-1.0) 1.0) dimensions) points
  vectorsOf dimensions (rows (Generator.ofSeed seed)).1.flatten

/-! ### Clusters -/

/-- Clusters of points. -/
structure Blobs where
  points : Nat
  dimensions : Nat
  clusters : Nat
  /-- How far the centres are from the origin. -/
  separation : Float32
  /-- How far points scatter around their centre. -/
  spread : Float32
  seed : UInt64

namespace Blobs

/-- The checks, first to last. -/
def check (b : Blobs) : Except Error Unit := do
  checkShape b.points b.dimensions
  if b.clusters = 0 then throw .noClusters
  checkPositive "separation" b.separation
  checkPositive "spread" b.spread

/-- The centre of a cluster: on a circle in the first two dimensions, near zero in the others. -/
def centre (b : Blobs) (cluster : Nat) : Draw (List Float32) := do
  let share := cluster.toUInt64.toFloat32 / b.clusters.toUInt64.toFloat32
  let angle := share * (2.0 * singlePi)
  let onCircle := [b.separation * angle.cos, b.separation * angle.sin].take b.dimensions
  let bound := 0.2 * b.separation
  return onCircle ++ (← repeated (singleBetween (-bound) bound) (b.dimensions - 2))

/-- The centres of the given clusters. -/
def centres (b : Blobs) : List Nat → Draw (List (List Float32))
  | [] => return []
  | cluster :: rest => do
    let c ← b.centre cluster
    return c :: (← b.centres rest)

/-- A point near a centre. -/
def scatter (b : Blobs) : List Float32 → Draw (List Float32)
  | [] => return []
  | x :: rest => do
    let y := x + (← standardNormal) * b.spread
    return y :: (← b.scatter rest)

/-- Points near the centres in turn, for the given point numbers. -/
def scatterAll (b : Blobs) (centres : Array (List Float32)) :
    List Nat → Draw (List (List Float32))
  | [] => return []
  | i :: rest => do
    let point ← b.scatter (centres.getD (i % b.clusters) [])
    return point :: (← b.scatterAll centres rest)

/-- The points of the clusters, in turn. -/
def vectors (b : Blobs) : Except Error DenseVectors := do
  b.check
  let points : Draw (List (List Float32)) := do
    let centres ← b.centres (List.range b.clusters)
    b.scatterAll centres.toArray (List.range b.points)
  vectorsOf b.dimensions (points (Generator.ofSeed b.seed)).1.flatten

end Blobs

end NeighbourGraph.Synthetic
