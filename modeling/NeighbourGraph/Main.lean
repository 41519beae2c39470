/-
The program on a machine: it takes the command line, the log variable, the two files that a
command line can name and a random seed, and gives the streams and the exit code of the process.

A file that is read here is its bytes. Tables of features come to the library as tables.
-/

import NeighbourGraph.Command.Process

namespace NeighbourGraph.Command

/-- What a path leads to on this machine. -/
def readPlace (path : String) : IO (Except FileError Place) := do
  match ← (IO.FS.readBinFile path).toBaseIO with
  | .ok content => return .ok (.file (.bytes content))
  | .error (.inappropriateType ..) => return .error .notDirectory
  | .error _ => return .error .notFound

/-- The files that a command line names. -/
def namedFiles (words : List String) : IO Files := do
  let paths := match Arguments.read words with
    | .ok a => a.path :: a.edges.toList
    | .error _ => []
  let places ← paths.mapM fun path => return (path, ← readPlace path)
  return fun path => (places.lookup path).getD (.error .notFound)

/-- A seed from the machine's source of randomness. -/
def randomSeed : IO UInt64 := do
  let bytes ← IO.getRandomBytes 8
  return bytes.foldl (fun word byte => 256 * word + byte.toUInt64) 0

end NeighbourGraph.Command

open NeighbourGraph.Command in
def main (words : List String) : IO UInt32 := do
  let exit :=
    process (← IO.getEnv logFormatVariable) (← namedFiles words) words (← randomSeed)
  IO.print exit.stdout
  IO.eprint exit.stderr
  return exit.code.toUInt32
