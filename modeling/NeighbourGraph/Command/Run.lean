/-
Running the program: from a command line and the files around it to a report.

The settings are checked first, then the features are loaded, then the edges if there are any,
and then the search runs. A seed that was drawn beforehand is used where none is asked for.
-/

import NeighbourGraph.Command.Directory
import NeighbourGraph.Command.Report
import NeighbourGraph.Graph.EdgeList
import NeighbourGraph.Matrix.Basic
import NeighbourGraph.Search.Run

namespace NeighbourGraph.Command

open NeighbourGraph.Text

/-! ### Errors -/

/-- Why a run gives no report. -/
inductive RunError where
  | settings (cause : SettingsError)
  /-- The file of the features cannot be read. -/
  | features (cause : FileError)
  /-- The file of the features is no table. -/
  | notTable
  | matrix (cause : MatrixError)
  /-- The file of the edges cannot be read. -/
  | edges (path : String) (cause : FileError)
  | edgeFormat (path : String) (cause : EdgeList.FormatError)
  | graph (cause : GraphError)
  | search (cause : SearchError)

namespace RunError

/-- The stable code of the cause, where it has one. -/
def code : RunError → Option String
  | .settings cause => some cause.code
  | .graph cause => some cause.code
  | .search cause => cause.code
  | _ => none

def message : RunError → String
  | .settings cause => cause.message
  | .features cause => "i/o error: " ++ cause.message
  | .notTable => "the file of the features holds no table"
  | .matrix cause => cause.message
  | .edges path cause => "failed to read `" ++ path ++ "`: " ++ cause.message
  | .edgeFormat path cause => s!"{path}:" ++ toString cause.line ++ ": " ++ cause.fault.message
  | .graph cause => cause.message
  | .search cause => cause.message

/-- The exit code of a process that ends with the error. A broken promise of the graph ends it
in the middle of its work, and has a code of its own. -/
def exitCode : RunError → UInt8
  | .search (.walk _) => 101
  | _ => 1

end RunError

/-! ### Names -/

/-- The last part of a path, separators at its end left out. Two points name no file. -/
def lastPart (path : String) : Option String :=
  let parts := (path.toList.splitOn '/').filter fun part => part ≠ [] ∧ part ≠ ['.']
  match parts.getLast? with
  | none => none
  | some part => if part = ['.', '.'] then none else some (String.ofList part)

/-- A file name without what follows its last point. A point in front starts no ending. -/
def stem (name : String) : String :=
  let reversed := name.toList.reverse
  match reversed.dropWhile (· ≠ '.') with
  | [] => name
  | [_] => name
  | _ :: rest => String.ofList rest.reverse

/-- The name of the feature source: as given, or after its file. -/
def sourceName (path : String) (given : Option String) : String :=
  given.getD (((lastPart path).map stem).getD "data_source")

/-! ### Running -/

/-- Loads the features. A directory opens, but holds no table. -/
def loadFeatures (files : Files) (a : Arguments) : Except RunError FeatureMatrix :=
  match files a.path with
  | .error cause => .error (.features cause)
  | .ok .here | .ok .outside | .ok (.file (.bytes _)) => .error .notTable
  | .ok (.file (.table batches)) =>
    (FeatureMatrix.ofFile (sourceName a.path a.name) a.column batches).mapError .matrix

/-- Loads an edge list over `nodeCount` nodes. -/
def loadEdges (files : Files) (path : String) (nodeCount : Nat) : Except RunError Adjacency :=
  match readText files path with
  | .error cause => .error (.edges path cause)
  | .ok text =>
    match EdgeList.load text nodeCount with
    | .error (.format cause) => .error (.edgeFormat path cause)
    | .error (.graph cause) => .error (.graph cause)
    | .ok graph => .ok graph

/-- Runs what a command line asks for. -/
def execute (files : Files) (a : Arguments) (drawn : UInt64 := 0) : Except RunError Outcome := do
  let config ← a.settings.build.mapError .settings
  let matrix ← loadFeatures files a
  let nodeCount := matrix.count
  let graph ← match a.edges with
    | none => pure (Graph.nodesOnly nodeCount)
    | some path => (loadEdges files path nodeCount).map Adjacency.toGraph
  let setup : Setup :=
    { graph, config, drawn
      metric := Metric.ofVectors a.kernel matrix.toSource
      excluded := PairFilter.standard }
  match (Search.run setup).outcome with
  | .error cause => throw (.search cause)
  | .ok result => return ⟨matrix.name, matrix.dimension, result⟩

end NeighbourGraph.Command
