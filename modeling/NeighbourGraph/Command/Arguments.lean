/-
The command line of the program: what to compare and how.
-/

import NeighbourGraph.Command.Grammar
import NeighbourGraph.Metric.Kernel
import NeighbourGraph.Settings

namespace NeighbourGraph.Command

/-- How the result is printed. -/
inductive Format where
  | human
  | json
  deriving DecidableEq, Repr

/-- What a command line asks for. -/
structure Arguments where
  settings : Settings
  format : Format
  /-- The file of the features, and the column that holds them. -/
  path : String
  column : String
  kernel : Kernel.VectorKernel
  /-- The file of the edges that walks follow. -/
  edges : Option String
  /-- The name of the source, where it is not to be taken from the file. -/
  name : Option String

/-! ### The grammar -/

/-- The options of a search. -/
def searchOptions : List Slot :=
  [{ name := "top-k", kind := .count, about := "Neighbours kept per node" },
   { name := "sample-rate", kind := .real
     about := "Fraction of each list sampled per iteration, in `(0, 1]`" },
   { name := "delta-threshold", kind := .real
     about := "Convergence threshold as a fraction of possible updates" },
   { name := "max-iterations", kind := .count
     about := "Upper bound on refinement iterations" },
   { name := "random-joins", kind := .count
     about := "Random comparisons per node per iteration" },
   { name := "perturbation-rate", kind := .real
     about := "Probability of replacing a tied worst neighbour" },
   { name := "similarity-cutoff", kind := .real
     about := "Drop relationships below this similarity after the run" },
   { name := "sampler"
     kind := .choice
       [{ name := "uniform", about := "Distinct nodes drawn uniformly" },
        { name := "random-walk"
          about := "Nodes reached by restarting random walks over `--edges`" }]
     about := "Strategy for the initial neighbour lists" },
   { name := "seed", kind := .count, about := "Seed for reproducible runs" },
   { name := "concurrency", kind := .count, about := "Worker threads" },
   { name := "min-batch-size", kind := .count
     about := "Smallest node range handed to one task" }]

/-- The source of features. -/
def sourceGrammar : Grammar :=
  .command "parquet" "Read a Parquet file containing a `FixedSizeList<Float32, D>` column"
    [{ name := "column", kind := .text, required := true
       about := "Column containing `FixedSizeList<Float32, D>` rows" },
     { name := "metric"
       kind := .choice
         [{ name := "cosine", about := "Cosine similarity clamped at zero" },
          { name := "euclidean", about := "`1 / (1 + euclidean distance)`" },
          { name := "pearson", about := "Pearson correlation clamped at zero" }]
       standard := some "cosine"
       about := "Vector metric used to score node pairs" },
     { name := "edges", kind := .path
       about := "TSV edge list (`source`, `target`, optional `weight`) " ++
         "for the random-walk sampler" },
     { name := "name", kind := .text
       about := "Override name for the data source (defaults to the file name)" }]
    [{ name := "path", kind := .path, required := true
       about := "Path to the Parquet file containing feature vectors" }]
    []

/-- The command that runs a search. -/
def runGrammar : Grammar :=
  .command "run" "Compute the top-k similarity graph of a feature file"
    (searchOptions ++
      [{ name := "format"
         kind := .choice
           [{ name := "human"
              about := "Summary lines followed by `source\\ttarget\\tsimilarity` rows" },
            { name := "json", about := "A single JSON document" }]
         standard := some "human"
         about := "How to print the result" }])
    [] [sourceGrammar]

/-- The whole command line. -/
def grammar : Grammar :=
  .command "simgraph" "Build approximate k-nearest-neighbour similarity graphs." [] []
    [runGrammar]

/-! ### What was given -/

namespace Parsed

/-- A count that was given. -/
def count? (p : Parsed) (name : String) : Option Nat :=
  match p.values.lookup name with
  | some (.count n) => some n
  | _ => none

/-- A number that was given. -/
def real? (p : Parsed) (name : String) : Option Float :=
  match p.values.lookup name with
  | some (.real x) => some x
  | _ => none

/-- A text that was given. -/
def text? (p : Parsed) (name : String) : Option String :=
  match p.values.lookup name with
  | some (.text s) => some s
  | _ => none

end Parsed

/-- The settings that were given, the others at their defaults. -/
def settingsOf (p : Parsed) : Settings :=
  let standard : Settings := {}
  { topK := (p.count? "top-k").getD standard.topK
    sampleRate := (p.real? "sample-rate").getD standard.sampleRate
    deltaThreshold := (p.real? "delta-threshold").getD standard.deltaThreshold
    maxIterations := (p.count? "max-iterations").getD standard.maxIterations
    randomJoins := (p.count? "random-joins").getD standard.randomJoins
    perturbationRate := (p.real? "perturbation-rate").getD standard.perturbationRate
    similarityCutoff := (p.real? "similarity-cutoff").getD standard.similarityCutoff
    sampler := if p.text? "sampler" = some "random-walk" then .randomWalk else .uniform
    seed := p.count? "seed"
    concurrency := (p.count? "concurrency").getD standard.concurrency
    minBatchSize := (p.count? "min-batch-size").getD standard.minBatchSize }

/-- The kernel of a name. -/
def kernelOf : Option String → Kernel.VectorKernel
  | some "euclidean" => .euclidean
  | some "pearson" => .pearson
  | _ => .cosine

/-- What a parsed command line asks for. -/
def Arguments.ofParsed (run source : Parsed) : Arguments where
  settings := settingsOf run
  format := if run.text? "format" = some "json" then .json else .human
  path := (source.text? "path").getD ""
  column := (source.text? "column").getD ""
  kernel := kernelOf (source.text? "metric")
  edges := source.text? "edges"
  name := source.text? "name"

/-- Reads a command line, the program's name left out. -/
def Arguments.read (words : List String) : Except UsageError Arguments := do
  match ← parse grammar words with
  | .given _ (some (_, run)) =>
    match run.subcommand with
    | some (_, source) => return .ofParsed run source
    | none => throw .missingSubcommand
  | .given _ none => throw .missingSubcommand

end NeighbourGraph.Command
