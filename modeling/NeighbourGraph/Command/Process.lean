/-
The program as a process: its command line and surroundings, and what it prints and returns.
-/

import NeighbourGraph.Command.Help
import NeighbourGraph.Command.Run

namespace NeighbourGraph.Command

open NeighbourGraph.Text

/-! ### Diagnostics -/

/-- The shape of diagnostic lines. -/
inductive LogFormat where
  | human
  | json
  deriving DecidableEq, Repr

/-- The variable that chooses the shape of diagnostic lines. -/
def logFormatVariable : String := "SIMGRAPH_LOG_FORMAT"

/-- The shape that a variable asks for, plain text if it is not set. Blanks around the name and
the case of its ASCII letters do not matter; a name that is not known is given back as read. -/
def logFormat (value? : Option String) : Except String LogFormat :=
  match value? with
  | none => .ok .human
  | some text =>
    match lowered (trimmed text) with
    | "human" => .ok .human
    | "json" => .ok .json
    | other => .error other

/-! ### Refusals -/

/-- What is wrong with a command line, in words. -/
def UsageError.message : UsageError → String
  | .help _ _ | .helpForNothing _ => ""
  | .missingSubcommand => "a subcommand is required"
  | .invalidSubcommand => "unrecognized subcommand"
  | .unknownArgument => "unexpected argument"
  | .missingRequired => "a required argument is missing"
  | .invalidValue => "invalid or missing value"
  | .unreadableValue => "a value cannot be read"
  | .repeated => "an argument cannot be used twice"
  | .unneededValue => "an argument takes no value"

/-! ### The process -/

/-- How a process ends. -/
structure Exit where
  code : UInt8
  stdout : String := ""
  stderr : String := ""
  deriving DecidableEq, Repr

/-- How a refused command line ends the process. Help that was asked for is no failure. -/
def UsageError.exit : UsageError → Exit
  | .help style command =>
    { code := 0, stdout := helpFor style [grammar.name] grammar command }
  | .helpForNothing command =>
    { code := 2, stderr := helpFor .brief [grammar.name] grammar command }
  | e => { code := 2, stderr := "error: " ++ e.message ++ "\n" }

/-- Runs the program. Diagnostics are set up before the command line is read. -/
def process (logFormat? : Option String) (files : Files) (words : List String)
    (drawn : UInt64 := 0) : Exit :=
  match logFormat logFormat? with
  | .error other =>
    { code := 1
      stderr := "failed to initialise logging: unsupported log format `" ++ other ++
        "`; expected `human` or `json`\n" }
  | .ok _ =>
    match Arguments.read words with
    | .error e => e.exit
    | .ok arguments =>
      match execute files arguments drawn with
      | .error e => { code := e.exitCode, stderr := "error: " ++ e.message ++ "\n" }
      | .ok outcome => { code := 0, stdout := outcome.text arguments.format }

end NeighbourGraph.Command
