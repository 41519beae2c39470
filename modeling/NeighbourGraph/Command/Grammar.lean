/-
The grammar of command lines.

A command has options with a value each, values by position, and subcommands, and the words of a
command line are read from left to right. An option's value stands in the same word after an
equals sign, or is the next word. A subcommand's name ends the command that holds it and starts
its own. After a word of two dashes only values by position follow.

A word that completes an option or a position is looked at when the next one begins, or at the
end. So a word that fits nowhere is reported before a bad value just before it, and the errors of
a subcommand come before those of the last option of the command around it.
-/

import NeighbourGraph.Number.Reading

namespace NeighbourGraph.Command

open NeighbourGraph.Number

/-- A name to choose, and what it stands for. -/
structure Choice where
  name : String
  about : String
  deriving DecidableEq, Repr

/-- What the text of a value has to be. -/
inductive ValueKind where
  | count
  | real
  | text
  /-- The name of a file, which is not empty. -/
  | path
  /-- One of some names. -/
  | choice (choices : List Choice)
  deriving DecidableEq, Repr

/-- What there is to choose from, where a value is a choice. -/
def ValueKind.choices : ValueKind → List Choice
  | .choice choices => choices
  | _ => []

/-- A value that was read. -/
inductive Value where
  | count (n : Nat)
  | real (x : Float)
  | text (s : String)

/-- How much help tells. -/
inductive HelpStyle where
  /-- A line for each item. -/
  | brief
  /-- A paragraph for each item, with a line for each choice. -/
  | full
  deriving DecidableEq, Repr

/-- Why a command line is refused, or answered with help. -/
inductive UsageError where
  /-- Help was asked for, about the command that these names lead to. -/
  | help (style : HelpStyle) (command : List String)
  /-- Nothing was said where something is needed; help about the command is shown. -/
  | helpForNothing (command : List String)
  | missingSubcommand
  | invalidSubcommand
  | unknownArgument
  | missingRequired
  /-- A value is missing, empty, or none of the names to choose from. -/
  | invalidValue
  /-- A value does not read as the number it has to be. -/
  | unreadableValue
  /-- An option was given twice. -/
  | repeated
  /-- A value was given to an option that takes none. -/
  | unneededValue
  deriving DecidableEq, Repr

/-- The refusal of a subcommand's words as one of the command around it. -/
def UsageError.under (name : String) : UsageError → UsageError
  | .help style command => .help style (name :: command)
  | .helpForNothing command => .helpForNothing (name :: command)
  | e => e

/-- A value by name or by position. -/
structure Slot where
  name : String
  kind : ValueKind
  required : Bool := false
  /-- What is taken when nothing is given, where that is to be told. -/
  standard : Option String := none
  about : String

/-- A command. -/
inductive Grammar where
  | command (name about : String) (options positions : List Slot) (subcommands : List Grammar)

namespace Grammar

def name : Grammar → String
  | command name _ _ _ _ => name

def about : Grammar → String
  | command _ about _ _ _ => about

def options : Grammar → List Slot
  | command _ _ options _ _ => options

def positions : Grammar → List Slot
  | command _ _ _ positions _ => positions

def subcommands : Grammar → List Grammar
  | command _ _ _ _ subcommands => subcommands

/-- The subcommand of a name. -/
def subcommand? (g : Grammar) (name : String) : Option Grammar :=
  g.subcommands.find? (·.name == name)

/-- The option of a name. -/
def option? (g : Grammar) (name : String) : Option Slot := g.options.find? (·.name == name)

/-- The name of the subcommand that shows help. Commands with subcommands have it too. -/
def helpName : String := "help"

/-- What that subcommand is for. -/
def helpAbout : String := "Print this message or the help of the given subcommand(s)"

/-- A word names a subcommand. -/
def namesSubcommand (g : Grammar) (word : String) : Bool :=
  !g.subcommands.isEmpty && (word == helpName || (g.subcommand? word).isSome)

end Grammar

/-! ### Values -/

/-- Reads the text of a value. -/
def readValue (kind : ValueKind) (text : String) : Except UsageError Value :=
  match kind with
  | .count => match readCount text with
    | .ok n => .ok (.count n)
    | .error _ => .error .unreadableValue
  | .real => match readReal text with
    | .ok x => .ok (.real x)
    | .error _ => .error .unreadableValue
  | .text => .ok (.text text)
  | .path => if text.isEmpty then .error .invalidValue else .ok (.text text)
  | .choice choices =>
    if text ∈ choices.map Choice.name then .ok (.text text) else .error .invalidValue

/-- What was given to one command, and to the subcommand after it. -/
inductive Parsed where
  | given (values : List (String × Value)) (subcommand : Option (String × Parsed))

namespace Parsed

def values : Parsed → List (String × Value)
  | given values _ => values

def subcommand : Parsed → Option (String × Parsed)
  | given _ subcommand => subcommand

end Parsed

/-! ### Reading -/

/-- How far the words of one command were read. -/
structure Reader where
  values : List (String × Value) := []
  /-- The value that was named last, with its text once there is one. -/
  pending : Option (Slot × Option String) := none
  /-- The positions that were filled. -/
  filled : Nat := 0
  /-- Only values by position follow. -/
  trailing : Bool := false

namespace Reader

/-- The last named option still waits for its value. -/
def isWaiting (r : Reader) : Bool :=
  match r.pending with
  | some (_, none) => true
  | _ => false

/-- Takes a value in. It has to be there, and for the first time, and to read as its kind. -/
def take (r : Reader) (slot : Slot) (text : Option String) : Except UsageError Reader :=
  match text with
  | none => .error .invalidValue
  | some text =>
    if r.values.any (·.1 == slot.name) then .error .repeated
    else (readValue slot.kind text).map fun v =>
      { r with values := r.values ++ [(slot.name, v)], pending := none }

/-- Looks at the value that was named last. -/
def settle (r : Reader) : Except UsageError Reader :=
  match r.pending with
  | none => .ok r
  | some (slot, text) => r.take slot text

/-- Names an option whose value is the next word. -/
def await (r : Reader) (slot : Slot) : Except UsageError Reader := do
  return { ← r.settle with pending := some (slot, none) }

/-- Names an option whose value is in the same word. -/
def attach (r : Reader) (slot : Slot) (text : String) : Except UsageError Reader := do
  (← r.settle).take slot (some text)

/-- Gives the waiting option its value. -/
def supply (r : Reader) (word : String) : Reader :=
  { r with pending := r.pending.map fun (slot, _) => (slot, some word) }

/-- Fills the next position, if there is one left. -/
def fill (r : Reader) (g : Grammar) (word : String) : Except UsageError Reader :=
  match g.positions[r.filled]? with
  | some slot => do
    return { ← r.settle with pending := some (slot, some word), filled := r.filled + 1 }
  | none =>
    if r.trailing && g.namesSubcommand word then .error .unknownArgument
    else if !g.subcommands.isEmpty then .error .invalidSubcommand
    else .error .unknownArgument

end Reader

/-- A word that is an option, cut at its first equals sign. -/
def longOption? (word : String) : Option (String × Option String) :=
  match word.toList with
  | '-' :: '-' :: rest =>
    let name := String.ofList (rest.takeWhile (· ≠ '='))
    match rest.dropWhile (· ≠ '=') with
    | [] => some (name, none)
    | _ :: value => some (name, some (String.ofList value))
  | _ => none

/-- The letters of a word with one dash. -/
def shortOptions? (word : String) : Option (List Char) :=
  match word.toList with
  | '-' :: c :: rest => some (c :: rest)
  | _ => none

/-- Reads a long option. The one for help shows it in full. -/
def readLong (g : Grammar) (r : Reader) (name : String) (value : Option String) :
    Except UsageError Reader :=
  if name = Grammar.helpName then
    match value with
    | some _ => .error .unneededValue
    | none => do
      let _ ← r.settle
      throw (.help .full [])
  else match g.option? name with
    | none => .error .unknownArgument
    | some slot =>
      match value with
      | some text => r.attach slot text
      | none => r.await slot

/-- Reads options of one letter. The only one is for help, in brief. -/
def readShort (r : Reader) (letters : List Char) : Except UsageError Reader :=
  match letters with
  | 'h' :: _ => do
    let _ ← r.settle
    throw (.help .brief [])
  | _ => .error .unknownArgument

/-- Reads a word that starts no subcommand. -/
def readWord (g : Grammar) (r : Reader) (word : String) : Except UsageError Reader :=
  if r.trailing then r.fill g word
  else if word = "--" then .ok { r with trailing := true }
  else match longOption? word with
    | some (name, value) => readLong g r name value
    | none =>
      match shortOptions? word with
      | some letters => readShort r letters
      | none => if r.isWaiting then .ok (r.supply word) else r.fill g word

/-- Shows help for a chain of subcommands, in full. -/
def readHelp (g : Grammar) : List String → UsageError
  | [] => .help .full []
  | word :: rest =>
    match g.subcommand? word with
    | some sub => (readHelp sub rest).under word
    | none =>
      if g.namesSubcommand word && rest.isEmpty then .help .full [word] else .invalidSubcommand

/-- Ends a command: the last value is looked at, something has to be said where a subcommand is
needed, and what is required has to be there. -/
def finish (g : Grammar) (r : Reader) (sub : Option (String × Parsed)) :
    Except UsageError Parsed := do
  let r ← r.settle
  if !g.subcommands.isEmpty && sub.isNone then
    throw (if r.values.isEmpty then .helpForNothing [] else .missingSubcommand)
  let required := (g.options ++ g.positions).filter (·.required)
  if required.all fun slot => r.values.any (·.1 == slot.name) then
    return .given r.values sub
  else throw .missingRequired

/-- Reads the words of a command. -/
def read (g : Grammar) (r : Reader) : List String → Except UsageError Parsed
  | [] => finish g r none
  | word :: rest =>
    if !r.trailing && !r.isWaiting && g.namesSubcommand word then
      match g.subcommand? word with
      | some sub => do
        let below ← (read sub {} rest).mapError (UsageError.under word)
        finish g r (some (word, below))
      | none => .error (readHelp g rest)
    else do
      let r ← readWord g r word
      read g r rest

/-- Reads a command line, the program's name left out. -/
def parse (g : Grammar) (words : List String) : Except UsageError Parsed := read g {} words

end NeighbourGraph.Command
