/-
Help about a command.

A page of help says what the command is for and how it is used, and then lists its subcommands,
its values by position and its options, with a blank line between any two of these parts.

A brief list has the descriptions in a column of their own. Where that column would be narrow and
a description would not fit into it, every description stands below its item instead. A full list
has a paragraph for each item and tells what each choice stands for. Only a command with choices
has more to tell in full than in brief, and subcommands are always listed in brief.
-/

import NeighbourGraph.Command.Grammar

namespace NeighbourGraph.Command

/-! ### Items -/

/-- An item of a list. -/
structure HelpItem where
  /-- The item as it is typed. -/
  usage : String
  about : String
  /-- What is taken when nothing is given. -/
  standard : Option String := none
  /-- What there is to choose from. -/
  choices : List Choice := []

namespace HelpItem

/-- What is taken when nothing is given, as a remark. -/
def standardRemarks (item : HelpItem) : List String :=
  item.standard.toList.map fun text => "[default: " ++ text ++ "]"

/-- The names to choose from, as a remark. -/
def choiceRemarks (item : HelpItem) : List String :=
  if item.choices.isEmpty then []
  else ["[possible values: " ++ String.intercalate ", " (item.choices.map Choice.name) ++ "]"]

/-- The remarks of a brief list. -/
def remark (item : HelpItem) : String :=
  String.intercalate " " (item.standardRemarks ++ item.choiceRemarks)

/-- The description in a brief list. -/
def description (item : HelpItem) : String :=
  if item.remark.isEmpty then item.about else item.about ++ " " ++ item.remark

end HelpItem

/-! ### Layout -/

/-- How the descriptions of a list are placed. -/
inductive HelpLayout where
  /-- On the item's line, after a column of this width for the items. -/
  | beside (width : Nat)
  /-- On a line of their own. -/
  | below
  /-- On lines of their own, with a paragraph for the choices and one for what is standard. -/
  | spread
  deriving DecidableEq, Repr

/-- The width of a line of help. -/
def helpLineWidth : Nat := 100

/-- The layout of a brief list. Descriptions leave the items' lines if the items with the blanks
around them take more than two fifths of a line and some description is wider than what is left.
The blank before a remark does not count, and items that are wider than a line change nothing. -/
def HelpLayout.fitting (items : List HelpItem) : HelpLayout :=
  let width := items.foldl (fun w item => max w item.usage.length) 0
  let taken := width + 4
  let isTight := 2 * helpLineWidth < 5 * taken && taken ≤ helpLineWidth
  let overflows (item : HelpItem) :=
    helpLineWidth - taken < item.about.length + item.remark.length
  if isTight && items.any overflows then .below else .beside width

/-- The blanks before a description that has a line of its own. -/
def helpMargin : String := "          "

/-- The choices of an item with what they stand for, in a column as wide as the widest name. -/
def choiceLines (choices : List Choice) : List String :=
  let width := choices.foldl (fun w choice => max w choice.name.length) 0
  choices.map fun choice =>
    "- " ++ choice.name ++ ": " ++
      String.ofList (List.replicate (width - choice.name.length) ' ') ++ choice.about

/-- The lines below an item of a full list. The blank line before the choices is empty, and the
one before what is standard has the margin. -/
def HelpItem.paragraphs (item : HelpItem) : List String :=
  let choices :=
    if item.choices.isEmpty then []
    else "" :: (("Possible values:" :: choiceLines item.choices).map (helpMargin ++ ·))
  let standard := item.standardRemarks.flatMap fun text => [helpMargin, helpMargin ++ text]
  (helpMargin ++ item.about) :: (choices ++ standard)

/-- An item with its description. -/
def HelpLayout.item (layout : HelpLayout) (item : HelpItem) : String :=
  let typed := "  " ++ item.usage
  match layout with
  | .beside width =>
    typed ++ String.ofList (List.replicate (width - item.usage.length) ' ') ++ "  " ++
      item.description
  | .below => typed ++ "\n" ++ helpMargin ++ item.description
  | .spread => String.intercalate "\n" (typed :: item.paragraphs)

/-- What stands between two items. -/
def HelpLayout.gap : HelpLayout → String
  | .spread => "\n\n"
  | _ => "\n"

/-- A titled list; no list if there are no items. -/
def helpList (title : String) (layout : HelpLayout) (items : List HelpItem) : List String :=
  if items.isEmpty then []
  else [title ++ ":\n" ++ String.intercalate layout.gap (items.map layout.item)]

/-! ### Pages -/

/-- A page of help. -/
def helpPage (about : String) (usage : List String) (lists : List String) : String :=
  String.intercalate "\n\n" (about :: ("Usage: " ++ String.intercalate " " usage) :: lists) ++ "\n"

/-- The name of a value: capitals, and a low line for each dash. -/
def Slot.valueName (slot : Slot) : String :=
  String.ofList (slot.name.toList.map fun c => if c = '-' then '_' else c.toUpper)

/-- An option as it is typed. -/
def Slot.optionUsage (slot : Slot) : String := "--" ++ slot.name ++ " <" ++ slot.valueName ++ ">"

/-- A value by position as it is typed. -/
def Slot.positionUsage (slot : Slot) : String :=
  if slot.required then "<" ++ slot.valueName ++ ">" else "[" ++ slot.valueName ++ "]"

/-- A slot as an item of a list. -/
def Slot.helpItem (slot : Slot) (usage : String) : HelpItem :=
  { usage, about := slot.about, standard := slot.standard, choices := slot.kind.choices }

namespace Grammar

/-- Some value of the command is a choice. -/
def hasChoices (g : Grammar) : Bool :=
  (g.options ++ g.positions).any fun slot => !slot.kind.choices.isEmpty

/-- How the command is used: options, what it needs, and a subcommand. -/
def usage (g : Grammar) : List String :=
  let optional := if g.options.any (!·.required) then ["[OPTIONS]"] else []
  let named := (g.options.filter (·.required)).map Slot.optionUsage
  let below := if g.subcommands.isEmpty then [] else ["<COMMAND>"]
  optional ++ named ++ g.positions.map Slot.positionUsage ++ below

/-- The option that shows help, which points to the other style where there are two. -/
def helpOption (g : Grammar) (style : HelpStyle) : HelpItem where
  usage := "-h, --help"
  about :=
    if g.hasChoices then
      match style with
      | .brief => "Print help (see more with '--help')"
      | .full => "Print help (see a summary with '-h')"
    else "Print help"

/-- The help of the command that `path` leads to. -/
def help (g : Grammar) (style : HelpStyle) (path : List String) : String :=
  let layout (items : List HelpItem) : HelpLayout :=
    if style = .full && g.hasChoices then .spread else .fitting items
  let commands : List HelpItem :=
    if g.subcommands.isEmpty then []
    else g.subcommands.map (fun sub => { usage := sub.name, about := sub.about }) ++
      [{ usage := helpName, about := helpAbout }]
  let positions := g.positions.map fun slot => slot.helpItem slot.positionUsage
  let options := g.options.map fun slot => slot.helpItem ("    " ++ slot.optionUsage)
  let options := options ++ [g.helpOption style]
  helpPage g.about (path ++ g.usage)
    (helpList "Commands" (.fitting commands) commands ++
      helpList "Arguments" (layout positions) positions ++
      helpList "Options" (layout options) options)

end Grammar

/-- The help of the subcommand that shows help. It takes names only. -/
def helpOnHelp (path : List String) : String :=
  let items : List HelpItem :=
    [{ usage := "[COMMAND]...", about := "Print help for the subcommand(s)" }]
  helpPage Grammar.helpAbout (path ++ items.map (·.usage))
    (helpList "Arguments" (.fitting items) items)

/-- The help of the command that names lead to, from a command whose own path is given. -/
def helpFor (style : HelpStyle) (path : List String) (g : Grammar) : List String → String
  | [] => g.help style path
  | name :: rest =>
    match g.subcommand? name with
    | some sub => helpFor style (path ++ [name]) sub rest
    | none => helpOnHelp (path ++ [name])

end NeighbourGraph.Command
