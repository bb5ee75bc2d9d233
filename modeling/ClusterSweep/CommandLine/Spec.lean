/-!
# Commands and their help text

A command takes options, each named by a long form `--name` and possibly a one-letter short
form `-x`.  A switch stands alone; an option with a value takes the next argument, whatever it
looks like.  A command may have subcommands, each named by a bare word.

The help text of a command is its usage line, listing every option, its description, a table
of its options and, when it has subcommands, a table of those.  A table entry is indented by
two blanks and its description starts in column 20, on a line of its own when the entry's name
reaches that column.  Descriptions are filled into lines of at most 80 characters, breaking
only at blanks; a word longer than a line stands alone on its line.
-/

namespace ClusterSweep.CommandLine

/-- What an option does to the arguments read so far, of type `α`. -/
inductive Action (α : Type) where
  /-- A switch, which stands alone. -/
  | switch (set : α → α)
  /-- An option with a value: it reads the next argument, or says why it cannot. -/
  | value (read : α → String → Except String α)

/-- An option of a command. -/
structure Flag (α : Type) where
  /-- The name without dashes; the long form is `--name`. -/
  name : String
  /-- The one-letter short form, if any. -/
  short : Option Char
  /-- What the option does, for the help text. -/
  description : String
  /-- What the option does to the arguments. -/
  action : Action α

/-- A subcommand as its parent's help text lists it. -/
structure Entry where
  /-- The word that selects it. -/
  name : String
  /-- What it does. -/
  description : String
  deriving DecidableEq, Repr

/-- A command with arguments of type `α`. -/
structure Command (α : Type) where
  /-- The words that invoke it, separated by blanks. -/
  path : String
  /-- What it does. -/
  description : String
  /-- Its options, in the order the help text lists them. -/
  flags : List (Flag α)
  /-- Its subcommands, in the order the help text lists them. -/
  subcommands : List Entry

/-- The column where descriptions of table entries start. -/
def descriptionColumn : Nat := 20

/-- The greatest length of a line of a table. -/
def wrapWidth : Nat := 80

namespace Flag

/-- The long form of an option. -/
def long {α : Type} (f : Flag α) : String := "--" ++ f.name

/-- Whether `arg` names the option, in its long or short form. -/
def names {α : Type} (f : Flag α) (arg : String) : Bool :=
  arg == f.long || match f.short with
    | some c => arg == "-" ++ String.singleton c
    | none => false

/-- How the usage line shows an option: by its short form if it has one, with a placeholder
named after the option when it takes a value. -/
def usage {α : Type} (f : Flag α) : String :=
  let shown := match f.short with
    | some c => "-" ++ String.singleton c
    | none => f.long
  match f.action with
  | .switch _ => " [" ++ shown ++ "]"
  | .value _ => " [" ++ shown ++ " <" ++ f.name ++ ">]"

/-- How the options table names an option: short form first. -/
def title {α : Type} (f : Flag α) : String :=
  match f.short with
  | some c => "-" ++ String.singleton c ++ ", " ++ f.long
  | none => f.long

end Flag

/-- `line` padded with blanks to the description column. -/
def padToColumn (line : String) : String :=
  line ++ String.ofList (List.replicate (descriptionColumn - line.length) ' ')

/-- The lines that hold `words` after the started line `line`: a word joins the current line
when the line stays within the wrap width, and starts a new line in the description column
otherwise. -/
def fillLines (line : String) : List String → List String
  | [] => [line]
  | w :: ws =>
    if wrapWidth < line.length + w.length + 1 then line :: fillLines (padToColumn "" ++ w) ws
    else fillLines (line ++ " " ++ w) ws

/-- The lines of one table entry. -/
def entryLines (name description : String) : List String :=
  let head := "  " ++ name
  if description.isEmpty then [head]
  else
    match description.splitOn " " with
    | [] => [head]
    | w :: ws =>
      if head.length < descriptionColumn then fillLines (padToColumn head ++ w) ws
      else head :: fillLines (padToColumn "" ++ w) ws

/-- One table entry, each of its lines starting on a new line. -/
def entryText (name description : String) : String :=
  String.join ((entryLines name description).map ("\n" ++ ·))

/-- The words that ask a command for its help text. -/
def helpWords : List String := ["--help", "help"]

/-- The help text of a command. -/
def Command.help {α : Type} (c : Command α) : String :=
  let commands :=
    if c.subcommands.isEmpty then ""
    else "\n\nCommands:" ++ String.join (c.subcommands.map fun e => entryText e.name e.description)
  "Usage: " ++ c.path ++ String.join (c.flags.map Flag.usage) ++
    (if c.subcommands.isEmpty then "" else " <command> [<args>]") ++
    "\n\n" ++ c.description ++
    "\n\nOptions:" ++ String.join (c.flags.map fun f => entryText f.title f.description) ++
    entryText (", ".intercalate helpWords) "display usage information" ++
    commands ++ "\n"

end ClusterSweep.CommandLine
