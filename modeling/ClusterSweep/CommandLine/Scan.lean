import ClusterSweep.CommandLine.Spec

/-!
# Reading a command line

The arguments are read from left to right.  A help word asks for the help text; after it only
bare words may follow.  `--` ends the options: every later argument is a bare word, the help
words included.  An argument starting with `-` names an option, and an option with a value takes
the next argument as its value even when that starts with `-`.  The first bare word that names a
subcommand ends the command's own arguments: the rest belong to the subcommand, preceded by
`help` when help was asked for before it.  Any other bare word is an error.

Reading ends early (`EarlyExit`) with the help text, written to the standard output with
success, or with an error, written to the standard error with failure.  An option's value is
read when the option is met, so the first bad argument from the left is the one reported.
-/

namespace ClusterSweep.CommandLine

/-- Why reading a command line ends before it names what to do. -/
inductive EarlyExit where
  /-- Help was asked for: the help text. -/
  | help (text : String)
  /-- The command line is wrong: the reason. -/
  | error (text : String)
  deriving DecidableEq, Repr

/-- The error of an argument that names nothing. -/
def unrecognized (arg : String) : EarlyExit := .error ("Unrecognized argument: " ++ arg ++ "\n")

/-- How far a command's own arguments were read. -/
structure Reading (α : Type) where
  /-- The arguments read. -/
  args : α
  /-- Whether help was asked for. -/
  help : Bool
  /-- The subcommand named and the arguments after it, if one was named. -/
  subcommand : Option (String × List String)

namespace Command

/-- The option that `arg` names. -/
def find? {α : Type} (c : Command α) (arg : String) : Option (Flag α) := c.flags.find? (·.names arg)

/-- Reads the arguments of command `c` after `acc`, with `help` telling whether help was asked
for and `ended` whether the options have ended. -/
def scan {α : Type} (c : Command α) (help ended : Bool) (acc : α) :
    List String → Except EarlyExit (Reading α)
  | [] => .ok ⟨acc, help, none⟩
  | arg :: rest =>
    if !ended && helpWords.contains arg then c.scan true ended acc rest
    else if !ended && arg.startsWith "-" then
      if arg == "--" then c.scan help true acc rest
      else if help then .error (.error "Trailing arguments are not allowed after `help`.")
      else
        match c.find? arg with
        | none => .error (unrecognized arg)
        | some f =>
          match f.action with
          | .switch set => c.scan help ended (set acc) rest
          | .value read =>
            match rest with
            | [] => .error (.error ("No value provided for option '" ++ arg ++ "'.\n"))
            | v :: more =>
              match read acc v with
              | .error e =>
                .error (.error ("Error parsing option '" ++ arg ++ "' with value '" ++ v ++
                  "': " ++ e ++ "\n"))
              | .ok acc => c.scan help ended acc more
    else if c.subcommands.any (·.name == arg) then .ok ⟨acc, help, some (arg, rest)⟩
    else .error (unrecognized arg)

/-- The error of a command line that names no subcommand of `c`. -/
def missingSubcommand {α : Type} (c : Command α) : EarlyExit :=
  .error ("One of the following subcommands must be present:" ++
    String.join (("help" :: c.subcommands.map (·.name)).map ("\n    " ++ ·)) ++ "\n")

/-- Reads the command line `argv` of a command that has no subcommands, starting from `init`. -/
def read {α : Type} (c : Command α) (init : α) (argv : List String) : Except EarlyExit α := do
  let r ← c.scan false false init argv
  if r.help then throw (.help c.help) else pure r.args

/-- Reads the command line `argv` of a command that requires a subcommand, starting from
`init`: the arguments, the subcommand's name and the subcommand's arguments, which start with
`help` when help was asked for before the subcommand. -/
def readWithSubcommand {α : Type} (c : Command α) (init : α) (argv : List String) :
    Except EarlyExit (α × String × List String) := do
  let r ← c.scan false false init argv
  match r.subcommand with
  | some (name, rest) => pure (r.args, name, if r.help then "help" :: rest else rest)
  | none => if r.help then throw (.help c.help) else throw c.missingSubcommand

end Command

end ClusterSweep.CommandLine
