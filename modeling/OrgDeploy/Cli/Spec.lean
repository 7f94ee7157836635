/-!
# Command-line specifications

A program's command line is described by data: a `Program` has a name, a version, an about line,
arguments, and commands with arguments of their own. This module holds that description and the
names it gives to each argument; `OrgDeploy.Cli.Help` writes the usage and the help from it, and
`OrgDeploy.Cli.Parse` reads a command line against it.

An argument is an option named by a long (`--name`) or short (`-n`) flag, or a positional one
named by its place. An option with a value takes exactly one value per use: `set` options may be
used once, `append` options accumulate. The `help` and `version` flags print and stop.

Every command accepts the program's global arguments as well as its own, and the `-h`/`--help`
flag; the program itself also has `-V`/`--version`. Besides its commands, a program has the
command `help`, which prints the help of the command named after it.

Source: the arguments `src/main.rs:22-100` declares.
-/

namespace OrgDeploy.Cli

/-- How a value given on the command line is read. -/
inductive ValueKind where
  /-- A path: any text but the empty one. -/
  | path
  /-- Any text. -/
  | text
  /-- A count: decimal digits of a 64-bit number, maybe after a `+`. -/
  | count
  deriving DecidableEq, Repr

/-- What an argument does when it is given. -/
inductive ArgAction where
  /-- Takes one value, and may be given once. -/
  | set
  /-- Takes one value each time it is given; the values accumulate. -/
  | append
  /-- Prints the help of its command. -/
  | help
  /-- Prints the version of the program. -/
  | version
  deriving DecidableEq, Repr

/-- An argument of a command. -/
structure Arg where
  id : String
  long : Option String := none
  short : Option Char := none
  positional : Bool := false
  action : ArgAction := .set
  /-- The name of the value in usages. -/
  valueName : String := ""
  kind : ValueKind := .text
  help : String := ""
  required : Bool := false
  /-- Every value may be left out (only for positional arguments). -/
  optionalValues : Bool := false
  defaultValue : Option String := none
  global : Bool := false
  /-- Where the argument stands in the help; equal places are ordered by name. -/
  order : Nat := 999
  deriving DecidableEq, Repr

namespace Arg

/-- Whether the argument takes values. -/
def takesValue (a : Arg) : Bool := a.action == .set || a.action == .append

/-- The value placeholder: `<NAME>`, or `[NAME]` for an optional positional argument, followed by
`...` for a positional argument that takes many values. -/
def valueText (a : Arg) (required : Bool) : String :=
  let name := if a.positional && (a.optionalValues || !required) then s!"[{a.valueName}]"
    else s!"<{a.valueName}>"
  if a.positional && a.action == .append then name ++ "..." else name

/-- The flag and value of an argument as written in usages and messages, with `required` telling
whether a positional argument is shown as required. -/
def render (a : Arg) (required : Bool) : String :=
  let flag := match a.long, a.short with
    | some l, _ => "--" ++ l
    | none, some c => "-" ++ c.toString
    | none, none => ""
  if a.positional then a.valueText required
  else if a.takesValue then flag ++ " " ++ a.valueText required
  else flag

/-- The argument as messages name it. -/
def display (a : Arg) : String := a.render a.required

/-- The key ordering options in a help: short flag first (lowercase, then a mark of case), else
the long flag. -/
def sortKey (a : Arg) : String :=
  match a.short, a.long with
  | some c, _ => c.toLower.toString ++ (if c.isLower then "0" else "1")
  | none, some l => l
  | none, none => "\x7b" ++ a.id

/-- The default value as the help shows it, if there is one. -/
def defaultText (a : Arg) : String :=
  match a.defaultValue with
  | some v => s!"[default: {v}]"
  | none => ""

end Arg

/-- The `-h`/`--help` flag of every command. -/
def helpFlag : Arg :=
  { id := "help", long := some "help", short := some 'h', action := .help, help := "Print help" }

/-- The `-V`/`--version` flag of a program. -/
def versionFlag : Arg :=
  { id := "version", long := some "version", short := some 'V', action := .version,
    help := "Print version" }

/-- A command of a program. -/
structure Command where
  name : String
  about : String
  args : List Arg := []
  /-- Where the command stands in the program's help. -/
  order : Nat := 999
  deriving DecidableEq, Repr

/-- A program: its own arguments and its commands. -/
structure Program where
  name : String
  version : String
  about : String
  args : List Arg := []
  commands : List Command := []
  deriving DecidableEq, Repr

/-- The `help` command, which names the commands whose help to print. -/
def helpCommand : Command where
  name := "help"
  about := "Print this message or the help of the given subcommand(s)"
  args := [{ id := "subcommand", positional := true, action := .append, valueName := "COMMAND",
             optionalValues := true, help := "Print help for the subcommand(s)" }]

namespace Program

/-- The commands, the `help` command last. -/
def allCommands (p : Program) : List Command := p.commands ++ [helpCommand]

/-- The program's arguments that every command accepts. -/
def globals (p : Program) : List Arg := p.args.filter (·.global)

/-- The command of a name. -/
def command? (p : Program) (name : String) : Option Command :=
  p.allCommands.find? (·.name == name)

end Program

/-- Where a parse stands: at the program itself or at one of its commands. -/
inductive Level where
  | root
  | command (c : Command)
  deriving DecidableEq, Repr

namespace Level

/-- The name a level is invoked by. -/
def binName (p : Program) : Level → String
  | .root => p.name
  | .command c => p.name ++ " " ++ c.name

/-- The arguments a level accepts, in the order they are looked up. -/
def args (p : Program) : Level → List Arg
  | .root => p.args ++ [helpFlag, versionFlag]
  | .command c =>
    if c.name == helpCommand.name then c.args else c.args ++ p.globals ++ [helpFlag]

/-- The commands below a level. -/
def commands (p : Program) : Level → List Command
  | .root => p.allCommands
  | .command _ => []

/-- The positional arguments of a level, in order. -/
def positionals (p : Program) (l : Level) : List Arg := (l.args p).filter (·.positional)

/-- The flag a message suggests for help, if the level has one. -/
def helpHint (p : Program) (l : Level) : Option String :=
  if (l.args p).any (·.action == .help) then some "--help"
  else if (l.commands p).isEmpty then none
  else some "help"

end Level

end OrgDeploy.Cli
