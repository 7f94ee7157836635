import OrgDeploy.Cli.Help

/-!
# Refused command lines

When a command line cannot be read, the program prints a message on standard error and stops
with status 2. A `Refusal` holds the parts of that message:

* the `Problem`, which gives the first line after `error: `;
* suggestions: similar commands, a similar argument, and free tips, each on a line of its own
  starting with `  tip: `, after a blank line;
* the usage to show, after a blank line;
* the flag to try for more information, which closes the message after a blank line.

Source: the errors clap reports for the commands of `src/main.rs:22-100`.
-/

namespace OrgDeploy.Cli

/-- What is wrong with a command line. -/
inductive Problem where
  | unknownArgument (arg : String)
  | unknownCommand (name : String)
  | missingRequired (args : List String)
  | emptyValue (arg : String)
  | invalidValue (value arg reason : String)
  | repeated (arg : String)
  | unexpectedValue (value arg : String)
  deriving DecidableEq, Repr

/-- The first line of a refusal, after `error: `, with the lines that belong to it. -/
def Problem.message : Problem → String
  | .unknownArgument arg => s!"unexpected argument '{arg}' found"
  | .unknownCommand name => s!"unrecognized subcommand '{name}'"
  | .missingRequired args =>
    "the following required arguments were not provided:" ++
      String.join (args.map fun a => "\n  " ++ a)
  | .emptyValue arg => s!"a value is required for '{arg}' but none was supplied"
  | .invalidValue value arg reason => s!"invalid value '{value}' for '{arg}': {reason}"
  | .repeated arg => s!"the argument '{arg}' cannot be used multiple times"
  | .unexpectedValue value arg =>
    s!"unexpected value '{value}' for '{arg}' found; no more were expected"

/-- A refused command line. -/
structure Refusal where
  problem : Problem
  similarCommands : List String := []
  similarArg : Option String := none
  tips : List String := []
  usage : Option String := none
  helpHint : Option String := none
  deriving DecidableEq, Repr

namespace Refusal

/-- The names of a suggestion, quoted and separated by commas. -/
def quoted (names : List String) : String := ", ".intercalate (names.map fun n => s!"'{n}'")

/-- The suggestion lines: each after a newline, the first after a blank line. -/
def suggestions (r : Refusal) : String :=
  let lines :=
    (if r.similarCommands.isEmpty then []
     else if r.similarCommands.length == 1 then
       ["a similar subcommand exists: " ++ quoted r.similarCommands]
     else ["some similar subcommands exist: " ++ quoted r.similarCommands]) ++
    (match r.similarArg with
     | some a => [s!"a similar argument exists: '{a}'"]
     | none => []) ++ r.tips
  if lines.isEmpty then "" else "\n" ++ String.join (lines.map fun l => "\n  tip: " ++ l)

/-- The message of a refusal, ending in a newline. -/
def text (r : Refusal) : String :=
  "error: " ++ r.problem.message ++ r.suggestions ++
    (match r.usage with
     | some u => "\n\nUsage: " ++ u
     | none => "") ++
    (match r.helpHint with
     | some h => s!"\n\nFor more information, try '{h}'.\n"
     | none => "\n")

end Refusal

/-- Why reading a command line stopped: a text to print on standard output (a help or the
version), or a refusal. -/
inductive Halt where
  | show (text : String)
  | refuse (r : Refusal)
  deriving DecidableEq, Repr

end OrgDeploy.Cli
