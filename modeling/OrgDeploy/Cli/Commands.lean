import OrgDeploy.Cli.Parse

/-!
# The `orgform` command line

The program `orgform` and its commands, and what a parsed command line asks for
(`Invocation`).

The options `--data-dir`, `--state` and `--organization` are global: they may be given before
the command or after it, and a value given after it wins. Counts default to `1` for
`--max-concurrent` and `0` for `--failure-tolerance`.

Source: `src/main.rs:22-100` (`Cli`, `Commands`).
-/

namespace OrgDeploy.Cli

/-- The positional template path of the commands that read a template. -/
def templateArg : Arg :=
  { id := "template", positional := true, valueName := "TEMPLATE", kind := .path, required := true,
    help := "Path to the template file (JSON)" }

/-- The repeatable `--region` option, at a place of the help. -/
def regionArg (order : Nat) (help : String) : Arg :=
  { id := "regions", long := some "region", valueName := "REGIONS", action := .append, help, order }

/-- The `--max-concurrent` option, at a place of the help. -/
def maxConcurrentArg (order : Nat) (help : String) : Arg :=
  { id := "max_concurrent", long := some "max-concurrent", valueName := "MAX_CONCURRENT",
    kind := .count, defaultValue := some "1", help, order }

/-- The `orgform` program. -/
def program : Program where
  name := "orgform"
  version := "0.0.1-alpha.0"
  about := "orgform - deploy one infrastructure template across an organization"
  args := [
    { id := "data_dir", long := some "data-dir", valueName := "DATA_DIR", kind := .path,
      global := true, order := 0, help := "Path to the data directory (default: ~/.orgform)" },
    { id := "state", long := some "state", valueName := "STATE", kind := .path, global := true,
      order := 1, help := "State file (default: <data-dir>/state.json)" },
    { id := "organization", long := some "organization", valueName := "ORGANIZATION",
      kind := .path, global := true, order := 2,
      help := "Organization file (default: <data-dir>/organization.json)" }]
  commands := [
    { name := "init", about := "Create an empty state file", order := 0 },
    { name := "deploy", about := "Deploy a template", order := 1, args := [
        templateArg,
        maxConcurrentArg 0 "Maximum number of tasks running at once",
        { id := "failure_tolerance", long := some "failure-tolerance",
          valueName := "FAILURE_TOLERANCE", kind := .count, defaultValue := some "0", order := 1,
          help := "Number of failed tasks tolerated before the run stops" },
        regionArg 2 "Deploy to these regions instead of the regions of each binding"] },
    { name := "plan", about := "Print the tasks a deploy would run", order := 2,
      args := [templateArg, regionArg 0 ""] },
    { name := "print-stacks", about := "Print the rendered stacks of a unit for each of its targets",
      order := 3, args := [
        templateArg,
        { id := "unit", long := some "unit", valueName := "UNIT", required := true, order := 0 },
        { id := "output_path", long := some "output-path", valueName := "OUTPUT_PATH",
          kind := .path, order := 1,
          help := "Write one file per target into this directory instead of printing" },
        regionArg 2 ""] },
    { name := "describe-stacks", about := "Print deployment records", order := 4,
      args := [{ id := "unit", long := some "unit", valueName := "UNIT", order := 0 }] },
    { name := "delete-stacks", about := "Delete every deployed target of a unit", order := 5,
      args := [
        { id := "unit", positional := true, valueName := "UNIT", required := true },
        maxConcurrentArg 0 ""] }]

/-- What a command line asks `orgform` to do. -/
inductive Request where
  | init
  | deploy (template : String) (maxConcurrent failureTolerance : Nat) (regions : List String)
  | plan (template : String) (regions : List String)
  | printStacks (template unit : String) (outputPath : Option String) (regions : List String)
  | describeStacks (unit : Option String)
  | deleteStacks (unit : String) (maxConcurrent : Nat)
  deriving DecidableEq, Repr

/-- A command line read: the paths given, and the request, if a command was named. -/
structure Invocation where
  dataDir : Option String := none
  state : Option String := none
  organization : Option String := none
  request : Option Request := none
  deriving DecidableEq, Repr

namespace Parsed

/-- A count given, or its default. -/
def count (r : Parsed) (id : String) (default : Nat) : Nat :=
  match r.value? id with
  | some v => (readCount v).toOption.getD default
  | none => default

/-- A text given, or the empty one. -/
def text (r : Parsed) (id : String) : String := (r.value? id).getD ""

/-- What the command line asks for. -/
def request (r : Parsed) : Option Request :=
  r.command.bind fun (cmd, _) =>
    match cmd.name with
    | "init" => some .init
    | "deploy" => some (.deploy (r.text "template") (r.count "max_concurrent" 1)
        (r.count "failure_tolerance" 0) (r.values "regions"))
    | "plan" => some (.plan (r.text "template") (r.values "regions"))
    | "print-stacks" => some (.printStacks (r.text "template") (r.text "unit")
        (r.value? "output_path") (r.values "regions"))
    | "describe-stacks" => some (.describeStacks (r.value? "unit"))
    | "delete-stacks" => some (.deleteStacks (r.text "unit") (r.count "max_concurrent" 1))
    | _ => none

/-- The invocation a parsed command line stands for. -/
def invocation (r : Parsed) : Invocation :=
  { dataDir := r.value? "data_dir", state := r.value? "state",
    organization := r.value? "organization", request := r.request }

end Parsed

/-- Reads an `orgform` command line (without the program's name). -/
def readInvocation (words : List String) : Except Halt Invocation :=
  (parse program words).map Parsed.invocation

end OrgDeploy.Cli
