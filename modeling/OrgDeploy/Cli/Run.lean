import OrgDeploy.Cli.Commands
import OrgDeploy.Cli.Report
import OrgDeploy.Engine.Ops

/-!
# Running `orgform`

`run` carries out a command line in a world: a file system and what was printed. The data
directory is `--data-dir`, or `.orgform` in the home directory; the state and organization files
are `--state` and `--organization`, or `state.json` and `organization.json` in the data
directory. Stacks are deployed as files below `deployments` in the data directory, and the
copy-file plugin reads its files next to the template (the current directory for the commands
without a template).

* `init` creates an empty state unless there is one.
* `deploy` runs a template and reports the run on standard error: the units left out, the failed
  and skipped tasks, and the counts of the run with its id. It fails when anything went wrong.
* `plan` lists the tasks a deploy would run on standard output, each with the tasks it waits
  for, and the planning errors and the counts on standard error. It fails on a planning error.
* `print-stacks` prints every target's stack of a unit (and its parameters, when it has some),
  or writes one file per target into `--output-path`.
* `describe-stacks` prints the records of every unit, or of one, as JSON.
* `delete-stacks` deletes every deployment of a unit and reports the run like `deploy`.

A refused command line prints its message on standard error with status 2; help and version go
to standard output with status 0. A failure prints its report (`Failure.text`) on standard error
after what was printed before it, with status 1.

Source: `src/main.rs:102-347` (`Paths`, `run`, `engine`, `read_template`, `template_dir`,
`print_report`).
-/

namespace OrgDeploy.Cli

open OrgDeploy.Fs OrgDeploy.Json

/-- What a command printed on standard output and standard error. -/
structure Transcript where
  out : String := ""
  err : String := ""
  deriving DecidableEq, Repr

/-- The world a command runs in: the file system and what was printed. -/
abbrev Console := FileTree × Transcript

/-- The file system of a console. -/
def consoleFiles : FilesIn Console := ⟨Prod.fst, fun t w => (t, w.2)⟩

/-- A step of a command: it changes the console and may fail. -/
abbrev Session := ExceptT Failure (StateM Console)

/-- Prints a line on standard output. -/
def say (line : String) : Session Unit :=
  modify fun (t, tr) => (t, { tr with out := tr.out ++ line ++ "\n" })

/-- Prints a line on standard error. -/
def warn (line : String) : Session Unit :=
  modify fun (t, tr) => (t, { tr with err := tr.err ++ line ++ "\n" })

/-- Runs an engine operation; its error fails the command with a context. -/
def engineStep (context : String) (m : Act Console EngineError α) : Session α :=
  m.adapt fun e => Failure.because context e.chain

/-- Runs a file operation; its error fails the command with a context. -/
def fileStep (context : String) (m : FsAct α) : Session α :=
  consoleFiles.run m fun e => Failure.because context [e.message]

/-- Reads a file's text. -/
def readText (p : String) : FsAct String := do
  match (← tree).fileText p with
  | .ok text => pure text
  | .error e => throw e

/-- What a run of the program has from outside: the home directory, the id of a deployment run,
and the time. -/
structure Environment where
  home : Option String := none
  runId : String
  now : Timestamp

/-- The files the program works with. -/
structure Paths where
  dataDir : String
  state : String
  organization : String
  deriving DecidableEq, Repr

namespace Paths

/-- Where stacks and copied files are deployed. -/
def deployments (p : Paths) : String := joinPath p.dataDir "deployments"

/-- The paths of an invocation. -/
def of (env : Environment) (inv : Invocation) : Except Failure Paths := do
  let dataDir ← match inv.dataDir, env.home with
    | some d, _ => pure d
    | none, some home => pure (joinPath home ".orgform")
    | none, none => throw { context := "could not determine home directory" }
  pure { dataDir,
         state := inv.state.getD (joinPath dataDir "state.json"),
         organization := inv.organization.getD (joinPath dataDir "organization.json") }

end Paths

/-- The directory of a template, where the copy-file plugin reads its files. -/
def templateDir (template : String) : String :=
  match parentPath template with
  | some d => if d.isEmpty then "." else d
  | none => "."

/-- The engine's services for a command. -/
def services (env : Environment) (paths : Paths) (config : EngineConfig) (source : String) :
    Services Console where
  config
  directory := FileDirectory.directory paths.organization consoleFiles
  store := FsStateStore.store paths.state consoleFiles
  backend := FsBackend.backend paths.deployments consoleFiles
  plugins :=
    PluginRegistry.register {} ((CopyFile.mk source paths.deployments).plugin consoleFiles)
  now := env.now

/-- Reads a template file. -/
def readTemplate (path : String) : Session String :=
  fileStep s!"failed to read template file: {path}" (readText path)

/-- Reports a deployment run on standard error. -/
def reportRun (runId : String) (r : DeployReport) : Session Unit := do
  for e in r.planningErrors do warn s!"not planned: {e.message}"
  for (id, e) in r.run.failed do warn s!"failed: {id.display}: {e.message}"
  for (id, reason) in r.run.skipped do warn s!"skipped: {id.display}: {reason.message}"
  let halted := if r.run.halted then " (halted)" else ""
  warn s!"Run {runId}: {r.run.succeeded.length} succeeded, {r.run.failed.length} failed, {r.run.skipped.length} skipped{halted}"

/-- How `plan` names the action of a task. -/
def actionLabel (t : DeployTask δ) : String :=
  match t.action with
  | .createOrUpdate => if t.isDeferred then "create_or_update (deferred)" else "create_or_update"
  | .delete => "delete"

/-- Prints the stacks of a unit, or writes them below a directory. -/
def printStacks (unit : String) (outputPath : Option String) (rendered : List (Target × Artifact)) :
    Session Unit := do
  for (target, artifact) in rendered do
    match outputPath with
    | some dir =>
      let path := joinPath dir s!"{unit}-{target.accountId}-{target.region}.json"
      fileStep s!"failed to create {dir}" (makeDirs dir)
      fileStep s!"failed to write {path}" (storeFile path artifact.text)
      warn s!"Wrote {path}"
    | none =>
      say s!"# {target.display}"
      say artifact.text
      if !artifact.parameters.isEmpty then
        say "# parameters"
        say artifact.parametersJson.pretty

/-- Carries out a request. -/
def execute (env : Environment) (paths : Paths) : Request → Session Unit
  | .init => do
    let sv := services env paths {} "."
    if ← engineStep "failed to initialize state" sv.init then
      warn s!"Initialized state at {paths.state}"
    else warn s!"State already exists at {paths.state}"
  | .deploy template maxConcurrent failureTolerance regions => do
    let text ← readTemplate template
    let sv := services env paths { maxConcurrent, failureTolerance, regions } (templateDir template)
    let report ← engineStep "deployment aborted" (sv.deploy text false)
    reportRun env.runId report
    if !report.isSuccess then throw { context := "deployment finished with errors" }
  | .plan template regions => do
    let text ← readTemplate template
    let sv := services env paths { regions } (templateDir template)
    let plan ← engineStep "planning failed" (sv.plan text)
    for task in plan.graph.tasks.toList do
      say s!"{actionLabel task} {task.id.display}"
      for dependency in task.dependsOn do say s!"    after {dependency.display}"
    for e in plan.errors do warn s!"error: {e.message}"
    warn s!"{plan.graph.tasks.size} tasks, {plan.errors.length} errors"
    if !plan.errors.isEmpty then throw { context := "planning finished with errors" }
  | .printStacks template unit outputPath regions => do
    let text ← readTemplate template
    let sv := services env paths { regions } (templateDir template)
    let rendered ← engineStep s!"failed to render unit '{unit}'" (sv.renderUnit text unit)
    printStacks unit outputPath rendered
  | .describeStacks unit => do
    let sv := services env paths {} "."
    let records ← engineStep "failed to describe stacks" (sv.describe unit)
    say (Value.obj (records.map fun (u, rs) => (u, .arr (rs.map Record.toJson)))).pretty
  | .deleteStacks unit maxConcurrent => do
    let sv := services env paths { maxConcurrent } "."
    let report ← engineStep s!"failed to delete unit '{unit}'" (sv.deleteUnit unit false)
    reportRun env.runId report
    if !report.isSuccess then throw { context := "delete finished with errors" }

/-- How a run of the program ended: its status and what it printed. -/
structure Exit where
  status : Nat
  out : String := ""
  err : String := ""
  deriving DecidableEq, Repr

/-- Runs the program on a command line (without the program's name) in a file system. -/
def run (env : Environment) (words : List String) (t : FileTree) : Exit × FileTree :=
  match readInvocation words with
  | .error (.show text) => ({ status := 0, out := text }, t)
  | .error (.refuse r) => ({ status := 2, err := r.text }, t)
  | .ok inv =>
    match Paths.of env inv with
    | .error f => ({ status := 1, err := f.text }, t)
    | .ok paths =>
      match inv.request with
      | none => ({ status := 0, out := "orgform - use --help to see available commands\n" }, t)
      | some request =>
        let (result, (t, tr)) := (execute env paths request).run (t, {})
        match result with
        | .ok () => ({ status := 0, out := tr.out, err := tr.err }, t)
        | .error f => ({ status := 1, out := tr.out, err := tr.err ++ f.text }, t)

end OrgDeploy.Cli
