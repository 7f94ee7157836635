import OrgDeploy.Workflow.Graph

/-!
# Running a task graph

`runGraph` carries out the tasks of a graph, each once its dependencies have succeeded, at most
`permits` at a time, against a world of type `σ` that the collaborators read and change.

A run is a coordinator and one worker per started task. The coordinator loops:

1. a cancelled run is halted (event `runHalted` with the failures so far);
2. a halted run skips every ready task; otherwise ready tasks are started, in the order they
   became ready, while a permit is free. A worker holds its permit until it finishes;
3. it waits for a finished worker and takes its outcome. A success is reported to `completed`,
   and dependents whose dependencies have all succeeded become ready. A failure skips every task
   that depends on it, directly or not, and halts the run once failures exceed the tolerance.

The loop ends when no worker is left. Tasks never started are then skipped as halted.

`execute` runs one task. A create-or-update task that needs late resolution has its artifact
rendered by `resolve` and hashed; otherwise it uses its artifact and its hash, hashing when no
hash is given. Then the deployable applies it. A delete task has the deployable delete.

## Moves

What the coordinator does is fixed by what it sees; what it sees is up to the environment: when
a worker finishes (and so when its task acts on the world), which finished worker it hears of
first, and when the cancellation shows. A run is therefore a sequence of `Move`s, and `Step`
says what each move does to a `Flight`, a run in progress: the coordinator's `Progress`, where
it is in its loop (`Stage`), and the world. A worker's task acts on the world at once, when the
worker finishes.

## The schedule of `runGraph`

`runGraph` is one run, timed as a single-threaded runtime times it (`Flight.advance`). A
spawned worker runs only when the coordinator waits, which it does only when no finished
worker is left to take (the join set answers at once otherwise). Time is counted in waits on
the blocking pool (`waitsOf`): the hash computed during the run, and the deployable's own file
operations (`Collaborators.applyWaits`, `deleteWaits`). A worker first run at time `t` finishes
at `t` plus its waits; workers finish in that order, the first started first among those due
together, and the coordinator takes outcomes in the order they finished. A worker's task acts
on the world when the worker finishes.

Source: `orgform-runtime/src/runner.rs` (`TaskRunner::run`, lines 78-256; `execute` and
`hash_blocking`, lines 312-364), `result.rs:1-81`, `events.rs:1-79` and `hooks.rs:1-22`.
-/

namespace OrgDeploy

/-- The greatest number of tasks that may run at a time. -/
def maxPermits : Nat := Nat.pow 2 61 - 1

/-- How a run proceeds. -/
structure RunOptions where
  maxConcurrent : Nat := 1
  failureTolerance : Nat := 0
  deriving DecidableEq, Repr

/-- The number of tasks that may run at a time: `maxConcurrent` within `1 … maxPermits`. -/
def RunOptions.permits (o : RunOptions) : Nat := max 1 (min o.maxConcurrent maxPermits)

/-- Where a task stands in a run. -/
inductive TaskStatus where
  | pending
  | ready
  | running
  | succeeded
  | failed
  | skipped
  deriving DecidableEq, Repr

/-- The name of a final status. -/
def TaskStatus.name : TaskStatus → String
  | .pending => "pending"
  | .ready => "ready"
  | .running => "running"
  | .succeeded => "succeeded"
  | .failed => "failed"
  | .skipped => "skipped"

/-- Why a task was not started. -/
inductive SkipReason where
  | dependencyFailed (dependency : TaskId)
  | halted
  deriving DecidableEq, Repr

/-- The wording of a skip reason. -/
def SkipReason.message : SkipReason → String
  | .dependencyFailed d => s!"dependency {d.display} did not succeed"
  | .halted => "run halted before the task was started"

/-- What a run did. -/
structure RunResult where
  succeeded : List TaskId := []
  failed : List (TaskId × TaskError) := []
  skipped : List (TaskId × SkipReason) := []
  halted : Bool := false
  deriving DecidableEq, Repr

namespace RunResult

/-- A run succeeds when no task failed or was skipped and it was not halted. -/
def isSuccess (r : RunResult) : Bool := r.failed.isEmpty && r.skipped.isEmpty && !r.halted

/-- The final status of a task in a run. -/
def status? (r : RunResult) (id : TaskId) : Option TaskStatus :=
  if r.succeeded.contains id then some .succeeded
  else if r.failed.any (·.1 == id) then some .failed
  else if r.skipped.any (·.1 == id) then some .skipped
  else none

end RunResult

/-- What a run reports as it goes. -/
inductive RunEvent where
  | runStarted (tasks : Nat)
  | taskStarted (task : TaskId) (action : TaskAction)
  | taskSucceeded (task : TaskId)
  | taskFailed (task : TaskId) (error : String)
  | taskSkipped (task : TaskId) (reason : String)
  | runHalted (failures : Nat)
  | runCompleted (succeeded failed skipped : Nat)
  deriving DecidableEq, Repr

/-- What a successful task produced. -/
structure Outcome where
  outputs : List (String × String) := []
  contentHash : Option String := none
  deriving DecidableEq, Repr

/-- A step that acts on a world of type `σ` and may fail with a task error. -/
abbrev Effect (σ : Type) := ExceptT TaskError (StateM σ)

/-- What a run needs from outside, over a world of type `σ`: rendering a task's artifact late,
learning of a success, and the deployable's hashing, applying and deleting. -/
structure Collaborators (δ σ : Type) where
  resolve : DeployTask δ → Effect σ Artifact
  completed : DeployTask δ → Outcome → σ → σ
  contentHash : δ → Artifact → Effect σ String
  apply : δ → Target → Artifact → Effect σ (List (String × String))
  delete : δ → Target → Effect σ Unit
  /-- How many times the deployable's apply at a target waits on the blocking pool. -/
  applyWaits : δ → Target → Nat := fun _ _ => 0
  /-- How many times the deployable's delete at a target waits on the blocking pool. -/
  deleteWaits : δ → Target → Nat := fun _ _ => 0

/-- Carries out one task. -/
def execute (c : Collaborators δ σ) (t : DeployTask δ) : Effect σ Outcome :=
  match t.kind with
  | .createOrUpdate artifact hash => do
    let (a, h) ← if t.needsLateResolution then do
        let a ← c.resolve t
        let h ← c.contentHash t.deployable a
        pure (a, h)
      else
        match artifact, hash with
        | none, _ => throw (.lateResolution "task has no rendered artifact")
        | some a, some h => pure (a, h)
        | some a, none => do
          let h ← c.contentHash t.deployable a
          pure (a, h)
    let outputs ← c.apply t.deployable t.target a
    pure { outputs, contentHash := some h }
  | .delete => do
    c.delete t.deployable t.target
    pure {}

/-- How many times carrying out a task from world `w` waits on the blocking pool: once for a
hash computed during the run, then the deployable's waits. A task that fails before a wait does
not make it. -/
def waitsOf (c : Collaborators δ σ) (t : DeployTask δ) (w : σ) : Nat :=
  match t.kind with
  | .createOrUpdate artifact hash =>
    let hashed (a : Artifact) (w : σ) : Nat :=
      match (c.contentHash t.deployable a).run w with
      | (.ok _, _) => 1 + c.applyWaits t.deployable t.target
      | (.error _, _) => 1
    if t.needsLateResolution then
      match (c.resolve t).run w with
      | (.ok a, w) => hashed a w
      | (.error _, _) => 0
    else
      match artifact, hash with
      | none, _ => 0
      | some _, some _ => c.applyWaits t.deployable t.target
      | some a, none => hashed a w
  | .delete => c.deleteWaits t.deployable t.target

/-- The coordinator's state of a run. -/
structure Progress where
  status : Array TaskStatus
  /-- For each task, the dependencies that have not yet succeeded. -/
  waiting : Array Nat
  ready : List Nat
  /-- Started tasks whose workers have not finished, in start order. -/
  executing : List Nat := []
  /-- Outcomes of finished workers not yet taken, oldest first. -/
  done : List (Nat × Except TaskError Outcome) := []
  failures : Nat := 0
  halted : Bool := false
  result : RunResult := {}
  events : List RunEvent := []

namespace Progress

variable (g : TaskGraph δ)

/-- The id of a task. -/
def idOf (i : Nat) : TaskId := ((g.tasks[i]?).map (·.id)).getD default

/-- Records an event. -/
def emit (p : Progress) (e : RunEvent) : Progress := { p with events := p.events ++ [e] }

/-- The status of a task. -/
def statusOf (p : Progress) (i : Nat) : TaskStatus := p.status.getD i .pending

/-- Skips a task. -/
def skip (p : Progress) (i : Nat) (reason : SkipReason) : Progress :=
  let id := idOf g i
  let p := { p with status := p.status.set! i .skipped }
  let p := p.emit (.taskSkipped id reason.message)
  { p with result := { p.result with skipped := p.result.skipped ++ [(id, reason)] } }

/-- Skips the pending tasks reachable from `stack`, last first, for a failed dependency. -/
def skipFrom (dependency : TaskId) : Nat → List Nat → Progress → Progress
  | 0, _, p => p
  | _, [], p => p
  | fuel + 1, i :: stack, p =>
    if p.statusOf i != .pending then skipFrom dependency fuel stack p
    else
      let p := p.skip g i (.dependencyFailed dependency)
      skipFrom dependency fuel ((g.dependentsOf i).reverse ++ stack) p

/-- Skips every pending task that depends on a failed one. Each round takes a task off the stack
and skips a pending one at most once, pushing its dependents, so the first stack and every link
of the graph bound the rounds. -/
def skipDependents (p : Progress) (failed : Nat) : Progress :=
  skipFrom g (idOf g failed) ((g.dependentsOf failed).length + g.linkCount)
    (g.dependentsOf failed).reverse p

/-- Halts the run. -/
def halt (p : Progress) : Progress := { p with halted := true }.emit (.runHalted p.failures)

/-- Skips every ready task. -/
def skipReady (p : Progress) : Progress :=
  (p.ready.foldl (fun p i => p.skip g i .halted) { p with ready := [] })

/-- Makes a dependent ready once its last dependency succeeded. -/
def release (p : Progress) (d : Nat) : Progress :=
  let left := p.waiting.getD d 0 - 1
  let p := { p with waiting := p.waiting.set! d left }
  if left == 0 && p.statusOf d == .pending then
    { p with status := p.status.set! d .ready, ready := p.ready ++ [d] }
  else p

/-- Records the success of task `i`, of id `id`. -/
def markSucceeded (p : Progress) (i : Nat) (id : TaskId) : Progress :=
  let p := { p with status := p.status.set! i .succeeded,
                    result := { p.result with succeeded := p.result.succeeded ++ [id] } }
  p.emit (.taskSucceeded id)

/-- Records the failure of task `i`, of id `id`. -/
def markFailed (p : Progress) (i : Nat) (id : TaskId) (e : TaskError) : Progress :=
  let p := { p with failures := p.failures + 1, status := p.status.set! i .failed }
  let p := p.emit (.taskFailed id e.message)
  { p with result := { p.result with failed := p.result.failed ++ [(id, e)] } }

/-- Takes the outcome of a finished task. -/
def settle (c : Collaborators δ σ) (opts : RunOptions) (p : Progress) (i : Nat)
    (outcome : Except TaskError Outcome) (w : σ) : Progress × σ :=
  match g.tasks[i]?, outcome with
  | none, _ => (p, w)
  | some t, .ok o => ((g.dependentsOf i).foldl release (p.markSucceeded i t.id), c.completed t o w)
  | some t, .error e =>
    let p := (p.markFailed i t.id e).skipDependents g i
    if !p.halted && p.failures > opts.failureTolerance then (p.halt, w) else (p, w)

/-- Gives up on a task at the close of a run: one never started is skipped as halted, one still
running has failed. -/
def abandon (p : Progress) (i : Nat) : Progress :=
  match p.statusOf i with
  | .pending | .ready => p.skip g i .halted
  | .running =>
    let id := idOf g i
    { p with status := p.status.set! i .failed,
             result := { p.result with failed := p.result.failed ++
               [(id, .aborted "worker terminated before reporting")] } }
  | _ => p

/-- Closes a run: tasks never started are skipped as halted. -/
def finish (p : Progress) : Progress :=
  let p := (List.range g.size).foldl (abandon g) p
  let p := { p with result := { p.result with halted := p.halted } }
  p.emit (.runCompleted p.result.succeeded.length p.result.failed.length p.result.skipped.length)

end Progress

/-! ## Flights and moves -/

/-- Where the coordinator is in its loop. -/
inductive Stage where
  /-- About to look at the cancellation. -/
  | top
  /-- Starting ready tasks while permits last. -/
  | admitting
  /-- Waiting for a finished worker. -/
  | joining
  /-- Out of the loop, tasks never started skipped. -/
  | over
  deriving DecidableEq, Repr

/-- A run in progress. -/
structure Flight (σ : Type) where
  progress : Progress
  stage : Stage
  world : σ

/-- What happens next in a run. -/
inductive Move where
  /-- The coordinator looks at the cancellation and sees `cancelled`. -/
  | observe (cancelled : Bool)
  /-- The coordinator starts the first ready task. -/
  | start (task : Nat)
  /-- The coordinator ends the admission: no ready task, or no free permit. -/
  | close
  /-- The worker of a task finishes: the task acts on the world. -/
  | finish (task : Nat)
  /-- The coordinator takes the outcome of a finished worker. -/
  | settle (task : Nat) (outcome : Except TaskError Outcome)
  /-- The coordinator leaves the loop: no worker is left. -/
  | stop

namespace Flight

variable (g : TaskGraph δ)

/-- The first flight of a run: the tasks without dependencies are ready. -/
def launch (w : σ) : Flight σ :=
  let entries := g.entryPoints
  let status := entries.foldl (fun s i => s.set! i .ready) (Array.replicate g.size .pending)
  { progress := { status, waiting := g.prerequisites.map List.length, ready := entries,
                  events := [.runStarted g.size] },
    stage := .top, world := w }

/-- The coordinator has looked at the cancellation: a halted run skips its ready tasks and
waits; another one admits. -/
def observed (f : Flight σ) (cancelled : Bool) : Flight σ :=
  let p := if !f.progress.halted && cancelled then f.progress.halt else f.progress
  if p.halted then { f with progress := p.skipReady g, stage := .joining }
  else { f with progress := p, stage := .admitting }

/-- The first ready task has started (a position past the graph is dropped). -/
def started (f : Flight σ) : Flight σ :=
  match f.progress.ready with
  | [] => f
  | i :: rest =>
    match g.tasks[i]? with
    | none => { f with progress := { f.progress with ready := rest } }
    | some t =>
      let p := { f.progress with ready := rest, status := f.progress.status.set! i .running,
                                 executing := f.progress.executing ++ [i] }
      { f with progress := p.emit (.taskStarted t.id t.action) }

/-- The worker of task `i` has finished: the task acted on the world, and its outcome waits. -/
def finished (c : Collaborators δ σ) (f : Flight σ) (i : Nat) : Flight σ :=
  let p := { f.progress with executing := f.progress.executing.erase i }
  match g.tasks[i]? with
  | none => { f with progress := p }
  | some t =>
    let (outcome, w) := (execute c t).run f.world
    { f with progress := { p with done := p.done ++ [(i, outcome)] }, world := w }

/-- The coordinator has taken the outcome of task `i`; `rest` are the outcomes still waiting. -/
def settled (c : Collaborators δ σ) (opts : RunOptions) (f : Flight σ)
    (rest : List (Nat × Except TaskError Outcome)) (i : Nat) (outcome : Except TaskError Outcome) :
    Flight σ :=
  let (p, w) := Progress.settle g c opts { f.progress with done := rest } i outcome f.world
  { progress := p, stage := .top, world := w }

/-- The coordinator has left the loop. -/
def stopped (f : Flight σ) : Flight σ := { f with progress := f.progress.finish g, stage := .over }

end Flight

/-- One move of a run. -/
inductive Step (g : TaskGraph δ) (c : Collaborators δ σ) (opts : RunOptions) :
    Flight σ → Move → Flight σ → Prop
  | observe {f : Flight σ} (cancelled : Bool) (h : f.stage = .top) :
      Step g c opts f (.observe cancelled) (f.observed g cancelled)
  | start {f : Flight σ} {i : Nat} {rest : List Nat} (h : f.stage = .admitting)
      (hready : f.progress.ready = i :: rest) (hfree : f.progress.executing.length < opts.permits) :
      Step g c opts f (.start i) (f.started g)
  | close {f : Flight σ} (h : f.stage = .admitting)
      (hend : f.progress.ready = [] ∨ opts.permits ≤ f.progress.executing.length) :
      Step g c opts f .close { f with stage := .joining }
  | finish {f : Flight σ} {i : Nat} (h : f.stage ≠ .over) (hi : i ∈ f.progress.executing) :
      Step g c opts f (.finish i) (f.finished g c i)
  | settle {f : Flight σ} {pre post : List (Nat × Except TaskError Outcome)} {i : Nat}
      {outcome : Except TaskError Outcome} (h : f.stage = .joining)
      (hdone : f.progress.done = pre ++ (i, outcome) :: post) :
      Step g c opts f (.settle i outcome) (f.settled g c opts (pre ++ post) i outcome)
  | stop {f : Flight σ} (h : f.stage = .joining) (hdone : f.progress.done = [])
      (hidle : f.progress.executing = []) :
      Step g c opts f .stop (f.stopped g)

/-- From `f`, the moves `ms` lead to `f'`. -/
inductive Flies (g : TaskGraph δ) (c : Collaborators δ σ) (opts : RunOptions) :
    Flight σ → List Move → Flight σ → Prop
  | refl (f : Flight σ) : Flies g c opts f [] f
  | tail {f f' f'' : Flight σ} {ms : List Move} {m : Move} :
      Flies g c opts f ms f' → Step g c opts f' m f'' → Flies g c opts f (ms ++ [m]) f''

/-- The clock of a timed run: the time, in waits on the blocking pool, and for each worker that
has been run, the time it finishes. -/
structure Clock where
  now : Nat := 0
  due : List (Nat × Nat) := []

namespace Clock

/-- The worker of `xs` that finishes first among those that have been run, with its time; the
first in `xs` among those due together. -/
def nextDue (k : Clock) : List Nat → Option (Nat × Nat)
  | [] => none
  | i :: rest =>
    match k.due.lookup i, k.nextDue rest with
    | some d, some (j, e) => if e < d then some (j, e) else some (i, d)
    | some d, none => some (i, d)
    | none, r => r

/-- Forgets a worker that has finished. -/
def drop (k : Clock) (i : Nat) : Clock := { k with due := k.due.filter (·.1 != i) }

/-- Runs every worker not run yet: each finishes after its waits from now. -/
def poll (k : Clock) (g : TaskGraph δ) (c : Collaborators δ σ) (f : Flight σ) : Clock :=
  let waits (i : Nat) : Nat := ((g.tasks[i]?).map fun t => waitsOf c t f.world).getD 0
  let fresh := f.progress.executing.filter fun i => (k.due.lookup i).isNone
  { k with due := k.due ++ fresh.map fun i => (i, k.now + waits i) }

end Clock

namespace Flight

variable (g : TaskGraph δ) (c : Collaborators δ σ) (opts : RunOptions)

/-- The coordinator with no worker due: it takes the oldest outcome, or else waits, running the
new workers, until the next worker finishes; with no worker left it leaves the loop. -/
def joinNext (k : Clock) (f : Flight σ) : Move × Clock × Flight σ :=
  match f.progress.done with
  | (i, outcome) :: rest => (.settle i outcome, k, f.settled g c opts rest i outcome)
  | [] =>
    let k := k.poll g c f
    match k.nextDue f.progress.executing with
    | some (i, d) => (.finish i, { k with now := d }.drop i, f.finished g c i)
    | none => (.stop, k, f.stopped g)

/-- The next move of the timed run, its clock, and where it leads. -/
def advance (cancelled : Bool) (k : Clock) (f : Flight σ) : Option (Move × Clock × Flight σ) :=
  match f.stage with
  | .top => some (.observe cancelled, k, f.observed g cancelled)
  | .admitting =>
    match f.progress.ready with
    | i :: _ =>
      if f.progress.executing.length < opts.permits then some (.start i, k, f.started g)
      else some (.close, k, { f with stage := .joining })
    | [] => some (.close, k, { f with stage := .joining })
  | .joining =>
    match k.nextDue f.progress.executing with
    | some (i, d) =>
      if d ≤ k.now then some (.finish i, k.drop i, f.finished g c i)
      else some (joinNext g c opts k f)
    | none => some (joinNext g c opts k f)
  | .over => none

/-- Makes the moves of `advance`, at most `fuel` of them. -/
def drive (cancelled : Bool) : Nat → Clock → Flight σ → Flight σ
  | 0, _, f => f
  | fuel + 1, k, f =>
    match f.advance g c opts cancelled k with
    | none => f
    | some (_, k', f') => drive cancelled fuel k' f'

end Flight

/-- Runs a graph: the result, the events in order, and the world after it. -/
def runGraph (opts : RunOptions) (g : TaskGraph δ) (c : Collaborators δ σ) (cancelled : Bool)
    (w : σ) : RunResult × List RunEvent × σ :=
  let f := Flight.drive g c opts cancelled (6 * (g.size + 1)) {} (Flight.launch g w)
  (f.progress.result, f.progress.events, f.world)

end OrgDeploy
