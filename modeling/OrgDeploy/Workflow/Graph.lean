import OrgDeploy.Workflow.Task

/-!
# Task graphs

`TaskGraph.build` turns a list of tasks into a dependency graph, refusing, in this order:

1. a repeated task id (`duplicateTask`, the second occurrence);
2. a dependency on an id that is no task (`unknownDependency`, tasks in order, each task's
   dependencies in id order);
3. a dependency cycle (`dependencyCycle`, as `findCycle` reports it).

Tasks are numbered by position. `prerequisites i` lists the dependencies of task `i` in id order;
`dependents d` lists the tasks depending on `d`, in task order.

`findCycle` is a depth-first search over the tasks in order, following each task's dependencies
in id order; dependencies on unknown ids are ignored, and an id shared by several tasks stands
for the last of them. The first edge back to a task on the current path closes a cycle, reported
from that task to the end of the path.

Source: `orgform-workflow/src/graph.rs:1-147` (`TaskGraph::new`, `find_cycle`) and
`error.rs:1-53`.
-/

namespace OrgDeploy

/-- How far the cycle search has got with a task. -/
inductive Mark where
  | unseen
  | onPath
  | finished
  deriving DecidableEq, Repr

/-- The cycle closed by an edge back to `next`, given the search path, newest first. -/
def cycleFrom (next : Nat) (path : List Nat) : List Nat :=
  next :: (path.takeWhile (· != next)).reverse

mutual

/-- Searches from `node` for a cycle, within `fuel` levels of depth. -/
def searchFrom (edges : Array (List Nat)) (fuel node : Nat) (marks : Array Mark)
    (path : List Nat) : Array Mark × Option (List Nat) :=
  match fuel with
  | 0 => (marks, none)
  | fuel + 1 => visitEdges edges fuel node (node :: path) (edges.getD node []) (marks.set! node .onPath)
termination_by (fuel, 0)

/-- Follows the remaining edges of `node`; `node` is finished when none closes a cycle. -/
def visitEdges (edges : Array (List Nat)) (fuel node : Nat) (path : List Nat) (nexts : List Nat)
    (marks : Array Mark) : Array Mark × Option (List Nat) :=
  match nexts with
  | [] => (marks.set! node .finished, none)
  | next :: rest =>
    match marks.getD next .unseen with
    | .onPath => (marks, some (cycleFrom next path))
    | .unseen =>
      match searchFrom edges fuel next marks path with
      | (marks, some c) => (marks, some c)
      | (marks, none) => visitEdges edges fuel node path rest marks
    | .finished => visitEdges edges fuel node path rest marks
termination_by (fuel, nexts.length + 1)

end

/-- The first cycle the search meets, as positions, starting from every task in order. -/
def cycleOf (edges : Array (List Nat)) : Option (List Nat) :=
  let n := edges.size
  ((List.range n).foldl (fun (marks, found) start =>
    match found with
    | some c => (marks, some c)
    | none =>
      if marks.getD start .unseen == .unseen then searchFrom edges (n + 1) start marks []
      else (marks, none)) (Array.replicate n Mark.unseen, none)).2

/-- The position of the last task with an id. -/
def lastIndexOf (ids : List TaskId) (id : TaskId) : Option Nat :=
  (ids.zipIdx.filter (·.1 == id)).getLast?.map (·.2)

/-- A dependency cycle among tasks, ignoring unknown dependencies. -/
def findCycle (tasks : List (DeployTask δ)) : Option (List TaskId) :=
  let ids := tasks.map (·.id)
  let edges := tasks.toArray.map fun t => t.dependsOn.filterMap (lastIndexOf ids)
  (cycleOf edges).map fun c => c.filterMap (ids[·]?)

/-- Tasks with their dependency links. -/
structure TaskGraph (δ : Type) where
  tasks : Array (DeployTask δ)
  /-- For each task, the positions of its dependencies. -/
  prerequisites : Array (List Nat)
  /-- For each task, the positions of the tasks depending on it. -/
  dependents : Array (List Nat)

/-- The first id that occurs a second time. -/
def firstRepeatedId : List TaskId → List TaskId → Option TaskId
  | [], _ => none
  | i :: rest, seen => if seen.contains i then some i else firstRepeatedId rest (i :: seen)

namespace TaskGraph

/-- The number of tasks. -/
def size (g : TaskGraph δ) : Nat := g.tasks.size

/-- The position of the task with an id. -/
def indexOf? (g : TaskGraph δ) (id : TaskId) : Option Nat := g.tasks.findIdx? (·.id == id)

/-- The task with an id. -/
def get? (g : TaskGraph δ) (id : TaskId) : Option (DeployTask δ) := g.tasks.find? (·.id == id)

/-- The dependencies of a task. -/
def prerequisitesOf (g : TaskGraph δ) (i : Nat) : List Nat := g.prerequisites.getD i []

/-- The dependents of a task. -/
def dependentsOf (g : TaskGraph δ) (i : Nat) : List Nat := g.dependents.getD i []

/-- The number of dependency links: every task's dependents, counted with repetition. -/
def linkCount (g : TaskGraph δ) : Nat :=
  (List.range g.size).foldr (fun i n => (g.dependentsOf i).length + n) 0

/-- The tasks without dependencies, in order. -/
def entryPoints (g : TaskGraph δ) : List Nat :=
  (List.range g.size).filter fun i => (g.prerequisitesOf i).isEmpty

/-- Links every task to its dependencies. -/
def links (tasks : List (DeployTask δ)) :
    Except WorkflowError (Array (List Nat) × Array (List Nat)) :=
  let ids := tasks.map (·.id)
  let n := tasks.length
  tasks.zipIdx.foldlM (fun (up, down) (t, i) =>
    t.dependsOn.foldlM (fun (up, down) dep =>
      match ids.idxOf? dep with
      | none => throw (.unknownDependency t.id dep)
      | some d => pure (up.modify i (· ++ [d]), down.modify d (· ++ [i]))) (up, down))
    (Array.replicate n [], Array.replicate n [])

/-- Builds the graph of a list of tasks. -/
def build (tasks : List (DeployTask δ)) : Except WorkflowError (TaskGraph δ) := do
  if let some id := firstRepeatedId (tasks.map (·.id)) [] then throw (.duplicateTask id)
  let (prerequisites, dependents) ← links tasks
  if let some c := findCycle tasks then throw (.dependencyCycle c)
  pure ⟨tasks.toArray, prerequisites, dependents⟩

end TaskGraph

end OrgDeploy
