import OrgDeploy.Fs.Tree
import OrgDeploy.Json.Document
import OrgDeploy.Json.Write
import OrgDeploy.Organization.Target

/-!
# Deployment backends

A backend applies and deletes stacks at targets. `Backend σ` is the interface, over a world of
type `σ`; a call may fail with a `BackendError` or be aborted.

`FsBackend` keeps every stack as a file `root/account/region/stack.json` (path text joined as
`joinPath` does). Applying parses the template body (`invalidTemplate` with the reader's message
when it is no JSON), creates the directory, and writes a pretty JSON document with the stack
name, account id, region, template, parameters and outputs; it answers the outputs. Deleting a
stack that is not there succeeds.

`stackOutputs` are the entries `Outputs.name.Value` of a template whose value is a string.

Source: `orgform-engine/src/backend.rs:1-156` (`DeploymentBackend`, `stack_outputs`, `FsBackend`).
-/

namespace OrgDeploy

open OrgDeploy.Json OrgDeploy.Fs

/-- Why a backend call failed. -/
inductive BackendError where
  | io (path : String) (error : IoError)
  | invalidTemplate (message : String)
  deriving DecidableEq, Repr

/-- The wording of a backend error. -/
def BackendError.message : BackendError → String
  | .io path e => s!"backend i/o error at {path}: {e.message}"
  | .invalidTemplate m => s!"template body is not valid JSON: {m}"

/-- How a backend call ends badly: with an error, or aborted. -/
inductive BackendFault where
  | failed (error : BackendError)
  | aborted (message : String)
  deriving DecidableEq, Repr

/-- A computation over a world `σ` that may fail with `ε`; what it did before failing stays. -/
abbrev Act (σ ε : Type) := ExceptT ε (StateM σ)

/-- The outputs of a deployment, by name. -/
abbrev Outputs := List (String × String)

/-- A deployment backend over a world of type `σ`. -/
structure Backend (σ : Type) where
  apply : (stack : String) → Target → (body : String) → (parameters : Outputs) →
    Act σ BackendFault Outputs
  delete : (stack : String) → Target → Act σ BackendFault Unit
  /-- How many times applying a stack at a target waits on the blocking pool. -/
  applyWaits : (stack : String) → Target → Nat := fun _ _ => 0
  /-- How many times deleting a stack at a target waits on the blocking pool. -/
  deleteWaits : (stack : String) → Target → Nat := fun _ _ => 0

/-- The string outputs a template declares, by name. -/
def stackOutputs (template : Value) : Outputs :=
  match template.get? "Outputs" with
  | some (.obj outs) => outs.filterMap fun (name, out) =>
      match out.get? "Value" with
      | some (.str s) => some (name, s)
      | _ => none
  | _ => []

/-- A string table as a JSON object. -/
def outputsJson (t : Outputs) : Value := .obj (t.map fun (k, v) => (k, .str v))

namespace FsBackend

/-- The file of a stack at a target. -/
def stackPath (root stack : String) (t : Target) : String :=
  joinPath (joinPath (joinPath root t.accountId) t.region) (stack ++ ".json")

/-- The document a stack file holds. -/
def document (stack : String) (t : Target) (template : Value) (parameters : Outputs) : Value :=
  Value.object [("stack_name", .str stack), ("account_id", .str t.accountId),
    ("region", .str t.region), ("template", template), ("parameters", outputsJson parameters),
    ("outputs", outputsJson (stackOutputs template))]

/-- Applies a stack: writes its file and answers its outputs. -/
def apply (root stack : String) (t : Target) (body : String) (parameters : Outputs) :
    ExceptT BackendError (StateM FileTree) Outputs := do
  let template ← match parseValue body with
    | .ok v => pure v
    | .error m => throw (.invalidTemplate m)
  let path := stackPath root stack t
  if let some parent := parentPath path then
    (makeDirs parent).adapt (.io parent)
  (storeFile path (document stack t template parameters).pretty).adapt (.io path)
  pure (stackOutputs template)

/-- Deletes a stack's file; a missing file is no error. -/
def delete (root stack : String) (t : Target) : ExceptT BackendError (StateM FileTree) Unit :=
  let path := stackPath root stack t
  tryCatch (unlinkFile path) (fun
    | .notFound => pure ()
    | e => throw e) |>.adapt (.io path)

/-- The backend keeping stacks under `root` in a world's working directory. An apply waits on
the blocking pool to create the directory and to write the file, a delete to remove it. -/
def backend (root : String) (fi : FilesIn σ) : Backend σ where
  apply stack t body parameters := fi.run (apply root stack t body parameters) .failed
  delete stack t := fi.run (delete root stack t) .failed
  applyWaits _ _ := 2
  deleteWaits _ _ := 1

end FsBackend

end OrgDeploy
