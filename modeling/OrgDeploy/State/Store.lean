import OrgDeploy.State.Basic
import OrgDeploy.Deploy.Backend
import OrgDeploy.Fs.Tree

/-!
# State stores

A state store loads and saves the persisted state. `StateStore σ` is the interface over a world
of type `σ`.

* `FsStateStore` keeps the state as pretty JSON in one file. Loading a file that is not there is
  `notFound` with the path; other read errors are `io`, and a text that is no state is
  `serialization` with the reader's message. Saving creates the file's directory, writes a
  sibling file with the extension `json.tmp` and renames it onto the file, so a reader never
  sees half a state; every failure names the state file's path.
* `MemoryStore` keeps the state in the world and counts the saves; with no state yet, loading
  is `notFound` at `memory`.

Source: `orgform-state/src/lib.rs:1-55`, `fs.rs:1-71` and `memory.rs:1-59`.
-/

namespace OrgDeploy

open OrgDeploy.Json OrgDeploy.Fs

/-- Why the state could not be loaded or saved. -/
inductive StateError where
  | notFound (location : String)
  | io (path : String) (error : IoError)
  | serialization (message : String)
  deriving DecidableEq, Repr

/-- The wording of a state error. -/
def StateError.message : StateError → String
  | .notFound location => s!"no deployment state found at {location}"
  | .io path e => s!"state i/o error at {path}: {e.message}"
  | .serialization m => s!"invalid state document: {m}"

/-- A state store over a world of type `σ`. -/
structure StateStore (σ : Type) where
  load : σ → Except StateError State
  save : State → Act σ StateError Unit

/-- Reads a state from its JSON text. -/
def State.ofText (text : String) : Except StateError State :=
  (decodeText text State.decoder).mapError .serialization

/-- The text a state is saved as. -/
def State.text (s : State) : String := s.toJson.pretty

namespace FsStateStore

/-- Loads the state file at `path`. -/
def load (path : String) (t : FileTree) : Except StateError State :=
  match t.fileText path with
  | .ok text => State.ofText text
  | .error .notFound => .error (.notFound path)
  | .error e => .error (.io path e)

/-- Saves a state to the file at `path`, through a temporary sibling. -/
def save (path : String) (s : State) : ExceptT StateError (StateM FileTree) Unit := do
  if let some parent := parentPath path then
    if !parent.isEmpty then (makeDirs parent).adapt (.io path)
  let tmp := replaceExtension path "json.tmp"
  (storeFile tmp s.text).adapt (.io path)
  (moveFile tmp path).adapt (.io path)

/-- The store keeping the state in the file `path` of a world's working directory. -/
def store (path : String) (fi : FilesIn σ) : StateStore σ where
  load w := load path (fi.get w)
  save s := fi.run (save path s) id

end FsStateStore

/-- A state kept in memory, with the number of saves. -/
structure MemoryStore where
  state : Option State := none
  saves : Nat := 0

namespace MemoryStore

/-- Loads the kept state. -/
def load (m : MemoryStore) : Except StateError State :=
  match m.state with
  | some s => .ok s
  | none => .error (.notFound "memory")

/-- Keeps a state and counts the save. -/
def save (s : State) (m : MemoryStore) : MemoryStore := { state := some s, saves := m.saves + 1 }

/-- The store keeping the state in a world's memory slot. -/
def store (slot : Slot σ MemoryStore) : StateStore σ where
  load w := load (slot.get w)
  save s := fun w => (.ok (), slot.set (save s (slot.get w)) w)

end MemoryStore

end OrgDeploy
