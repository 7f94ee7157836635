import OrgDeploy.Deploy.Backend
import OrgDeploy.Json.Decode
import OrgDeploy.Digest.Sha256

/-!
# Plugins

A plugin deploys a unit that is no stack. `Plugin σ` is the interface over a world of type `σ`:
a name, a content hash of a configuration (reading the world), and applying and deleting a
configuration at a target.

A `PluginRegistry` holds the plugins of a run, one of each name: registering a plugin replaces
the one of its name, and a unit finds its plugin by name.

`CopyFile` copies a file from a source directory to
`destination/account/region/remote_path`. Its configuration names `local_path` (below the source)
and `remote_path`, which must be non-empty with plain and `.` components only. The content hash
is the SHA-256 of the file's text followed by the remote path; applying answers the output
`RemotePath`, the destination path as written; deleting a file that is not there succeeds.

Source: `orgform-engine/src/plugin/mod.rs:1-88` (`Plugin`, `PluginRegistry`) and
`orgform-engine/src/plugin/copy_file.rs:1-135` (`CopyFilePlugin`).
-/

namespace OrgDeploy

open OrgDeploy.Json OrgDeploy.Fs OrgDeploy.Digest

/-- Why a plugin call failed. -/
inductive PluginError where
  | invalidConfig (plugin message : String)
  | io (path : String) (error : IoError)
  deriving DecidableEq, Repr

/-- The wording of a plugin error. -/
def PluginError.message : PluginError → String
  | .invalidConfig plugin m => s!"invalid config for plugin '{plugin}': {m}"
  | .io path e => s!"plugin i/o error at {path}: {e.message}"

/-- A plugin over a world of type `σ`. -/
structure Plugin (σ : Type) where
  name : String
  contentHash : Value → σ → Except PluginError String
  apply : Target → Value → Act σ PluginError Outputs
  delete : Target → Value → Act σ PluginError Unit
  /-- How many times an apply waits on the blocking pool. -/
  applyWaits : Nat := 0
  /-- How many times a delete waits on the blocking pool. -/
  deleteWaits : Nat := 0

/-- The plugins available to a run, at most one of each name. -/
structure PluginRegistry (σ : Type) where
  plugins : List (Plugin σ) := []
  names_nodup : (plugins.map (·.name)).Nodup := by simp

namespace PluginRegistry

variable {σ : Type}

instance : Membership (Plugin σ) (PluginRegistry σ) := ⟨fun r p => p ∈ r.plugins⟩

theorem names_nodup_register (r : PluginRegistry σ) (p : Plugin σ) :
    ((p :: r.plugins.filter (·.name != p.name)).map (·.name)).Nodup := by
  refine List.nodup_cons.mpr ⟨?_, r.names_nodup.sublist ((List.filter_sublist).map _)⟩
  simp

/-- Registers a plugin, replacing any plugin of the same name. -/
def register (r : PluginRegistry σ) (p : Plugin σ) : PluginRegistry σ where
  plugins := p :: r.plugins.filter (·.name != p.name)
  names_nodup := r.names_nodup_register p

/-- The plugin of a name. -/
def get (r : PluginRegistry σ) (name : String) : Option (Plugin σ) :=
  r.plugins.find? (·.name == name)

/-- The names of the plugins, sorted. -/
def names (r : PluginRegistry σ) : List String := (r.plugins.map (·.name)).mergeSort

/-- The debug text of a registry: its sorted names. -/
def debugText (r : PluginRegistry σ) : String :=
  "PluginRegistry \x7b plugins: [" ++ ", ".intercalate (r.names.map debugQuote) ++ "] \x7d"

end PluginRegistry

/-- What the copy-file plugin copies: a file below the source, to a path below the target. -/
structure CopyFileConfig where
  localPath : String
  remotePath : String
  deriving DecidableEq, Repr

namespace CopyFileConfig

/-- The JSON shape of a configuration. -/
def shape : Shape CopyFileConfig where
  name := "struct CopyFileConfig"
  init := ⟨"", ""⟩
  fields := [
    Field.need "local_path" Decoder.string fun v c => { c with localPath := v },
    Field.need "remote_path" Decoder.string fun v c => { c with remotePath := v }]

/-- Decodes a configuration. -/
def decoder : Decoder CopyFileConfig := Decoder.record shape

end CopyFileConfig

/-- The copy-file plugin: files from `source` go below `destination`. -/
structure CopyFile where
  source : String
  destination : String
  deriving DecidableEq, Repr

namespace CopyFile

/-- The plugin's name. -/
def name : String := "copy-file"

/-- Reads and checks a configuration. -/
def config (v : Value) : Except PluginError CopyFileConfig := do
  let c ← (decodeValue v CopyFileConfig.decoder).mapError (.invalidConfig name)
  if !isInsideRelative c.remotePath then
    throw (.invalidConfig name
      s!"remote_path '{c.remotePath}' must be a relative path inside the target")
  pure c

/-- Where a configuration's file goes for a target. -/
def remote (p : CopyFile) (t : Target) (c : CopyFileConfig) : String :=
  joinPath (joinPath (joinPath p.destination t.accountId) t.region) c.remotePath

/-- The source file of a configuration. -/
def localFile (p : CopyFile) (c : CopyFileConfig) : String := joinPath p.source c.localPath

/-- The content hash: the file's text and the remote path. -/
def contentHash (p : CopyFile) (v : Value) (t : FileTree) : Except PluginError String := do
  let c ← config v
  let path := p.localFile c
  let text ← (t.fileText path).mapError (.io path)
  pure ("sha256:" ++ sha256Hex (utf8 text ++ utf8 c.remotePath))

/-- Copies the file; answers where it went. -/
def apply (p : CopyFile) (t : Target) (v : Value) :
    ExceptT PluginError (StateM FileTree) Outputs := do
  let c ← liftExcept (config v)
  let source := p.localFile c
  let target := p.remote t c
  if let some parent := parentPath target then
    (makeDirs parent).adapt (.io parent)
  (copyFile source target).adapt (.io source)
  pure [("RemotePath", target)]

/-- Removes the copied file; a missing file is no error. -/
def delete (p : CopyFile) (t : Target) (v : Value) :
    ExceptT PluginError (StateM FileTree) Unit := do
  let c ← liftExcept (config v)
  let target := p.remote t c
  tryCatch (unlinkFile target) (fun
    | .notFound => pure ()
    | e => throw e) |>.adapt (.io target)

/-- The plugin over a world's working directory. An apply waits on the blocking pool to create
the directory and to copy the file, a delete to remove it. -/
def plugin (p : CopyFile) (fi : FilesIn σ) : Plugin σ where
  name := name
  contentHash v s := p.contentHash v (fi.get s)
  apply t v := fi.run (p.apply t v) id
  delete t v := fi.run (p.delete t v) id
  applyWaits := 2
  deleteWaits := 1

end CopyFile

end OrgDeploy
