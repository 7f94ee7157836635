import OrgDeploy.Cli.Run

/-!
# Commands on a real file system

Commands work on a `FileTree`. To run one on a real file system, the files it may read or remove
are loaded into a tree first, the command runs on the tree, and the tree's changes are then made
on the system.

The files a command may read or remove are found in two rounds. `firstInputs` are the template,
the state and the organization. From what they hold, `moreInputs` are the files the copy-file
plugin copies from, for the units of the template, and the files deployed for the records of the
state: each stack's file, and the file a copy-file unit placed.

`changes` lists what turns one tree into another: the directories to create, the files to write
(new or with a new text) and the files to remove.

Source: the file access of `main` and `run` (`src/main.rs:114-296`).
-/

namespace OrgDeploy.Cli

open OrgDeploy.Fs OrgDeploy.Json

/-- The location a path names from a working directory, by its components alone. -/
def locationOf (cwd : Location) (p : String) : Location :=
  (FileTree.segments p).foldl FileTree.step (if isAbsolute p then [] else cwd)

/-- The absolute path of a location. -/
def pathOf (loc : Location) : String := "/" ++ "/".intercalate loc

/-- Adds a file at a location, with the directories above it. -/
def loadFile (t : FileTree) (loc : Location) (text : String) : FileTree :=
  let above := ((List.range loc.length).map loc.take).filter fun d =>
    !d.isPrefixOf t.cwd && !t.dirs.contains d
  { t with dirs := t.dirs ++ above } |>.put loc text

/-- The template of a request, if it has one. -/
def Request.template? : Request → Option String
  | .deploy t .. | .plan t _ | .printStacks t .. => some t
  | _ => none

/-- The files a request may read first: its template, the state and the organization. -/
def firstInputs (paths : Paths) (request : Request) : List String :=
  request.template?.toList ++ [paths.state, paths.organization]

/-- The file a copy-file unit copies from, next to a template. -/
def copySource (dir : String) (u : UnitDef) : Option String :=
  match u.kind with
  | .plugin name config =>
    if name == CopyFile.name then
      (CopyFile.config config).toOption.map fun c => joinPath dir c.localPath
    else none
  | .stack .. => none

/-- The files deployed for a unit's record. -/
def deployedFiles (paths : Paths) (u : UnitDef) (r : Record) : List String :=
  match u.kind with
  | .stack .. => [FsBackend.stackPath paths.deployments u.name r.target]
  | .plugin name config =>
    if name == CopyFile.name then
      match CopyFile.config config with
      | .ok c => [(CopyFile.mk "." paths.deployments).remote r.target c]
      | .error _ => []
    else []

/-- The files a request may read or remove, found from the files read first. -/
def moreInputs (paths : Paths) (request : Request) (t : FileTree) : List String :=
  let template := request.template?.bind fun p =>
    (t.fileText p).toOption.bind fun text => (Template.parse text).toOption.map (p, ·)
  let sources := match template with
    | some (p, tpl) => tpl.units.filterMap (copySource (templateDir p))
    | none => []
  let deployed := match FsStateStore.load paths.state t with
    | .ok st =>
      st.unitNames.flatMap fun name =>
        let definition := (st.definition? name).orElse fun _ =>
          (template.bind fun (_, tpl) => tpl.unit? name).orElse fun _ =>
            st.previousTemplateDef?.bind (·.unit? name)
        match definition with
        | some u => (st.records name).flatMap (deployedFiles paths u)
        | none => []
    | .error _ => []
  sources ++ deployed

/-- A change to make on a file system. -/
inductive Change where
  | makeDir (path : String)
  | write (path text : String)
  | remove (path : String)
  deriving DecidableEq, Repr

/-- The changes that turn the tree `before` into `after`. -/
def changes (before after : FileTree) : List Change :=
  let dirs := (after.dirs.filter fun d => !before.dirs.contains d).map fun d => Change.makeDir (pathOf d)
  let writes := after.files.filterMap fun (loc, text) =>
    if before.files.lookup loc == some text then none else some (Change.write (pathOf loc) text)
  let removals := before.files.filterMap fun (loc, _) =>
    if (after.files.lookup loc).isSome then none else some (Change.remove (pathOf loc))
  dirs ++ writes ++ removals

end OrgDeploy.Cli
