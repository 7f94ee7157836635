import OrgDeploy.Fs.Path

/-!
# A file tree in memory

`FileTree` is a file system seen from a working directory: its directories and its files with
their text, each named by the list of its components below the root, and the location of the
working directory. The root, the working directory and every directory above it exist. It
answers the file operations a deployment needs the way a POSIX system does, errors included:

* a path is followed component by component, from the root when it starts with `/` and from the
  working directory otherwise; every component before the last must name a directory
  (`notFound` when it names nothing, `notDirectory` when it names a file), `.` stays and `..`
  goes up (the root is its own parent). A name longer than 255 bytes is `nameTooLong`, and so
  is a path text longer than 4095 bytes;
* reading a directory is `isDirectory`, and reading a file by a path ending in `/` is
  `notDirectory`; writing a directory is `isDirectory`, and so is writing by a path ending in
  `/` whatever it names, since the system never creates or opens for writing through a trailing
  separator;
* `makeDir` refuses an existing name (`alreadyExists`); `makeDirs` creates the missing
  directories of a path from the top, accepting directories that exist;
* removing a directory as a file is `isDirectory`; moving a file to or from a name ending in `/`
  is `notDirectory`;
* copying needs a regular file as source (`notRegularFile`) and writes the destination like
  `storeFile`; a file copied onto itself ends up empty, as the destination is truncated before
  the source is read.

A deployment reads and writes the file tree of a larger world through a `Slot`: a part of type
`α` inside a world of type `σ`, with how to read it and how to put a new one in place.
Computations written for the part run on the whole world through `Slot.run`, which leaves the
rest of the world as it is; `FilesIn σ` is the file tree inside a world `σ`.

Source: the file operations of `orgform-engine/src/backend.rs:85-155`,
`plugin/copy_file.rs:60-135`, `orgform-state/src/fs.rs:1-71` and
`orgform-organization/src/directory.rs:1-108`.
-/

namespace OrgDeploy

/-- A part of type `α` of a world of type `σ`. -/
structure Slot (σ α : Type) where
  get : σ → α
  set : α → σ → σ

/-- The whole world as its own part. -/
def Slot.whole : Slot σ σ := ⟨id, fun a _ => a⟩

/-- Runs a computation on a part of a world, naming its failure by `wrap`. -/
def Slot.run (slot : Slot σ α) (m : ExceptT ε (StateM α) β) (wrap : ε → ε') :
    ExceptT ε' (StateM σ) β := fun s =>
  let (r, a) := m.run (slot.get s)
  (r.mapError wrap, slot.set a s)

end OrgDeploy

namespace OrgDeploy.Fs

/-- Why a file operation failed. -/
inductive IoError where
  | notFound
  | isDirectory
  | notDirectory
  | alreadyExists
  | nameTooLong
  | notRegularFile
  | other (message : String)
  deriving DecidableEq, Repr

/-- The system's wording of an error. -/
def IoError.message : IoError → String
  | .notFound => "No such file or directory (os error 2)"
  | .isDirectory => "Is a directory (os error 21)"
  | .notDirectory => "Not a directory (os error 20)"
  | .alreadyExists => "File exists (os error 17)"
  | .nameTooLong => "File name too long (os error 36)"
  | .notRegularFile => "the source path is neither a regular file nor a symlink to a regular file"
  | .other m => m

/-- What a path names. -/
inductive Entry where
  | dir
  | file (text : String)
  deriving DecidableEq, Repr

/-- A location below the root. -/
abbrev Location := List String

/-- A file system: its directories and files, and the working directory. -/
structure FileTree where
  dirs : List Location := []
  files : List (Location × String) := []
  cwd : Location := []
  deriving DecidableEq, Repr

namespace FileTree

/-- An empty file system working in `cwd`. -/
def empty (cwd : Location) : FileTree := { cwd }

/-- What a location names; the working directory and the directories above it are directories. -/
def entry? (t : FileTree) (loc : Location) : Option Entry :=
  if loc.isPrefixOf t.cwd then some .dir
  else
    match t.files.lookup loc with
    | some text => some (.file text)
    | none => if t.dirs.contains loc then some .dir else none

/-- Whether a location is a directory. -/
def isDirAt (t : FileTree) (loc : Location) : Bool := t.entry? loc == some .dir

/-- The segments of a path text. -/
def segments (p : String) : List String := (p.splitOn "/").filter fun s => !s.isEmpty

/-- One step along a path. -/
def step (loc : Location) (seg : String) : Location :=
  if seg == "." then loc else if seg == ".." then loc.dropLast else loc ++ [seg]

/-- Follows segments; every location passed through must be a directory. -/
def walk (t : FileTree) : Location → List String → Except IoError Location
  | loc, [] => pure loc
  | loc, [seg] =>
    if seg.utf8ByteSize > 255 then throw .nameTooLong else pure (step loc seg)
  | loc, seg :: rest => do
    if seg.utf8ByteSize > 255 then throw .nameTooLong
    let next := step loc seg
    match t.entry? next with
    | none => throw .notFound
    | some (.file _) => throw .notDirectory
    | some .dir => t.walk next rest

/-- The longest path text, in bytes, that the system accepts: it keeps room for a terminating
zero in a buffer of 4096 bytes. -/
def pathLimit : Nat := 4095

/-- The location a path names. A path text longer than `pathLimit` bytes is refused whole,
before any of its components is looked at. -/
def locate (t : FileTree) (p : String) : Except IoError Location :=
  if p.utf8ByteSize > pathLimit then throw .nameTooLong
  else t.walk (if isAbsolute p then [] else t.cwd) (segments p)

/-- Whether a path names a directory. -/
def isDir (t : FileTree) (p : String) : Bool :=
  match t.locate p with
  | .ok loc => t.isDirAt loc
  | .error _ => false

/-- Reads a file. -/
def fileText (t : FileTree) (p : String) : Except IoError String := do
  match t.entry? (← t.locate p) with
  | none => throw .notFound
  | some .dir => throw .isDirectory
  | some (.file text) => if p.endsWith "/" then throw .notDirectory else pure text

/-- Stores a file's text at a location. -/
def put (t : FileTree) (loc : Location) (text : String) : FileTree :=
  { t with files := (loc, text) :: t.files.filter (·.1 != loc) }

/-- Forgets the file at a location. -/
def drop (t : FileTree) (loc : Location) : FileTree :=
  { t with files := t.files.filter (·.1 != loc) }

end FileTree

/-- A file operation: it changes the tree and may fail; what it did before failing stays. -/
abbrev FsAct := ExceptT IoError (StateM FileTree)

/-- The tree as it is. -/
def tree : FsAct FileTree := get

/-- A path's location in the tree as it is. -/
def locateNow (p : String) : FsAct Location := do
  match (← tree).locate p with
  | .ok loc => pure loc
  | .error e => throw e

/-- Creates or replaces a file. -/
def storeFile (p : String) (text : String) : FsAct Unit := do
  let loc ← locateNow p
  let t ← tree
  if p.endsWith "/" then throw .isDirectory
  match t.entry? loc with
  | some .dir => throw .isDirectory
  | _ => set (t.put loc text)

/-- Creates a directory. -/
def makeDir (p : String) : FsAct Unit := do
  let loc ← locateNow p
  let t ← tree
  match t.entry? loc with
  | some _ => throw .alreadyExists
  | none => set { t with dirs := loc :: t.dirs }

/-- Accepts a failure when the path names a directory after all. -/
def unlessDir (p : String) (e : IoError) : FsAct Unit := do
  if (← tree).isDir p then pure () else throw e

/-- Creates a directory and its missing parents, within `fuel` levels. -/
def makeDirsWithin : Nat → String → FsAct Unit
  | 0, _ => throw (.other "failed to create whole tree")
  | fuel + 1, p =>
    if p.isEmpty then pure ()
    else
      tryCatch (makeDir p) fun
        | .notFound =>
          match parentPath p with
          | none => throw (.other "failed to create whole tree")
          | some parent => do
            makeDirsWithin fuel parent
            tryCatch (makeDir p) (unlessDir p)
        | e => unlessDir p e

/-- Creates a directory and its missing parents. -/
def makeDirs (p : String) : FsAct Unit := makeDirsWithin (p.length + 2) p

/-- Removes a file. -/
def unlinkFile (p : String) : FsAct Unit := do
  let loc ← locateNow p
  let t ← tree
  match t.entry? loc with
  | none => throw .notFound
  | some .dir => throw .isDirectory
  | some (.file _) => if p.endsWith "/" then throw .notDirectory else set (t.drop loc)

/-- Moves a file onto another name, replacing a file there. Either name ending in `/` asks for
a directory, which a file is not. -/
def moveFile (src dst : String) : FsAct Unit := do
  let origin ← locateNow src
  let dest ← locateNow dst
  let t ← tree
  match t.entry? origin, t.entry? dest with
  | none, _ => throw .notFound
  | some .dir, _ => throw (.other "renaming directories is not supported")
  | some (.file text), target =>
    if src.endsWith "/" || dst.endsWith "/" then throw .notDirectory
    else if target == some .dir then throw .isDirectory
    else if origin == dest then pure ()
    else set ((t.drop origin).put dest text)

/-- Copies a regular file onto another name. -/
def copyFile (src dst : String) : FsAct Unit := do
  let origin ← locateNow src
  let t ← tree
  let text ← match t.entry? origin with
    | none => throw .notFound
    | some .dir => throw .notRegularFile
    | some (.file text) => if src.endsWith "/" then throw .notDirectory else pure text
  let dest ← locateNow dst
  if dst.endsWith "/" then throw .isDirectory
  match t.entry? dest with
  | some .dir => throw .isDirectory
  | _ => set (t.put dest (if dest == origin then "" else text))

namespace FileTree

/-- The files below a directory location, by their path from it, in order. -/
def filesUnder (t : FileTree) (loc : Location) : List (String × String) :=
  let found := t.files.filterMap fun (l, text) =>
    if loc.isPrefixOf l && l.length > loc.length then some ("/".intercalate (l.drop loc.length), text)
    else none
  found.mergeSort fun a b => a.1 ≤ b.1

/-- The files below a directory path. -/
def listFiles (t : FileTree) (p : String) : List (String × String) :=
  match t.locate p with
  | .ok loc => if t.isDirAt loc then t.filesUnder loc else []
  | .error _ => []

end FileTree

/-- Where a world keeps its working directory. -/
abbrev FilesIn (σ : Type) := Slot σ FileTree

end OrgDeploy.Fs
