import OrgDeploy.Cli.Snapshot

/-!
# The `orgform` program

The command line on the real file system. The files a command may read or remove are loaded
into a tree (see `OrgDeploy.Cli.Snapshot`), the command runs on it, its changes are made on the
system, and what it printed is printed, with its status as the exit code.

The home directory is `HOME` when it is set and not empty. Records and the state are stamped
with the time of the system (boot time plus uptime, in whole seconds); each deployment run is
named by a random id of the system.

Source: `src/main.rs:114-146` (`main`).
-/

open OrgDeploy OrgDeploy.Cli OrgDeploy.Fs

/-- A file's text, if it can be read. -/
def readIfPresent (p : String) : IO (Option String) := do
  try pure (some (← IO.FS.readFile p)) catch _ => pure none

/-- Adds the files that can be read to a tree. -/
def loadAll (t : FileTree) (paths : List String) : IO FileTree :=
  paths.foldlM (fun t p => do
    match ← readIfPresent p with
    | some text => pure (loadFile t (locationOf t.cwd p) text)
    | none => pure t) t

/-- Makes one change on the file system. -/
def applyChange : Change → IO Unit
  | .makeDir p => IO.FS.createDirAll p
  | .write p text => do
    if let some parent := parentPath p then IO.FS.createDirAll parent
    IO.FS.writeFile p text
  | .remove p => try IO.FS.removeFile p catch _ => pure ()

/-- The leading decimal digits of a text as a number. -/
def leadingNumber (s : String) : Nat :=
  (s.toList.takeWhile Char.isDigit).foldl (fun n c => n * 10 + (c.toNat - '0'.toNat)) 0

/-- The time of the system in whole seconds since the epoch, or the epoch when it is unknown. -/
def systemTime : IO Timestamp := do
  let stat ← readIfPresent "/proc/stat"
  let uptime ← readIfPresent "/proc/uptime"
  let boot := (stat.getD "").splitOn "\n" |>.findSome? fun line =>
    if line.startsWith "btime " then some (leadingNumber (line.drop 6).toString) else none
  match boot, uptime with
  | some b, some u =>
    let secs := b + leadingNumber u
    pure ⟨Int.ofNat (secs / 86400), secs % 86400, 0⟩
  | _, _ => pure Timestamp.epoch

/-- A random id for a deployment run. -/
def freshRunId : IO String := do
  match ← readIfPresent "/proc/sys/kernel/random/uuid" with
  | some id => pure (String.ofList (id.toList.filter (· != '\n')))
  | none => pure "00000000-0000-4000-8000-000000000000"

def main (args : List String) : IO UInt32 := do
  let home := (← IO.getEnv "HOME").bind fun h => if h.isEmpty then none else some h
  let cwd := FileTree.segments (← IO.currentDir).toString
  let env : Environment := { home, runId := ← freshRunId, now := ← systemTime }
  let base := FileTree.empty cwd
  let tree ← match readInvocation args with
    | .ok inv =>
      match Paths.of env inv, inv.request with
      | .ok paths, some request => do
        let t ← loadAll base (firstInputs paths request)
        loadAll t (moreInputs paths request t)
      | _, _ => pure base
    | .error _ => pure base
  let (exit, after) := run env args tree
  for c in changes tree after do applyChange c
  IO.print exit.out
  IO.eprint exit.err
  pure exit.status.toUInt32
