/-!
# Path text

Paths are kept as the text they are written with, since messages quote them that way.

* `joinPath base p` appends `p` with one separator: none is added when `base` is empty or ends
  in `/`, and an absolute `p` replaces `base`.
* `parentPath p` drops the last component, together with the separators and `.` components
  around it; a path of one relative component has the empty parent, and the root or the empty
  path has none.
* `pathComponents p` lists the components: `/` at the start is the root, a leading `.` the
  current directory, `..` the parent; empty and inner `.` components are dropped.
* `isInsideRelative p` holds for a non-empty path of plain and `.` components only.
* `replaceExtension p ext` puts `ext` in place of the last component's extension (the part
  after its last `.`, unless that `.` starts the name), dropping whatever follows that
  component; a path whose last component is not a plain name stays as it is. The old extension
  is cut off first, so a last component `..e` closing the path leaves `..`, which is not a plain
  name: the result is then the path up to that `..`.

Source: the paths `orgform-engine/src/backend.rs:73-80`, `plugin/copy_file.rs:40-61`,
`orgform-state/src/fs.rs:1-71` and `src/main.rs:102-113` build with `std::path`.
-/

namespace OrgDeploy.Fs

/-- A component of a path. -/
inductive Component where
  | root
  | current
  | parent
  | normal (name : String)
  deriving DecidableEq, Repr

/-- Whether a path starts at the root. -/
def isAbsolute (p : String) : Bool := p.startsWith "/"

/-- `base` followed by `p`. -/
def joinPath (base p : String) : String :=
  if isAbsolute p then p
  else if base.isEmpty || base.endsWith "/" then base ++ p
  else base ++ "/" ++ p

/-- The leading part of a path that is not body: the root, or a leading `.` component. -/
def pathHead (p : String) : String × List String :=
  let segments := p.splitOn "/"
  match segments with
  | "" :: rest => if p.isEmpty then ("", []) else ("/", rest)
  | "." :: rest => (".", "" :: rest)
  | _ => ("", segments)

/-- Drops trailing empty and `.` segments. -/
def trimTrailing (segments : List String) : List String :=
  (segments.reverse.dropWhile fun s => s.isEmpty || s == ".").reverse

/-- The components of a path. -/
def pathComponents (p : String) : List Component :=
  let (head, body) := pathHead p
  let first := if head == "/" then [Component.root] else if head == "." then [.current] else []
  first ++ (body.filter fun s => !s.isEmpty && s != ".").map fun s =>
    if s == ".." then .parent else .normal s

/-- Rebuilds a path from its head and body segments. -/
def assemble (head : String) (segments : List String) : String :=
  match head, segments with
  | "/", _ => "/" ++ "/".intercalate segments
  | h, [] => h
  | "", _ => "/".intercalate segments
  | h, _ => h ++ "/".intercalate segments

/-- The path without its last component. -/
def parentPath (p : String) : Option String :=
  let (head, body) := pathHead p
  match (trimTrailing body).reverse with
  | [] => if head == "." then some "" else none
  | _ :: before => some (assemble head (trimTrailing before.reverse))

/-- Whether a path is non-empty and has only plain and `.` components. -/
def isInsideRelative (p : String) : Bool :=
  !p.isEmpty && (pathComponents p).all fun
    | .normal _ | .current => true
    | _ => false

/-- The last component's name, if it is a plain one. -/
def fileName? (p : String) : Option String :=
  match (pathComponents p).getLast? with
  | some (.normal n) => some n
  | _ => none

/-- A file name split at its last `.` into its stem and its extension. A name without a `.`,
or whose only `.` starts it, has no extension and is its own stem, and so is `..`. -/
def splitExtension (name : String) : String × Option String :=
  if name == ".." then (name, none)
  else
    match (name.splitOn ".").reverse with
    | after :: before@(_ :: _) =>
      let stem := ".".intercalate before.reverse
      if stem.isEmpty then (name, none) else (stem, some after)
    | _ => (name, none)

/-- The last component of a path when it is a plain name, with the index of its first
character; empty and `.` components are passed over, and `..` is not a plain name. -/
def lastName? (p : String) : Option (Nat × String) :=
  let step (acc : Nat × Option (Nat × String)) (seg : String) : Nat × Option (Nat × String) :=
    (acc.1 + seg.length + 1, if seg.isEmpty || seg == "." then acc.2 else some (acc.1, seg))
  match ((p.splitOn "/").foldl step (0, none)).2 with
  | some (_, "..") => none
  | found => found

/-- The path with the extension of its last component replaced by `ext`. -/
def replaceExtension (p ext : String) : String :=
  match lastName? p with
  | none => p
  | some (i, name) =>
    let (stem, old) := splitExtension name
    if old.isSome && stem == "." && i + name.length == p.length then
      String.ofList (p.toList.take (i + 2))
    else String.ofList (p.toList.take i) ++ stem ++ "." ++ ext

end OrgDeploy.Fs
