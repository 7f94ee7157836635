import OrgDeploy.Cli.Spec

/-!
# Usages and helps

The texts a program prints about its command line, computed from its `Program` description.

* A usage names the level (`orgform deploy`), then `[OPTIONS]` when it has options that may be
  left out, the required options and every positional argument (required ones as `<NAME>`,
  others as `[NAME]`), and `[COMMAND]` when it has commands. A usage written for a message about
  some given arguments (`smartUsage`) names instead the required options and those given, and
  every positional argument.
* A help is the about line, the usage, and the sections `Commands:`, `Arguments:` and
  `Options:`. An entry is its flags and value, padded to a common column, then its help and its
  default. When some entry's text would not fit in 100 columns beside a column past 40, every
  entry of the section puts its text on the next line instead, indented by ten.

Source: the help clap writes for the commands of `src/main.rs:22-100`.
-/

namespace OrgDeploy.Cli

/-- The list without later repetitions. -/
def dedup (xs : List String) : List String :=
  xs.foldl (fun acc x => if acc.contains x then acc else acc ++ [x]) []

/-- `n` spaces. -/
def spaces (n : Nat) : String := String.ofList (List.replicate n ' ')

namespace Level

variable (p : Program) (l : Level)

/-- Whether the usage shows `[OPTIONS]`: some option other than help and version may be left
out. -/
def needsOptions : Bool :=
  (l.args p).any fun a => !a.positional && a.takesValue && !a.required

/-- The arguments a usage names for the given argument ids: required options and the given
ones, then every positional argument in order. -/
def usageArgs (used : List String) : List String :=
  let args := l.args p
  let required := (args.filter (·.required)).map (·.id)
  let named := (required ++ used).filterMap fun id => args.find? (·.id == id)
  let options := dedup ((named.filter (!·.positional)).map (·.render true))
  let positionals := (l.positionals p).map fun a =>
    a.render (required.contains a.id || used.contains a.id)
  options ++ positionals

/-- The usage of a level in its help. -/
def helpUsage : String :=
  " ".intercalate ([l.binName p] ++ (if l.needsOptions p then ["[OPTIONS]"] else []) ++
    l.usageArgs p [] ++ (if (l.commands p).isEmpty then [] else ["[COMMAND]"]))

/-- The usage of a level in a message about the given argument ids. -/
def smartUsage (used : List String) : String :=
  " ".intercalate ([l.binName p] ++ l.usageArgs p used)

/-- The usage a message shows: the help usage when no argument was given. -/
def usage (used : List String) : String :=
  if used.isEmpty then l.helpUsage p else l.smartUsage p used

end Level

/-- The width of the help. -/
def helpWidth : Nat := 100

/-- Whether an entry's text would be put on the next line: its column `taken` is past 40 of the
width, and the text does not fit after it. -/
def wrapsAt (taken textWidth : Nat) : Bool :=
  taken ≤ helpWidth && 40 < taken && helpWidth - taken < textWidth

/-- An entry's text: its help and the default, after a space. -/
def entryText (help extra : String) : String :=
  if extra.isEmpty then help else if help.isEmpty then extra else help ++ " " ++ extra

/-- Places an entry's text: at the end of its line, or on the next line indented by ten. -/
def placeText (nextLine : Bool) (text : String) : String :=
  if nextLine then "\n" ++ spaces 10 ++ text else text

namespace Arg

/-- The flags and value of an argument in a help entry. -/
def entryHead (a : Arg) : String :=
  let short := match a.short, a.long with
    | some c, _ => "-" ++ c.toString
    | none, some _ => "    "
    | none, none => ""
  let long := match a.long with
    | some l => (if a.short.isSome then ", " else "") ++ "--" ++ l
    | none => ""
  let suffix := if a.positional then a.valueText a.required
    else if a.takesValue then " " ++ a.valueText a.required else ""
  short ++ long ++ suffix

/-- The column an argument's text starts at, for the widest argument of its section. -/
def column (a : Arg) (longest : Nat) : Nat :=
  if a.positional then longest + 4 else longest + 8

/-- The help entry of an argument. -/
def entry (a : Arg) (longest : Nat) (nextLine : Bool) : String :=
  let width := a.display.length
  let pad := if nextLine then 0
    else if a.positional then longest + 2 - width
    else longest + (if a.long.isSome then 2 else 6) - width
  "  " ++ a.entryHead ++ spaces pad ++ placeText nextLine (entryText a.help a.defaultText)

end Arg

/-- Whether one argument sorts before another in the options of a help. -/
def optionBefore (a b : Arg) : Bool :=
  a.order < b.order || (a.order == b.order && a.sortKey < b.sortKey)

/-- The entries of a section of arguments, already in order. -/
def argEntries (args : List Arg) : String :=
  let longest := args.foldl (fun m a => max m a.display.length) 2
  let nextLine := args.any fun a =>
    wrapsAt (a.column longest) (a.help.length + a.defaultText.length)
  "\n".intercalate (args.map fun a => a.entry longest nextLine)

/-- The entries of a section of commands. -/
def commandEntries (cs : List Command) : String :=
  let sorted := cs.mergeSort fun a b => a.order < b.order || (a.order == b.order && a.name ≤ b.name)
  let longest := sorted.foldl (fun m c => max m c.name.length) 2
  let nextLine := sorted.any fun c => wrapsAt (longest + 4) c.about.length
  "\n".intercalate (sorted.map fun c =>
    "  " ++ c.name ++ (if nextLine then "" else spaces (longest + 2 - c.name.length)) ++
      placeText nextLine c.about)

namespace Level

variable (p : Program) (l : Level)

/-- The about line of a level. -/
def about : String :=
  match l with
  | .root => p.about
  | .command c => c.about

/-- The sections of a help: commands, positional arguments, options. -/
def sections : List String :=
  let commands := l.commands p
  let positionals := l.positionals p
  let options := ((l.args p).filter (!·.positional)).mergeSort optionBefore
  (if commands.isEmpty then [] else ["Commands:\n" ++ commandEntries commands]) ++
  (if positionals.isEmpty then [] else ["Arguments:\n" ++ argEntries positionals]) ++
  (if options.isEmpty then [] else ["Options:\n" ++ argEntries options])

/-- The help of a level, ending in one newline. -/
def helpText : String :=
  let body := "\n\n".intercalate
    ([l.about p ++ "\n\nUsage: " ++ l.helpUsage p] ++ l.sections p)
  (body.trimAsciiEnd).toString ++ "\n"

end Level

/-- The version line of a program. -/
def Program.versionText (p : Program) : String := p.name ++ " " ++ p.version ++ "\n"

end OrgDeploy.Cli
