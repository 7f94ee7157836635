import OrgDeploy.Cli.Refusal
import OrgDeploy.Cli.Similar

/-!
# Reading a command line

`parse` reads the words of a command line against a `Program`, left to right:

* a word naming a command (when no option waits for its value) hands the rest to that command;
  `help` prints the help of the commands named after it instead;
* `--` makes every later word a positional value;
* `--name` and `--name=value` give a long option, `-abc` the short flags `a`, `b`, `c`; an
  option that takes a value and has none attached takes the next word;
* any other word is the next positional value.

An argument's values are checked when the next argument starts or the words end, so a problem
with them is met in that order. Flags that print (help, version) stop at once, after the
values given before them are checked. After the words, every required argument must have been
given.

Problems are `Refusal`s worded as the messages of the program: an unknown flag suggests the
most similar flag of its command, or of a command named later on the line; an unknown command
suggests the similar command names. Their usage names the arguments given so far.

Source: how clap parses a command line against `src/main.rs:22-100`.
-/

namespace OrgDeploy.Cli

/-- The arguments given at one level, in order of first use, with their values. -/
abbrev Given := List (String × List String)

namespace Given

/-- Whether an argument was given. -/
def has (g : Given) (id : String) : Bool := g.any (·.1 == id)

/-- Records that an argument was given, with no value yet. -/
def start (g : Given) (id : String) : Given := if g.has id then g else g ++ [(id, [])]

/-- Adds a value to an argument. -/
def push (g : Given) (id v : String) : Given :=
  g.map fun (k, vs) => if k == id then (k, vs ++ [v]) else (k, vs)

/-- Forgets an argument. -/
def remove (g : Given) (id : String) : Given := g.filter (·.1 != id)

/-- The values of an argument. -/
def values (g : Given) (id : String) : List String := (g.lookup id).getD []

end Given

/-- The bound of a count: counts are below `2^64`. -/
def countBound : Nat := Nat.pow 2 64

/-- One more digit of a count, checked for being a digit, then for overflow. -/
def countStep (acc : Nat) (c : Char) : Except String Nat :=
  if !c.isDigit then .error "invalid digit found in string"
  else if countBound ≤ acc * 10 then .error "number too large to fit in target type"
  else
    let next := acc * 10 + (c.toNat - '0'.toNat)
    if countBound ≤ next then .error "number too large to fit in target type" else .ok next

/-- Reads a count: decimal digits, maybe after a `+`. -/
def readCount (s : String) : Except String Nat :=
  match s.toList with
  | [] => .error "cannot parse integer from empty string"
  | ['+'] | ['-'] => .error "invalid digit found in string"
  | '+' :: digits => digits.foldlM countStep 0
  | digits => digits.foldlM countStep 0

/-- The problem with a value of an argument, if any. -/
def checkValue (a : Arg) (v : String) : Option Problem :=
  match a.kind with
  | .path => if v.isEmpty then some (.emptyValue a.display) else none
  | .text => none
  | .count =>
    match readCount v with
    | .ok _ => none
    | .error reason => some (.invalidValue v a.display reason)

/-- Adds checked values to an argument, up to the first bad one. -/
def pushValues (a : Arg) : List String → Given → Given × Option Problem
  | [], g => (g, none)
  | v :: vs, g =>
    match checkValue a v with
    | some problem => (g, some problem)
    | none => pushValues a vs (g.push a.id v)

/-- Where the reading of one level stands. -/
structure Cursor where
  given : Given := []
  /-- The argument whose values are being gathered, and those values. -/
  pending : Option (Arg × List String) := none
  /-- The pending option still waits for its value. -/
  awaiting : Bool := false
  /-- The pending positional argument takes more values. -/
  collecting : Bool := false
  /-- The place of the next positional argument. -/
  position : Nat := 0
  /-- A `--` was read. -/
  trailing : Bool := false
  deriving Repr

/-- What a whole command line gave: the program's arguments, and the command with its own. -/
structure Parsed where
  root : Given
  command : Option (Command × Given)

namespace Parsed

/-- The values of an argument: those given to the command, else those given to the program. -/
def values (r : Parsed) (id : String) : List String :=
  match r.command with
  | some (_, g) => if g.has id then g.values id else r.root.values id
  | none => r.root.values id

/-- The value of an argument given once. -/
def value? (r : Parsed) (id : String) : Option String := (r.values id).head?

end Parsed

namespace Level

variable (p : Program) (l : Level)

/-- A refusal at this level. -/
def refusal (problem : Problem) (usage : Option String) : Halt :=
  .refuse { problem, usage, helpHint := l.helpHint p }

/-- Gives an argument its values: the cursor after, and why reading stops, if it does. -/
def give (a : Arg) (values : List String) (c : Cursor) : Cursor × Option Halt :=
  if a.takesValue && values.isEmpty && !a.optionalValues then
    (c, some (l.refusal p (.emptyValue a.display) none))
  else
    match a.action with
    | .help => (c, some (.show (l.helpText p)))
    | .version => (c, some (.show p.versionText))
    | .set =>
      if c.given.has a.id then
        ({ c with given := c.given.remove a.id },
         some (l.refusal p (.repeated a.display) (some (l.usage p []))))
      else
        let (g, problem) := pushValues a values (c.given.start a.id)
        ({ c with given := g }, problem.map fun pr => l.refusal p pr none)
    | .append =>
      let (g, problem) := pushValues a values (c.given.start a.id)
      ({ c with given := g }, problem.map fun pr => l.refusal p pr none)

/-- Gives the pending argument its values. -/
def resolve (c : Cursor) : Cursor × Option Halt :=
  match c.pending with
  | none => (c, none)
  | some (a, vs) => l.give p a vs { c with pending := none }

/-- Gives the pending argument its values, then `a` the values `vs`. -/
def resolveThenGive (a : Arg) (vs : List String) (c : Cursor) : Except Halt Cursor :=
  match l.resolve p c with
  | (_, some h) => .error h
  | (c, none) =>
    match l.give p a vs c with
    | (_, some h) => .error h
    | (c, none) => .ok c

/-- Gives the pending argument its values and makes `a` pending, waiting for its value. -/
def resolveThenAwait (a : Arg) (c : Cursor) : Except Halt Cursor :=
  match l.resolve p c with
  | (_, some h) => .error h
  | (c, none) => .ok { c with pending := some (a, []), awaiting := true, collecting := false }

/-- The refusal of an unknown long flag `--name`, with the words after it. -/
def unknownLong (name : String) (rest : List String) (c : Cursor) : Halt :=
  let here := (similarNames name ((l.args p).filterMap (·.long))).getLast?
  let scored := (l.commands p).filterMap fun cmd =>
    match (similarNames name (((Level.command cmd).args p).filterMap (·.long))).getLast?,
        rest.findIdx? (· == cmd.name) with
    | some best, some i => some (i, best, cmd.name)
    | _, _ => none
  let elsewhere := if here.isSome then none
    else (scored.foldl (fun acc x => match acc with
      | none => some x
      | some y => if x.1 < y.1 then some x else some y) none).map fun (_, b, n) => (b, n)
  let given := match here.bind fun b => (l.args p).find? (·.long == some b) with
    | some a => c.given.start a.id
    | none => c.given
  let trailingTip := here.isNone && elsewhere.isNone && !c.trailing && !(l.positionals p).isEmpty
  .refuse {
    problem := .unknownArgument ("--" ++ name)
    similarArg := here.map ("--" ++ ·)
    tips := (if trailingTip then [s!"to pass '--{name}' as a value, use '-- --{name}'"] else []) ++
      (elsewhere.map fun (b, n) => s!"'{n} --{b}' exists").toList
    usage := some (l.usage p (given.map (·.1)))
    helpHint := l.helpHint p }

/-- Reads a word starting with `--` (and more). -/
def readLong (word : String) (rest : List String) (c : Cursor) : Except Halt Cursor :=
  let (name, attached) := match (word.drop 2).toString.splitOn "=" with
    | [] => ("", none)
    | [n] => (n, none)
    | n :: vs => (n, some ("=".intercalate vs))
  match (l.args p).find? (·.long == some name) with
  | some a =>
    if a.takesValue then
      match attached with
      | some v => (l.resolveThenGive p a [v] c).map fun c => { c with awaiting := false }
      | none => l.resolveThenAwait p a c
    else
      match attached with
      | some v =>
        let required := ((l.args p).filter (·.required)).map (·.id)
        let used := (c.given.map (·.1)).filter (!required.contains ·) ++ [a.id]
        .error (l.refusal p (.unexpectedValue v a.display) (some (l.usage p used)))
      | none => (l.resolveThenGive p a [] c).map fun c => { c with awaiting := false }
  | none => .error (l.unknownLong p name rest (l.resolve p c).1)

/-- Reads the letters of a word of short flags. -/
def readShort : List Char → Cursor → Except Halt Cursor
  | [], c => .ok c
  | ch :: more, c =>
    match (l.args p).find? (·.short == some ch) with
    | some a =>
      if a.takesValue then
        if more.isEmpty then l.resolveThenAwait p a c
        else
          let v := String.ofList (match more with
            | '=' :: t => t
            | t => t)
          (l.resolveThenGive p a [v] c).map fun c => { c with awaiting := false }
      else
        match l.resolveThenGive p a [] c with
        | .error h => .error h
        | .ok c => readShort more { c with awaiting := false }
    | none =>
      let c := (l.resolve p c).1
      let flag := "-" ++ ch.toString
      .error (.refuse {
        problem := .unknownArgument flag
        tips := if !c.trailing && !(l.positionals p).isEmpty then
            [s!"to pass '{flag}' as a value, use '-- {flag}'"] else []
        usage := some (l.usage p [])
        helpHint := l.helpHint p })

/-- The refusal of a word that no argument of the level takes. -/
def unexpectedWord (word : String) (c : Cursor) : Halt :=
  let names := (l.commands p).map (·.name)
  if c.trailing && names.contains word then
    .refuse {
      problem := .unknownArgument word
      tips := [s!"subcommand '{word}' exists; to use it, remove the '--' before it"]
      usage := some (l.usage p [])
      helpHint := l.helpHint p }
  else
    let similar := similarNames word names
    if !names.isEmpty && (!similar.isEmpty || (l.positionals p).isEmpty) then
      .refuse { problem := .unknownCommand word, similarCommands := similar,
                usage := some (l.usage p []), helpHint := l.helpHint p }
    else l.refusal p (.unknownArgument word) (some (l.usage p []))

/-- Reads a positional value. -/
def readPositional (word : String) (c : Cursor) : Except Halt Cursor :=
  match (l.positionals p)[c.position]? with
  | some a =>
    let gathering : Bool := match c.pending with
      | some (b, _) => b.id == a.id && a.action == .append
      | none => false
    let resolved := if gathering then (c, none) else l.resolve p c
    match resolved with
    | (_, some h) => .error h
    | (c, none) =>
      let before := match c.pending with
        | some (b, vs) => if b.id == a.id then vs else []
        | none => []
      let c := { c with pending := some (a, before ++ [word]), awaiting := false }
      if a.action == .append then .ok { c with collecting := true }
      else .ok { c with position := c.position + 1, collecting := false }
  | none => .error (l.unexpectedWord p word (l.resolve p c).1)

/-- Reads the words of a level, up to the end or to a command. -/
def scan : List String → Cursor → Except Halt (Cursor × Option (Command × List String))
  | [], c => .ok (c, none)
  | word :: rest, c =>
    if c.trailing then
      match l.readPositional p word c with
      | .error h => .error h
      | .ok c => scan rest c
    else
      match (if c.awaiting || c.collecting then none
             else (l.commands p).find? (·.name == word)) with
      | some cmd => .ok (c, some (cmd, rest))
      | none =>
        if word == "--" then scan rest { c with trailing := true }
        else if word.startsWith "--" then
          match l.readLong p word rest c with
          | .error h => .error h
          | .ok c => scan rest c
        else if word.startsWith "-" && word.length > 1 then
          match l.readShort p (word.toList.drop 1) c with
          | .error h => .error h
          | .ok c => scan rest c
        else if c.awaiting then
          let c := match c.pending with
            | some (a, vs) => { c with pending := some (a, vs ++ [word]), awaiting := false }
            | none => { c with awaiting := false }
          scan rest c
        else
          match l.readPositional p word c with
          | .error h => .error h
          | .ok c => scan rest c

/-- Closes the reading of a level: the last values are checked and required arguments must have
been given. -/
def finish (c : Cursor) : Except Halt Given :=
  match l.resolve p c with
  | (_, some h) => .error h
  | (c, none) =>
    let missing := (l.args p).filter fun a => a.required && !c.given.has a.id
    if missing.isEmpty then .ok c.given
    else
      let listed := ((missing.filter (!·.positional)) ++ (missing.filter (·.positional))).map
        (·.render true)
      let used := c.given.map (·.1) ++ missing.map (·.id)
      .error (l.refusal p (.missingRequired listed) (some (l.usage p used)))

end Level

/-- The help of the command named by `names`, below `l`. -/
def helpOf (p : Program) : Level → List String → Halt
  | l, [] => .show (l.helpText p)
  | l, n :: more =>
    match (l.commands p).find? (·.name == n) with
    | some cmd => helpOf p (.command cmd) more
    | none => .refuse { problem := .unknownCommand n, usage := some (l.helpUsage p),
                        helpHint := l.helpHint p }

/-- Reads a command line. -/
def parse (p : Program) (words : List String) : Except Halt Parsed := do
  let (c, sub) ← Level.root.scan p words {}
  let command ← match sub with
    | none => pure none
    | some (cmd, rest) =>
      if cmd.name == helpCommand.name then throw (helpOf p .root rest)
      else do
        let (sc, _) ← (Level.command cmd).scan p rest {}
        let g ← (Level.command cmd).finish p sc
        pure (some (cmd, g))
  let root ← Level.root.finish p c
  pure ⟨root, command⟩

end OrgDeploy.Cli
