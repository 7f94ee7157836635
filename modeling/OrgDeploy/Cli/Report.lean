import OrgDeploy.Engine.Basic

/-!
# Failure reports

A command that fails prints `Error: ` and what it was doing, then the chain of errors that caused
the failure, outermost first:

```
Error: deployment aborted

Caused by:
    0: invalid template: invalid template: EOF while parsing an object at line 1 column 1
    1: invalid template: EOF while parsing an object at line 1 column 1
    2: EOF while parsing an object at line 1 column 1
```

A single cause is indented by four spaces and not numbered; the later lines of a cause are
indented like its first.

The chain of an error is its message followed by the chain of the error it wraps, if any. Some
errors only pass on another one: an engine error about the organization, the state or the task
graph has the chain of that error.

Source: the error report of `main` (`src/main.rs:114-146`) for the error chains of
`orgform-engine/src/error.rs:1-66` and the errors they wrap.
-/

namespace OrgDeploy

open OrgDeploy.Fs

/-- The chain of a template error. -/
def ConfigError.chain : ConfigError → List String
  | .parse m => [s!"invalid template: {m}", m]
  | e => [e.message]

/-- The chain of an organization error. -/
def OrganizationError.chain : OrganizationError → List String
  | .io path m => [(OrganizationError.io path m).message, m]
  | .parse m => [(OrganizationError.parse m).message, m]
  | e => [e.message]

/-- The chain of a state error. -/
def StateError.chain : StateError → List String
  | .notFound l => [(StateError.notFound l).message]
  | .io path e => [(StateError.io path e).message, e.message]
  | .serialization m => [(StateError.serialization m).message, m]

/-- The chain of an engine error. -/
def EngineError.chain : EngineError → List String
  | .template e => s!"invalid template: {e.message}" :: e.chain
  | .organization e => e.chain
  | .state e => e.chain
  | .resolve unit e => [(EngineError.resolve unit e).message, e.message]
  | .render unit target e => [(EngineError.render unit target e).message, e.message]
  | .graph e => [e.message]
  | e => [e.message]

namespace Cli

/-- A failed command: what it was doing, and the chain of causes. -/
structure Failure where
  context : String
  causes : List String := []
  deriving DecidableEq, Repr

/-- The number of a cause, right-aligned in five columns. -/
def causeNumber (n : Nat) : String :=
  let digits := toString n
  String.ofList (List.replicate (5 - digits.length) ' ') ++ digits ++ ": "

/-- One cause, on lines of their own: numbered when `numbered`, its later lines indented. -/
def causeText (numbered : Bool) (n : Nat) (cause : String) : String :=
  let first := if numbered then causeNumber n else "    "
  let later := if numbered then "       " else "    "
  "\n" ++ first ++ ("\n" ++ later).intercalate (cause.splitOn "\n")

namespace Failure

/-- A failure caused by an error with a chain. -/
def because (context : String) (chain : List String) : Failure := ⟨context, chain⟩

/-- The report of a failure, ending in a newline. -/
def text (f : Failure) : String :=
  let numbered := f.causes.length ≥ 2
  "Error: " ++ f.context ++
    (if f.causes.isEmpty then ""
     else "\n\nCaused by:" ++ String.join (f.causes.zipIdx.map fun (c, n) => causeText numbered n c))
    ++ "\n"

end Failure

end Cli

end OrgDeploy
