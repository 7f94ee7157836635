import OrgDeploy.Text.Unicode

/-!
# Placeholders in text

A placeholder is `${`, a run of characters other than `}`, and `}`. `splitPlaceholders` cuts a
text into literal runs and placeholders, taking the leftmost placeholder first and never letting
two overlap: the text from the first `${` that has a `}` after it up to that `}` is one
placeholder, and the scan goes on after it.

`interpolate` replaces each placeholder by the value of its trimmed body. A body that starts with
`!` or contains `::` is never looked up, and a body without value keeps the placeholder verbatim.
The result counts placeholders and those left unresolved; it is *complete* when there was at
least one placeholder and none is left.

Source: `orgform-render/src/interpolate.rs:1-59`.
-/

namespace OrgDeploy

open OrgDeploy.Text

/-- A piece of a text with placeholders. -/
inductive Piece where
  | literal (text : List Char)
  /-- A placeholder with the characters between its braces. -/
  | hole (body : List Char)
  deriving DecidableEq, Repr

/-- The characters before the first `}` and those after it, if there is one. -/
def untilBrace : List Char → Option (List Char × List Char)
  | [] => none
  | '}' :: rest => some ([], rest)
  | c :: rest => (untilBrace rest).map fun (body, after) => (c :: body, after)

/-- Cuts a text into literal runs and placeholders, leftmost first. -/
def splitPlaceholders (cs : List Char) : List Piece :=
  go cs [] (cs.length + 1)
where
  flush (lit : List Char) (acc : List Piece) : List Piece :=
    if lit.isEmpty then acc else .literal lit.reverse :: acc
  go : List Char → List Char → Nat → List Piece
    | cs, lit, 0 => (flush (lit.reverse ++ cs).reverse []).reverse
    | [], lit, _ => (flush lit []).reverse
    | '$' :: '\x7b' :: rest, lit, fuel + 1 =>
      match untilBrace rest with
      | some (body, after) => flush lit [] |>.reverse |>.append (.hole body :: go after [] fuel)
      | none => (flush ((lit.reverse ++ '$' :: '\x7b' :: rest).reverse) []).reverse
    | c :: rest, lit, fuel + 1 => go rest (c :: lit) fuel

/-- The outcome of replacing placeholders. -/
structure Interpolation where
  text : String
  placeholders : Nat
  unresolved : Nat
  deriving DecidableEq, Repr

/-- Whether every placeholder was replaced, and there was one. -/
def Interpolation.complete (r : Interpolation) : Bool := r.placeholders > 0 && r.unresolved == 0

/-- Whether a trimmed placeholder body is one that is never looked up. -/
def literalBody (e : String) : Bool :=
  e.startsWith "!" || e.contains "::"

/-- Replaces each placeholder by the value `resolve` gives its trimmed body. -/
def interpolate (text : String) (resolve : String → Option String) : Interpolation :=
  (splitPlaceholders text.toList).foldl (fun r piece =>
    match piece with
    | .literal cs => { r with text := r.text ++ String.ofList cs }
    | .hole body =>
      let e := trimBlank (String.ofList body)
      let value := if literalBody e then none else resolve e
      match value with
      | some v => { r with text := r.text ++ v, placeholders := r.placeholders + 1 }
      | none =>
        { text := r.text ++ "$\x7b" ++ String.ofList body ++ "\x7d",
          placeholders := r.placeholders + 1, unresolved := r.unresolved + 1 })
    ⟨"", 0, 0⟩

end OrgDeploy
