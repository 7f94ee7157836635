/-!
# Similar words

The Jaro similarity of two words, used to suggest the name a mistyped argument or command was
meant to be.

Characters of the two words match when they are equal, unused, and at most
`max(|a|, |b|) / 2 - 1` places apart; each character of `a` takes the first such character of
`b`. With `m` matches and `t` half the number of places where the matched characters, read in
order, differ, the similarity is `(m/|a| + m/|b| + (m - t)/m) / 3`, or `0` without matches.

The similarity is a double, computed one rounded operation at a time in the order of that
formula: whether a word is suggested can turn on the last bit, since a similarity of exactly
`7/10` may round to just above the double nearest `0.7`. `similarNames` keeps the names more
similar than `0.7`, least similar first; among equally similar names the given order stays.

Source: the suggestion clap makes for a mistyped subcommand of `src/main.rs:40-100`.
-/

namespace OrgDeploy.Cli

/-- Whether a similarity is above `0.7`, the threshold of a suggestion. -/
def isClose (s : Float) : Bool := 0.7 < s

/-- Matches the characters of `a` in `b` within `range` places; the flags of the matched
characters of each word. -/
def matchFlags (range : Nat) (a b : List Char) : List Bool × List Bool :=
  a.zipIdx.foldl (fun (aFlags, bFlags) (c, i) =>
    let lo := i - range
    let hi := min b.length (i + range + 1)
    let free := (List.range' lo (hi - lo)).find? fun j =>
      b[j]? == some c && !(bFlags[j]?.getD true)
    match free with
    | some j => (aFlags ++ [true], bFlags.set j true)
    | none => (aFlags ++ [false], bFlags)) ([], List.replicate b.length false)

/-- The characters whose flag is set, in order. -/
def flagged (cs : List Char) (flags : List Bool) : List Char :=
  (cs.zip flags).filterMap fun (c, f) => if f then some c else none

/-- The Jaro similarity of two words. -/
def jaro (a b : String) : Float :=
  let a := a.toList
  let b := b.toList
  if a.isEmpty && b.isEmpty then 1
  else if a.isEmpty || b.isEmpty then 0
  else
    let (aFlags, bFlags) := matchFlags (max a.length b.length / 2 - 1) a b
    let am := flagged a aFlags
    let bm := flagged b bFlags
    let m := am.length
    let t := ((am.zip bm).filter fun (x, y) => x != y).length / 2
    if m = 0 then 0
    else
      let fm := m.toFloat
      (fm / a.length.toFloat + fm / b.length.toFloat + (m - t).toFloat / fm) / 3

/-- Inserts a scored name after every name at most as similar. -/
def insertBySimilarity (x : Float × String) : List (Float × String) → List (Float × String)
  | [] => [x]
  | y :: rest => if x.1 < y.1 then x :: y :: rest else y :: insertBySimilarity x rest

/-- The names more similar to `word` than `0.7`, least similar first. -/
def similarNames (word : String) (names : List String) : List String :=
  let close := (names.map fun n => (jaro word n, n)).filter fun x => isClose x.1
  (close.foldl (fun acc x => insertBySimilarity x acc) []).map Prod.snd

end OrgDeploy.Cli
