import Mathlib
import OrgDeploy.Render.Basic

/-!
# `Fn::Sub`: the leftmost placeholders of a text and what they become

A placeholder is `${`, a run of characters other than `}`, and `}`; the placeholders of a text
are taken leftmost first and never overlap. `splitPlaceholders` finds them by a scan with fuel.
Here they are read off the text instead. A `Cut` writes a text as literal runs, each followed by
a placeholder, and a tail; it is `Cut.Leftmost` when no run holds `${`, no body holds `}` and
the tail holds no placeholder.

* `exists_leftmost_cut`: every text has a leftmost cut.
* `splitPlaceholders_cut`: the scan returns the pieces of a leftmost cut of its text; its fuel
  never runs out.
* `interpolate_cut`: `interpolate` puts in each placeholder of the cut the value of its
  trimmed body, or keeps it verbatim, and counts the placeholders and those kept. Values are
  put in place and never scanned again.
* `Scope.holeValue` is the value of a placeholder body in a render: nothing for an escape
  (`!…`), an engine parameter (`…::…`) or a local variable; else an attribute for `x.a`,
  split at the first `.`, and a physical id for a body without `.`. `Scope.subOf` is the
  rendered expression; `Scope.sub_cut` shows `Scope.sub` computes it.
* `walk_fnSub`: what walking `{"Fn::Sub": arg}` gives, for every argument.
-/

namespace OrgDeploy

open OrgDeploy.Json OrgDeploy.Text

/-! ## Cuts of a text -/

/-- The characters of a placeholder with body `b`. -/
def holeChars (b : List Char) : List Char := '$' :: '\x7b' :: (b ++ ['}'])

/-- A text holds a placeholder: a `${` with a `}` somewhere after it. -/
def HasPlaceholder (cs : List Char) : Prop := ∃ u v w, cs = u ++ holeChars v ++ w

/-- The piece of a literal run; none for an empty run. -/
def literalPieces (l : List Char) : List Piece := if l.isEmpty then [] else [.literal l]

/-- A text read as literal runs, each followed by a placeholder, and a tail. -/
inductive Cut where
  | tail (cs : List Char)
  /-- The run `lit`, then the placeholder with body `body`, then the rest of the text. -/
  | hole (lit body : List Char) (rest : Cut)

namespace Cut

/-- The text a cut reads. -/
def text : Cut → List Char
  | tail cs => cs
  | hole l b rest => l ++ holeChars b ++ rest.text

/-- The bodies of the placeholders, in order. -/
def bodies : Cut → List (List Char)
  | tail _ => []
  | hole _ b rest => b :: rest.bodies

/-- The pieces of the text: its non-empty literal runs and its placeholders, in order. -/
def pieces : Cut → List Piece
  | tail cs => literalPieces cs
  | hole l b rest => literalPieces l ++ .hole b :: rest.pieces

/-- The text with the placeholder of each body `b` replaced by `f b`. -/
def fill (f : List Char → String) : Cut → String
  | tail cs => String.ofList cs
  | hole l b rest => String.ofList l ++ f b ++ rest.fill f

/-- The placeholders of the cut are the leftmost ones of its text and do not overlap: no run
holds `${`, no body holds `}`, and the tail holds no placeholder. -/
inductive Leftmost : Cut → Prop
  | tail {cs : List Char} : ¬ HasPlaceholder cs → Leftmost (tail cs)
  | hole {l b : List Char} {rest : Cut} : ¬ ['$', '\x7b'] <:+: l → '}' ∉ b → Leftmost rest →
      Leftmost (hole l b rest)

end Cut

theorem HasPlaceholder.cons {c : Char} {cs : List Char} (h : HasPlaceholder cs) :
    HasPlaceholder (c :: cs) := by
  obtain ⟨u, v, w, rfl⟩ := h
  exact ⟨c :: u, v, w, rfl⟩

theorem untilBrace_eq_some_iff {cs b after : List Char} :
    untilBrace cs = some (b, after) ↔ cs = b ++ '}' :: after ∧ '}' ∉ b := by
  induction cs generalizing b with
  | nil => cases b <;> simp [untilBrace]
  | cons c cs ih =>
    by_cases hc : c = '}'
    · subst hc
      cases b with
      | nil => simp [untilBrace]
      | cons d b =>
        simp only [untilBrace, Option.some.injEq, Prod.mk.injEq, reduceCtorEq, false_and,
          false_iff, List.cons_append, List.cons.injEq, List.mem_cons, not_or]
        rintro ⟨⟨rfl, -⟩, hne, -⟩
        exact hne rfl
    · rw [untilBrace.eq_3 _ _ hc]
      cases b with
      | nil =>
        simp only [Option.map_eq_some_iff, Prod.mk.injEq, reduceCtorEq, false_and, and_false,
          exists_false, List.nil_append, List.cons.injEq, false_iff, not_and]
        exact fun h => absurd h.1 hc
      | cons d b =>
        simp only [Option.map_eq_some_iff, Prod.mk.injEq, List.cons.injEq, List.cons_append,
          List.mem_cons, not_or]
        constructor
        · rintro ⟨⟨b', a'⟩, hp, ⟨rfl, rfl⟩, rfl⟩
          obtain ⟨rfl, hb⟩ := ih.mp hp
          exact ⟨⟨rfl, rfl⟩, fun h => hc h.symm, hb⟩
        · rintro ⟨⟨rfl, rfl⟩, -, hb⟩
          exact ⟨(b, after), ih.mpr ⟨rfl, hb⟩, ⟨rfl, rfl⟩, rfl⟩

theorem untilBrace_eq_none_iff {cs : List Char} : untilBrace cs = none ↔ '}' ∉ cs := by
  induction cs with
  | nil => simp [untilBrace]
  | cons c cs ih =>
    by_cases hc : c = '}'
    · subst hc
      simp [untilBrace]
    · rw [untilBrace.eq_3 _ _ hc, Option.map_eq_none_iff, ih, List.mem_cons, not_or]
      exact ⟨fun h => ⟨fun e => hc e.symm, h⟩, fun h => h.2⟩

/-! ## The scan finds the leftmost cut -/

namespace splitPlaceholders

theorem flush_nil (lit : List Char) : (flush lit []).reverse = literalPieces lit.reverse := by
  unfold flush literalPieces
  cases lit <;> simp

theorem go_zero (cs lit : List Char) : go cs lit 0 = literalPieces (lit.reverse ++ cs) := by
  rw [go.eq_1, flush_nil, List.reverse_reverse]

theorem go_nil (lit : List Char) (fuel : Nat) : go [] lit fuel = literalPieces lit.reverse := by
  cases fuel with
  | zero => rw [go_zero, List.append_nil]
  | succ fuel => rw [go.eq_2 _ _ (Nat.succ_ne_zero fuel), flush_nil]

theorem go_cons {c : Char} {cs : List Char} (h : ¬ (c = '$' ∧ cs.head? = some '\x7b'))
    (lit : List Char) (fuel : Nat) : go (c :: cs) lit (fuel + 1) = go cs (c :: lit) fuel :=
  go.eq_4 lit c cs fuel fun rest hc hcs => h ⟨hc, by simp [hcs]⟩

theorem go_open_closed {rest b after : List Char} (h : untilBrace rest = some (b, after))
    (lit : List Char) (fuel : Nat) :
    go ('$' :: '\x7b' :: rest) lit (fuel + 1) =
      literalPieces lit.reverse ++ .hole b :: go after [] fuel := by
  rw [go.eq_3, h]
  exact congrArg (· ++ _) (flush_nil lit)

theorem go_open_unclosed {rest : List Char} (h : untilBrace rest = none) (lit : List Char)
    (fuel : Nat) :
    go ('$' :: '\x7b' :: rest) lit (fuel + 1) =
      literalPieces (lit.reverse ++ '$' :: '\x7b' :: rest) := by
  rw [go.eq_3, h]
  dsimp only
  rw [flush_nil, List.reverse_reverse]

/-- Scanning a run that holds no `${`, up to the `$` of a placeholder, only collects the run. -/
theorem go_append_open {l : List Char} (hl : ¬ ['$', '\x7b'] <:+: l) (rest lit : List Char)
    (fuel : Nat) :
    go (l ++ '$' :: rest) lit (fuel + l.length) = go ('$' :: rest) (l.reverse ++ lit) fuel := by
  induction l generalizing lit with
  | nil => rfl
  | cons c l ih =>
    -- `c` opens no placeholder: the character after it is in `l`, or is the `$`
    have hc : ¬ (c = '$' ∧ (l ++ '$' :: rest).head? = some '\x7b') := by
      rintro ⟨rfl, hhead⟩
      cases l with
      | nil => simp at hhead
      | cons d l =>
        simp only [List.cons_append, List.head?_cons, Option.some.injEq] at hhead
        subst hhead
        exact hl (List.IsPrefix.isInfix ⟨l, rfl⟩)
    have hl' : ¬ ['$', '\x7b'] <:+: l := fun h => hl (h.trans (List.infix_cons (List.infix_refl l)))
    rw [List.cons_append, List.length_cons, ← Nat.add_assoc, go_cons hc, ih hl']
    simp

/-- A run without `${` and then a placeholder: the run's piece, then the placeholder's. -/
theorem go_run {l b : List Char} (hl : ¬ ['$', '\x7b'] <:+: l) (hb : '}' ∉ b)
    (rest lit : List Char) (fuel : Nat) :
    go (l ++ holeChars b ++ rest) lit (fuel + l.length + 1) =
      literalPieces (lit.reverse ++ l) ++ .hole b :: go rest [] fuel := by
  have htext : l ++ holeChars b ++ rest = l ++ '$' :: '\x7b' :: (b ++ '}' :: rest) := by
    simp [holeChars]
  rw [htext, Nat.add_right_comm, go_append_open hl,
    go_open_closed (untilBrace_eq_some_iff.mpr ⟨rfl, hb⟩)]
  simp

/-- A text without a placeholder is one literal run. -/
theorem go_tail {t : List Char} (ht : ¬ HasPlaceholder t) (lit : List Char) (fuel : Nat) :
    go t lit fuel = literalPieces (lit.reverse ++ t) := by
  induction t generalizing lit fuel with
  | nil => rw [go_nil, List.append_nil]
  | cons c t ih =>
    cases fuel with
    | zero => exact go_zero _ _
    | succ fuel =>
      by_cases hopen : c = '$' ∧ t.head? = some '\x7b'
      · -- a `${` here has no `}` after it, or the text would hold a placeholder
        obtain ⟨rfl, hhead⟩ := hopen
        obtain ⟨r, rfl⟩ : ∃ r, t = '\x7b' :: r := by
          cases t with
          | nil => simp at hhead
          | cons d r => simp only [List.head?_cons, Option.some.injEq] at hhead; exact ⟨r, hhead ▸ rfl⟩
        cases hr : untilBrace r with
        | none => exact go_open_unclosed hr lit fuel
        | some p =>
          obtain ⟨hrp, -⟩ := untilBrace_eq_some_iff.mp hr
          exact absurd ⟨[], p.1, p.2, by simp [holeChars, hrp]⟩ ht
      · rw [go_cons hopen, ih (fun h => ht h.cons)]
        simp

theorem go_cut {c : Cut} (hc : c.Leftmost) (fuel : Nat) (hf : c.text.length < fuel) :
    go c.text [] fuel = c.pieces := by
  induction hc generalizing fuel with
  | tail ht => simpa [Cut.text, Cut.pieces] using go_tail ht [] fuel
  | @hole l b rest hl hb _ ih =>
    -- the fuel pays for the run and the placeholder, and the rest is shorter than what is left
    have hlen : (l ++ holeChars b ++ rest.text).length = l.length + (b.length + 3) +
        rest.text.length := by
      simp [holeChars]
      omega
    simp only [Cut.text, hlen] at hf
    obtain ⟨k, rfl⟩ : ∃ k, fuel = k + l.length + 1 := ⟨fuel - l.length - 1, by omega⟩
    rw [Cut.text, go_run hl hb, ih k (by omega)]
    simp [Cut.pieces]

end splitPlaceholders

/-- The scan returns the pieces of the leftmost cut. -/
theorem splitPlaceholders_cut {c : Cut} (hc : c.Leftmost) : splitPlaceholders c.text = c.pieces :=
  splitPlaceholders.go_cut hc _ (Nat.lt_succ_self _)

-- `$$` opens nothing at its first `$`; the placeholder ends at the first `}`, and the last `${`
-- has no `}` after it
example : splitPlaceholders "a$$\x7bb\x7d\x7d$\x7bc".toList =
    [.literal ['a', '$'], .hole ['b'], .literal ['}', '$', '\x7b', 'c']] := by
  decide

/-- A text with a placeholder has a first one, after a run that holds no `${`. -/
theorem HasPlaceholder.first {cs : List Char} (h : HasPlaceholder cs) :
    ∃ l b rest, cs = l ++ holeChars b ++ rest ∧ ¬ ['$', '\x7b'] <:+: l ∧ '}' ∉ b := by
  induction cs with
  | nil =>
    obtain ⟨u, v, w, huvw⟩ := h
    simp [holeChars] at huvw
  | cons c cs ih =>
    by_cases hopen : ∃ r, c :: cs = '$' :: '\x7b' :: r ∧ '}' ∈ r
    · -- the placeholder opening here ends at the first `}`
      obtain ⟨r, hr, hmem⟩ := hopen
      obtain ⟨b, after, hba⟩ : ∃ b after, untilBrace r = some (b, after) := by
        cases hu : untilBrace r with
        | none => exact absurd hmem (untilBrace_eq_none_iff.mp hu)
        | some p => exact ⟨p.1, p.2, rfl⟩
      obtain ⟨rfl, hb⟩ := untilBrace_eq_some_iff.mp hba
      exact ⟨[], b, after, by simp [hr, holeChars], by simp, hb⟩
    · have hcs : HasPlaceholder cs := by
        obtain ⟨u, v, w, huvw⟩ := h
        cases u with
        | nil => exact absurd ⟨v ++ '}' :: w, by simpa [holeChars] using huvw, by simp⟩ hopen
        | cons d u => exact ⟨u, v, w, (List.cons.inj huvw).2⟩
      obtain ⟨l, b, rest, rfl, hl, hb⟩ := ih hcs
      refine ⟨c :: l, b, rest, rfl, ?_, hb⟩
      -- a `${` at `c` would open a placeholder closed by the one found in `cs`
      rintro hinf
      rcases List.infix_cons_iff.mp hinf with ⟨t, ht⟩ | hin
      · simp only [List.cons_append, List.cons.injEq, List.nil_append] at ht
        obtain ⟨rfl, rfl⟩ := ht
        exact hopen ⟨t ++ holeChars b ++ rest, by simp, by simp [holeChars]⟩
      · exact hl hin

/-- Every text has a leftmost cut. -/
theorem exists_leftmost_cut (cs : List Char) : ∃ c : Cut, c.Leftmost ∧ c.text = cs := by
  by_cases h : HasPlaceholder cs
  · obtain ⟨l, b, rest, hcs, hl, hb⟩ := h.first
    have hshorter : rest.length < cs.length := by
      simp [hcs, holeChars]
      omega
    obtain ⟨c, hc, hrest⟩ := exists_leftmost_cut rest
    exact ⟨.hole l b c, .hole hl hb hc, by rw [Cut.text, hrest, hcs]⟩
  · exact ⟨.tail cs, .tail h, rfl⟩
termination_by cs.length

/-! ## Filling the placeholders -/

/-- The value `interpolate` gives a placeholder body: none for an escape or an engine
parameter, else what `resolve` gives the trimmed body. -/
def bodyValue (resolve : String → Option String) (b : List Char) : Option String :=
  if literalBody (trimBlank (String.ofList b)) then none else resolve (trimBlank (String.ofList b))

/-- What a placeholder with body `b` leaves in the text when it has no value: itself. -/
def verbatim (b : List Char) : String := "$\x7b" ++ String.ofList b ++ "\x7d"

/-- One step of `interpolate`: a literal run is copied, a placeholder filled or kept. -/
def interpolateStep (resolve : String → Option String) (r : Interpolation) :
    Piece → Interpolation
  | .literal cs => { r with text := r.text ++ String.ofList cs }
  | .hole body =>
    match bodyValue resolve body with
    | some v => { r with text := r.text ++ v, placeholders := r.placeholders + 1 }
    | none =>
      { text := r.text ++ "$\x7b" ++ String.ofList body ++ "\x7d",
        placeholders := r.placeholders + 1, unresolved := r.unresolved + 1 }

theorem interpolate_eq_foldl (text : String) (resolve : String → Option String) :
    interpolate text resolve =
      (splitPlaceholders text.toList).foldl (interpolateStep resolve) ⟨"", 0, 0⟩ := by
  unfold interpolate
  refine congrArg (fun f => List.foldl f _ _) (funext fun r => funext fun piece => ?_)
  cases piece with
  | literal cs => simp only [interpolateStep]
  | hole body =>
    -- both sides match on the body's value: split on it once (comparing the two matches whole
    -- by `rfl` takes seconds)
    cases hv : bodyValue resolve body <;>
      (unfold bodyValue at hv; simp only [interpolateStep, bodyValue, hv])

theorem literalBody_iff (e : String) :
    literalBody e = true ↔ ['!'] <+: e.toList ∨ [':', ':'] <:+: e.toList := by
  simp [literalBody]

theorem foldl_literalPieces (resolve : String → Option String) (l : List Char)
    (r : Interpolation) :
    (literalPieces l).foldl (interpolateStep resolve) r =
      { r with text := r.text ++ String.ofList l } := by
  unfold literalPieces
  cases l with
  | nil => simp
  | cons c l => rfl

theorem interpolateStep_hole (resolve : String → Option String) (r : Interpolation)
    (b : List Char) :
    interpolateStep resolve r (.hole b) =
      ⟨r.text ++ (bodyValue resolve b).getD (verbatim b), r.placeholders + 1,
        r.unresolved + if (bodyValue resolve b).isNone then 1 else 0⟩ := by
  cases hv : bodyValue resolve b with
  | none => simp [interpolateStep, hv, verbatim, String.append_assoc]
  | some v => simp [interpolateStep, hv]

/-- Filling the pieces of a cut appends the filled text and counts its placeholders, and
those without value. -/
theorem foldl_pieces (resolve : String → Option String) (c : Cut) (r : Interpolation) :
    c.pieces.foldl (interpolateStep resolve) r =
      ⟨r.text ++ c.fill (fun b => (bodyValue resolve b).getD (verbatim b)),
        r.placeholders + c.bodies.length,
        r.unresolved + c.bodies.countP fun b => (bodyValue resolve b).isNone⟩ := by
  induction c generalizing r with
  | tail cs => simp [Cut.pieces, foldl_literalPieces, Cut.fill, Cut.bodies]
  | hole l b rest ih =>
    rw [Cut.pieces, List.foldl_append, foldl_literalPieces, List.foldl_cons, interpolateStep_hole,
      ih]
    simp only [Cut.fill, Cut.bodies, List.length_cons, List.countP_cons, Interpolation.mk.injEq]
    exact ⟨by simp [String.append_assoc], by omega, by omega⟩

/-- `interpolate` fills each placeholder of the leftmost cut with the value of its trimmed body,
or keeps it verbatim, and counts the placeholders and those kept. -/
theorem interpolate_cut (resolve : String → Option String) {text : String} {c : Cut}
    (hc : c.Leftmost) (ht : c.text = text.toList) :
    interpolate text resolve =
      ⟨c.fill (fun b => (bodyValue resolve b).getD (verbatim b)), c.bodies.length,
        c.bodies.countP fun b => (bodyValue resolve b).isNone⟩ := by
  rw [interpolate_eq_foldl, ← ht, splitPlaceholders_cut hc, foldl_pieces]
  simp

/-- The result is complete when the text has a placeholder and every one has a value. -/
theorem complete_interpolate_cut (resolve : String → Option String) {text : String} {c : Cut}
    (hc : c.Leftmost) (ht : c.text = text.toList) :
    (interpolate text resolve).complete = true ↔
      c.bodies ≠ [] ∧ ∀ b ∈ c.bodies, (bodyValue resolve b).isSome := by
  rw [interpolate_cut resolve hc ht]
  simp [Interpolation.complete, List.countP_eq_zero, List.length_pos_iff,
    Option.ne_none_iff_isSome]

/-! ## Placeholder values in a render -/

namespace Scope

variable (sc : Scope)

/-- The value of a placeholder with body `b` in a render whose local variables are `locals`.
The body is trimmed. An escape (`!…`), an engine parameter (`…::…`) and a local variable have
none. Otherwise `x.a`, split at its first `.`, is the attribute `a` of the entity `x`, and a
body without `.` is the physical id of the entity it names. -/
def holeValue (locals : List String) (b : List Char) : Option String :=
  let e := trimBlank (String.ofList b)
  if ['!'] <+: e.toList ∨ [':', ':'] <:+: e.toList ∨ e ∈ locals then none
  else
    match e.toList.span (· != '.') with
    | (x, _ :: a) => sc.attributeOf (String.ofList x) (String.ofList a)
    | (_, []) => sc.reference e

/-- `Fn::Sub` over a text with leftmost cut `c`, local variables `locals` and their rendered
values `vars`: each placeholder is filled with its value or kept verbatim. The expression
becomes a string once the text has a placeholder and every one has a value; otherwise it
stays, with its variables rendered. -/
def subOf (locals : List String) (vars : Option Fields) (c : Cut) : Value :=
  let text := c.fill fun b => (sc.holeValue locals b).getD (verbatim b)
  if c.bodies ≠ [] ∧ ∀ b ∈ c.bodies, (sc.holeValue locals b).isSome then .str text
  else
    match vars with
    | some rendered => .obj [("Fn::Sub", .arr [.str text, .obj rendered])]
    | none => .obj [("Fn::Sub", .str text)]

/-- The values `sub` asks `interpolate` for are those of `holeValue`. -/
theorem bodyValue_sub (locals : List String) (b : List Char) :
    bodyValue (fun e => if locals.contains e then none else sc.placeholder e) b =
      sc.holeValue locals b := by
  unfold bodyValue holeValue
  generalize trimBlank (String.ofList b) = e
  dsimp only
  by_cases hlit : literalBody e = true
  · rw [if_pos hlit, if_pos (((literalBody_iff e).mp hlit).imp_right Or.inl)]
  · have hlit' : ¬ (['!'] <+: e.toList ∨ [':', ':'] <:+: e.toList) := mt (literalBody_iff e).mpr hlit
    by_cases hloc : e ∈ locals
    · rw [if_neg hlit, if_pos (List.contains_iff_mem.mpr hloc), if_pos (Or.inr (Or.inr hloc))]
    · rw [if_neg hlit, if_neg (mt List.contains_iff_mem.mp hloc), if_neg (by tauto)]
      -- `splitOnce` takes the characters before the first `.` and drops up to it, as `span`
      unfold placeholder splitOnce
      rw [List.span_eq_takeWhile_dropWhile]
      cases hd : e.toList.dropWhile (· != '.') with
      | nil =>
        have hno : '.' ∉ e.toList := fun hmem => by
          simpa using List.dropWhile_eq_nil_iff.mp hd '.' hmem
        simp [hno]
      | cons d a =>
        have hdot : d = '.' := by
          simpa [hd] using @List.head_dropWhile_not _ (· != '.') e.toList (by simp [hd])
        have hmem : '.' ∈ e.toList :=
          (List.dropWhile_suffix (· != '.')).subset (by simp [hd, hdot])
        simp [hmem, hd]

/-- `Scope.sub` over a text renders the expression `subOf` gives for its leftmost cut. -/
theorem sub_cut {text : String} {c : Cut} (hc : c.Leftmost) (ht : c.text = text.toList)
    (vars : Option (List String × Fields)) :
    sc.sub text vars = sc.subOf ((vars.map Prod.fst).getD []) (vars.map Prod.snd) c := by
  have hvalue := funext (sc.bodyValue_sub ((vars.map Prod.fst).getD []))
  have htext := interpolate_cut (fun e => if ((vars.map Prod.fst).getD []).contains e then none
    else sc.placeholder e) hc ht
  have hcomplete := complete_interpolate_cut (fun e =>
    if ((vars.map Prod.fst).getD []).contains e then none else sc.placeholder e) hc ht
  rw [hvalue] at htext hcomplete
  unfold sub subOf
  dsimp only
  simp only [hcomplete]
  simp only [htext]
  cases vars <;> rfl

end Scope

/-- The text and local variables of a `Fn::Sub` argument: a string, `[string]` or
`[string, object]`. -/
def fnSubArgs : Value → Option (String × Option Fields)
  | .str text => some (text, none)
  | .arr [.str text] => some (text, none)
  | .arr [.str text, .obj vars] => some (text, some vars)
  | _ => none

theorem fnSubArgs_eq_some {arg : Value} {text : String} {vars : Option Fields}
    (h : fnSubArgs arg = some (text, vars)) :
    (vars = none ∧ (arg = .str text ∨ arg = .arr [.str text])) ∨
      ∃ fs, vars = some fs ∧ arg = .arr [.str text, .obj fs] := by
  unfold fnSubArgs at h
  split at h <;> simp only [Option.some.injEq, Prod.mk.injEq, reduceCtorEq] at h
  all_goals obtain ⟨rfl, rfl⟩ := h
  · exact .inl ⟨rfl, .inl rfl⟩
  · exact .inl ⟨rfl, .inr rfl⟩
  · exact .inr ⟨_, rfl, rfl⟩

/-- Walking `{"Fn::Sub": arg}`. An argument that is not a string, `[string]` or
`[string, object]` is an invalid expression. Otherwise the text has a leftmost cut; the
variables, if any, are walked first, and the expression renders as `Scope.subOf` gives it over
the cut. -/
theorem walk_fnSub (sc : Scope) (arg : Value) (w : Imports) :
    (fnSubArgs arg = none → (sc.walk (.obj [("Fn::Sub", arg)])).run w =
        .error (.invalidExpression sc.unit "Fn::Sub" "expected a string or [string, variables]")) ∧
    ∀ text vars, fnSubArgs arg = some (text, vars) →
      (∃ c : Cut, c.Leftmost ∧ c.text = text.toList) ∧
      ∀ c : Cut, c.Leftmost → c.text = text.toList →
        (sc.walk (.obj [("Fn::Sub", arg)])).run w =
          ((vars.mapM sc.walkFields).run w).map fun p =>
            (sc.subOf ((vars.map fun fs => fs.map Prod.fst).getD []) p.1 c, p.2) := by
  refine ⟨fun hnone => ?_, fun text vars hargs =>
    ⟨exists_leftmost_cut text.toList, fun c hc ht => ?_⟩⟩
  · rw [Scope.walk.eq_8 sc arg (fun text h => by simp [h, fnSubArgs] at hnone)
      (fun text h => by simp [h, fnSubArgs] at hnone)
      (fun text vars h => by simp [h, fnSubArgs] at hnone)]
    rfl
  · rcases fnSubArgs_eq_some hargs with ⟨rfl, rfl | rfl⟩ | ⟨fs, rfl, rfl⟩
    · rw [Scope.walk.eq_5, sc.sub_cut hc ht]
      rfl
    · rw [Scope.walk.eq_6, sc.sub_cut hc ht]
      rfl
    · -- the variables are walked before the text is filled
      rw [Scope.walk.eq_7]
      simp only [sc.sub_cut hc ht, StateT.run_bind, Option.mapM_some, StateT.run_map]
      cases (sc.walkFields fs).run w <;> rfl

end OrgDeploy
