import Mathlib
import OrgDeploy.Json.Write

/-!
# Compact text is self-delimiting, and it fixes the layout

The compact text of a value can be read back without knowing where it ends. When two values'
texts, each followed by nothing or by a `,`, `]` or `}`, are the same characters, then the two
followers are the same, and the values are alike: equal but for the numbers behind number texts
that are written alike (`Alike`). Number texts are all the compact text does not tell apart.
The pretty layout writes numbers with those same texts, so alike values also have one pretty text
at every depth.

* `numText_text`, `text_ne_nil`: a number is written with digits, signs, `.` and `e` only, and
  never as nothing, so a number text runs up to the first closing character after it
  (`numText_append_inj`);
* `unescape_escapeChar`: `unescape` reads an escaped character back, so a quoted string ends at
  its first unescaped quotation mark (`escaped_append_inj`);
* `compact_lead`: the first character of a compact text tells which writer wrote it;
* `compact_append_alike`: the reading back described above, by induction over the value;
* `Alike.prettyAt_eq`: alike values have one pretty text.
-/

namespace OrgDeploy.Json

/-! ## Number texts -/

/-- A character of a number's text: a digit, a sign, the point or the exponent mark. -/
def NumChar (c : Char) : Prop := c.isDigit ∨ c = '-' ∨ c = '+' ∨ c = '.' ∨ c = 'e'

instance (c : Char) : Decidable (NumChar c) := inferInstanceAs (Decidable (_ ∨ _))

/-- Text made of number characters only. -/
def NumText (cs : List Char) : Prop := ∀ c ∈ cs, NumChar c

@[simp] theorem numText_nil : NumText [] := by simp [NumText]

@[simp] theorem numText_append {a b : List Char} : NumText (a ++ b) ↔ NumText a ∧ NumText b := by
  simp [NumText, or_imp, forall_and]

@[simp] theorem numText_cons {c : Char} {cs : List Char} :
    NumText (c :: cs) ↔ NumChar c ∧ NumText cs := by
  simp [NumText]

@[simp] theorem numChar_zero : NumChar '0' := by decide
@[simp] theorem numChar_point : NumChar '.' := by decide
@[simp] theorem numChar_mark : NumChar 'e' := by decide
@[simp] theorem numChar_minus : NumChar '-' := by decide
@[simp] theorem numChar_plus : NumChar '+' := by decide

theorem NumText.sublist {a b : List Char} (h : NumText b) (hs : a.Sublist b) : NumText a :=
  fun c hc => h c (hs.subset hc)

theorem toList_toString_nat (n : Nat) : (toString n).toList = Nat.toDigits 10 n := by
  simp [toString, Nat.repr]

theorem numText_toDigits (n : Nat) : NumText (Nat.toDigits 10 n) :=
  fun _ hc => .inl (Nat.isDigit_of_mem_toDigits (by decide) (by decide) hc)

theorem numText_zeros (k : Nat) : NumText (zeros k).toList := by
  intro c hc
  simp only [zeros, String.toList_ofList, List.mem_replicate] at hc
  rw [hc.2]
  exact numChar_zero

theorem numText_place (d : Nat) (e : Int) : NumText (Number.floatLayout.place d e).toList := by
  have hds := numText_toDigits d
  unfold FloatLayout.place
  simp only [Number.floatLayout]
  split_ifs
  · simp [hds, numText_zeros]
  · simp [hds.sublist (List.take_sublist _ _), hds.sublist (List.drop_sublist _ _)]
  · simp [hds, numText_zeros]
  -- with an exponent: the mantissa is the digits with a point after the first one
  all_goals
    have hds' : NumText (toString d).toList := by rw [toList_toString_nat]; exact hds
    split
    next d' rest heq =>
      rw [heq] at hds'
      simp_all [numText_toDigits]
    next =>
      simp_all [numText_toDigits]

theorem place_ne_empty (d : Nat) (e : Int) : Number.floatLayout.place d e ≠ "" := by
  unfold FloatLayout.place
  simp only [Number.floatLayout]
  split_ifs <;> simp

theorem numText_floatText (f : Float) : NumText (floatText f).toList := by
  unfold floatText
  simp only
  split_ifs <;> simp [numText_place]

theorem floatText_ne_nil (f : Float) : (floatText f).toList ≠ [] := by
  unfold floatText
  simp only
  split_ifs <;> simp [place_ne_empty]

theorem numText_text (n : Number) : NumText n.text.toList := by
  cases n with
  | nat n => rw [Number.text, toList_toString_nat]; exact numText_toDigits n
  | negInt i =>
    rw [Number.text, Int.toString_eq_repr, Int.repr_eq_if]
    split_ifs <;> simp [Nat.repr, numText_toDigits]
  | float f => exact numText_floatText f

theorem text_ne_nil (n : Number) : n.text.toList ≠ [] := by
  cases n with
  | nat n => simp [Number.text]
  | negInt i =>
    rw [Number.text, Int.toString_eq_repr, Int.repr_eq_if]
    split_ifs <;> simp
  | float f => exact floatText_ne_nil f

/-- A number text is read up to the first character that is no number character: two number
texts that are written alike, each followed by such a character or by nothing, are one text. -/
theorem numText_append_inj {a b x y : List Char} (ha : NumText a) (hb : NumText b)
    (hx : ∀ c ∈ x.head?, ¬ NumChar c) (hy : ∀ c ∈ y.head?, ¬ NumChar c)
    (h : a ++ x = b ++ y) : a = b ∧ x = y := by
  induction a generalizing b with
  | nil =>
    cases b with
    | nil => exact ⟨rfl, h⟩
    | cons c b =>
      -- `x` would start with the number character `c`
      rw [List.nil_append] at h
      exact absurd (numText_cons.mp hb).1 (hx c (by simp [h]))
  | cons c a ih =>
    cases b with
    | nil =>
      rw [List.nil_append] at h
      exact absurd (numText_cons.mp ha).1 (hy c (by simp [← h]))
    | cons c' b =>
      simp only [List.cons_append, List.cons.injEq] at h
      obtain ⟨rfl, htail⟩ := h
      obtain ⟨hab, hxy⟩ := ih (numText_cons.mp ha).2 (numText_cons.mp hb).2 htail
      exact ⟨by rw [hab], hxy⟩

/-! ## Quoted strings -/

/-- The value of a lowercase hex digit. -/
def hexValue (c : Char) : Nat := if c.toNat < 58 then c.toNat - 48 else c.toNat - 87

theorem toNat_ofNat_of_lt {n : Nat} (h : n < 55296) : (Char.ofNat n).toNat = n := by
  simp [Char.toNat_ofNat]
  omega

theorem hexValue_hexDigit {n : Nat} (h : n < 16) : hexValue (hexDigit n) = n := by
  unfold hexDigit hexValue
  split_ifs <;> rw [toNat_ofNat_of_lt (by omega)] at * <;> omega

/-- Reads one escaped character back: the inverse of `escapeChar`. -/
def unescape : List Char → Option (Char × List Char)
  | '\\' :: 'u' :: '0' :: '0' :: h :: l :: rest =>
    some (Char.ofNat (16 * hexValue h + hexValue l), rest)
  | '\\' :: 'b' :: rest => some (Char.ofNat 8, rest)
  | '\\' :: 'f' :: rest => some (Char.ofNat 12, rest)
  | '\\' :: 'n' :: rest => some ('\n', rest)
  | '\\' :: 't' :: rest => some ('\t', rest)
  | '\\' :: 'r' :: rest => some ('\r', rest)
  | '\\' :: c :: rest => some (c, rest)
  | c :: rest => some (c, rest)
  | [] => none

theorem unescape_escapeChar (c : Char) (rest : List Char) :
    unescape (escapeChar c ++ rest) = some (c, rest) := by
  unfold escapeChar
  split_ifs with h1 h2 h3 h4 h5 h6 h7 h8
  · subst h1; rfl
  · subst h2; rfl
  · subst h3; rfl
  · subst h4; rfl
  · subst h5; rfl
  · rw [← Char.ofNat_toNat c, h6]; rfl
  · rw [← Char.ofNat_toNat c, h7]; rfl
  · -- a control character: its code in two hex digits
    have hhi := hexValue_hexDigit (show c.toNat / 16 < 16 by omega)
    have hlo := hexValue_hexDigit (show c.toNat % 16 < 16 by omega)
    show some (Char.ofNat (16 * hexValue (hexDigit (c.toNat / 16)) +
      hexValue (hexDigit (c.toNat % 16))), rest) = _
    rw [hhi, hlo, Nat.div_add_mod, Char.ofNat_toNat]
  · simp [unescape, h2]

theorem escapeChar_append_inj {c c' : Char} {x y : List Char}
    (h : escapeChar c ++ x = escapeChar c' ++ y) : c = c' ∧ x = y := by
  have hread := congrArg unescape h
  rw [unescape_escapeChar, unescape_escapeChar, Option.some.injEq, Prod.mk.injEq] at hread
  exact hread

/-- No escape starts with a quotation mark. -/
theorem escapeChar_eq_cons (c : Char) : ∃ e es, escapeChar c = e :: es ∧ e ≠ '"' := by
  unfold escapeChar
  -- every escape starts with a backslash; a plain character is no quotation mark
  split_ifs with hquote
  all_goals first
    | exact ⟨'\\', _, rfl, by decide⟩
    | exact ⟨c, [], rfl, hquote⟩

/-- A quoted string ends at its first unescaped quotation mark. -/
theorem escaped_append_inj {l m x y : List Char}
    (h : l.flatMap escapeChar ++ '"' :: x = m.flatMap escapeChar ++ '"' :: y) : l = m ∧ x = y := by
  induction l generalizing m with
  | nil =>
    cases m with
    | nil => simpa using h
    | cons c m =>
      obtain ⟨e, es, he, hne⟩ := escapeChar_eq_cons c
      simp [he] at h
      exact absurd h.1.symm hne
  | cons c l ih =>
    cases m with
    | nil =>
      obtain ⟨e, es, he, hne⟩ := escapeChar_eq_cons c
      simp [he] at h
      exact absurd h.1 hne
    | cons c' m =>
      simp only [List.flatMap_cons, List.append_assoc] at h
      obtain ⟨rfl, hrest⟩ := escapeChar_append_inj h
      obtain ⟨rfl, hxy⟩ := ih hrest
      exact ⟨rfl, hxy⟩

/-! ## The first character of a compact text -/

/-- What may follow a value's compact text: nothing, a separator or a closing bracket. -/
def Closing (rest : List Char) : Prop := ∀ c ∈ rest.head?, c = ',' ∨ c = ']' ∨ c = '}'

@[simp] theorem closing_nil : Closing [] := by simp [Closing]

@[simp] theorem closing_cons {c : Char} {rest : List Char} :
    Closing (c :: rest) ↔ c = ',' ∨ c = ']' ∨ c = '}' := by
  simp [Closing]

theorem not_numChar_of_closing {x : List Char} (h : Closing x) : ∀ c ∈ x.head?, ¬ NumChar c := by
  intro c hc
  rcases h c hc with rfl | rfl | rfl <;> decide

/-- The writer a compact text starting with `c` comes from: `null`, a boolean, a string, an
array, an object, or else a number. -/
def leadKind (c : Char) : Nat :=
  if c = 'n' then 0 else if c = 't' then 1 else if c = 'f' then 1 else if c = '"' then 2
  else if c = '[' then 3 else if c = '\x7b' then 4 else 5

/-- The writer of a value, numbered as `leadKind` numbers first characters. -/
def Value.kind : Value → Nat
  | .null => 0
  | .bool _ => 1
  | .str _ => 2
  | .arr _ => 3
  | .obj _ => 4
  | .num _ => 5

theorem leadKind_of_numChar {c : Char} (h : NumChar c) : leadKind c = 5 := by
  rcases h with h | rfl | rfl | rfl | rfl
  · unfold leadKind
    split_ifs <;> simp_all
  all_goals rfl

@[simp] theorem toList_compact_str (s : String) :
    (Value.str s).compact.toList = '"' :: (s.toList.flatMap escapeChar ++ ['"']) := by
  simp [Value.compact, quote]

@[simp] theorem toList_compact_arr (vs : List Value) :
    (Value.arr vs).compact.toList = '[' :: ((compactItems vs).toList ++ [']']) := by
  simp [Value.compact]

@[simp] theorem toList_compact_obj (fs : Fields) :
    (Value.obj fs).compact.toList = '\x7b' :: ((compactFields fs).toList ++ ['\x7d']) := by
  simp [Value.compact]

/-- The items of an array from the first on, with what follows the first: the closing bracket,
or a separator and the other items. -/
theorem toList_compactItems_cons (v : Value) (vs : List Value) (x : List Char) :
    (compactItems (v :: vs)).toList ++ ']' :: x = v.compact.toList ++
      (if vs = [] then ']' :: x else ',' :: ((compactItems vs).toList ++ ']' :: x)) := by
  cases vs <;> simp [compactItems]

/-- The fields of an object from the first on, with what follows the first value: the closing
brace, or a separator and the other fields. -/
theorem toList_compactFields_cons (k : String) (v : Value) (fs : Fields) (x : List Char) :
    (compactFields ((k, v) :: fs)).toList ++ '\x7d' :: x =
      '"' :: (k.toList.flatMap escapeChar ++ '"' :: ':' :: (v.compact.toList ++
        (if fs = [] then '\x7d' :: x else ',' :: ((compactFields fs).toList ++ '\x7d' :: x)))) := by
  cases fs <;> simp [compactFields, quote]

/-- A compact text is never empty, starts with a character that tells its writer, and never
with a closing character. -/
theorem compact_lead (v : Value) : ∃ c cs, v.compact.toList = c :: cs ∧ leadKind c = v.kind ∧
    ¬ (c = ',' ∨ c = ']' ∨ c = '}') := by
  cases v with
  | num n =>
    obtain ⟨c, cs, hcs⟩ := List.exists_cons_of_ne_nil (text_ne_nil n)
    have hc : NumChar c := (numText_cons.mp (hcs ▸ numText_text n)).1
    refine ⟨c, cs, hcs, leadKind_of_numChar hc, fun hclose => ?_⟩
    rcases hclose with rfl | rfl | rfl <;> revert hc <;> decide
  | bool b => cases b <;> exact ⟨_, _, rfl, rfl, by decide⟩
  | null => exact ⟨_, _, rfl, rfl, by decide⟩
  | str s => exact ⟨_, _, toList_compact_str s, rfl, by decide⟩
  | arr vs => exact ⟨_, _, toList_compact_arr vs, rfl, by decide⟩
  | obj fs => exact ⟨_, _, toList_compact_obj fs, rfl, by decide⟩

/-- Texts that start alike come from one writer. -/
theorem kind_eq_of_append {v w : Value} {x y : List Char}
    (h : v.compact.toList ++ x = w.compact.toList ++ y) : v.kind = w.kind := by
  obtain ⟨c, cs, hv, hkv, -⟩ := compact_lead v
  obtain ⟨c', cs', hw, hkw, -⟩ := compact_lead w
  rw [hv, hw, List.cons_append, List.cons_append, List.cons.injEq] at h
  rw [← hkv, ← hkw, h.1]

/-- A value's text followed by anything never starts with a closing character. -/
theorem compact_append_ne_closing (v : Value) (x : List Char) {c : Char} {rest : List Char}
    (hc : c = ',' ∨ c = ']' ∨ c = '}') : v.compact.toList ++ x ≠ c :: rest := by
  obtain ⟨c', cs, hv, -, hnot⟩ := compact_lead v
  rw [hv, List.cons_append]
  intro h
  exact hnot ((List.cons.inj h).1 ▸ hc)

/-! ## Values alike but for the numbers behind number texts -/

mutual
/-- Two values equal but for numbers whose texts are equal. -/
inductive Alike : Value → Value → Prop
  | null : Alike .null .null
  | bool (b : Bool) : Alike (.bool b) (.bool b)
  | num {n m : Number} : n.text = m.text → Alike (.num n) (.num m)
  | str (s : String) : Alike (.str s) (.str s)
  | arr {vs ws : List Value} : AlikeItems vs ws → Alike (.arr vs) (.arr ws)
  | obj {fs gs : Fields} : AlikeFields fs gs → Alike (.obj fs) (.obj gs)

/-- `Alike`, item by item. -/
inductive AlikeItems : List Value → List Value → Prop
  | nil : AlikeItems [] []
  | cons {v w : Value} {vs ws : List Value} : Alike v w → AlikeItems vs ws →
      AlikeItems (v :: vs) (w :: ws)

/-- `Alike`, field by field, with the same keys. -/
inductive AlikeFields : Fields → Fields → Prop
  | nil : AlikeFields [] []
  | cons (k : String) {v w : Value} {fs gs : Fields} : Alike v w → AlikeFields fs gs →
      AlikeFields ((k, v) :: fs) ((k, w) :: gs)
end

/-! ## Reading a compact text back -/

mutual
/-- Two values whose compact texts, each followed by what may follow a value, are written alike
are alike, and what follows them is the same. -/
theorem compact_append_alike : ∀ (v w : Value) {x y : List Char}, Closing x → Closing y →
    v.compact.toList ++ x = w.compact.toList ++ y → x = y ∧ Alike v w
  | .null, w => by
    intro hx hy h
    have hk := kind_eq_of_append h
    cases w <;> simp [Value.kind] at hk
    exact ⟨List.append_cancel_left h, .null⟩
  | .bool b, w => by
    intro hx hy h
    have hk := kind_eq_of_append h
    cases w <;> simp [Value.kind] at hk
    rename_i b'
    cases b <;> cases b' <;> simp [Value.compact] at h
    all_goals exact ⟨h, .bool _⟩
  | .num n, w => by
    intro hx hy h
    have hk := kind_eq_of_append h
    cases w <;> simp [Value.kind] at hk
    rename_i m
    -- a number text runs up to the closing character after it
    obtain ⟨ht, hxy⟩ := numText_append_inj (numText_text n) (numText_text m)
      (not_numChar_of_closing hx) (not_numChar_of_closing hy) h
    exact ⟨hxy, .num (String.toList_inj.mp ht)⟩
  | .str s, w => by
    intro hx hy h
    have hk := kind_eq_of_append h
    cases w <;> simp [Value.kind] at hk
    rename_i t
    simp only [toList_compact_str, List.cons_append, List.append_assoc, List.cons.injEq,
      true_and] at h
    obtain ⟨hst, hxy⟩ := escaped_append_inj h
    exact ⟨hxy, by rw [String.toList_inj.mp hst]; exact .str t⟩
  | .arr vs, w => by
    intro hx hy h
    have hk := kind_eq_of_append h
    cases w <;> simp [Value.kind] at hk
    rename_i ws
    simp only [toList_compact_arr, List.cons_append, List.append_assoc, List.cons.injEq,
      true_and] at h
    obtain ⟨hxy, hitems⟩ := compactItems_append_alike vs ws h
    exact ⟨hxy, .arr hitems⟩
  | .obj fs, w => by
    intro hx hy h
    have hk := kind_eq_of_append h
    cases w <;> simp [Value.kind] at hk
    rename_i gs
    simp only [toList_compact_obj, List.cons_append, List.append_assoc, List.cons.injEq,
      true_and] at h
    obtain ⟨hxy, hfields⟩ := compactFields_append_alike fs gs h
    exact ⟨hxy, .obj hfields⟩

/-- `compact_append_alike` for the items of two arrays, up to the closing bracket. -/
theorem compactItems_append_alike : ∀ (vs ws : List Value) {x y : List Char},
    (compactItems vs).toList ++ ']' :: x = (compactItems ws).toList ++ ']' :: y →
    x = y ∧ AlikeItems vs ws
  | [], [], x, y, h => by
    simp only [compactItems, String.toList_empty, List.nil_append, List.cons.injEq, true_and] at h
    exact ⟨h, .nil⟩
  | [], w :: ws, x, y, h => by
    rw [toList_compactItems_cons] at h
    exact absurd h.symm (compact_append_ne_closing w _ (by simp))
  | v :: vs, [], x, y, h => by
    rw [toList_compactItems_cons] at h
    exact absurd h (compact_append_ne_closing v _ (by simp))
  | v :: vs, w :: ws, x, y, h => by
    rw [toList_compactItems_cons, toList_compactItems_cons] at h
    obtain ⟨hrest, hvw⟩ := compact_append_alike v w (by split <;> simp) (by split <;> simp) h
    -- both arrays end after their first items, or both go on
    rcases eq_or_ne vs [] with rfl | hvs <;> rcases eq_or_ne ws [] with rfl | hws
    · simp only [if_true, List.cons.injEq, true_and] at hrest
      exact ⟨hrest, .cons hvw .nil⟩
    · simp [hws] at hrest
    · simp [hvs] at hrest
    · simp only [hvs, hws, if_false, List.cons.injEq, true_and] at hrest
      obtain ⟨hxy, hitems⟩ := compactItems_append_alike vs ws hrest
      exact ⟨hxy, .cons hvw hitems⟩

/-- `compact_append_alike` for the fields of two objects, up to the closing brace. -/
theorem compactFields_append_alike : ∀ (fs gs : Fields) {x y : List Char},
    (compactFields fs).toList ++ '\x7d' :: x = (compactFields gs).toList ++ '\x7d' :: y →
    x = y ∧ AlikeFields fs gs
  | [], [], x, y, h => by
    simp only [compactFields, String.toList_empty, List.nil_append, List.cons.injEq,
      true_and] at h
    exact ⟨h, .nil⟩
  | [], (k, w) :: gs, x, y, h => by
    rw [toList_compactFields_cons] at h
    simp [compactFields] at h
  | (k, v) :: fs, [], x, y, h => by
    rw [toList_compactFields_cons] at h
    simp [compactFields] at h
  | (k, v) :: fs, (k', w) :: gs, x, y, h => by
    rw [toList_compactFields_cons, toList_compactFields_cons, List.cons.injEq] at h
    -- the keys, then the values, then the other fields
    obtain ⟨hk, hrest⟩ := escaped_append_inj h.2
    obtain ⟨hnext, hvw⟩ := compact_append_alike v w (by split <;> simp) (by split <;> simp)
      (List.cons.inj hrest).2
    rw [String.toList_inj.mp hk]
    rcases eq_or_ne fs [] with rfl | hfs <;> rcases eq_or_ne gs [] with rfl | hgs
    · simp only [if_true, List.cons.injEq, true_and] at hnext
      exact ⟨hnext, .cons k' hvw .nil⟩
    · simp [hgs] at hnext
    · simp [hfs] at hnext
    · simp only [hfs, hgs, if_false, List.cons.injEq, true_and] at hnext
      obtain ⟨hxy, hfields⟩ := compactFields_append_alike fs gs hnext
      exact ⟨hxy, .cons k' hvw hfields⟩
end

/-- Two values with one compact text are alike. -/
theorem alike_of_compact_eq {v w : Value} (h : v.compact = w.compact) : Alike v w :=
  (compact_append_alike v w closing_nil closing_nil (by rw [h])).2

/-! ## Alike values have one layout -/

mutual
theorem Alike.prettyAt_eq : ∀ {v w : Value}, Alike v w → ∀ d, v.prettyAt d = w.prettyAt d
  | _, _, .null, _ => rfl
  | _, _, .bool _, _ => rfl
  | _, _, .str _, _ => rfl
  | _, _, .num h, _ => by simp [Value.prettyAt, Value.compact, h]
  | _, _, .arr h, d => by
    have hp := AlikeItems.prettyItems_eq h (d + 1)
    cases h with
    | nil => rfl
    | cons _ _ => simp only [Value.prettyAt, hp]
  | _, _, .obj h, d => by
    have hp := AlikeFields.prettyFields_eq h (d + 1)
    cases h with
    | nil => rfl
    | cons _ _ _ => simp only [Value.prettyAt, hp]

theorem AlikeItems.prettyItems_eq : ∀ {vs ws : List Value}, AlikeItems vs ws →
    ∀ d, prettyItems d vs = prettyItems d ws
  | _, _, .nil, _ => rfl
  | _, _, .cons hv hs, d => by
    have hhead := hv.prettyAt_eq d
    have hrest := hs.prettyItems_eq d
    cases hs with
    | nil => simp [prettyItems, hhead]
    | cons _ _ => simp only [prettyItems, hhead, hrest]

theorem AlikeFields.prettyFields_eq : ∀ {fs gs : Fields}, AlikeFields fs gs →
    ∀ d, prettyFields d fs = prettyFields d gs
  | _, _, .nil, _ => rfl
  | _, _, .cons _ hv hs, d => by
    have hhead := hv.prettyAt_eq d
    have hrest := hs.prettyFields_eq d
    cases hs with
    | nil => simp [prettyFields, hhead]
    | cons _ _ _ => simp only [prettyFields, hhead, hrest]
end

end OrgDeploy.Json
