import Mathlib
import OrgDeploy.Render.Parameter

/-!
# Parameter coercion and its rule

Stack parameters are strings. The rule for the string of a rendered value (`Coerced`): `null`
is empty, a string is itself, a number or a boolean its JSON text, an array the `,`-join of its
items' strings, and an object its compact JSON text, unless it is a resolved join: an object
that is exactly `{"Fn::Join": [delimiter, parts]}` whose parts are strings, numbers, booleans or
again resolved joins (`Joined`). A resolved join is folded into its parts' texts joined by the
delimiter.

`coerceParameter` takes an object's `Fn::Join` entry without checking that it is the object's
only entry. So an object that holds a foldable `Fn::Join` beside other keys is folded too, its
other keys dropped (`crowded_join_folded`). On every value without such an object
(`Value.crowdedJoin`), coercion follows the rule, and the rule gives such a value one string
(`coerceParameter_follows_rule`):

* `foldJoin_of_joined`: the code folds every resolved join to its text, whatever else holds;
* `joined_of_foldJoin`: what the code folds in a value without crowded joins is a resolved join;
* `coerced_coerceParameter`: coercion of such a value gives a string of the rule, and
  `Coerced.unique`: the rule gives a value at most one string.
-/

namespace OrgDeploy

open OrgDeploy.Json

mutual
/-- `v` is a resolved join: exactly `{"Fn::Join": [delimiter, parts]}` with parts that all have
a text, and `s` is the parts' texts joined by the delimiter. -/
inductive Joined : Value → String → Prop
  | mk (delimiter : String) {parts : List Value} {texts : List String} :
      JoinParts parts texts →
      Joined (.obj [("Fn::Join", .arr [.str delimiter, .arr parts])]) (delimiter.intercalate texts)

/-- The texts of join parts: a string is itself, a number or a boolean its JSON text, a resolved
join its joined text. -/
inductive JoinParts : List Value → List String → Prop
  | nil : JoinParts [] []
  | str (s : String) {ps : List Value} {ss : List String} :
      JoinParts ps ss → JoinParts (.str s :: ps) (s :: ss)
  | num (n : Number) {ps : List Value} {ss : List String} :
      JoinParts ps ss → JoinParts (.num n :: ps) (n.text :: ss)
  | bool (b : Bool) {ps : List Value} {ss : List String} :
      JoinParts ps ss → JoinParts (.bool b :: ps) (toString b :: ss)
  | join {p : Value} {s : String} {ps : List Value} {ss : List String} :
      Joined p s → JoinParts ps ss → JoinParts (p :: ps) (s :: ss)
end

mutual
/-- The string of a rendered parameter value, by the rule. -/
inductive Coerced : Value → String → Prop
  | null : Coerced .null ""
  | str (s : String) : Coerced (.str s) s
  | num (n : Number) : Coerced (.num n) n.text
  | bool (b : Bool) : Coerced (.bool b) (toString b)
  | arr {items : List Value} {texts : List String} :
      CoercedItems items texts → Coerced (.arr items) (",".intercalate texts)
  | join {fs : Fields} {s : String} : Joined (.obj fs) s → Coerced (.obj fs) s
  | verbatim {fs : Fields} : (∀ s, ¬ Joined (.obj fs) s) → Coerced (.obj fs) (Value.obj fs).compact

/-- The strings of array items, by the rule. -/
inductive CoercedItems : List Value → List String → Prop
  | nil : CoercedItems [] []
  | cons {v : Value} {s : String} {vs : List Value} {ss : List String} :
      Coerced v s → CoercedItems vs ss → CoercedItems (v :: vs) (s :: ss)
end

mutual
/-- Whether some object in a value holds a `Fn::Join` key beside other keys. -/
def Json.Value.crowdedJoin : Value → Bool
  | .arr items => itemsCrowdedJoin items
  | .obj fs => (fs.any (·.1 == "Fn::Join") && fs.length != 1) || fieldsCrowdedJoin fs
  | _ => false

/-- `Value.crowdedJoin` of some item. -/
def itemsCrowdedJoin : List Value → Bool
  | [] => false
  | v :: vs => v.crowdedJoin || itemsCrowdedJoin vs

/-- `Value.crowdedJoin` of some field's value. -/
def fieldsCrowdedJoin : Fields → Bool
  | [] => false
  | (_, v) :: fs => v.crowdedJoin || fieldsCrowdedJoin fs
end

/-! ## The code folds every resolved join -/

/-- The text the code gives one join part: a resolved join's text, or a scalar's. -/
def joinPart : Value → Option String
  | .obj fs => foldJoin (.obj fs)
  | other => scalarPart other

/-- The parts of a join have texts when the first one and the rest have. -/
theorem foldParts_cons (p : Value) (ps : List Value) :
    foldParts (p :: ps) = (joinPart p).bind fun s => (foldParts ps).map (s :: ·) := by
  -- `foldParts` has no equation lemmas: unfold one step for each shape of the first part, then
  -- split on the texts the step matches on
  cases p
  case obj fs =>
    conv_lhs => whnf
    dsimp only [joinPart]
    cases foldJoin (.obj fs) <;> cases foldParts ps <;> rfl
  all_goals
    conv_lhs => whnf
    cases foldParts ps <;> rfl

mutual
theorem foldJoin_of_joined : ∀ {v : Value} {s : String}, Joined v s → foldJoin v = some s
  | _, _, .mk delimiter h => by
    simp [foldJoin, joinEntry, joinArgs, foldParts_of_joinParts h]

theorem foldParts_of_joinParts :
    ∀ {ps : List Value} {ss : List String}, JoinParts ps ss → foldParts ps = some ss
  | _, _, .nil => rfl
  | _, _, .str s h => by simp [foldParts_cons, joinPart, scalarPart, foldParts_of_joinParts h]
  | _, _, .num n h => by simp [foldParts_cons, joinPart, scalarPart, foldParts_of_joinParts h]
  | _, _, .bool b h => by simp [foldParts_cons, joinPart, scalarPart, foldParts_of_joinParts h]
  | _, _, .join hj h => by
    -- a resolved join is an object, which the code folds as a join
    have hfold := foldJoin_of_joined hj
    cases hj
    simp [foldParts_cons, joinPart, hfold, foldParts_of_joinParts h]
end

/-- A resolved join is an object of one field. -/
theorem Joined.single {fs : Fields} {s : String} (h : Joined (.obj fs) s) : fs.length = 1 := by
  cases h
  rfl

/-- The rule folds a value in at most one way. -/
theorem Joined.unique {v : Value} {s s' : String} (h : Joined v s) (h' : Joined v s') : s = s' :=
  Option.some.inj ((foldJoin_of_joined h).symm.trans (foldJoin_of_joined h'))

/-! ## What the code folds without crowded joins is a resolved join -/

/-- The fields of an object with a `Fn::Join` key but no crowded join hold that key alone. -/
theorem fields_single_join {fs : Fields} (h : (Value.obj fs).crowdedJoin = false)
    (hjoin : fs.any (·.1 == "Fn::Join")) : ∃ arg, fs = [("Fn::Join", arg)] ∧ arg.crowdedJoin = false := by
  simp only [Value.crowdedJoin, hjoin, Bool.true_and, Bool.or_eq_false_iff, bne_eq_false_iff_eq] at h
  obtain ⟨hlen, hfields⟩ := h
  match fs, hlen, hjoin, hfields with
  | [(k, arg)], _, hjoin, hfields =>
    simp only [List.any_cons, List.any_nil, Bool.or_false, beq_iff_eq] at hjoin
    simp only [fieldsCrowdedJoin, Bool.or_false] at hfields
    exact ⟨arg, by rw [hjoin], hfields⟩

/-- A `Fn::Join` entry found among an object's fields means the object has a `Fn::Join` key. -/
theorem any_join_of_joinEntry : ∀ {fs : Fields} {s : String}, joinEntry fs = some s →
    fs.any (·.1 == "Fn::Join") = true
  | [], _, h => by cases h
  | (k, v) :: rest, s, h => by
    simp only [joinEntry] at h
    by_cases hk : k = "Fn::Join"
    · simp [hk]
    · rw [if_neg hk] at h
      simp [any_join_of_joinEntry h]

/-- A part's text is a folded join's or a scalar's. -/
theorem joinPart_eq_some {p : Value} {s : String} (h : joinPart p = some s) :
    foldJoin p = some s ∨ scalarPart p = some s := by
  cases p
  case obj fs => exact .inl h
  all_goals exact .inr h

/-- A scalar part with a text heads parts whose texts start with it. -/
theorem joinParts_cons_of_scalarPart {p : Value} {s : String} {ps : List Value}
    {ss : List String} (hs : scalarPart p = some s) (h : JoinParts ps ss) :
    JoinParts (p :: ps) (s :: ss) :=
  match p, hs with
  | .str _, rfl => .str _ h
  | .num _, rfl => .num _ h
  | .bool _, rfl => .bool _ h

mutual
theorem joined_of_foldJoin :
    ∀ (v : Value) {s : String}, v.crowdedJoin = false → foldJoin v = some s → Joined v s
  | .obj fs, s, hc, hf => by
    obtain ⟨arg, rfl, harg⟩ := fields_single_join hc (any_join_of_joinEntry hf)
    simp only [foldJoin, joinEntry, if_pos] at hf
    -- the arguments are a delimiter and a list of parts, each of which has a text
    match harg' : arg, hf, harg with
    | .arr [.str delimiter, .arr parts], hf, harg =>
      simp only [joinArgs, Option.map_eq_some_iff] at hf
      obtain ⟨texts, hparts, rfl⟩ := hf
      simp only [Value.crowdedJoin, itemsCrowdedJoin, Bool.false_or, Bool.or_false] at harg
      exact .mk delimiter (joinParts_of_foldParts parts harg hparts)
  | .null, _, _, hf | .bool _, _, _, hf | .num _, _, _, hf | .str _, _, _, hf
  | .arr _, _, _, hf => by cases hf
termination_by v => sizeOf v
decreasing_by
  -- the parts lie inside the object's single `Fn::Join` entry
  simp_wf
  subst_vars
  simp
  omega

theorem joinParts_of_foldParts : ∀ (ps : List Value) {ss : List String},
    itemsCrowdedJoin ps = false → foldParts ps = some ss → JoinParts ps ss
  | [], ss, _, hf => by
    cases hf
    exact .nil
  | p :: ps, ss, hc, hf => by
    simp only [itemsCrowdedJoin, Bool.or_eq_false_iff] at hc
    rw [foldParts_cons, Option.bind_eq_some_iff] at hf
    -- the part's own text, then the texts of the rest
    obtain ⟨s, hhead, hrest⟩ := hf
    obtain ⟨rest, hfold, rfl⟩ := Option.map_eq_some_iff.mp hrest
    have hps := joinParts_of_foldParts ps hc.2 hfold
    rcases joinPart_eq_some hhead with hjoin | hscalar
    · exact .join (joined_of_foldJoin p hc.1 hjoin) hps
    · exact joinParts_cons_of_scalarPart hscalar hps
termination_by ps => sizeOf ps
end

/-! ## Coercion follows the rule -/

mutual
theorem coerced_coerceParameter :
    ∀ v : Value, v.crowdedJoin = false → Coerced v (coerceParameter v)
  | .null, _ => .null
  | .str s, _ => .str s
  | .num n, _ => .num n
  | .bool b, _ => .bool b
  | .arr items, h => .arr (coercedItems_coerceItems items h)
  | .obj fs, h => by
    -- an object is folded exactly when the code finds a join to fold
    cases hf : foldJoin (.obj fs) with
    | some s =>
      rw [coerceParameter, hf, Option.getD_some]
      exact .join (joined_of_foldJoin (.obj fs) h hf)
    | none =>
      rw [coerceParameter, hf, Option.getD_none]
      exact .verbatim fun s hj => by rw [foldJoin_of_joined hj] at hf; cases hf

theorem coercedItems_coerceItems : ∀ items : List Value, itemsCrowdedJoin items = false →
    CoercedItems items (coerceParameter.coerceItems items)
  | [], _ => .nil
  | v :: vs, h => by
    simp only [itemsCrowdedJoin, Bool.or_eq_false_iff] at h
    exact .cons (coerced_coerceParameter v h.1) (coercedItems_coerceItems vs h.2)
end

mutual
/-- The rule gives a value at most one string. -/
theorem Coerced.unique : ∀ {v : Value} {s s' : String}, Coerced v s → Coerced v s' → s = s'
  | _, _, _, .null, .null => rfl
  | _, _, _, .str _, .str _ => rfl
  | _, _, _, .num _, .num _ => rfl
  | _, _, _, .bool _, .bool _ => rfl
  | _, _, _, .arr h, .arr h' => by rw [CoercedItems.unique h h']
  | _, _, _, .join h, .join h' => h.unique h'
  | _, _, _, .join h, .verbatim h' => absurd h (h' _)
  | _, _, _, .verbatim h, .join h' => absurd h' (h _)
  | _, _, _, .verbatim _, .verbatim _ => rfl

theorem CoercedItems.unique :
    ∀ {vs : List Value} {ss ss' : List String}, CoercedItems vs ss → CoercedItems vs ss' → ss = ss'
  | _, _, _, .nil, .nil => rfl
  | _, _, _, .cons h hs, .cons h' hs' => by rw [Coerced.unique h h', CoercedItems.unique hs hs']
end

/-- On every value in which no object holds a `Fn::Join` key beside other keys, coercion follows
the rule: the string of the rule is exactly `coerceParameter`'s. -/
theorem coerceParameter_follows_rule (v : Value) (h : v.crowdedJoin = false) (s : String) :
    Coerced v s ↔ s = coerceParameter v := by
  constructor
  · intro hs
    exact hs.unique (coerced_coerceParameter v h)
  · rintro rfl
    exact coerced_coerceParameter v h

/-- The nested join of the coercion tests folds to `ab,c`, by the rule and by the code. -/
theorem nested_join_follows_rule :
    let v := Value.obj [("Fn::Join", .arr [.str "", .arr [.str "a",
      .obj [("Fn::Join", .arr [.str ",", .arr [.str "b", .str "c"]])]]])]
    v.crowdedJoin = false ∧ Coerced v "ab,c" := by
  intro v
  have hv : v.crowdedJoin = false := by decide
  exact ⟨hv, (coerceParameter_follows_rule v hv "ab,c").mpr (by decide)⟩

/-- An object with a foldable `Fn::Join` beside another key is, by the rule, kept as its compact
JSON text; the code folds it and drops the other key. -/
theorem crowded_join_folded :
    let v := Value.obj [("Extra", .str "x"), ("Fn::Join", .arr [.str "-", .arr [.str "a", .str "b"]])]
    Coerced v v.compact ∧ coerceParameter v = "a-b" ∧ v.compact ≠ "a-b" := by
  intro v
  refine ⟨.verbatim (fun s h => absurd (Joined.single h) (by simp)), rfl, by decide⟩

end OrgDeploy
