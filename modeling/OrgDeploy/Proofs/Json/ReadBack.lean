import Mathlib
import OrgDeploy.Json.Decode

/-!
# Decoders read back what is written

The persisted formats are written as in-memory JSON values and read by the decoders of
`OrgDeploy.Json.Decode`. This module gives each building block its law for nodes of in-memory
values (`Node.ofValue`): a decoder applied to what its writer produces gives the value back.

A document model keyed by an ordered map holds objects with ascending keys (`Ascending`), and
so do the values it contains (`Value.Canonical`); those are the values the laws are about:

* `content_ofValue`: reading a node whole gives its value; `json_ofValue`: a canonical value is
  its own normal form, so `Decoder.json` keeps it.
* `dict_ofValue`: a table with ascending keys is read back in its order, since each key is
  inserted above every key before it (`dict_insert_of_lt`).
* `list_ofValue`, `option_ofValue`, `variant_ofValue`, `firstOf_ofValue`; an untagged choice
  whose first form is a string reads every other value by its second form
  (`firstOf_string_ofValue`).
* `Shape.record_ofValue`, `Shape.record_ofValue_rest`: an object whose entries each name a field
  of the shape at most once (`Shape.Reads`), and that names every required field, is read as
  the record the fields' updates build from the shape's defaults; with a remainder, the
  entries no field names go to it in order.
-/

namespace OrgDeploy.Json

variable {α σ : Type}

/-- Keys in strictly ascending order: sorted and distinct, as an ordered map holds them. -/
def Ascending (t : List (String × α)) : Prop := t.Pairwise fun a b => a.1 < b.1

instance (t : List (String × α)) : Decidable (Ascending t) :=
  inferInstanceAs (Decidable (List.Pairwise _ t))

mutual
/-- A value as a document model keyed by an ordered map holds it: in every object the keys
ascend. -/
def Value.Canonical : Value → Prop
  | .arr items => CanonicalItems items
  | .obj fs => Ascending fs ∧ CanonicalFields fs
  | _ => True

/-- `Value.Canonical` of every item. -/
def CanonicalItems : List Value → Prop
  | [] => True
  | v :: vs => v.Canonical ∧ CanonicalItems vs

/-- `Value.Canonical` of every field's value. -/
def CanonicalFields : Fields → Prop
  | [] => True
  | (_, v) :: fs => v.Canonical ∧ CanonicalFields fs
end

/-! ## Reading a node whole -/

mutual
theorem content_ofValue : (v : Value) → (Node.ofValue v).content = .ok v
  | .null | .bool _ | .num _ | .str _ => rfl
  | .arr items => by
    simp only [Node.ofValue, Node.content, Bool.false_eq_true, if_false,
      contentItems_ofItems items]
    rfl
  | .obj fs => by
    simp only [Node.ofValue, Node.content, Bool.false_eq_true, if_false,
      contentEntries_ofFields fs]
    rfl

theorem contentItems_ofItems : (vs : List Value) → contentItems (ofItems vs) = .ok vs
  | [] => rfl
  | v :: vs => by
    simp only [ofItems, contentItems, content_ofValue v, contentItems_ofItems vs]
    rfl

theorem contentEntries_ofFields : (fs : Fields) → contentEntries (ofFields fs) = .ok fs
  | [] => rfl
  | (k, v) :: fs => by
    simp only [ofFields, contentEntries, content_ofValue v, contentEntries_ofFields fs]
    rfl
end

theorem capture_ofValue (ctx : Ctx) (v : Value) : ctx.capture (Node.ofValue v) = .ok v := by
  rw [Ctx.capture, content_ofValue]
  rfl

theorem ofFields_append (fs gs : Fields) : ofFields (fs ++ gs) = ofFields fs ++ ofFields gs := by
  induction fs with
  | nil => rfl
  | cons p fs ih => simp [ofFields, ih]

/-! ## Ascending keys -/

/-- Inserting a key above every key of a table puts it last. -/
theorem dict_insert_of_lt {k : String} {a : α} :
    ∀ {t : List (String × α)}, (∀ p ∈ t, p.1 < k) → Decoder.dict.insert k a t = t ++ [(k, a)]
  | [], _ => rfl
  | (k', a') :: t, h => by
    have hlt : k' < k := h (k', a') List.mem_cons_self
    rw [Decoder.dict.insert, if_neg (lt_asymm hlt), if_neg hlt.ne',
      dict_insert_of_lt fun p hp => h p (List.mem_cons_of_mem _ hp)]
    rfl

/-- The insertion that sorts the fields of an object is the one a table decoder uses. -/
theorem Fields.insert_eq (k : String) (v : Value) :
    ∀ fs : Fields, Fields.insert k v fs = Decoder.dict.insert k v fs
  | [] => rfl
  | (k', v') :: fs => by
    rw [Fields.insert, Decoder.dict.insert, Fields.insert_eq k v fs]

theorem ascending_append_singleton {t : List (String × α)} {k : String} {a : α}
    {rest : List (String × α)} (h : Ascending (t ++ (k, a) :: rest)) : ∀ p ∈ t, p.1 < k :=
  fun p hp => (List.pairwise_append.mp h).2.2 p hp (k, a) List.mem_cons_self

/-- Sorting fields whose keys already ascend changes nothing. -/
theorem Fields.sorted_of_ascending {fs : Fields} (h : Ascending fs) : Fields.sorted fs = fs := by
  -- each field is inserted above the fields before it
  suffices hfold : ∀ (rest acc : Fields), Ascending (acc ++ rest) →
      rest.foldl (fun acc (p : String × Value) => Fields.insert p.1 p.2 acc) acc = acc ++ rest from
    hfold fs [] h
  intro rest
  induction rest with
  | nil => intro acc _; simp
  | cons p rest ih =>
    intro acc hasc
    rw [List.foldl_cons, Fields.insert_eq, dict_insert_of_lt (ascending_append_singleton hasc),
      ih _ (by simpa using hasc)]
    simp

mutual
/-- A canonical value is its own normal form. -/
theorem normalize_of_canonical : (v : Value) → v.Canonical → v.normalize = v
  | .null, _ | .bool _, _ | .num _, _ | .str _, _ => rfl
  | .arr items, h => by
    rw [Value.normalize, normalizeItems_of_canonical items h]
  | .obj fs, h => by
    rw [Value.normalize, normalizeFields_of_canonical fs h.2, Fields.sorted_of_ascending h.1]

theorem normalizeItems_of_canonical : (vs : List Value) → CanonicalItems vs →
    normalizeItems vs = vs
  | [], _ => rfl
  | v :: vs, h => by
    rw [normalizeItems, normalize_of_canonical v h.1, normalizeItems_of_canonical vs h.2]

theorem normalizeFields_of_canonical : (fs : Fields) → CanonicalFields fs →
    normalizeFields fs = fs
  | [], _ => rfl
  | (k, v) :: fs, h => by
    rw [normalizeFields, normalize_of_canonical v h.1, normalizeFields_of_canonical fs h.2]
end

/-! ## Scalars, lists, tables and alternatives -/

variable (ctx : Ctx)

@[simp] theorem string_ofValue (s : String) : Decoder.string ctx (Node.ofValue (.str s)) = .ok s :=
  rfl

@[simp] theorem bool_ofValue (b : Bool) : Decoder.bool ctx (Node.ofValue (.bool b)) = .ok b := rfl

/-- Any value is read whole; a canonical one is kept as it is. -/
theorem json_ofValue {v : Value} (h : v.Canonical) : Decoder.json ctx (Node.ofValue v) = .ok v := by
  rw [Decoder.json, capture_ofValue]
  exact congrArg Except.ok (normalize_of_canonical v h)

theorem option_ofValue {d : Decoder α} {v : Value} {a : α} (hv : v ≠ .null)
    (h : d ctx (Node.ofValue v) = .ok a) : Decoder.option d ctx (Node.ofValue v) = .ok (some a) := by
  have hsome : Decoder.option d ctx (Node.ofValue v) = (d ctx (Node.ofValue v)).map some := by
    cases v with
    | null => exact absurd rfl hv
    | _ => rfl
  rw [hsome, h]
  rfl

/-- A list is read item by item. -/
theorem list_ofValue {d : Decoder α} {enc : α → Value} {xs : List α}
    (h : ∀ a ∈ xs, d ctx (Node.ofValue (enc a)) = .ok a) :
    Decoder.list d ctx (Node.ofValue (.arr (xs.map enc))) = .ok xs := by
  suffices hgo : Decoder.list.go d ctx (ofItems (xs.map enc)) = .ok xs by
    simpa [Decoder.list, Node.ofValue] using hgo
  induction xs with
  | nil => rfl
  | cons a xs ih =>
    rw [List.map_cons, ofItems, Decoder.list.go, h a List.mem_cons_self,
      ih fun b hb => h b (List.mem_cons_of_mem _ hb)]
    rfl

/-- A table whose keys ascend is read back entry by entry, in its order. -/
theorem dict_ofValue {d : Decoder α} {enc : α → Value} {t : List (String × α)}
    (hasc : Ascending t) (h : ∀ p ∈ t, d ctx (Node.ofValue (enc p.2)) = .ok p.2) :
    Decoder.dict d ctx (Node.ofValue (.obj (t.map fun p => (p.1, enc p.2)))) = .ok t := by
  -- the entries read so far are a prefix of the table, and each next key lies above them
  suffices hgo : ∀ (rest acc : List (String × α)), (∀ p ∈ rest, d ctx (Node.ofValue (enc p.2)) = .ok p.2) →
      Ascending (acc ++ rest) →
      Decoder.dict.go d ctx (ofFields (rest.map fun p => (p.1, enc p.2))) acc = .ok (acc ++ rest) by
    simpa [Decoder.dict, Node.ofValue] using hgo t [] h hasc
  intro rest
  induction rest with
  | nil => intro acc _ _; rw [List.append_nil]; rfl
  | cons p rest ih =>
    intro acc hrest hasc
    have hp := hrest p List.mem_cons_self
    simp only [List.map_cons, ofFields, Decoder.dict.go, Node.keyText, Except.mapError, bind,
      Except.bind, hp]
    rw [dict_insert_of_lt (ascending_append_singleton hasc),
      ih _ (fun q hq => hrest q (List.mem_cons_of_mem _ hq)) (by simpa using hasc)]
    simp

theorem CanonicalFields.mem : ∀ {fs : Fields}, CanonicalFields fs → ∀ p ∈ fs, p.2.Canonical
  | [], _, _, hp => absurd hp List.not_mem_nil
  | (k, v) :: fs, h, p, hp => by
    rcases List.mem_cons.mp hp with rfl | hp
    · exact h.1
    · exact CanonicalFields.mem h.2 p hp

/-- An object of any values, read as a table, is its own fields when canonical. -/
theorem dict_json_ofValue {fs : Fields} (h : (Value.obj fs).Canonical) :
    Decoder.dict Decoder.json ctx (Node.ofValue (.obj fs)) = .ok fs := by
  have hd : Decoder.dict Decoder.json ctx (Node.ofValue (.obj (fs.map fun p => (p.1, id p.2)))) =
      .ok fs := dict_ofValue ctx h.1 fun p hp => json_ofValue ctx (CanonicalFields.mem h.2 p hp)
  simpa using hd

/-- A name of a fixed list of constants is read as its constant. -/
theorem variant_ofValue {cases : List (String × α)} {s : String} {a : α}
    (h : cases.lookup s = some a) : Decoder.variant cases ctx (Node.ofValue (.str s)) = .ok a := by
  simp [Decoder.variant, Node.ofValue, Except.mapError, bind, Except.bind, h]

/-- The first alternative that reads a value decides it. -/
theorem firstOf_ofValue {enum : String} {alternatives : List (Decoder α)} {v : Value} {a : α}
    (h : alternatives.findSome? (fun d => (d Ctx.buffered (Node.ofValue v)).toOption) = some a) :
    Decoder.firstOf enum alternatives ctx (Node.ofValue v) = .ok a := by
  simp only [Decoder.firstOf, capture_ofValue, bind, Except.bind, h]
  rfl

/-- A choice between a string and another form reads anything but a string by the other form:
the string alternative fails on it, whatever the other form then reads. -/
theorem firstOf_string_ofValue {enum : String} {f : String → α} {d : Decoder α} {v : Value} {a : α}
    (hv : ∀ s, v ≠ .str s) (h : d Ctx.buffered (Node.ofValue v) = .ok a) :
    Decoder.firstOf enum [fun ctx n => (Decoder.string ctx n).map f, d] ctx (Node.ofValue v) =
      .ok a := by
  have hs : ((Decoder.string Ctx.buffered (Node.ofValue v)).map f).toOption = none := by
    cases v with
    | str s => exact absurd rfl (hv s)
    | _ => rfl
  apply firstOf_ofValue
  simp only [List.findSome?_cons, List.findSome?_nil, hs, h]
  rfl

/-! ## Records -/

theorem Field.of_decode {name : String} {d : Decoder α} {set : α → σ → σ} {n : Node} {a : α}
    (h : d ctx n = .ok a) : (Field.of name d set).decode ctx n = .ok (set a) := by
  simp only [Field.of, h]
  rfl

theorem Field.need_decode {name : String} {d : Decoder α} {set : α → σ → σ} {n : Node} {a : α}
    (h : d ctx n = .ok a) : (Field.need name d set).decode ctx n = .ok (set a) := by
  simp only [Field.need, h]
  rfl

namespace Shape

variable (shape : Shape σ)

/-- An entry names a field of the shape, whose decoder reads its value as the update `u`. -/
abbrev Reads (p : String × Value) (u : σ → σ) : Prop :=
  ∃ f, shape.field? p.1 = some f ∧ f.decode ctx (Node.ofValue p.2) = .ok u

/-- Entries that each name a field, none twice nor one seen before, update the record in
order. -/
theorem entries_known {fs : Fields} {us : List (σ → σ)} (h : List.Forall₂ (shape.Reads ctx) fs us)
    (rest : List (Node × Node)) :
    ∀ (acc : σ) (seen : List String) (kept : Fields), (fs.map Prod.fst ++ seen).Nodup →
      shape.entries ctx (ofFields fs ++ rest) acc seen kept =
        shape.entries ctx rest (us.foldl (fun a u => u a) acc) ((fs.map Prod.fst).reverse ++ seen)
          kept := by
  induction h with
  | nil => intro acc seen kept _; rfl
  | @cons p u fs us hp _ ih =>
    intro acc seen kept hnodup
    obtain ⟨f, hf, hd⟩ := hp
    rw [List.map_cons, List.cons_append] at hnodup
    have hnew : seen.contains p.1 = false := by
      have hout : p.1 ∉ seen := fun hs =>
        (List.nodup_cons.mp hnodup).1 (List.mem_append_right _ hs)
      simpa using hout
    simp only [ofFields, List.cons_append, entries, Node.keyText, Except.mapError, bind,
      Except.bind, hf, hnew, Bool.false_eq_true, if_false, hd]
    rw [ih _ _ _ (List.perm_middle.nodup_iff.mpr hnodup)]
    simp

/-- With a remainder, entries that name no field are kept aside in order. -/
theorem entries_kept (hrest : shape.rest.isSome) :
    ∀ (gs : Fields) {acc : σ} {seen : List String} {kept : Fields},
      (∀ p ∈ gs, shape.field? p.1 = none) →
      shape.entries ctx (ofFields gs) acc seen kept = .ok (acc, seen, kept ++ gs)
  | [], _, _, _, _ => by simp [ofFields, entries]
  | (k, v) :: gs, acc, seen, kept, h => by
    have hk : shape.field? k = none := h (k, v) List.mem_cons_self
    simp only [ofFields, entries, Node.keyText, Except.mapError, bind, Except.bind, hk, hrest,
      if_true, capture_ofValue]
    rw [entries_kept hrest gs fun p hp => h p (List.mem_cons_of_mem _ hp)]
    simp

/-- An object naming fields of a shape without remainder, each once and every required one,
is read as the record their updates build from the defaults. -/
theorem record_ofValue {fs : Fields} {us : List (σ → σ)} (h : List.Forall₂ (shape.Reads ctx) fs us)
    (hnodup : (fs.map Prod.fst).Nodup) (hreq : shape.firstMissing (fs.map Prod.fst).reverse = none)
    (hrest : shape.rest = none) {r : σ} (hres : us.foldl (fun a u => u a) shape.init = r) :
    Decoder.record shape ctx (Node.ofValue (.obj fs)) = .ok r := by
  have hentries := shape.entries_known ctx h [] shape.init [] [] (by simpa using hnodup)
  rw [List.append_nil] at hentries
  simp only [Decoder.record, Node.ofValue, Bool.false_eq_true, if_false, ofEntries, hentries,
    entries, List.append_nil, bind, Except.bind, hreq, hrest, hres]
  rfl

/-- An object naming fields of a shape, each once and every required one, followed by entries
no field names, is read as the record their updates build, finished by the remainder. -/
theorem record_ofValue_rest {fs gs : Fields} {us : List (σ → σ)}
    (h : List.Forall₂ (shape.Reads ctx) fs us) (hnodup : (fs.map Prod.fst).Nodup)
    (hreq : shape.firstMissing (fs.map Prod.fst).reverse = none)
    {r : Ctx → Fields → Except Problem (σ → σ)} (hrest : shape.rest = some r)
    (hgs : ∀ p ∈ gs, shape.field? p.1 = none) {set : σ → σ} (hr : r Ctx.buffered gs = .ok set)
    {x : σ} (hres : set (us.foldl (fun a u => u a) shape.init) = x) :
    Decoder.record shape ctx (Node.ofValue (.obj (fs ++ gs))) = .ok x := by
  have hentries := shape.entries_known ctx h (ofFields gs) shape.init [] [] (by simpa using hnodup)
  rw [shape.entries_kept ctx (by simp [hrest]) gs hgs, List.nil_append] at hentries
  simp only [Decoder.record, Node.ofValue, Bool.false_eq_true, if_false, ofEntries,
    ofFields_append, hentries, List.append_nil, bind, Except.bind, hreq, hrest, hr, hres]
  rfl

end Shape

end OrgDeploy.Json
