import Mathlib
import OrgDeploy.Proofs.Json.ReadBack
import OrgDeploy.State.Basic

/-!
# The persisted formats read back

A state is stored as the JSON value `State.toJson` writes and loaded by `State.decoder`; a
template is read by `Template.decoder`, and `Template.toJson` writes one. Each format reads back
what it writes (`persisted_formats_round_trip`), for the values the stores hold:

* tables and objects keyed by an ordered map, so with ascending keys (`Ascending`,
  `Value.Canonical`): the tag selectors of a binding, the parameters, template bodies and plugin
  configurations of a unit, the outputs of a record and every table of a state;
* timestamps whose RFC 3339 text reads back as the same instant (`Timestamp.ReadsBack`), which
  the calendar library gives for every instant of the years 0 to 9999.

The formats leave parts out when they hold their default: a binding's accounts, excluded
accounts and regions, a stack's parameters, a record's outputs, and the master account, stored
definitions, last template and commit time of a state. Each proof splits on those parts, names
how each entry that is written is read (`Shape.Reads`), and lets `Shape.record_ofValue` assemble
the record. Writing a value as text and reading the text back is the JSON library's part and is
not in question here.
-/

namespace OrgDeploy

open OrgDeploy.Json

/-! ## Timestamps -/

/-- A timestamp that its RFC 3339 text reads back as. -/
def Timestamp.ReadsBack (t : Timestamp) : Prop := Timestamp.parse t.text = .ok t

theorem Timestamp.decoder_ofValue {t : Timestamp} (h : t.ReadsBack) (ctx : Ctx) :
    Timestamp.decoder ctx (Node.ofValue (.str t.text)) = .ok t := by
  unfold Timestamp.ReadsBack at h
  simp only [Timestamp.decoder, Node.ofValue, Decoder.stringWith, Decoder.string, Except.mapError,
    bind, Except.bind, h]
  rfl

/-! ## Bindings -/

/-- A selector as the configuration holds it: tags keyed by an ordered map. -/
def Selector.Canonical : Selector → Prop
  | .logicalId _ => True
  | .tags pairs => Ascending pairs

/-- Accounts whose selectors are canonical. -/
def Accounts.Canonical : Accounts → Prop
  | .all => True
  | .list selectors => ∀ s ∈ selectors, s.Canonical

/-- A binding whose accounts are canonical. -/
def Binding.Canonical (b : Binding) : Prop := ∀ a ∈ b.accounts, a.Canonical

theorem Selector.decoder_ofValue {s : Selector} (h : s.Canonical) (ctx : Ctx) :
    Selector.decoder ctx (Node.ofValue s.toJson) = .ok s := by
  cases s with
  | logicalId id => exact firstOf_ofValue ctx rfl
  | tags pairs =>
    have hd : Decoder.dict Decoder.string Ctx.buffered
        (Node.ofValue (.obj (pairs.map fun p => (p.1, .str p.2)))) = .ok pairs :=
      dict_ofValue Ctx.buffered h fun _ _ => rfl
    exact firstOf_string_ofValue ctx (by simp [Selector.toJson]) (congrArg (Except.map _) hd)

theorem Accounts.decoder_ofValue {a : Accounts} (h : a.Canonical) (ctx : Ctx) :
    Accounts.decoder ctx (Node.ofValue a.toJson) = .ok a := by
  cases a with
  | all => exact firstOf_ofValue ctx rfl
  | list selectors =>
    -- a list is read as a list, even a list of the one id `*`
    have hd : Decoder.list Selector.decoder Ctx.buffered
        (Node.ofValue (.arr (selectors.map Selector.toJson))) = .ok selectors :=
      list_ofValue Ctx.buffered fun s hs => Selector.decoder_ofValue (h s hs) Ctx.buffered
    exact firstOf_string_ofValue ctx (by simp [Accounts.toJson]) (congrArg (Except.map _) hd)

theorem regionsDecoder_ofValue (regions : List String) (ctx : Ctx) :
    regionsDecoder ctx (Node.ofValue (Value.strs regions)) = .ok regions :=
  firstOf_string_ofValue ctx (by simp [Value.strs]) (list_ofValue Ctx.buffered fun _ _ => rfl)

theorem Binding.decoder_ofValue {b : Binding} (h : b.Canonical) (ctx : Ctx) :
    Binding.decoder ctx (Node.ofValue b.toJson) = .ok b := by
  have haccounts : ∀ a ∈ b.accounts, Binding.shape.Reads ctx ("accounts", a.toJson)
      (fun x => { x with accounts := some a }) := fun a ha =>
    ⟨_, rfl, Field.of_decode ctx (option_ofValue ctx (by cases a <;> simp [Accounts.toJson])
      (Accounts.decoder_ofValue (h a ha) ctx))⟩
  have hexcluded : Binding.shape.Reads ctx ("exclude_accounts", Value.strs b.excludeAccounts)
      (fun x => { x with excludeAccounts := b.excludeAccounts }) :=
    ⟨_, rfl, Field.of_decode ctx (list_ofValue ctx fun _ _ => string_ofValue ctx _)⟩
  have hregions : ∀ rs ∈ b.regions, Binding.shape.Reads ctx ("regions", Value.strs rs)
      (fun x => { x with regions := some rs }) := fun rs _ =>
    ⟨_, rfl, Field.of_decode ctx
      (option_ofValue ctx (by simp [Value.strs]) (regionsDecoder_ofValue rs ctx))⟩
  -- which entries are written depends on which parts are set
  obtain ⟨_ | a, _ | ⟨x, xs⟩, _ | regions, master⟩ := b <;>
    simp only [Binding.toJson, List.isEmpty_nil, List.isEmpty_cons, Bool.false_eq_true, if_true,
      if_false, List.cons_append, List.nil_append] at haccounts hexcluded hregions ⊢
  all_goals
    apply Shape.record_ofValue ctx _ ?_ (by simp) rfl rfl ?_
    rotate_left
    · repeat' (first | exact List.Forall₂.nil | apply List.Forall₂.cons)
      all_goals first
        | exact haccounts _ rfl
        | exact hexcluded
        | exact hregions _ rfl
        | exact ⟨_, rfl, rfl⟩
    · rfl

/-! ## Units and templates -/

/-- A kind as the configuration holds it: its template body, parameters or plugin
configuration keyed by ordered maps. -/
def UnitKind.Canonical : UnitKind → Prop
  | .stack template parameters => template.Canonical ∧ (Value.obj parameters).Canonical
  | .plugin _ config => config.Canonical

/-- A unit whose binding and kind are canonical. -/
def UnitDef.Canonical (u : UnitDef) : Prop := u.binding.Canonical ∧ u.kind.Canonical

/-- A template whose units are canonical. -/
def Template.Canonical (t : Template) : Prop := ∀ u ∈ t.units, u.Canonical

/-- The entries a kind writes beside a unit's name and binding read back as that kind: the tag
first, then the kind's own fields. -/
theorem UnitKind.ofFields_fields {k : UnitKind} (h : k.Canonical) :
    UnitKind.ofFields k.fields = .ok k := by
  cases k with
  | stack template parameters =>
    obtain ⟨ht, hps⟩ := h
    -- the parameters are written only when there are some
    cases parameters with
    | nil =>
      have hs : UnitKind.splitTag [("type", .str "stack"), ("template", template)] none [] =
          .ok (some .stack, [("template", template)]) := rfl
      have hr : Decoder.record stackShape Ctx.buffered
          (Node.ofValue (.obj [("template", template)])) = .ok (template, []) :=
        Shape.record_ofValue Ctx.buffered _
          (.cons ⟨_, rfl, Field.need_decode Ctx.buffered (json_ofValue Ctx.buffered ht)⟩ .nil)
          (by simp) rfl rfl rfl
      simp only [UnitKind.ofFields, UnitKind.fields, List.isEmpty_nil, if_true, List.append_nil, hs,
        bind, Except.bind, hr]
      rfl
    | cons p ps =>
      have hs : UnitKind.splitTag [("type", .str "stack"), ("template", template),
          ("parameters", .obj (p :: ps))] none [] =
          .ok (some .stack, [("template", template), ("parameters", .obj (p :: ps))]) := rfl
      have hr : Decoder.record stackShape Ctx.buffered
          (Node.ofValue (.obj [("template", template), ("parameters", .obj (p :: ps))])) =
          .ok (template, p :: ps) :=
        Shape.record_ofValue Ctx.buffered _
          (.cons ⟨_, rfl, Field.need_decode Ctx.buffered (json_ofValue Ctx.buffered ht)⟩
            (.cons ⟨_, rfl, Field.of_decode Ctx.buffered (dict_json_ofValue Ctx.buffered hps)⟩ .nil))
          (by simp) rfl rfl rfl
      simp only [UnitKind.ofFields, UnitKind.fields, List.isEmpty_cons, Bool.false_eq_true,
        if_false, List.cons_append, List.nil_append, hs, bind, Except.bind, hr]
      rfl
  | plugin name config =>
    have hs : UnitKind.splitTag [("type", .str "plugin"), ("plugin", .str name), ("config", config)]
        none [] = .ok (some .plugin, [("plugin", .str name), ("config", config)]) := rfl
    have hr : Decoder.record pluginShape Ctx.buffered
        (Node.ofValue (.obj [("plugin", .str name), ("config", config)])) = .ok (name, config) :=
      Shape.record_ofValue Ctx.buffered _
        (.cons ⟨_, rfl, rfl⟩
          (.cons ⟨_, rfl, Field.of_decode Ctx.buffered
            (@json_ofValue Ctx.buffered config h)⟩ .nil))
        (by simp) rfl rfl rfl
    simp only [UnitKind.ofFields, UnitKind.fields, hs, bind, Except.bind, hr]
    rfl

/-- A unit reads back: its name and binding by their fields, its kind from the entries beside
them. -/
theorem UnitDef.decoder_ofValue {u : UnitDef} (h : u.Canonical) (ctx : Ctx) :
    UnitDef.decoder ctx (Node.ofValue u.toJson) = .ok u := by
  -- no field of a unit is named by the entries of its kind
  have hkept : ∀ p ∈ u.kind.fields, UnitDef.shape.field? p.1 = none := by
    intro p hp
    cases hk : u.kind with
    | stack t ps =>
      rw [hk] at hp
      by_cases hps : ps.isEmpty <;> simp [UnitKind.fields, hps] at hp <;>
        rcases hp with rfl | rfl | rfl <;> rfl
    | plugin n c =>
      rw [hk] at hp
      simp [UnitKind.fields] at hp
      rcases hp with rfl | rfl | rfl <;> rfl
  exact Shape.record_ofValue_rest ctx _
    (.cons ⟨_, rfl, rfl⟩ (.cons ⟨_, rfl, Field.need_decode ctx (Binding.decoder_ofValue h.1 ctx)⟩ .nil))
    (by simp) rfl rfl hkept (congrArg (Except.map _) (UnitKind.ofFields_fields h.2)) rfl

/-- A template reads back unit by unit. -/
theorem Template.decoder_ofValue {t : Template} (h : t.Canonical) (ctx : Ctx) :
    Template.decoder ctx (Node.ofValue t.toJson) = .ok t :=
  Shape.record_ofValue ctx _
    (.cons ⟨_, rfl, Field.of_decode ctx
      (list_ofValue ctx fun u hu => UnitDef.decoder_ofValue (h u hu) ctx)⟩ .nil)
    (by simp) rfl rfl rfl

/-! ## States -/

/-- A record as the store holds it: outputs keyed by an ordered map, a time that reads back. -/
def Record.Canonical (r : Record) : Prop := Ascending r.outputs ∧ r.deployedAt.ReadsBack

/-- A state as the store holds it: every table keyed by an ordered map, its records and
definitions canonical, its commit time one that reads back. -/
structure State.Canonical (s : State) : Prop where
  bindings : Ascending s.bindings
  deployments : Ascending s.deployments
  records : ∀ p ∈ s.deployments, Ascending p.2 ∧ ∀ q ∈ p.2, q.2.Canonical
  definitions : Ascending s.definitions
  units : ∀ p ∈ s.definitions, p.2.Canonical
  committed : ∀ t ∈ s.committedAt, t.ReadsBack

theorem IdentityBinding.decoder_ofValue (b : IdentityBinding) (ctx : Ctx) :
    IdentityBinding.decoder ctx (Node.ofValue b.toJson) = .ok b := by
  have hkind : EntityKind.decoder ctx (Node.ofValue (.str b.kind.name)) = .ok b.kind :=
    variant_ofValue ctx (by cases b.kind <;> rfl)
  exact Shape.record_ofValue ctx _
    (.cons ⟨_, rfl, Field.need_decode ctx hkind⟩ (.cons ⟨_, rfl, rfl⟩ .nil)) (by simp) rfl rfl rfl

theorem Record.decoder_ofValue {r : Record} (h : r.Canonical) (ctx : Ctx) :
    Record.decoder ctx (Node.ofValue r.toJson) = .ok r := by
  have hstamp : Record.shape.Reads ctx ("deployed_at", .str r.deployedAt.text)
      (fun x => { x with deployedAt := r.deployedAt }) :=
    ⟨_, rfl, Field.need_decode ctx (Timestamp.decoder_ofValue h.2 ctx)⟩
  have houts : Record.shape.Reads ctx ("outputs", strTableJson r.outputs)
      (fun x => { x with outputs := r.outputs }) :=
    ⟨_, rfl, Field.of_decode ctx (dict_ofValue ctx h.1 fun _ _ => rfl)⟩
  -- the outputs are written only when there are some
  obtain ⟨hash, account, region, logical, _ | ⟨o, os⟩, stamp⟩ := r <;>
    simp only [Record.toJson, List.isEmpty_nil, List.isEmpty_cons, Bool.false_eq_true, if_true,
      if_false, List.cons_append, List.nil_append, List.append_nil] at houts hstamp ⊢
  · exact Shape.record_ofValue ctx _
      (.cons ⟨_, rfl, rfl⟩ (.cons ⟨_, rfl, rfl⟩ (.cons ⟨_, rfl, rfl⟩ (.cons ⟨_, rfl, rfl⟩
        (.cons hstamp .nil))))) (by simp) rfl rfl rfl
  · exact Shape.record_ofValue ctx _
      (.cons ⟨_, rfl, rfl⟩ (.cons ⟨_, rfl, rfl⟩ (.cons ⟨_, rfl, rfl⟩ (.cons ⟨_, rfl, rfl⟩
        (.cons houts (.cons hstamp .nil)))))) (by simp) rfl rfl rfl

theorem State.decoder_ofValue {s : State} (h : s.Canonical) (ctx : Ctx) :
    State.decoder ctx (Node.ofValue s.toJson) = .ok s := by
  -- the tables are read entry by entry, each record and unit by its own decoder
  have hbindings : State.shape.Reads ctx
      ("bindings", .obj (s.bindings.map fun p => (p.1, p.2.toJson)))
      (fun x => { x with bindings := s.bindings }) :=
    ⟨_, rfl, Field.of_decode ctx (dict_ofValue ctx h.bindings fun p _ =>
      IdentityBinding.decoder_ofValue p.2 ctx)⟩
  have hdeployments : State.shape.Reads ctx ("deployments", .obj (s.deployments.map fun p =>
        (p.1, .obj (p.2.map fun q => (q.1, q.2.toJson)))))
      (fun x => { x with deployments := s.deployments }) :=
    ⟨_, rfl, Field.of_decode ctx (@dict_ofValue _ ctx (Decoder.dict Record.decoder)
      (fun t => .obj (t.map fun q => (q.1, q.2.toJson))) _ h.deployments fun p hp =>
        dict_ofValue ctx (h.records p hp).1 fun q hq =>
          Record.decoder_ofValue ((h.records p hp).2 q hq) ctx)⟩
  have hdefinitions : State.shape.Reads ctx
      ("definitions", .obj (s.definitions.map fun p => (p.1, p.2.toJson)))
      (fun x => { x with definitions := s.definitions }) :=
    ⟨_, rfl, Field.of_decode ctx (dict_ofValue ctx h.definitions fun p hp =>
      UnitDef.decoder_ofValue (h.units p hp) ctx)⟩
  have hcommitted : ∀ t ∈ s.committedAt, State.shape.Reads ctx ("committed_at", .str t.text)
      (fun x => { x with committedAt := some t }) := fun t ht =>
    ⟨_, rfl, Field.of_decode ctx
      (option_ofValue ctx (by simp) (Timestamp.decoder_ofValue (h.committed t ht) ctx))⟩
  -- which entries are written depends on which parts are set
  obtain ⟨_ | master, bindings, deployments, _ | ⟨d, ds⟩, _ | previous, _ | committed⟩ := s <;>
    simp only [State.toJson, List.isEmpty_nil, List.isEmpty_cons, Bool.false_eq_true, if_true,
      if_false, List.cons_append, List.nil_append, List.append_nil]
      at hbindings hdeployments hdefinitions hcommitted ⊢
  all_goals
    apply Shape.record_ofValue ctx _ ?_ (by simp) rfl rfl ?_
    rotate_left
    · repeat' (first | exact List.Forall₂.nil | apply List.Forall₂.cons)
      all_goals first
        | exact hbindings
        | exact hdeployments
        | exact hdefinitions
        | exact hcommitted _ rfl
        | exact ⟨_, rfl, rfl⟩
    · rfl

/-- The persisted formats read back what they write: a state the store holds, loaded from the
value it is saved as, is that state, its unit definitions included; a template, read from the
value it is written as, is that template. -/
theorem persisted_formats_round_trip :
    (∀ s : State, s.Canonical → decodeValue s.toJson State.decoder = .ok s) ∧
      ∀ t : Template, t.Canonical → decodeValue t.toJson Template.decoder = .ok t := by
  refine ⟨fun s hs => ?_, fun t ht => ?_⟩
  · simp only [decodeValue, Value.decode, State.decoder_ofValue hs]
    rfl
  · simp only [decodeValue, Value.decode, Template.decoder_ofValue ht]
    rfl

/-- A state with a binding, a deployed stack unit (tag selector, parameters, outputs) and a
commit time, and the template of that unit, read back. -/
theorem deployed_state_round_trip :
    let b : Binding :=
      { accounts := some (.list [.logicalId "Dev", .tags [("team", "core")]]),
        regions := some ["eu-west-1"] }
    let u : UnitDef := ⟨"net", b, .stack (.obj [("Resources", .obj [])]) [("Cidr", .str "10.0.0.0/16")]⟩
    let r : Record :=
      { lastCommittedHash := "sha256:0", accountId := "111111111111", region := "eu-west-1",
        accountLogicalId := "Dev", outputs := [("VpcId", "vpc-1")], deployedAt := Timestamp.epoch }
    let s : State :=
      { masterAccountId := some "100000000000", bindings := [("Dev", ⟨.account, "111111111111"⟩)],
        deployments := [("net", [("111111111111/eu-west-1", r)])], definitions := [("net", u)],
        committedAt := some Timestamp.epoch }
    let t : Template := ⟨[u]⟩
    s.Canonical ∧ decodeValue s.toJson State.decoder = .ok s ∧
      t.Canonical ∧ decodeValue t.toJson Template.decoder = .ok t := by
  intro b u r s t
  have hstamp : Timestamp.epoch.ReadsBack := rfl
  have hu : u.Canonical := by
    refine ⟨fun a ha => ?_, ?_⟩
    · cases ha
      simp [Accounts.Canonical, Selector.Canonical, Ascending]
    · show (Value.obj [("Resources", .obj [])]).Canonical ∧
        (Value.obj [("Cidr", .str "10.0.0.0/16")]).Canonical
      simp [Value.Canonical, CanonicalFields, Ascending]
  have hs : s.Canonical :=
    { bindings := by decide
      deployments := by decide
      records := fun p hp => by
        rw [List.mem_singleton.mp hp]
        exact ⟨by decide, fun q hq => by rw [List.mem_singleton.mp hq]; exact ⟨by decide, hstamp⟩⟩
      definitions := by decide
      units := fun p hp => by rw [List.mem_singleton.mp hp]; exact hu
      committed := fun _ ht => Option.some.inj ht ▸ hstamp }
  have ht : t.Canonical := fun v hv => by rw [List.mem_singleton.mp hv]; exact hu
  exact ⟨hs, persisted_formats_round_trip.1 s hs, ht, persisted_formats_round_trip.2 t ht⟩

end OrgDeploy
