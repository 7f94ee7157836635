import Mathlib
import OrgDeploy.Proofs.Engine.Commit
import OrgDeploy.Proofs.State.Commute
import OrgDeploy.Proofs.Json.Layout

/-!
# What the engine commits keeps a definition for every deployed unit

The engine deletes a unit's deployments with the definition the state keeps for it, so it
matters that the state never loses one. A state is `Coherent` when a unit has a stored
definition exactly when it has a record table, no record table is empty, and the template text
it remembers reads as a template.

`Services.Reachable` is every state the engine can leave committed, starting from none: the
empty state that `init` commits, and whatever a deploy or a deletion commits from a state it
loaded (`Services.Commits`). A deploy commits the loaded state bound to an organization, with
the successes of any tasks of its plan recorded in any order, whatever their outcomes, and the
template text when the run went cleanly; a deletion does the same with its deletion tasks.
`deploy_saves_commits` and `deleteUnit_saves_commits` show that what the engine's own runs save
is of that form.

* `Coherent.recordSuccess`: recording a success keeps a state coherent, when a create-or-update
  names a unit of the template (`DeployTask.Named`), as every task of a plan does
  (`Services.planTemplate_named`).
* `reachable_definitions_follow_records`: every reachable state is coherent. Planning a template
  against it, bound to any organization, reports no unknown definition; deleting a unit from it
  never fails for want of a definition; and its remembered template reads as one.
-/

namespace OrgDeploy

variable {σ δ : Type}

/-! ## Coherent states -/

namespace Table

variable {β : Type}

theorem get?_isSome_of_mem_keys {t : Table β} {k : String} (h : k ∈ t.keys) :
    (t.get? k).isSome := by
  induction t with
  | nil => simp [keys] at h
  | cons p t ih =>
    obtain ⟨k', v'⟩ := p
    by_cases hk : k = k'
    · simp [hk]
    · simp only [keys, List.map_cons, List.mem_cons, hk, false_or] at h
      simpa [hk] using ih h

/-- `nonempty?` never keeps an empty table. -/
theorem nonempty?_ne_some_nil (t : Table β) : nonempty? t ≠ some [] := by
  unfold nonempty?
  split
  · simp
  · rename_i h
    simp_all

end Table

namespace State

/-- What a state keeps of its deployments: the record tables, the definitions and the template
text. -/
def ledger (s : State) : Table (Table Record) × Table UnitDef × Option String :=
  (s.deployments, s.definitions, s.previousTemplate)

@[simp] theorem ledger_setBinding (s : State) (id : String) (k : EntityKind) (pid : String) :
    (s.setBinding id k pid).2.ledger = s.ledger := by
  unfold setBinding
  split <;> rfl

theorem ledger_foldl {α : Type} (F : State → α → State) (hF : ∀ s a, (F s a).ledger = s.ledger) :
    ∀ (xs : List α) (s : State), (xs.foldl F s).ledger = s.ledger
  | [], s => rfl
  | a :: xs, s => by rw [List.foldl_cons, ledger_foldl F hF xs, hF]

/-- One step of `bindOrganization` binds an entity and keeps the ledger. -/
theorem ledger_bindEntity (s : State) (e : Entity) :
    (match e.physicalId with
      | some pid => (s.setBinding e.logicalId e.kind pid).2
      | none => s).ledger = s.ledger := by
  split
  · exact ledger_setBinding _ _ _ _
  · rfl

/-- Exchanging identities with an organization touches the bindings and the master's id only. -/
@[simp] theorem ledger_bindOrganization (s : State) (o : Organization) :
    (s.bindOrganization o).1.ledger = s.ledger := by
  unfold bindOrganization
  dsimp only
  split <;> exact ledger_foldl _ ledger_bindEntity _ _

/-- The state as the engine keeps it between runs: a unit has a stored definition exactly when
it has a record table, no record table is empty, and the remembered template text reads as a
template. -/
structure Coherent (st : State) : Prop where
  defined : ∀ n, (st.definitions.get? n).isSome = (st.deployments.get? n).isSome
  nonempty : ∀ n, st.deployments.get? n ≠ some []
  previous : ∀ text, st.previousTemplate = some text → ∃ t, Template.parse text = .ok t

namespace Coherent

variable {st st' : State}

/-- Coherence is a property of the ledger. -/
theorem of_ledger (h : st.Coherent) (he : st'.ledger = st.ledger) : st'.Coherent := by
  simp only [ledger, Prod.mk.injEq] at he
  obtain ⟨hd, hf, hp⟩ := he
  exact ⟨fun n => by rw [hd, hf]; exact h.defined n, fun n => by rw [hd]; exact h.nonempty n,
    fun text => by rw [hp]; exact h.previous text⟩

theorem empty (c : Option Timestamp) : ({ committedAt := c } : State).Coherent :=
  ⟨fun _ => rfl, fun _ => by simp, fun _ h => by cases h⟩

/-- A unit of a coherent state has a definition exactly when it has records. -/
theorem definition?_isSome_iff (h : st.Coherent) (n : String) :
    (st.definition? n).isSome ↔ st.records n ≠ [] := by
  unfold definition? records recordTable
  rw [h.defined n]
  cases hT : st.deployments.get? n with
  | none => simp [Table.values]
  | some T =>
    have hne : T ≠ [] := fun hT' => h.nonempty n (hT ▸ hT' ▸ rfl)
    simpa [Table.values] using hne

/-- Every unit a coherent state lists has records. -/
theorem records_ne_nil (h : st.Coherent) {n : String} (hn : n ∈ st.unitNames) :
    st.records n ≠ [] := by
  obtain ⟨T, hT⟩ := Option.isSome_iff_exists.mp (Table.get?_isSome_of_mem_keys hn)
  have hne : T ≠ [] := fun hT' => h.nonempty n (hT ▸ hT' ▸ rfl)
  simpa [records, recordTable, hT, Table.values] using hne

theorem bindOrganization (h : st.Coherent) (o : Organization) :
    (st.bindOrganization o).1.Coherent :=
  h.of_ledger (ledger_bindOrganization st o)

theorem stamp (h : st.Coherent) (c : Option Timestamp) : { st with committedAt := c }.Coherent :=
  h.of_ledger rfl

theorem remember (h : st.Coherent) {text : String} {t : Template}
    (ht : Template.parse text = .ok t) : { st with previousTemplate := some text }.Coherent :=
  ⟨h.defined, h.nonempty, fun text' he => by cases he; exact ⟨t, ht⟩⟩

end Coherent

end State

/-! ## Recording successes -/

namespace State.Coherent

variable {st : State} {units : List UnitDef} {now : Timestamp}

/-- The unit of a task after its success: a create-or-update leaves it records and the
template's definition, a delete leaves both or, with its last record, neither. -/
theorem defined_after {t : DeployTask δ} (h : st.Coherent) (hn : t.Named units) (o : Outcome) :
    (t.definitionAfter units (st.deployments.get? t.id.unit)
        (st.definitions.get? t.id.unit)).isSome =
      (t.recordsAfter o now (st.recordTable t.id.unit)).nonempty?.isSome := by
  unfold DeployTask.definitionAfter DeployTask.recordsAfter
  cases ha : t.action with
  | createOrUpdate =>
    obtain ⟨u, hu⟩ := hn.find?_eq_some ha
    simp [hu, Table.nonempty?_insert]
  | delete =>
    have hd := h.defined t.id.unit
    cases hT : st.deployments.get? t.id.unit with
    | none =>
      rw [hT] at hd
      simp [recordTable, hT, Table.nonempty?, hd]
    | some T =>
      rw [hT] at hd
      by_cases he : (T.erase t.target.key).isEmpty
      · simp [recordTable, hT, Table.nonempty?, he]
      · simp [recordTable, hT, Table.nonempty?, he, hd]

/-- Recording a success keeps a state coherent, when a create-or-update names a unit of the
template. -/
theorem recordSuccess (h : st.Coherent) {t : DeployTask δ} (hn : t.Named units) (o : Outcome) :
    (OrgDeploy.recordSuccess units now t o st).Coherent where
  defined n := by
    rw [get?_definitions_recordSuccess, get?_deployments_recordSuccess]
    split_ifs with hu
    · subst hu
      exact h.defined_after hn o
    · exact h.defined n
  nonempty n := by
    rw [get?_deployments_recordSuccess]
    split_ifs
    · exact Table.nonempty?_ne_some_nil _
    · exact h.nonempty n
  previous text := by
    have hf : (OrgDeploy.recordSuccess units now t o st).frame = st.frame := frame_recordSuccess
    have hp : (OrgDeploy.recordSuccess units now t o st).previousTemplate = st.previousTemplate :=
      congrArg (·.2.2.1) hf
    rw [hp]
    exact h.previous text

/-- Recording successes in any order keeps a state coherent, when every create-or-update among
them names a unit of the template. -/
theorem recordSuccesses (h : st.Coherent) {successes : List (DeployTask δ × Outcome)}
    (hn : ∀ x ∈ successes, x.1.Named units) :
    (OrgDeploy.recordSuccesses units now successes st).Coherent := by
  induction successes generalizing st with
  | nil => exact h
  | cons x rest ih =>
    exact ih (h.recordSuccess (hn x List.mem_cons_self) x.2)
      fun y hy => hn y (List.mem_cons_of_mem _ hy)

end State.Coherent

/-! ## What planning produces -/

theorem errorOf_eq_some {α ε : Type} {x : Except ε α} {e : ε} : errorOf x = some e ↔ x = .error e := by
  cases x <;> simp [errorOf]

/-- A delete task of a unit's plan deletes. -/
theorem action_of_mem_deleteTasks {state : State} {input : UnitInput δ} {t : DeployTask δ}
    (ht : t ∈ deleteTasks state input) : t.action = .delete := by
  obtain ⟨record, -, hsome⟩ := List.mem_filterMap.mp ht
  split at hsome
  · cases hsome
  · cases hsome
    rfl

/-- Every task of a unit's plan is of that unit, and a unit planned without renders only gets
deletions. -/
theorem planUnit_tasks {state : State} {hash : δ → Artifact → Except TaskError String}
    {input : UnitInput δ} {p : UnitPlan δ} (h : planUnit state hash input = .ok p) :
    ∀ t ∈ p.tasks, t.id.unit = input.name ∧ (input.renders = [] → t.action = .delete) := by
  intro t ht
  rcases mem_planUnit_tasks h ht with ⟨r, hr, eo, hro⟩ | ht
  · exact ⟨by rw [(renderTask_some hro).1]; rfl, fun hnil => by simp [hnil] at hr⟩
  · obtain ⟨record, -, -, hid, -⟩ := mem_deleteTasks ht
    exact ⟨by rw [hid]; rfl, fun _ => action_of_mem_deleteTasks ht⟩

/-- A render stops its unit with a failed hash or render, never for want of a definition. -/
theorem renderTask_error_ne {state : State} {hash : δ → Artifact → Except TaskError String}
    {name : String} {d : δ} {r : TargetRender} {e : PlanError}
    (h : renderTask state hash name d r = .error e) (n : String) : e ≠ .unknownDefinition n := by
  unfold renderTask at h
  split at h
  · rename_i artifact _
    simp only [bind, Except.bind] at h
    split at h
    · rename_i e' he
      cases h
      cases hh : hash d artifact with
      | error e₀ =>
        rw [hh] at he
        cases he
        simp
      | ok v =>
        rw [hh] at he
        cases he
    · split at h <;> cases h
  · cases h
  · cases h
    simp

theorem planUnit_error_ne {state : State} {hash : δ → Artifact → Except TaskError String}
    {input : UnitInput δ} {e : PlanError} (h : planUnit state hash input = .error e) (n : String) :
    e ≠ .unknownDefinition n := by
  rw [planUnit_eq] at h
  cases hm : input.renders.mapM (renderTask state hash input.name input.deployable) with
  | error e' =>
    rw [hm] at h
    cases h
    obtain ⟨r, -, hr⟩ := mapM_error hm
    exact renderTask_error_ne hr n
  | ok outs =>
    rw [hm] at h
    cases h

/-- Assembly only adds errors about deferrals, cycles and the graph. -/
theorem assembleWithin_errors :
    ∀ (fuel : Nat) (plans : List (UnitPlan δ)) (errors : List PlanError),
      ∀ e ∈ (assembleWithin fuel plans errors).errors, e ∈ errors ∨ ∀ n, e ≠ .unknownDefinition n
  | 0, _, _, e, he => .inl he
  | fuel + 1, plans, errors, e, he => by
    rw [assembleWithin] at he
    split at he
    · split at he
      · exact .inl he
      · rcases assembleWithin_errors fuel _ _ e he with he | hne
        · rcases List.mem_append.mp he with he | he
          · exact .inl he
          · rw [List.mem_singleton.mp he]
            exact .inr fun n => by simp
        · exact .inr hne
      · rcases List.mem_append.mp he with he | he
        · exact .inl he
        · rw [List.mem_singleton.mp he]
          exact .inr fun n => by simp
    · rcases assembleWithin_errors fuel _ _ e he with he | hne
      · rcases List.mem_append.mp he with he | he
        · exact .inl he
        · obtain ⟨y, hy, rfl⟩ := List.mem_map.mp he
          obtain ⟨q, -, -, -, task, i, hq⟩ := mem_unresolvable hy
          exact .inr fun n => by rw [hq]; simp
      · exact .inr hne

theorem assemble_errors {plans : List (UnitPlan δ)} :
    ∀ e ∈ (assemble plans).errors, ∀ n, e ≠ .unknownDefinition n := by
  intro e he n
  rcases assembleWithin_errors _ plans [] e he with he | hne
  · cases he
  · exact hne n

namespace Services

variable (sv : Services σ) {o : Organization} {st : State} {previous : Option Template} {w : σ}

theorem deployedDefinition_isSome {name : String} (h : (st.definition? name).isSome) :
    (deployedDefinition st previous name).isSome := by
  obtain ⟨u, hu⟩ := Option.isSome_iff_exists.mp h
  simp [deployedDefinition, hu]

theorem planTemplateUnit_tasks {u : UnitDef} {p : UnitPlan (Deployable σ)}
    (h : sv.planTemplateUnit o st previous w u = .ok p) : ∀ t ∈ p.tasks, t.id.unit = u.name := by
  unfold planTemplateUnit at h
  obtain ⟨d, -, h⟩ := bind_eq_ok.mp h
  obtain ⟨targets, -, h⟩ := bind_eq_ok.mp h
  exact fun t ht => (planUnit_tasks h t ht).1

theorem planRemovedUnit_tasks {name : String} {p : UnitPlan (Deployable σ)}
    (h : sv.planRemovedUnit o st previous w name = .ok p) :
    ∀ t ∈ p.tasks, t.action = .delete := by
  unfold planRemovedUnit at h
  dsimp only at h
  split at h
  · simp only [pure_bind] at h
    obtain ⟨d, -, h⟩ := bind_eq_ok.mp h
    exact fun t ht => (planUnit_tasks h t ht).2 rfl
  · cases h

theorem deployable_error_ne {u : UnitDef} {e : PlanError} (h : sv.deployable u = .error e)
    (n : String) : e ≠ .unknownDefinition n := by
  unfold deployable at h
  split at h
  · cases h
  · split at h
    · cases h
    · cases h
      simp

/-- Planning a unit of the template never fails for want of a definition. -/
theorem planTemplateUnit_error_ne {u : UnitDef} {e : PlanError}
    (h : sv.planTemplateUnit o st previous w u = .error e) (n : String) :
    e ≠ .unknownDefinition n := by
  unfold planTemplateUnit at h
  rcases bind_eq_error.mp h with h | ⟨d, -, h⟩
  · exact sv.deployable_error_ne h n
  rcases bind_eq_error.mp h with h | ⟨targets, -, h⟩
  · obtain ⟨e₀, -, rfl⟩ := mapError_eq_error.mp h
    simp
  · exact planUnit_error_ne h n

/-- Planning a removed unit whose deployed definition is known never fails for want of one. -/
theorem planRemovedUnit_error_ne {name : String} {e : PlanError}
    (hdef : (deployedDefinition st previous name).isSome)
    (h : sv.planRemovedUnit o st previous w name = .error e) (n : String) :
    e ≠ .unknownDefinition n := by
  unfold planRemovedUnit at h
  dsimp only at h
  split at h
  · simp only [pure_bind] at h
    rcases bind_eq_error.mp h with h | ⟨d, -, h⟩
    · exact sv.deployable_error_ne h n
    · exact planUnit_error_ne h n
  · rename_i hnone
    rw [hnone] at hdef
    cases hdef

variable (template : Template) (o : Organization) (st : State) (w : σ)

/-- Planning a template files the outcome of each of its units, then of each unit with records
that it no longer has, and assembles the plans. -/
theorem planTemplate_filed :
    let removed := st.unitNames.filter fun n => !template.unitNames.contains n
    let plans := template.units.filterMap
        (fun u => (sv.planTemplateUnit o st st.previousTemplateDef? w u).toOption) ++
      removed.filterMap fun n => (sv.planRemovedUnit o st st.previousTemplateDef? w n).toOption
    sv.planTemplate template o st w =
      { assemble plans with
        errors := template.units.filterMap
            (fun u => errorOf (sv.planTemplateUnit o st st.previousTemplateDef? w u)) ++
          removed.filterMap (fun n => errorOf (sv.planRemovedUnit o st st.previousTemplateDef? w n)) ++
          (assemble plans).errors } := by
  intro removed plans
  unfold planTemplate collectPlans
  dsimp only
  rw [foldl_collect (sv.planTemplateUnit o st st.previousTemplateDef? w) _ ?first,
    foldl_collect (sv.planRemovedUnit o st st.previousTemplateDef? w) _ ?removed]
  · simp only [List.nil_append]
    rfl
  case first =>
    intro acc u
    cases sv.planTemplateUnit o st st.previousTemplateDef? w u <;> simp [errorOf, Except.toOption]
  case removed =>
    intro acc n
    cases sv.planRemovedUnit o st st.previousTemplateDef? w n <;> simp [errorOf, Except.toOption]

/-- Every create-or-update task of a template's plan is of a unit of the template: a unit the
template no longer has is only deleted. -/
theorem planTemplate_named : ∀ t ∈ (sv.planTemplate template o st w).graph.tasks,
    t.Named template.units := by
  intro t ht hact
  rw [sv.planTemplate_filed] at ht
  obtain ⟨t', ht', heq⟩ := assemble_tasks t ht
  -- taking the links off keeps a task's id and action
  have hid := congrArg DeployTask.id heq
  have hac := congrArg DeployTask.action heq
  change t'.id = t.id at hid
  change t'.action = t.action at hac
  obtain ⟨p, hp, htp⟩ := List.mem_flatMap.mp ht'
  rcases List.mem_append.mp hp with hp | hp
  · obtain ⟨u, hu, hpu⟩ := List.mem_filterMap.mp hp
    rw [← hid, sv.planTemplateUnit_tasks (toOption_eq_some.mp hpu) t' htp]
    exact List.mem_map_of_mem hu
  · obtain ⟨n, -, hpn⟩ := List.mem_filterMap.mp hp
    have hdel := sv.planRemovedUnit_tasks (toOption_eq_some.mp hpn) t' htp
    rw [hac, hact] at hdel
    cases hdel

theorem loadOrganization_error {st : State} {w : σ} {e : EngineError}
    (h : sv.loadOrganization st w = .error e) : ∃ oe, e = .organization oe := by
  unfold loadOrganization at h
  cases hd : sv.directory w with
  | error oe =>
    rw [hd] at h
    cases h
    exact ⟨oe, rfl⟩
  | ok o =>
    rw [hd] at h
    cases h

theorem loadOrganization_ok {st₀ st : State} {o : Organization} {w : σ}
    (h : sv.loadOrganization st₀ w = .ok (st, o)) : ∃ o₀, st₀.bindOrganization o₀ = (st, o) := by
  unfold loadOrganization at h
  cases hd : sv.directory w with
  | error oe =>
    rw [hd] at h
    cases h
  | ok o₀ =>
    rw [hd] at h
    exact ⟨o₀, Except.ok.inj h⟩

end Services

/-! ## What a coherent state gives planning and deleting -/

namespace State.Coherent

variable {st st₀ : State} (sv : Services σ)

/-- Planning a template against a coherent state reports no unknown definition: every unit
with records that the template no longer has keeps the definition it was deployed with. -/
theorem planTemplate_errors (h : st.Coherent) (template : Template) (o : Organization) (w : σ) :
    ∀ e ∈ (sv.planTemplate template o st w).errors, ∀ n, e ≠ .unknownDefinition n := by
  intro e he n
  rw [sv.planTemplate_filed] at he
  simp only [List.mem_append] at he
  rcases he with (he | he) | he
  · obtain ⟨u, -, hu⟩ := List.mem_filterMap.mp he
    exact sv.planTemplateUnit_error_ne (errorOf_eq_some.mp hu) n
  · obtain ⟨m, hm, hmerr⟩ := List.mem_filterMap.mp he
    have hdef : (st.definition? m).isSome :=
      (h.definition?_isSome_iff m).mpr (h.records_ne_nil (List.mem_of_mem_filter hm))
    exact sv.planRemovedUnit_error_ne (Services.deployedDefinition_isSome hdef)
      (errorOf_eq_some.mp hmerr) n
  · exact assemble_errors e he n

/-- Deleting a unit from a coherent state never fails for want of a definition: a unit with
records has one. -/
theorem deleteUnit_defined (h : st₀.Coherent) {w : σ} (hs : sv.loadState w = .ok st₀)
    (name : String) (cancelled : Bool) (n : String) :
    ((sv.deleteUnit name cancelled).run w).1 ≠ .error (.unknownDefinition n) := by
  by_cases hne : st₀.records name = []
  · rw [sv.deleteUnit_unknownUnit cancelled hs hne]
    simp
  rcases ho : sv.loadOrganization st₀ w with e₀ | ⟨st, o⟩
  · rw [sv.deleteUnit_unbound cancelled hs hne ho]
    obtain ⟨oe, rfl⟩ := sv.loadOrganization_error ho
    simp
  -- binding keeps the records, so the unit still has records and a definition
  obtain ⟨o₀, hb⟩ := sv.loadOrganization_ok ho
  have hl : st.ledger = st₀.ledger := by
    have := ledger_bindOrganization st₀ o₀
    rwa [hb] at this
  have hst : st.Coherent := h.of_ledger hl
  have hrec : st.records name = st₀.records name := by
    simp only [ledger, Prod.mk.injEq] at hl
    simp [records, recordTable, hl.1]
  have hdef : (Services.deployedDefinition st st.previousTemplateDef? name).isSome :=
    Services.deployedDefinition_isSome ((hst.definition?_isSome_iff name).mpr (hrec ▸ hne))
  rcases hd' : Services.deployedDefinition st st.previousTemplateDef? name with _ | u
  · rw [hd'] at hdef
    cases hdef
  rcases hd : sv.deployable u with e₀ | d
  · rw [sv.deleteUnit_unknownPlugin cancelled hs hne ho hd' hd]
    simp
  rcases hg : TaskGraph.build (deletionTasks name ((st₀.records name).map Record.target) d) with
    e₀ | g
  · rw [sv.deleteUnit_unbuilt cancelled hs hne ho hd' hd hg]
    simp
  · have hr := sv.deleteUnit_ready cancelled hs hne ho hd' hd hg
    dsimp only at hr
    rw [hr]
    generalize ((sv.store.save _).run _).1 = saved
    cases saved <;> simp [Except.mapError, Except.map]

end State.Coherent

/-! ## The states the engine commits -/

namespace Services

/-- What one deploy or deletion of the engine over `sv` commits, from the state it loaded: the
state bound to an organization, with the successes of any tasks of its graph recorded in any
order, whatever their outcomes; a deploy also remembers its template text when `clean`, its run
having gone cleanly. -/
inductive Commits (sv : Services σ) : State → State → Prop
  | deploy {st₀ st : State} {o₀ o : Organization} {text : String} {template : Template} {w : σ}
      {successes : List (DeployTask (Deployable σ) × Outcome)} (clean : Bool) :
      parseTemplate text = .ok template → st₀.bindOrganization o₀ = (st, o) →
      (sv.planTemplate template o st w).hasInputErrors = false →
      (∀ x ∈ successes, x.1 ∈ (sv.planTemplate template o st w).graph.tasks) →
      Commits sv st₀ (deployCommitted sv.now text template.units st successes clean)
  | deleteUnit {st₀ st : State} {o₀ o : Organization} {name : String} {u : UnitDef}
      {d : Deployable σ} {g : TaskGraph (Deployable σ)}
      {successes : List (DeployTask (Deployable σ) × Outcome)} :
      st₀.records name ≠ [] → st₀.bindOrganization o₀ = (st, o) →
      deployedDefinition st st.previousTemplateDef? name = some u → sv.deployable u = .ok d →
      TaskGraph.build (deletionTasks name ((st₀.records name).map Record.target) d) = .ok g →
      (∀ x ∈ successes, x.1 ∈ g.tasks) →
      Commits sv st₀ { recordSuccesses [u] sv.now successes st with committedAt := some sv.now }

/-- The states the engine over `sv` can leave committed, starting from none: the empty state
that `init` commits, and what a deploy or a deletion commits from a state it loaded. -/
inductive Reachable (sv : Services σ) : State → Prop
  | init : Reachable sv { committedAt := some sv.now }
  | step {st₀ st : State} : Reachable sv st₀ → sv.Commits st₀ st → Reachable sv st

end Services

theorem action_of_mem_deletionTasks {name : String} {targets : List Target} {d : δ}
    {t : DeployTask δ} (ht : t ∈ deletionTasks name targets d) : t.action = .delete := by
  obtain ⟨target, -, rfl⟩ := List.mem_map.mp ht
  rfl

namespace State.Coherent

variable {st₀ st : State} {sv : Services σ}

/-- What a deploy or a deletion commits from a coherent state is coherent. -/
theorem commits (h : st₀.Coherent) (hc : sv.Commits st₀ st) : st.Coherent := by
  cases hc with
  | deploy clean ht hb hi hmem =>
    rename_i st' o₀ o text template w successes
    have hst : st'.Coherent := by
      have := h.bindOrganization o₀
      rwa [hb] at this
    have hbuilt : (OrgDeploy.recordSuccesses template.units sv.now successes st').Coherent :=
      hst.recordSuccesses fun x hx => sv.planTemplate_named template o st' w x.1 (hmem x hx)
    unfold Services.deployCommitted
    split
    · exact (hbuilt.remember (mapError_eq_ok.mp ht)).stamp _
    · exact hbuilt.stamp _
  | deleteUnit hne hb hdef hd hg hmem =>
    rename_i st' o₀ o name u d g successes
    have hst : st'.Coherent := by
      have := h.bindOrganization o₀
      rwa [hb] at this
    -- a deletion's tasks are all deletes
    have hn : ∀ x ∈ successes, x.1.Named [u] := fun x hx hact => by
      have hmem' := hmem x hx
      rw [(TaskGraph.build_built hg).tasks_eq, List.mem_toArray] at hmem'
      rw [action_of_mem_deletionTasks hmem'] at hact
      cases hact
    exact (hst.recordSuccesses hn).stamp _

end State.Coherent

/-- Every reachable state is coherent. -/
theorem Services.Reachable.coherent {sv : Services σ} {st : State} (h : sv.Reachable st) :
    st.Coherent := by
  induction h with
  | init => exact State.Coherent.empty _
  | step _ hc ih => exact ih.commits hc

/-! ## The engine's own runs commit reachable states -/

namespace Services

variable (sv : Services σ) {st₀ : State}

/-- What `init` saves is the empty state it starts from. -/
theorem init_saves_reachable (W : Logged σ) :
    ∃ calls, (sv.logged.init.run W).2.calls = W.calls ++ calls ∧
      ∀ s ∈ Call.saves calls, sv.logged.Reachable s := by
  unfold init
  rw [Act.run_get_bind]
  have hload : sv.logged.store.load W = sv.store.load W.world := rfl
  rw [hload]
  rcases hl : sv.store.load W.world with e | st
  · cases e with
    | notFound location =>
      dsimp only
      rw [sv.logged.run_commit_pure, logged_save_run]
      exact ⟨[.save _], rfl, fun s hs => by
        simp only [Call.saves_save, List.mem_singleton] at hs
        subst hs
        exact .init⟩
    | io path e => exact ⟨[], (List.append_nil _).symm, by simp⟩
    | serialization m => exact ⟨[], (List.append_nil _).symm, by simp⟩
  · exact ⟨[], (List.append_nil _).symm, by simp⟩

/-- What a deploy saves, from a state it loaded, is a state that `Commits` allows. -/
theorem deploy_saves_commits (text : String) (cancelled : Bool) {W : Logged σ}
    (hs : sv.loadState W.world = .ok st₀) :
    ∃ calls, ((sv.logged.deploy text cancelled).run W).2.calls = W.calls ++ calls ∧
      ∀ s ∈ Call.saves calls, sv.logged.Commits st₀ s := by
  rcases ht : parseTemplate text with e | template
  · exact ⟨[], by rw [sv.logged.deploy_unparsed cancelled ht]; simp, by simp⟩
  rcases ho : sv.loadOrganization st₀ W.world with e | ⟨st, o⟩
  · exact ⟨[], by rw [sv.logged.deploy_unbound cancelled ht hs ho]; simp, by simp⟩
  cases hi : (sv.logged.planTemplate template o st W).hasInputErrors
  · obtain ⟨report, successes, calls, -, -, hmem, -, hsaves, hcalls⟩ :=
      sv.deploy_commits cancelled ht hs ho hi
    refine ⟨calls ++ [_], by rw [hcalls, List.append_assoc], fun s hsv => ?_⟩
    simp only [Call.saves_append, hsaves, Call.saves_save, List.nil_append,
      List.mem_singleton] at hsv
    subst hsv
    obtain ⟨o₀, hb⟩ := sv.loadOrganization_ok ho
    exact .deploy _ ht hb hi hmem
  · exact ⟨[], by rw [sv.logged.deploy_invalid cancelled ht hs ho hi]; simp, by simp⟩

/-- What a deletion saves, from a state it loaded, is a state that `Commits` allows. -/
theorem deleteUnit_saves_commits (name : String) (cancelled : Bool) {W : Logged σ}
    (hs : sv.loadState W.world = .ok st₀) :
    ∃ calls, ((sv.logged.deleteUnit name cancelled).run W).2.calls = W.calls ++ calls ∧
      ∀ s ∈ Call.saves calls, sv.logged.Commits st₀ s := by
  by_cases hne : st₀.records name = []
  · exact ⟨[], by rw [sv.logged.deleteUnit_unknownUnit cancelled hs hne]; simp, by simp⟩
  rcases ho : sv.loadOrganization st₀ W.world with e | ⟨st, o⟩
  · exact ⟨[], by rw [sv.logged.deleteUnit_unbound cancelled hs hne ho]; simp, by simp⟩
  rcases hdef : deployedDefinition st st.previousTemplateDef? name with _ | u
  · exact ⟨[], by rw [sv.logged.deleteUnit_unknownDefinition cancelled hs hne ho hdef]; simp,
      by simp⟩
  rcases hd : sv.logged.deployable u with e | d
  · exact ⟨[], by rw [sv.logged.deleteUnit_unknownPlugin cancelled hs hne ho hdef hd]; simp,
      by simp⟩
  rcases hg : TaskGraph.build (deletionTasks name ((st₀.records name).map Record.target) d) with
    e | g
  · exact ⟨[], by rw [sv.logged.deleteUnit_unbuilt cancelled hs hne ho hdef hd hg]; simp, by simp⟩
  · obtain ⟨report, successes, calls, -, -, hmem, -, hsaves, hcalls⟩ :=
      sv.deleteUnit_commits cancelled hs hne ho hdef hd hg
    refine ⟨calls ++ [_], by rw [hcalls, List.append_assoc], fun s hsv => ?_⟩
    simp only [Call.saves_append, hsaves, Call.saves_save, List.nil_append,
      List.mem_singleton] at hsv
    subst hsv
    obtain ⟨o₀, hb⟩ := sv.loadOrganization_ok ho
    exact .deleteUnit hne hb hdef hd hg hmem

/-- What the engine over `sv` can count on in a state it loads: a stored definition for exactly
the units with records, no unit without records, so no unknown definition when it plans a
template or deletes a unit, and a remembered template text that reads as a template. -/
structure DefinitionsFollowRecords (sv : Services σ) (st : State) : Prop where
  defined_iff : ∀ n, (st.definition? n).isSome ↔ st.records n ≠ []
  records_ne_nil : ∀ n ∈ st.unitNames, st.records n ≠ []
  /-- Planning any template against the state, bound to any organization. -/
  plan_defined : ∀ o₀ template w, ∀ e ∈ (sv.planTemplate template (st.bindOrganization o₀).2
    (st.bindOrganization o₀).1 w).errors, ∀ n, e ≠ .unknownDefinition n
  /-- Deleting any unit from a world whose store holds the state. -/
  delete_defined : ∀ w name cancelled n, sv.loadState w = .ok st →
    ((sv.deleteUnit name cancelled).run w).1 ≠ .error (.unknownDefinition n)
  previous_parses : ∀ text, st.previousTemplate = some text → ∃ t, Template.parse text = .ok t

end Services

/-- Every state the engine can leave committed, whatever the outcomes of its tasks and the order
in which they finished, keeps a definition for exactly the units with records and no unit
without records: planning against it reports no unknown definition, deleting a unit from it
never fails for want of one, and the template text it remembers reads as a template. -/
theorem reachable_definitions_follow_records (sv : Services σ) {st : State}
    (h : sv.Reachable st) : sv.DefinitionsFollowRecords st := by
  have hc := h.coherent
  exact ⟨hc.definition?_isSome_iff, fun n hn => hc.records_ne_nil hn,
    fun o₀ template w => (hc.bindOrganization o₀).planTemplate_errors sv template _ w,
    fun w name cancelled n hs => hc.deleteUnit_defined sv hs name cancelled n, hc.previous⟩

/-- The text of a template with one unit `app` of the plugin `noop`, bound to account `Dev` in
region `eu`, reads as that template. -/
theorem noop_app_text_parses :
    let text := "\x7b\"units\":[\x7b\"name\":\"app\",\"type\":\"plugin\",\"plugin\":\"noop\"," ++
      "\"organization_binding\":\x7b\"accounts\":[\"Dev\"],\"regions\":[\"eu\"]\x7d\x7d]\x7d"
    let b : Binding := { accounts := some (.list [.logicalId "Dev"]), regions := some ["eu"] }
    Services.parseTemplate text = .ok ⟨[⟨"app", b, .plugin "noop" .null⟩]⟩ := by
  intro text b
  -- the kernel reads the text; its units are compared by name, binding, plugin and config kind
  have hshape : ((Services.parseTemplate text).toOption.map fun t => t.units.map fun u =>
      (u.name, u.binding, (UnitKind.casesOn u.kind (fun _ _ => none) fun p c => some (p, c.kind) :
        Option (String × Nat)))) = some [("app", b, some ("noop", 0))] := by
    decide +kernel
  cases hp : Services.parseTemplate text with
  | error e => simp [hp, Except.toOption] at hshape
  | ok t =>
    simp only [hp, Except.toOption, Option.map_some, Option.some.injEq] at hshape
    obtain ⟨_ | ⟨⟨n, b', k⟩, _ | _⟩⟩ := t
    · cases hshape
    · cases k with
      | stack => simp at hshape
      | plugin p c =>
        cases c <;> simp [Json.Value.kind] at hshape
        obtain ⟨rfl, rfl, rfl⟩ := hshape
        rfl
    · simp at hshape

/-- A plugin unit deployed from the state `init` commits, with its one task succeeded: the state
the deploy commits holds the unit's record and its definition, and keeps a definition for exactly
the units with records. -/
theorem deployed_definitions_follow_records :
    let plugin : Plugin Unit :=
      { name := "noop", contentHash := fun _ _ => .ok "h", apply := fun _ _ => pure [],
        delete := fun _ _ => pure () }
    let sv : Services Unit :=
      { directory := fun _ => .ok { accounts := [{ logicalId := "Dev", physicalId := some "111" }] },
        store := ⟨fun _ => .ok {}, fun _ => pure ()⟩,
        backend := { apply := fun _ _ _ _ => pure [], delete := fun _ _ => pure () },
        plugins := PluginRegistry.register {} plugin, now := ⟨0, 0, 0⟩ }
    ∃ st, sv.Reachable st ∧ st.records "app" ≠ [] ∧ (st.definition? "app").isSome ∧
      sv.DefinitionsFollowRecords st := by
  intro plugin sv
  let O : Organization := { accounts := [{ logicalId := "Dev", physicalId := some "111" }] }
  let b : Binding := { accounts := some (.list [.logicalId "Dev"]), regions := some ["eu"] }
  let template : Template := ⟨[⟨"app", b, .plugin "noop" .null⟩]⟩
  let st₀ : State := { committedAt := some sv.now }
  let st := (st₀.bindOrganization O).1
  let o := (st₀.bindOrganization O).2
  -- the plan is one create task; the cycle search is evaluated by its equations, not the kernel
  let t₀ : DeployTask (Deployable Unit) :=
    { id := ⟨"app", "111", "eu"⟩, target := ⟨"111", "eu", "Dev"⟩,
      kind := .createOrUpdate (some ⟨.null, [], []⟩) (some "h"), deployable := .plugin plugin .null }
  have hP : (sv.planTemplate template o st ()).errors = [] := by cbv
  have hin : (sv.planTemplate template o st ()).hasInputErrors = false := by
    simp only [Plan.hasInputErrors, hP, List.any_nil]
  have hg : (sv.planTemplate template o st ()).graph = ⟨#[t₀], #[[]], #[[]]⟩ := by cbv
  have hmem : ∀ x ∈ [(t₀, ({ contentHash := some "h" } : Outcome))],
      x.1 ∈ (sv.planTemplate template o st ()).graph.tasks := by
    intro x hx
    obtain rfl := List.mem_singleton.mp hx
    rw [hg]
    simp
  have hreach := Services.Reachable.step .init
    (.deploy true noop_app_text_parses (show st₀.bindOrganization O = (st, o) from rfl) hin hmem)
  exact ⟨_, hreach, by decide, by decide, reachable_definitions_follow_records sv hreach⟩

end OrgDeploy
