import Mathlib
import OrgDeploy.Proofs.Engine.Settled
import OrgDeploy.Proofs.Engine.Rerun
import OrgDeploy.Proofs.State.Exchange
import OrgDeploy.Proofs.State.Records
import OrgDeploy.Proofs.Json.Layout

/-!
# A clean deploy leaves nothing to plan

The promise of a declarative deploy: once a deploy of a template succeeds, planning the same
template again finds nothing to do. `Services.deploy_then_plan_idle` proves it under the
conditions below. Without the first, the promise fails. The others are what the proof uses to
read the committed state back.

* `Template.StableImports`: every output that the planned state records for an import of a unit
  is recorded with the same value after the run. A unit rendered at plan time against a
  producer's recorded outputs is recorded with the hash of that render, so a producer whose
  outputs change in the run leaves its consumer's hash stale, and the next plan updates the
  consumer again. Outputs the planned state does not record are free: a unit that waits for them
  renders late, against the records the run has built so far, and what it reads there is what
  the committed state keeps, since one task at most writes each record. A template that imports
  nothing has stable imports (`Template.Plain.stableImports`).
* `Template.KeyedTargets`: no two targets of a unit share a record key. A region or account id
  with a slash can make `account/region` keys collide, and one record then stands for two
  targets.
* The loaded state is keyed (`State.Keyed`) with no empty record table, so that every unit the
  committed state has a table for is a unit of the template.
* The directory keeps giving one organization whose entities have distinct logical ids, so that
  binding it again after the run gives the same organization (`State.bindOrganization_again`).
* Plugins hash alike in every world (`Services.WorldFreeHashes`). A hash that reads the world
  sees the world the run left, not the one it was planned in.
* The store gives back the state it saved (`StateStore.RoundTrips`).

The proof runs in three steps. A clean plan is a graph of tasks each of which either creates a
unit of the template at one of its targets, carrying the artifact and hash the unit renders
there or deferred without them, or deletes a record at no target of its unit
(`Services.PlannedTask`); no two of them are at one unit and record key
(`planTemplate_clean_unique`). A successful run takes each task of the graph once, on a world
whose records are what the successes before it left (`runGraph_success_replays`). A success at a
target so records the hash of what the unit renders against the committed state
(`clean_run_render_committed`, `clean_run_success_current`), and a target without a success kept
the record the plan found current: the committed state records, at each target of each unit,
the hash of what the unit renders there and nothing else (`clean_run_current`,
`clean_run_only`). Such a state is `Services.Settled`, and the plan of a settled state is empty
(`Services.Settled.planTemplate_idle`).
-/

namespace OrgDeploy

variable {σ : Type}

/-! ## Conditions -/

/-- A template none of whose units imports recorded outputs. -/
def Template.Plain (template : Template) : Prop :=
  ∀ u ∈ template.units, u.kind.readsOutputs = false

/-- A template whose imports keep the outputs they read: every output that the planned state `st`
records for an import that a unit collects at one of its targets, in a state with the bindings
of `st`, the state `S` after the run records with the same value. -/
def Template.StableImports (template : Template) (o : Organization)
    (override : Option (List String)) (st S : State) : Prop :=
  ∀ u ∈ template.units, ∀ targets, u.binding.resolve o override = .ok targets → ∀ t ∈ targets,
    ∀ s : State, s.bindings = st.bindings → ∀ imports, collectImports o s u t = .ok imports →
      ∀ i ∈ imports, ∀ v, st.importOutput? i = some v → S.importOutput? i = some v

/-- A template whose units' targets have distinct record keys in organization `o`: no two
targets of one unit are stored under one `account/region` key. -/
def Template.KeyedTargets (template : Template) (o : Organization)
    (override : Option (List String)) : Prop :=
  ∀ u ∈ template.units, ∀ targets, u.binding.resolve o override = .ok targets →
    (targets.map (·.key)).Nodup

/-- Services whose plugins hash a configuration alike in every world. -/
def Services.WorldFreeHashes (sv : Services σ) : Prop :=
  ∀ p ∈ sv.plugins, ∀ body w w', p.contentHash body w = p.contentHash body w'

/-- A store that gives back the state it saved. -/
def StateStore.RoundTrips (store : StateStore σ) : Prop :=
  ∀ st w w', (store.save st).run w = (.ok (), w') → store.load w' = .ok st

theorem State.recordTable_of_deployments {s s' : State} (h : s'.deployments = s.deployments)
    (n : String) : s'.recordTable n = s.recordTable n := by
  simp only [State.recordTable, h]

theorem State.record?_target (s : State) (n : String) (t : Target) :
    s.record? n t.accountId t.region = (s.recordTable n).get? t.key := by
  rw [State.record?_eq_recordAt, State.recordAt_eq_get?_recordTable]
  rfl

/-- An import reads the record of its unit at its account and region. -/
theorem State.importOutput?_eq (s : State) (i : ImportRef) :
    s.importOutput? i = ((s.recordTable i.unit).get? (targetKey i.accountId i.region)).bind
      (·.outputs.lookup i.output) := by
  rw [State.importOutput?, State.output?, State.record?_eq_recordAt,
    State.recordAt_eq_get?_recordTable]

theorem State.importOutput?_of_deployments {s s' : State} (h : s'.deployments = s.deployments)
    (i : ImportRef) : s'.importOutput? i = s.importOutput? i := by
  rw [State.importOutput?_eq, State.importOutput?_eq, State.recordTable_of_deployments h]

section Stable

variable {template : Template} {o : Organization} {override : Option (List String)}
  {st S : State}

/-- A template that imports no outputs keeps its imports stable in every run: it has none. -/
theorem Template.Plain.stableImports (h : template.Plain) :
    template.StableImports o override st S := by
  intro u hu targets _ t _ s _ imports himp i hi
  rw [collectImports_plain o s u t (h u hu) himp] at hi
  cases hi

/-- Whether imports are stable depends on the records of the state after the run alone. -/
theorem Template.StableImports.of_deployments {S' : State}
    (h : template.StableImports o override st S) (hS : S'.deployments = S.deployments) :
    template.StableImports o override st S' := by
  intro u hu targets hres t ht s hs imports himp i hi v hv
  rw [State.importOutput?_of_deployments hS]
  exact h u hu targets hres t ht s hs imports himp i hi v hv

end Stable

/-- The deployable of a unit hashes an artifact alike in every world. -/
theorem Services.WorldFreeHashes.contentHash {sv : Services σ} (h : sv.WorldFreeHashes)
    {u : UnitDef} {d : Deployable σ} (hd : sv.deployable u = .ok d) (a : Artifact) (w w' : σ) :
    Deployable.contentHash w d a = Deployable.contentHash w' d a := by
  unfold Services.deployable at hd
  split at hd
  · cases hd
    rfl
  · split at hd
    · rename_i p hp
      cases hd
      simp only [Deployable.contentHash, h p (List.mem_of_find?_eq_some hp) a.body w w']
    · cases hd

/-! ## The plan of a clean deploy -/

@[simp] theorem Record.key_target (r : Record) : r.target.key = r.key := rfl

@[simp] theorem State.deployments_bindOrganization (s : State) (O : Organization) :
    (s.bindOrganization O).1.deployments = s.deployments :=
  congrArg (·.1) (State.ledger_bindOrganization s O)

/-- Whether a state is keyed depends on its records alone. -/
theorem State.Keyed.of_deployments {s s' : State} (h : s.Keyed)
    (hd : s'.deployments = s.deployments) : s'.Keyed :=
  ⟨by simpa [State.unitNames, hd] using h.units_nodup,
    fun n => by rw [State.recordTable_of_deployments hd]; exact h.keys_nodup n,
    fun n => by rw [State.recordTable_of_deployments hd]; exact h.key_eq n⟩

/-- Two records of a unit of a keyed state under one key are one record. -/
theorem State.Keyed.eq_of_key_eq {s : State} (h : s.Keyed) {n : String} {r r' : Record}
    (hr : r ∈ s.records n) (hr' : r' ∈ s.records n) (hk : r.key = r'.key) : r = r' := by
  obtain ⟨kr, hkr, rfl⟩ := List.mem_map.mp hr
  obtain ⟨kr', hkr', rfl⟩ := List.mem_map.mp hr'
  have hkeys : kr.1 = kr'.1 := by rw [h.key_eq n kr hkr, h.key_eq n kr' hkr', hk]
  rw [List.inj_on_of_nodup_map (h.keys_nodup n) hkr hkr' hkeys]

/-- What a task of the plan of a template does, under the id of its unit at its target: a
create-or-update of a unit of the template at one of its targets, with the unit's deployable,
that carries the artifact the unit renders there and its hash, or is deferred and carries
neither; or a delete at the target of a record of its unit, a target that no unit of the
template of that name renders. -/
def Services.PlannedTask (sv : Services σ) (template : Template) (o : Organization) (st : State)
    (w : σ) (t : DeployTask (Deployable σ)) : Prop :=
  t.id = TaskId.ofTarget t.id.unit t.target ∧
  ((∃ u, template.unit? t.id.unit = some u ∧ ∃ d targets, sv.deployable u = .ok d ∧
    u.binding.resolve o sv.config.regionOverride = .ok targets ∧ t.target ∈ targets ∧
    t.deployable = d ∧
    ((∃ a h, render o st u t.target = .ok a ∧ Deployable.contentHash w d a = .ok h ∧
        t.kind = .createOrUpdate (some a) (some h)) ∨
      t.kind = .createOrUpdate none none)) ∨
  (t.action = .delete ∧ (∃ r ∈ st.records t.id.unit, t.target = r.target) ∧
    ∀ u, template.unit? t.id.unit = some u → ∀ targets,
      u.binding.resolve o sv.config.regionOverride = .ok targets →
        t.target.key ∉ targets.map (·.key)))

namespace Services

variable (sv : Services σ) {template : Template} {o : Organization} {st : State} {w : σ}

/-- What planning a unit of the template went through. -/
theorem planTemplateUnit_inv {previous : Option Template} {u : UnitDef}
    {p : UnitPlan (Deployable σ)} (h : sv.planTemplateUnit o st previous w u = .ok p) :
    ∃ d targets, sv.deployable u = .ok d ∧
      u.binding.resolve o sv.config.regionOverride = .ok targets ∧
      planUnit st (Deployable.contentHash w) ⟨u.name, d, targets.map (targetRender o st u),
        deployedImports o st ((deployedDefinition st previous u.name).getD u)⟩ = .ok p := by
  unfold planTemplateUnit at h
  obtain ⟨d, hd, h⟩ := bind_eq_ok.mp h
  obtain ⟨targets, hres, h⟩ := bind_eq_ok.mp h
  exact ⟨d, targets, hd, mapError_eq_ok.mp hres, h⟩

/-- What planning a unit the template no longer has went through. -/
theorem planRemovedUnit_inv {previous : Option Template} {n : String}
    {p : UnitPlan (Deployable σ)} (h : sv.planRemovedUnit o st previous w n = .ok p) :
    ∃ u d, sv.deployable u = .ok d ∧
      planUnit st (Deployable.contentHash w) ⟨n, d, [], deployedImports o st u⟩ = .ok p := by
  unfold planRemovedUnit at h
  dsimp only at h
  split at h
  · rename_i u _
    simp only [pure_bind] at h
    obtain ⟨d, hd, h⟩ := bind_eq_ok.mp h
    exact ⟨u, d, hd, h⟩
  · cases h

/-- Every task of a unit's plan is a planned task. -/
theorem unitPlan_planned (hnames : template.unitNames.Nodup) {n : String}
    {p : UnitPlan (Deployable σ)} (h : sv.unitPlan template o st w n = .ok p) :
    ∀ t ∈ p.tasks, sv.PlannedTask template o st w t := by
  intro t ht
  unfold unitPlan at h
  split at h
  · rename_i u hu
    have hun := Template.unit?_name hu
    obtain ⟨d, targets, hd, hres, hpu⟩ := sv.planTemplateUnit_inv h
    rw [planUnit_tasks_eq hpu] at ht
    rcases List.mem_append.mp ht with ht | ht
    · -- a create-or-update asked for by the render at one of the unit's targets
      obtain ⟨r, hr, hrt⟩ := List.mem_filterMap.mp ht
      obtain ⟨t₀, ht₀, rfl⟩ := List.mem_map.mp hr
      obtain ⟨hid, htarget, hdep, hkind⟩ := TargetRender.taskFor_eq_some hrt
      have hunit : t.id.unit = u.name := by rw [hid]; rfl
      have htgt : t.target = t₀ := htarget
      refine ⟨by rw [hid, htarget]; rfl,
        .inl ⟨u, by rw [hunit, hun]; exact hu, d, targets, hd, hres, htgt ▸ ht₀, hdep, ?_⟩⟩
      rcases hkind with ⟨a, h, ha, hh, hk⟩ | hk
      · exact .inl ⟨a, h, htgt ▸ ha, hh, hk⟩
      · exact .inr hk
    · -- a delete at a target the unit no longer renders
      obtain ⟨record, hrec, hkey, hid, htarget, hkind⟩ := mem_deleteTasks_target ht
      have hunit : t.id.unit = u.name := by rw [hid]; rfl
      refine ⟨by rw [hid, htarget]; rfl, .inr ⟨by simp [DeployTask.action, hkind],
        ⟨record, by rw [hunit]; exact hrec, htarget⟩, fun u' hu' targets' hres' => ?_⟩⟩
      rw [hunit, Template.unit?_of_mem hnames (List.mem_of_find?_eq_some hu)] at hu'
      cases hu'
      rw [hres] at hres'
      cases hres'
      rw [htarget, Record.key_target]
      simpa [targetRender, List.map_map, Function.comp_def] using hkey
  · -- a unit the template no longer has is only deleted
    rename_i hnone
    obtain ⟨u, d, -, hpu⟩ := sv.planRemovedUnit_inv h
    rw [planUnit_tasks_eq hpu, List.filterMap_nil, List.nil_append] at ht
    obtain ⟨record, hrec, -, hid, htarget, hkind⟩ := mem_deleteTasks_target ht
    have hunit : t.id.unit = n := by rw [hid]; rfl
    refine ⟨by rw [hid, htarget]; rfl, .inr ⟨by simp [DeployTask.action, hkind],
      ⟨record, by rw [hunit]; exact hrec, htarget⟩, fun u' hu' => ?_⟩⟩
    rw [hunit, hnone] at hu'
    cases hu'

section Clean

variable (hst : st.Keyed) (hP : (sv.planTemplate template o st w).errors = [])

include hst hP in
/-- A plan that met no error plans every planned name, and its graph is built from the tasks of
those plans, linked. -/
theorem planTemplate_clean (hnames : template.unitNames.Nodup) :
    (∀ n ∈ template.plannedNames st, ∃ p, sv.unitPlan template o st w n = .ok p) ∧
    (∃ tasks, TaskGraph.build tasks = .ok (sv.planTemplate template o st w).graph) ∧
    Linked (plansOf (sv.unitPlan template o st w) (template.plannedNames st))
      (taskIds (plansOf (sv.unitPlan template o st w) (template.plannedNames st)) .createOrUpdate)
      (sv.planTemplate template o st w).graph.tasks.toList := by
  set plans := plansOf (sv.unitPlan template o st w) (template.plannedNames st)
  have hw : PlansWellFormed plans := plansOf_wellFormed (fun _ _ h => sv.unitPlan_ok hst h)
    (Template.plannedNames_nodup hnames hst.units_nodup)
  obtain ⟨new, g, hasm, hA⟩ := assemble_assembled hw
  rw [sv.planTemplate_eq hnames, hasm] at hP ⊢
  -- neither a unit nor the assembly met an error
  obtain ⟨herr, hnew⟩ := List.append_eq_nil_iff.mp hP
  subst hnew
  have hlinked : Linked (keptBy [] plans) (taskIds (keptBy [] plans) .createOrUpdate)
      (Assembled.linkedTasks plans []) := Assembled.kept_linked hw
  rw [keptBy_nil] at hlinked
  refine ⟨fun n hn => ?_, ⟨_, hA.built⟩, ?_⟩
  · have hnone := List.filterMap_eq_nil_iff.mp herr n hn
    cases hpn : sv.unitPlan template o st w n with
    | ok p => exact ⟨p, rfl⟩
    | error e => rw [hpn] at hnone; cases hnone
  · rw [hA.graph_built.tasks_eq, List.toList_toArray]
    exact hlinked

include hst hP in
/-- A task of a planned name's plan is in the graph of a plan that met no error, with its id and
target. -/
theorem planTemplate_clean_mem (hnames : template.unitNames.Nodup) {n : String}
    (hn : n ∈ template.plannedNames st) {p : UnitPlan (Deployable σ)}
    (hp : sv.unitPlan template o st w n = .ok p) {t : DeployTask (Deployable σ)} (ht : t ∈ p.tasks) :
    ∃ gt ∈ (sv.planTemplate template o st w).graph.tasks, gt.id = t.id ∧ gt.target = t.target := by
  have hl := (sv.planTemplate_clean hst hP hnames).2.2
  have hmem : t ∈ (plansOf (sv.unitPlan template o st w) (template.plannedNames st)).flatMap
      (·.tasks) := List.mem_flatMap.mpr ⟨p, List.mem_filterMap.mpr ⟨n, hn, by rw [hp]; rfl⟩, ht⟩
  obtain ⟨gt, hgt, hgl⟩ := hl.exists_linked hmem
  exact ⟨gt, Array.mem_toList_iff.mp hgt, by rw [← hgl]; rfl, by rw [← hgl]; rfl⟩

include hst hP in
/-- Every task of the graph of a plan that met no error is a planned task. -/
theorem planTemplate_clean_planned (hnames : template.unitNames.Nodup)
    {gt : DeployTask (Deployable σ)} (hgt : gt ∈ (sv.planTemplate template o st w).graph.tasks) :
    sv.PlannedTask template o st w gt := by
  have hl := (sv.planTemplate_clean hst hP hnames).2.2
  have hflat : gt.withoutLinks ∈
      (plansOf (sv.unitPlan template o st w) (template.plannedNames st)).flatMap (·.tasks) := by
    rw [← hl.withoutLinks_eq]
    exact List.mem_map_of_mem (Array.mem_toList_iff.mpr hgt)
  obtain ⟨p, hp, hpt⟩ := List.mem_flatMap.mp hflat
  obtain ⟨n, -, hpn⟩ := List.mem_filterMap.mp hp
  exact sv.unitPlan_planned hnames (toOption_eq_some.mp hpn) gt.withoutLinks hpt

include hst hP in
/-- A task of the graph of a plan that met no error at a unit of the template and the key of one
of its targets is a create-or-update at that target with the unit's deployable, carrying the
artifact the unit renders there and its hash, or deferred. -/
theorem planTemplate_clean_create_at (hnames : template.unitNames.Nodup)
    (hkeys : template.KeyedTargets o sv.config.regionOverride)
    {gt : DeployTask (Deployable σ)} (hgt : gt ∈ (sv.planTemplate template o st w).graph.tasks)
    {u : UnitDef} (hu : u ∈ template.units) {d : Deployable σ} {targets : List Target}
    (hd : sv.deployable u = .ok d) (hres : u.binding.resolve o sv.config.regionOverride = .ok targets)
    {t : Target} (ht : t ∈ targets) (hgu : gt.id.unit = u.name) (hgk : gt.target.key = t.key) :
    gt.target = t ∧ gt.deployable = d ∧
      ((∃ a h, render o st u t = .ok a ∧ Deployable.contentHash w d a = .ok h ∧
        gt.kind = .createOrUpdate (some a) (some h)) ∨ gt.kind = .createOrUpdate none none) := by
  have hunit : template.unit? gt.id.unit = some u := by
    rw [hgu]
    exact Template.unit?_of_mem hnames hu
  obtain ⟨-, ⟨u', hu', d', targets', hd', hres', htgt, hdep, hkind⟩ | ⟨-, -, hdel⟩⟩ :=
    sv.planTemplate_clean_planned hst hP hnames hgt
  · rw [hunit] at hu'
    cases hu'
    rw [hd] at hd'
    cases hd'
    rw [hres] at hres'
    cases hres'
    -- one key among the distinct keys of the unit's targets: the same target
    have htt : gt.target = t := List.inj_on_of_nodup_map (hkeys u hu targets hres) htgt ht hgk
    exact ⟨htt, hdep, by rwa [htt] at hkind⟩
  · -- a delete is at no target of the unit
    exact absurd (by rw [hgk]; exact List.mem_map_of_mem ht) (hdel u hunit targets hres)

include hst hP in
/-- Two tasks of the graph of a plan that met no error at one unit and record key are one task:
the targets of a unit have distinct keys, a delete is at no key of them, and a keyed state has
one record under a key. -/
theorem planTemplate_clean_unique (hnames : template.unitNames.Nodup)
    (hkeys : template.KeyedTargets o sv.config.regionOverride)
    {gt gt' : DeployTask (Deployable σ)} (hgt : gt ∈ (sv.planTemplate template o st w).graph.tasks)
    (hgt' : gt' ∈ (sv.planTemplate template o st w).graph.tasks)
    (hu : gt.id.unit = gt'.id.unit) (hk : gt.target.key = gt'.target.key) : gt = gt' := by
  obtain ⟨hid, hp⟩ := sv.planTemplate_clean_planned hst hP hnames hgt
  obtain ⟨hid', hp'⟩ := sv.planTemplate_clean_planned hst hP hnames hgt'
  -- a create is at a target of its unit, which pins any task there; deletes are at records
  have htarget : gt.target = gt'.target := by
    rcases hp with ⟨u, hu₁, d, targets, hd, hres, htgt, -⟩ | ⟨-, ⟨r, hr, hrt⟩, -⟩
    · exact (sv.planTemplate_clean_create_at hst hP hnames hkeys hgt'
        (List.mem_of_find?_eq_some hu₁) hd hres htgt (by rw [← hu, Template.unit?_name hu₁])
        hk.symm).1.symm
    · rcases hp' with ⟨u', hu₁', d', targets', hd', hres', htgt', -⟩ | ⟨-, ⟨r', hr', hrt'⟩, -⟩
      · exact (sv.planTemplate_clean_create_at hst hP hnames hkeys hgt
          (List.mem_of_find?_eq_some hu₁') hd' hres' htgt' (by rw [hu, Template.unit?_name hu₁'])
          hk).1
      · -- two deletes: records of one unit under one key
        rw [hu] at hr
        rw [hrt, hrt', hst.eq_of_key_eq hr hr' (by rw [← Record.key_target, ← hrt, hk, hrt',
          Record.key_target])]
  -- the same id, so the same index of the graph
  obtain ⟨tasks, hbuild⟩ := (sv.planTemplate_clean hst hP hnames).2.1
  obtain ⟨i, hi⟩ := Array.mem_iff_getElem?.mp hgt
  obtain ⟨j, hj⟩ := Array.mem_iff_getElem?.mp hgt'
  obtain rfl := (TaskGraph.build_built hbuild).eq_of_id_eq hi hj (by rw [hid, hid', hu, htarget])
  rw [hi] at hj
  exact Option.some.inj hj

include hst hP in
/-- A target of a unit of the template that the state does not record as current, with the hash
of an artifact the unit renders there, has a task in the graph of a plan that met no error. -/
theorem planTemplate_clean_target_task (hnames : template.unitNames.Nodup) {u : UnitDef}
    (hu : u ∈ template.units) {d : Deployable σ} {targets : List Target}
    (hd : sv.deployable u = .ok d) (hres : u.binding.resolve o sv.config.regionOverride = .ok targets)
    {t : Target} (ht : t ∈ targets)
    (hcur : ¬ ∃ a h, render o st u t = .ok a ∧ Deployable.contentHash w d a = .ok h ∧
      (st.record? u.name t.accountId t.region).map (·.lastCommittedHash) = some h) :
    ∃ gt ∈ (sv.planTemplate template o st w).graph.tasks, gt.id.unit = u.name ∧ gt.target = t := by
  have hn : u.name ∈ template.plannedNames st :=
    List.mem_append_left _ (List.mem_map_of_mem hu)
  obtain ⟨p, hp⟩ := (sv.planTemplate_clean hst hP hnames).1 _ hn
  obtain ⟨d', targets', hd', hres', hplan⟩ :=
    sv.planTemplateUnit_inv ((sv.unitPlan_some (Template.unit?_of_mem hnames hu)).symm.trans hp)
  rw [hd] at hd'
  cases hd'
  rw [hres] at hres'
  cases hres'
  -- the render at `t` does not stop the unit, and is not current: it asks for a task there
  obtain ⟨ct, htask⟩ := TargetRender.exists_taskFor
    (stopsWith_of_planUnit hplan (targetRender o st u t) (List.mem_map_of_mem ht)) hcur
  obtain ⟨hid, htarget, -⟩ := TargetRender.taskFor_eq_some htask
  have hmem : ct ∈ p.tasks := by
    rw [planUnit_tasks_eq hplan]
    exact List.mem_append_left _ (List.mem_filterMap.mpr ⟨_, List.mem_map_of_mem ht, htask⟩)
  obtain ⟨gt, hgt, hgid, hgtarget⟩ := sv.planTemplate_clean_mem hst hP hnames hn hp hmem
  exact ⟨gt, hgt, by rw [hgid, hid]; rfl, hgtarget.trans htarget⟩

include hst hP in
/-- A record of a planned name, whose key the name's plan leaves out of its renders, is deleted
by a task of the graph of a plan that met no error. -/
theorem planTemplate_clean_delete (hnames : template.unitNames.Nodup) {n : String} {r : Record}
    (hrec : r ∈ st.records n) (hn : n ∈ template.plannedNames st) {p : UnitPlan (Deployable σ)}
    (hp : sv.unitPlan template o st w n = .ok p) {input : UnitInput (Deployable σ)}
    (hpu : planUnit st (Deployable.contentHash w) input = .ok p) (hname : input.name = n)
    (hkey : (input.renders.map (·.target.key)).contains r.key = false) :
    ∃ gt ∈ (sv.planTemplate template o st w).graph.tasks, gt.id.unit = n ∧
      gt.target.key = r.key := by
  subst hname
  have hmem := List.mem_append_right
    (input.renders.filterMap (·.taskFor st (Deployable.contentHash w) input.name input.deployable))
    (delete_mem_deleteTasks hrec hkey)
  rw [← planUnit_tasks_eq hpu] at hmem
  obtain ⟨gt, hgt, hid, htarget⟩ := sv.planTemplate_clean_mem hst hP hnames hn hp hmem
  exact ⟨gt, hgt, by rw [hid]; rfl, by rw [htarget]; rfl⟩

include hst hP in
/-- A record at a target that no unit of the template of its name renders has a task in the
graph of a plan that met no error. -/
theorem planTemplate_clean_stale_record (hnames : template.unitNames.Nodup) {n k : String}
    {r : Record} (hr : (st.recordTable n).get? k = some r) :
    (∃ u, template.unit? n = some u ∧ ∃ targets,
      u.binding.resolve o sv.config.regionOverride = .ok targets ∧ k ∈ targets.map (·.key)) ∨
    ∃ gt ∈ (sv.planTemplate template o st w).graph.tasks, gt.id.unit = n ∧ gt.target.key = k := by
  have hkr := Table.mem_of_get? hr
  obtain rfl : k = r.key := hst.key_eq n (k, r) hkr
  have hrec : r ∈ st.records n := List.mem_map.mpr ⟨(r.key, r), hkr, rfl⟩
  cases hu : template.unit? n with
  | some u =>
    have hun : u.name = n := Template.unit?_name hu
    have hn : n ∈ template.plannedNames st :=
      List.mem_append_left _ (hun ▸ List.mem_map_of_mem (List.mem_of_find?_eq_some hu))
    obtain ⟨p, hp⟩ := (sv.planTemplate_clean hst hP hnames).1 n hn
    obtain ⟨d, targets, -, hres, hplan⟩ :=
      sv.planTemplateUnit_inv ((sv.unitPlan_some hu).symm.trans hp)
    by_cases hkey : r.key ∈ targets.map (·.key)
    · exact .inl ⟨u, rfl, targets, hres, hkey⟩
    · -- the unit's plan leaves the record's key out, so it deletes the record
      refine .inr (sv.planTemplate_clean_delete hst hP hnames hrec hn hp hplan hun ?_)
      simpa [targetRender, List.map_map, Function.comp_def] using hkey
  | none =>
    -- a unit the template no longer has, whose records are all deleted
    have hkeys : n ∈ st.unitNames := by
      cases hget : st.deployments.get? n with
      | none => simp [State.recordTable, hget] at hr
      | some T => exact List.mem_map.mpr ⟨(n, T), Table.mem_of_get? hget, rfl⟩
    have hnot : n ∉ template.unitNames := fun hmem => by
      obtain ⟨u, hu', rfl⟩ := List.mem_map.mp hmem
      rw [Template.unit?_of_mem hnames hu'] at hu
      cases hu
    have hn : n ∈ template.plannedNames st :=
      List.mem_append_right _ (List.mem_filter.mpr ⟨hkeys, by simpa using hnot⟩)
    obtain ⟨p, hp⟩ := (sv.planTemplate_clean hst hP hnames).1 n hn
    obtain ⟨u, d, -, hplan⟩ := sv.planRemovedUnit_inv ((sv.unitPlan_none hu).symm.trans hp)
    exact .inr (sv.planTemplate_clean_delete hst hP hnames hrec hn hp hplan rfl (by simp))

end Clean

end Services

/-! ## What a clean run records -/

namespace Services

variable (sv : Services σ) {template : Template} {o : Organization} {st : State} {w : σ}

/-- The engine renders a task late against the state being built, with the unit of the task's
name, and leaves the world as it was. -/
theorem resolve_eq_ok {units : List UnitDef} {t : DeployTask (Deployable σ)} {x x' : RunWorld σ}
    {a : Artifact} (h : ((engineCollaborators sv o units).resolve t).run x = (.ok a, x')) :
    ∃ u, units.find? (·.name == t.id.unit) = some u ∧ render o x.2 u t.target = .ok a ∧
      x' = x := by
  obtain ⟨w, st⟩ := x
  simp only [engineCollaborators, ExceptT.run] at h
  split at h
  · cases h
  · rename_i u hu
    obtain ⟨hr, rfl⟩ := Prod.mk.inj h
    exact ⟨u, hu, mapError_eq_ok.mp hr, rfl⟩

/-- The engine hashes with the deployable's hash in the world, and leaves the world as it was. -/
theorem contentHash_eq_ok {units : List UnitDef} {d : Deployable σ} {a : Artifact}
    {x x' : RunWorld σ} {h : String}
    (hh : ((engineCollaborators sv o units).contentHash d a).run x = (.ok h, x')) :
    Deployable.contentHash x.1 d a = .ok h ∧ x' = x := by
  obtain ⟨w, st⟩ := x
  simp only [engineCollaborators, ExceptT.run] at hh
  obtain ⟨hr, rfl⟩ := Prod.mk.inj hh
  exact ⟨hr, rfl⟩

section Run

variable (hst : st.Keyed) (hne : ∀ n, st.deployments.get? n ≠ some [])
  (hP : (sv.planTemplate template o st w).errors = [])
  {L : List (DeployTask (Deployable σ) × Outcome)} (hnodup : (L.map Prod.fst).Nodup)
  (hmem : ∀ x ∈ L, x.1 ∈ (sv.planTemplate template o st w).graph.tasks ∧ ∃ L₁ w₀ w₁, L₁ <+: L ∧
    w₀.2 = recordSuccesses template.units sv.now L₁ st ∧
    (execute (engineCollaborators sv o template.units) x.1).run w₀ = (.ok x.2, w₁))
  (hall : ∀ t ∈ (sv.planTemplate template o st w).graph.tasks, ∃ out, (t, out) ∈ L)

include hst hP hnodup hmem in
/-- A run of a clean plan takes no two successes at one unit and record key. -/
theorem clean_run_writers_apart (hnames : template.unitNames.Nodup)
    (hkeys : template.KeyedTargets o sv.config.regionOverride)
    {L₁ L₂ : List (DeployTask (Deployable σ) × Outcome)} (hL : L₁ ++ L₂ = L)
    {x y : DeployTask (Deployable σ) × Outcome} (hx : x ∈ L₁) (hy : y ∈ L₂)
    (hu : x.1.id.unit = y.1.id.unit) (hk : x.1.target.key = y.1.target.key) : False := by
  have hxy : x.1 = y.1 := sv.planTemplate_clean_unique hst hP hnames hkeys
    (hmem x (hL ▸ List.mem_append_left _ hx)).1 (hmem y (hL ▸ List.mem_append_right _ hy)).1 hu hk
  -- one task, in both parts of a list of distinct tasks
  rw [← hL, List.map_append, List.nodup_append] at hnodup
  exact hnodup.2.2 _ (List.mem_map_of_mem hx) _ (List.mem_map_of_mem hy) hxy

include hst hP hnodup hmem in
/-- An import reads, after the first successes of a run of a clean plan, the output it reads
after all of them, or the one it read before the run: one success at most writes its record. -/
theorem clean_run_importOutput (hnames : template.unitNames.Nodup)
    (hkeys : template.KeyedTargets o sv.config.regionOverride)
    {L₁ : List (DeployTask (Deployable σ) × Outcome)} (hL₁ : L₁ <+: L) (i : ImportRef) :
    (recordSuccesses template.units sv.now L₁ st).importOutput? i =
        (recordSuccesses template.units sv.now L st).importOutput? i ∨
      (recordSuccesses template.units sv.now L₁ st).importOutput? i = st.importOutput? i := by
  obtain ⟨L₂, hL⟩ := hL₁
  have hone : ∀ x ∈ L₁, ∀ y ∈ L₂,
      x.1.id.unit = i.unit ∧ x.1.target.key = targetKey i.accountId i.region →
        ¬ (y.1.id.unit = i.unit ∧ y.1.target.key = targetKey i.accountId i.region) :=
    fun x hx y hy hxk hyk => sv.clean_run_writers_apart hst hP hnodup hmem hnames hkeys hL hx hy
      (hxk.1.trans hyk.1.symm) (hxk.2.trans hyk.2.symm)
  simp only [State.importOutput?_eq, ← hL]
  rcases get?_recordSuccesses_prefix hone st with h | h
  · exact .inl (by rw [h])
  · exact .inr (by rw [h])

include hst hne hP hnodup hmem in
/-- A unit renders against the committed state what it renders, at one of its targets, against
the records that some first successes of a run of a clean plan left. Its imports read there the
committed outputs, or, where the run writes the record only later, the outputs of the planned
state, which stable imports keep. -/
theorem clean_run_render_committed (hnames : template.unitNames.Nodup)
    (hkeys : template.KeyedTargets o sv.config.regionOverride) {S : State}
    (hSd : S.deployments = (recordSuccesses template.units sv.now L st).deployments)
    (hSb : S.bindings = st.bindings)
    (hstable : template.StableImports o sv.config.regionOverride st S)
    {L₁ : List (DeployTask (Deployable σ) × Outcome)} (hL₁ : L₁ <+: L) {u : UnitDef}
    (hu : u ∈ template.units) {targets : List Target}
    (hres : u.binding.resolve o sv.config.regionOverride = .ok targets) {t : Target}
    (ht : t ∈ targets) {a : Artifact}
    (ha : render o (recordSuccesses template.units sv.now L₁ st) u t = .ok a) :
    render o S u t = .ok a := by
  have hb₁ := (recordSuccesses_kept template.units sv.now hst.key_eq hne L₁).2.2
  obtain ⟨hcol, hsome, hsame⟩ := (render_reads_outputs_through_imports o
    (recordSuccesses template.units sv.now L₁ st) u t).1 a ha
  refine hsame S (hSb.trans hb₁.symm) fun i hi => ?_
  obtain ⟨v, hv⟩ := Option.isSome_iff_exists.mp (hsome i hi)
  rcases sv.clean_run_importOutput hst hP hnodup hmem hnames hkeys hL₁ i with heq | heq
  · rw [State.importOutput?_of_deployments hSd, heq]
  · rw [hv]
    exact hstable u hu targets hres t ht _ hb₁ a.imports hcol i hi v (heq ▸ hv)

include hst hne hP hnodup hmem in
/-- A success of a run of a clean plan at a target of a unit of the template leaves there a
record with the hash of what the unit renders against the committed state, whether the task
carried its artifact from the plan or rendered it late. -/
theorem clean_run_success_current (hnames : template.unitNames.Nodup)
    (hkeys : template.KeyedTargets o sv.config.regionOverride) (hhash : sv.WorldFreeHashes)
    {S : State} (hSd : S.deployments = (recordSuccesses template.units sv.now L st).deployments)
    (hSb : S.bindings = st.bindings)
    (hstable : template.StableImports o sv.config.regionOverride st S) {u : UnitDef}
    (hu : u ∈ template.units) {d : Deployable σ} {targets : List Target}
    (hd : sv.deployable u = .ok d) (hres : u.binding.resolve o sv.config.regionOverride = .ok targets)
    {t : Target} (ht : t ∈ targets) (w' : σ) {x : DeployTask (Deployable σ) × Outcome}
    (hx : x ∈ L) (hxu : x.1.id.unit = u.name) (hxk : x.1.target.key = t.key) :
    ∃ a h, render o S u t = .ok a ∧ Deployable.contentHash w' d a = .ok h ∧
      (x.1.recordLeft x.2 sv.now).map (·.lastCommittedHash) = some h := by
  obtain ⟨hxg, L₁, w₀, w₁, hL₁, hw₀, hexec⟩ := hmem x hx
  obtain ⟨htt, hdep, hkind⟩ :=
    sv.planTemplate_clean_create_at hst hP hnames hkeys hxg hu hd hres ht hxu hxk
  have hcreate : x.1.action = .createOrUpdate := by
    rcases hkind with ⟨_, _, _, _, hk⟩ | hk <;> simp [DeployTask.action, hk]
  obtain ⟨a, h, w₂, hp, -, hout⟩ := execute_ok hcreate hexec
  -- the artifact applied is what the unit renders against the records some first successes
  -- left: none for a carried artifact, those before the task for a late one
  have hprep : ∃ L₂, L₂ <+: L ∧
      render o (recordSuccesses template.units sv.now L₂ st) u t = .ok a ∧
      ∃ w₃, Deployable.contentHash w₃ d a = .ok h := by
    cases hp with
    | late _ hresolve hhashed =>
      obtain ⟨u', hu', hr, -⟩ := sv.resolve_eq_ok hresolve
      have hunit : template.unit? x.1.id.unit = some u := by
        rw [hxu]
        exact Template.unit?_of_mem hnames hu
      rw [Option.some.inj (hu'.symm.trans hunit), htt, hw₀] at hr
      exact ⟨L₁, hL₁, hr, _, hdep ▸ (sv.contentHash_eq_ok hhashed).1⟩
    | carried _ hkind' =>
      rcases hkind with ⟨a₀, h₀, ha₀, hh₀, hk⟩ | hk <;> rw [hk] at hkind'
      · simp only [TaskKind.createOrUpdate.injEq, Option.some.injEq] at hkind'
        obtain ⟨rfl, rfl⟩ := hkind'
        exact ⟨[], List.nil_prefix, ha₀, w, hh₀⟩
      · cases hkind'
    | hashed _ hkind' _ =>
      rcases hkind with ⟨_, _, _, _, hk⟩ | hk <;> rw [hk] at hkind' <;> cases hkind'
  obtain ⟨L₂, hL₂, hr, w₃, hh⟩ := hprep
  exact ⟨a, h, sv.clean_run_render_committed hst hne hP hnodup hmem hnames hkeys hSd hSb hstable
    hL₂ hu hres ht hr, by rw [hhash.contentHash hd a w' w₃, hh],
    by simp [DeployTask.recordLeft, hcreate, recordOf, hout]⟩

include hst hne hP hnodup hmem hall in
/-- After a run that took every task of a clean plan, each unit of the template renders at each
of its targets, against the committed state, an artifact whose hash the unit's record there
has. -/
theorem clean_run_current (hnames : template.unitNames.Nodup)
    (hkeys : template.KeyedTargets o sv.config.regionOverride) (hhash : sv.WorldFreeHashes)
    {S : State} (hSd : S.deployments = (recordSuccesses template.units sv.now L st).deployments)
    (hSb : S.bindings = st.bindings)
    (hstable : template.StableImports o sv.config.regionOverride st S) {u : UnitDef}
    (hu : u ∈ template.units) {d : Deployable σ} {targets : List Target}
    (hd : sv.deployable u = .ok d) (hres : u.binding.resolve o sv.config.regionOverride = .ok targets)
    {t : Target} (ht : t ∈ targets) (w' : σ) :
    ∃ a h, render o S u t = .ok a ∧ Deployable.contentHash w' d a = .ok h ∧
      (S.record? u.name t.accountId t.region).map (·.lastCommittedHash) = some h := by
  rw [State.record?_target, State.recordTable_of_deployments hSd]
  by_cases hx : ∃ x ∈ L, x.1.id.unit = u.name ∧ x.1.target.key = t.key
  · -- the success there records the hash of what the unit renders
    exact get?_recordSuccesses_of_touched (fun v => ∃ a h, render o S u t = .ok a ∧
      Deployable.contentHash w' d a = .ok h ∧ v.map (·.lastCommittedHash) = some h) hx
      (fun x hx' hxu hxk => sv.clean_run_success_current hst hne hP hnodup hmem hnames hkeys hhash
        hSd hSb hstable hu hd hres ht w' hx' hxu hxk) st
  · -- no success there: the record is the one the plan found current
    rw [get?_recordSuccesses_of_untouched (fun x hx' hxnk => hx ⟨x, hx', hxnk⟩) st]
    by_cases hcur : ∃ a h, render o st u t = .ok a ∧ Deployable.contentHash w d a = .ok h ∧
        (st.record? u.name t.accountId t.region).map (·.lastCommittedHash) = some h
    · obtain ⟨a, h, ha, hh, hrec⟩ := hcur
      refine ⟨a, h, sv.clean_run_render_committed hst hne hP hnodup hmem hnames hkeys hSd hSb
        hstable List.nil_prefix hu hres ht ha, by rw [hhash.contentHash hd a w' w, hh], ?_⟩
      rwa [State.record?_target] at hrec
    · obtain ⟨gt, hgt, hgu, hgt'⟩ :=
        sv.planTemplate_clean_target_task hst hP hnames hu hd hres ht hcur
      obtain ⟨out, hout⟩ := hall gt hgt
      exact absurd ⟨(gt, out), hout, hgu, by rw [hgt']⟩ hx

include hst hP hmem hall in
/-- After a run that took every task of a clean plan, the state records nothing at a target that
no unit of the template of its name renders. -/
theorem clean_run_only (hnames : template.unitNames.Nodup) {n k : String} {r : Record}
    (hr : ((recordSuccesses template.units sv.now L st).recordTable n).get? k = some r) :
    ∃ u, template.unit? n = some u ∧ ∃ targets,
      u.binding.resolve o sv.config.regionOverride = .ok targets ∧ k ∈ targets.map (·.key) := by
  by_cases hx : ∃ x ∈ L, x.1.id.unit = n ∧ x.1.target.key = k
  · -- only a create-or-update leaves a record, at a target of a unit of the template
    refine get?_recordSuccesses_of_touched (fun v => v = some r → ∃ u, template.unit? n = some u ∧
      ∃ targets, u.binding.resolve o sv.config.regionOverride = .ok targets ∧
        k ∈ targets.map (·.key)) hx (fun x hx' hxu hxk hleft => ?_) st hr
    obtain ⟨hxg, -⟩ := hmem x hx'
    rcases (sv.planTemplate_clean_planned hst hP hnames hxg).2 with
      ⟨u, hu, d, targets, -, hres, htgt, -⟩ | ⟨hdel, -⟩
    · exact ⟨u, hxu ▸ hu, targets, hres, by rw [← hxk]; exact List.mem_map_of_mem htgt⟩
    · simp [DeployTask.recordLeft, hdel] at hleft
  · rw [get?_recordSuccesses_of_untouched (fun x hx' hxnk => hx ⟨x, hx', hxnk⟩) st] at hr
    rcases sv.planTemplate_clean_stale_record hst hP hnames hr with hcur | ⟨gt, hgt, hgu, hgk⟩
    · exact hcur
    · obtain ⟨out, hout⟩ := hall gt hgt
      exact absurd ⟨(gt, out), hout, hgu, hgk⟩ hx

include hst hne hP hnodup hmem hall in
/-- After a run that took every task of a clean plan, a state with the records the run built and
the bindings of the planned state is settled for the template, in any world, once plugins hash
alike in every world and the imports are stable. -/
theorem clean_run_settled (hnames : template.unitNames.Nodup)
    (hkeys : template.KeyedTargets o sv.config.regionOverride) (hhash : sv.WorldFreeHashes)
    {S : State} (hSd : S.deployments = (recordSuccesses template.units sv.now L st).deployments)
    (hSb : S.bindings = st.bindings)
    (hstable : template.StableImports o sv.config.regionOverride st S) (w' : σ) :
    sv.Settled template o S w' := by
  obtain ⟨hkey, hne', -⟩ := recordSuccesses_kept template.units sv.now hst.key_eq hne L
  obtain ⟨hplanned, -, -⟩ := sv.planTemplate_clean hst hP hnames
  refine ⟨fun u hu => ?_, fun n k r hr => ?_, fun n => ?_, fun n => ?_⟩
  · obtain ⟨p, hp⟩ := hplanned u.name (List.mem_append_left _ (List.mem_map_of_mem hu))
    obtain ⟨d, targets, hd, hres, -⟩ :=
      sv.planTemplateUnit_inv ((sv.unitPlan_some (Template.unit?_of_mem hnames hu)).symm.trans hp)
    exact ⟨d, targets, hd, hres, fun t ht => sv.clean_run_current hst hne hP hnodup hmem hall
      hnames hkeys hhash hSd hSb hstable hu hd hres ht w'⟩
  · rw [State.recordTable_of_deployments hSd] at hr
    exact sv.clean_run_only hst hP hmem hall hnames hr
  · rw [State.recordTable_of_deployments hSd]
    exact hkey n
  · rw [hSd]
    exact hne' n

end Run

/-! ## Deploying, then planning -/

/-- A mapped `Except` that answers answered before it was mapped. -/
theorem map_mapError_eq_ok {ε ε' α β : Type} {x : Except ε α} {f : ε → ε'} {g : α → β} {b : β}
    (h : (x.mapError f).map g = .ok b) : ∃ a, x = .ok a ∧ b = g a := by
  cases x with
  | error e => cases h
  | ok a =>
    cases h
    exact ⟨a, rfl, rfl⟩

theorem loadOrganization_eq {O : Organization} {st : State} {w : σ}
    (hdir : sv.directory w = .ok O) : sv.loadOrganization st w = .ok (st.bindOrganization O) := by
  unfold loadOrganization
  rw [hdir]
  rfl

theorem plan_run {text : String} {template : Template} {w : σ} {st₀ st : State} {o : Organization}
    (ht : parseTemplate text = .ok template) (hs : sv.loadStateOrDefault w = .ok st₀)
    (ho : sv.loadOrganization st₀ w = .ok (st, o)) :
    (sv.plan text).run w = (.ok (sv.planTemplate template o st w), w) := by
  unfold plan
  rw [ht, Act.run_liftExcept_ok_bind, Act.run_get_bind, hs, Act.run_liftExcept_ok_bind, ho]
  rfl

/-- A deploy that answers with a report ran its plan, and saved the state the run built. -/
theorem deploy_answered {text : String} {cancelled : Bool} {w : σ} {template : Template}
    {st₀ st : State} {o : Organization} {report : DeployReport}
    (ht : parseTemplate text = .ok template) (hs : sv.loadState w = .ok st₀)
    (ho : sv.loadOrganization st₀ w = .ok (st, o))
    (hdeploy : ((sv.deploy text cancelled).run w).1 = .ok report) :
    ∃ res events w₁ built, runGraph sv.config.runOptions (sv.planTemplate template o st w).graph
        (engineCollaborators sv o template.units) cancelled (w, st) = (res, events, w₁, built) ∧
      report = ⟨(sv.planTemplate template o st w).errors, res, events⟩ ∧
      (sv.store.save { (if report.isSuccess then { built with previousTemplate := some text }
        else built) with committedAt := some sv.now }).run w₁ =
        (.ok (), ((sv.deploy text cancelled).run w).2) := by
  cases hin : (sv.planTemplate template o st w).hasInputErrors with
  | true =>
    rw [sv.deploy_invalid cancelled ht hs ho hin] at hdeploy
    cases hdeploy
  | false =>
    rcases hrun : runGraph sv.config.runOptions (sv.planTemplate template o st w).graph
      (engineCollaborators sv o template.units) cancelled (w, st) with ⟨res, events, w₁, built⟩
    have hr := sv.deploy_ready cancelled ht hs ho hin
    simp only [hrun] at hr
    rw [hr] at hdeploy ⊢
    obtain ⟨u, hok, rfl⟩ := map_mapError_eq_ok hdeploy
    exact ⟨res, events, w₁, built, rfl, rfl, Prod.ext hok rfl⟩

/-- A deploy of a template text that plans without error and runs every task to success commits
a state against which planning the same text finds nothing to do: a graph without tasks, and no
error. This holds when the directory keeps giving the organization, which names each entity
once; the store gives back what it saved; plugins hash alike in every world; the loaded state is
keyed, with no empty record table; the outputs the template's imports read before the deploy
are recorded alike after it; and no two targets of a unit share a record key. -/
theorem deploy_then_plan_idle (sv : Services σ) (text : String) (cancelled : Bool) (w : σ)
    {template : Template} {O : Organization} {st₀ : State} {report : DeployReport}
    (ht : parseTemplate text = .ok template) (hs : sv.loadState w = .ok st₀)
    (hdir : ∀ w', sv.directory w' = .ok O) (hstore : sv.store.RoundTrips)
    (hhash : sv.WorldFreeHashes) (hO : (O.entities.map (·.logicalId)).Nodup)
    (hst : st₀.Keyed) (hne : ∀ n, st₀.deployments.get? n ≠ some [])
    (hstable : ∀ S, sv.loadState ((sv.deploy text cancelled).run w).2 = .ok S →
      template.StableImports (st₀.bindOrganization O).2 sv.config.regionOverride
        (st₀.bindOrganization O).1 S)
    (hkeys : template.KeyedTargets (st₀.bindOrganization O).2 sv.config.regionOverride)
    (hdeploy : ((sv.deploy text cancelled).run w).1 = .ok report)
    (hsucc : report.isSuccess = true) :
    ∃ P, ((sv.plan text).run ((sv.deploy text cancelled).run w).2).1 = .ok P ∧
      P.graph.tasks = #[] ∧ P.errors = [] := by
  have hnames := Template.parse_unitNames_nodup (mapError_eq_ok.mp ht)
  rcases hb : st₀.bindOrganization O with ⟨st, o⟩
  rw [hb] at hkeys
  simp only [hb] at hstable
  have ho : sv.loadOrganization st₀ w = .ok (st, o) := by rw [sv.loadOrganization_eq (hdir w), hb]
  -- binding the organization keeps the loaded records
  have hdeps : st.deployments = st₀.deployments := by
    rw [← State.deployments_bindOrganization st₀ O, hb]
  have hkeyed : st.Keyed := hst.of_deployments hdeps
  have hne₁ : ∀ n, st.deployments.get? n ≠ some [] := fun n => hdeps ▸ hne n
  obtain ⟨res, events, w₁, built, hrun, rfl, hsave⟩ := sv.deploy_answered ht hs ho hdeploy
  rw [if_pos hsucc] at hsave
  -- the deploy met no planning error, and its run took every task of the graph
  have hsucc' := hsucc
  simp only [DeployReport.isSuccess, Bool.and_eq_true, List.isEmpty_iff] at hsucc'
  obtain ⟨hP, hres⟩ := hsucc'
  obtain ⟨-, ⟨tasks, hbuild⟩, -⟩ := sv.planTemplate_clean hkeyed hP hnames
  obtain ⟨L, hfold, hnodup, hmem, hall⟩ := runGraph_success_replays hbuild
    (sv.engine_built_hooks o template.units _) sv.config.runOptions cancelled (w, st)
    (by rw [hrun]; exact hres)
  rw [hrun] at hfold
  change built = recordSuccesses template.units sv.now L st at hfold
  subst hfold
  have hbind := (recordSuccesses_kept template.units sv.now hkeyed.key_eq hne₁ L).2.2
  -- the store gives the committed state back to the next plan
  set w' := ((sv.deploy text cancelled).run w).2
  set Sc : State := { { recordSuccesses template.units sv.now L st with
    previousTemplate := some text } with committedAt := some sv.now }
  have hload : sv.loadStateOrDefault w' = .ok Sc := by
    simp only [loadStateOrDefault, hstore _ _ _ hsave]
  have hload' : sv.loadState w' = .ok Sc := by
    simp only [loadState, hstore _ _ _ hsave, Except.mapError]
  -- which binds the organization again into the same organization and bindings
  obtain ⟨ho', hb'⟩ := State.bindOrganization_again hO hb (show Sc.bindings = st.bindings from hbind)
  rcases hb₂ : Sc.bindOrganization O with ⟨S, o'⟩
  rw [hb₂] at ho' hb'
  dsimp only at ho' hb'
  have ho₂ : sv.loadOrganization Sc w' = .ok (S, o') := by
    rw [sv.loadOrganization_eq (hdir w'), hb₂]
  have hplan := sv.plan_run ht hload ho₂
  rw [ho'] at hplan
  have hSdeps : S.deployments = (recordSuccesses template.units sv.now L st).deployments := by
    rw [← State.deployments_bindOrganization Sc O, hb₂]
  have hS := sv.clean_run_settled hkeyed hne₁ hP hnodup hmem hall hnames hkeys hhash hSdeps hb'
    ((hstable Sc hload').of_deployments hSdeps) w'
  exact ⟨_, by rw [hplan], hS.planTemplate_idle hnames⟩

/-- The text of a template with a unit `net` of the plugin `noop` and a unit `app` of that plugin
whose configuration imports the output `Out` of `net`, both bound to account `Dev` in region
`eu`, reads as that template. -/
theorem producer_consumer_text_parses :
    let text := "\x7b\"units\":[\x7b\"name\":\"net\",\"type\":\"plugin\",\"plugin\":\"noop\"," ++
      "\"organization_binding\":\x7b\"accounts\":[\"Dev\"],\"regions\":[\"eu\"]\x7d\x7d," ++
      "\x7b\"name\":\"app\",\"type\":\"plugin\",\"plugin\":\"noop\"," ++
      "\"config\":\x7b\"Fn::CopyValue\":[\"net\",\"Out\"]\x7d," ++
      "\"organization_binding\":\x7b\"accounts\":[\"Dev\"],\"regions\":[\"eu\"]\x7d\x7d]\x7d"
    let b : Binding := { accounts := some (.list [.logicalId "Dev"]), regions := some ["eu"] }
    let copy : Json.Value := .obj [("Fn::CopyValue", .arr [.str "net", .str "Out"])]
    parseTemplate text =
      .ok ⟨[⟨"net", b, .plugin "noop" .null⟩, ⟨"app", b, .plugin "noop" copy⟩]⟩ := by
  intro text b copy
  -- the kernel reads the text; each configuration is compared by its compact text
  have hshape : ((parseTemplate text).toOption.map fun t => t.units.map fun u =>
      (u.name, u.binding,
        (UnitKind.casesOn u.kind (fun _ _ => none) fun p c => some (p, c.compact) :
          Option (String × String)))) =
      some [("net", b, some ("noop", Json.Value.null.compact)),
        ("app", b, some ("noop", copy.compact))] := by
    decide +kernel
  cases hp : parseTemplate text with
  | error e => simp [hp, Except.toOption] at hshape
  | ok t =>
    simp only [hp, Except.toOption, Option.map_some, Option.some.injEq] at hshape
    obtain ⟨_ | ⟨⟨n₁, b₁, k₁⟩, _ | ⟨⟨n₂, b₂, k₂⟩, _ | _⟩⟩⟩ := t
    · cases hshape
    · simp at hshape
    · cases k₁ with
      | stack => simp at hshape
      | plugin p₁ c₁ =>
        cases k₂ with
        | stack => simp at hshape
        | plugin p₂ c₂ =>
          simp only [List.map_cons, List.map_nil, List.cons.injEq, Prod.mk.injEq, Option.some.injEq,
            and_true] at hshape
          obtain ⟨⟨rfl, rfl, rfl, h₁⟩, rfl, rfl, rfl, h₂⟩ := hshape
          -- configurations written alike are alike, and these hold no number
          have ha₁ := Json.alike_of_compact_eq h₁
          have ha₂ : Json.Alike c₂ (.obj [("Fn::CopyValue", .arr [.str "net", .str "Out"])]) :=
            Json.alike_of_compact_eq h₂
          cases ha₁
          rcases ha₂ with _ | _ | _ | _ | _ | ⟨hf⟩
          rcases hf with _ | ⟨k, hv, hrest⟩
          cases hrest
          rcases hv with _ | _ | _ | _ | ⟨hi⟩
          rcases hi with _ | ⟨h₃, hi⟩
          rcases hi with _ | ⟨h₄, hi⟩
          cases hi
          cases h₃
          cases h₄
          rfl
    · simp at hshape

/-- A unit `app` whose configuration imports the output `Out` of a unit `net`, both deployed into
an empty state at one target: `app` misses the output at plan time, so it waits for `net` and
renders late, against the output `net` recorded in the run. The deploy succeeds, and planning the
same text afterwards finds nothing to do. The imports are stable, since the state the plan was
made in records no output. -/
theorem late_import_deploy_then_plan_idle :
    let plugin : Plugin State :=
      { name := "noop", contentHash := fun body _ => .ok body.compact,
        apply := fun _ _ => pure [("Out", "v")], delete := fun _ _ => pure () }
    let sv : Services State :=
      { directory := fun _ => .ok { accounts := [{ logicalId := "Dev", physicalId := some "111" }] },
        store := ⟨fun w => .ok w, fun st => set st⟩,
        backend := { apply := fun _ _ _ _ => pure [], delete := fun _ _ => pure () },
        plugins := PluginRegistry.register {} plugin, now := ⟨0, 0, 0⟩ }
    let text := "\x7b\"units\":[\x7b\"name\":\"net\",\"type\":\"plugin\",\"plugin\":\"noop\"," ++
      "\"organization_binding\":\x7b\"accounts\":[\"Dev\"],\"regions\":[\"eu\"]\x7d\x7d," ++
      "\x7b\"name\":\"app\",\"type\":\"plugin\",\"plugin\":\"noop\"," ++
      "\"config\":\x7b\"Fn::CopyValue\":[\"net\",\"Out\"]\x7d," ++
      "\"organization_binding\":\x7b\"accounts\":[\"Dev\"],\"regions\":[\"eu\"]\x7d\x7d]\x7d"
    ∃ P, ((sv.plan text).run ((sv.deploy text false).run {}).2).1 = .ok P ∧
      P.graph.tasks = #[] ∧ P.errors = [] := by
  intro plugin sv text
  let O : Organization := { accounts := [{ logicalId := "Dev", physicalId := some "111" }] }
  let b : Binding := { accounts := some (.list [.logicalId "Dev"]), regions := some ["eu"] }
  let copy : Json.Value := .obj [("Fn::CopyValue", .arr [.str "net", .str "Out"])]
  let template : Template := ⟨[⟨"net", b, .plugin "noop" .null⟩, ⟨"app", b, .plugin "noop" copy⟩]⟩
  have ht : parseTemplate text = .ok template := producer_consumer_text_parses
  let o := (({} : State).bindOrganization O).2
  let st := (({} : State).bindOrganization O).1
  have ho : sv.loadOrganization {} {} = .ok (st, o) := sv.loadOrganization_eq rfl
  -- `net` carries its artifact; `app` misses the output of `net`, so it is deferred and waits;
  -- the cycle search is evaluated by its equations, not the kernel
  let tnet : DeployTask (Deployable State) :=
    { id := ⟨"net", "111", "eu"⟩, target := ⟨"111", "eu", "Dev"⟩,
      kind := .createOrUpdate (some ⟨.null, [], []⟩) (some "null"),
      deployable := .plugin plugin .null }
  let tapp : DeployTask (Deployable State) :=
    { id := ⟨"app", "111", "eu"⟩, target := ⟨"111", "eu", "Dev"⟩, kind := .createOrUpdate none none,
      imports := [⟨"net", "111", "eu", "Out"⟩], dependsOn := [⟨"net", "111", "eu"⟩],
      deployable := .plugin plugin copy }
  obtain ⟨hP, hg⟩ : (sv.planTemplate template o st {}).errors = [] ∧
      (sv.planTemplate template o st {}).graph = ⟨#[tnet, tapp], #[[], [0]], #[[1], []]⟩ := by
    cbv
  have hin : (sv.planTemplate template o st {}).hasInputErrors = false := by
    simp only [Plan.hasInputErrors, hP, List.any_nil]
  have hr := sv.deploy_ready false ht rfl ho hin
  rw [hg] at hr
  let run := runGraph sv.config.runOptions ⟨#[tnet, tapp], #[[], [0]], #[[1], []]⟩
    (engineCollaborators sv o template.units) false ({}, st)
  have hdeploy : ((sv.deploy text false).run {}).1 =
      .ok ⟨(sv.planTemplate template o st {}).errors, run.1, run.2.1⟩ := by
    rw [hr]
    rfl
  have hsucc : (⟨(sv.planTemplate template o st {}).errors, run.1, run.2.1⟩ :
      DeployReport).isSuccess = true := by
    simp only [DeployReport.isSuccess, hP, List.isEmpty_nil, Bool.true_and]
    decide +kernel
  have hres : b.resolve o sv.config.regionOverride = .ok [⟨"111", "eu", "Dev"⟩] := by cbv
  refine deploy_then_plan_idle sv text false {} ht rfl (fun _ => rfl) ?_ ?_ (by decide)
    ⟨List.nodup_nil, fun _ => List.nodup_nil, fun _ _ h => by cases h⟩ (fun _ h => by cases h)
    ?_ ?_ hdeploy hsucc
  · intro st' w w' h
    cases h
    rfl
  · intro p hp body w w'
    obtain rfl := List.mem_singleton.mp hp
    rfl
  · -- the outputs are new to the run: the state the plan was made in records none
    intro S _ u _ targets _ t _ s _ imports _ i _ v hv
    simp [State.importOutput?_eq, State.recordTable, State.deployments_bindOrganization] at hv
  · intro u hu targets hu'
    have hb : u.binding = b := by
      rcases List.mem_pair.mp hu with rfl | rfl <;> rfl
    rw [hb, hres] at hu'
    cases hu'
    decide

end Services

end OrgDeploy
