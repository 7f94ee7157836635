import Mathlib
import OrgDeploy.Proofs.Plan.Diff
import OrgDeploy.Proofs.Render.Frame
import OrgDeploy.Proofs.Engine.Reachable

/-!
# A settled state plans nothing

The planner diffs what a template renders against what the state records: a render whose hash
the unit's record at its target already has asks for no task, and a record at a target that no
render is for is deleted. A state is *settled* for a template (`Services.Settled`) when every
unit of the template renders at each of its targets with a hash that the unit's record there
has, and the state records nothing else. Planning the template against a settled state gives a
graph without tasks and no error (`Services.Settled.planTemplate_idle`).

The state a clean deploy commits is such a state, under conditions that `Engine/Converge`
states; this is why a deploy followed by a plan of the same template finds nothing to do.
-/

namespace OrgDeploy

variable {δ σ : Type}

/-! ## Renders that went through -/

namespace TargetRender

variable {state : State} {hash : δ → Artifact → Except TaskError String} {name : String} {d : δ}
  {r : TargetRender} {a : Artifact} {h : String}

theorem stopsWith_of_ok (hr : r.result = .ok a) (hh : hash d a = .ok h) :
    r.stopsWith hash name d = none := by
  simp only [stopsWith, hr, hh]

theorem deferredEntry_of_ok (hr : r.result = .ok a) : r.deferredEntry name = none := by
  simp only [deferredEntry, hr]

/-- A render that went through asks for a create-or-update of its artifact, unless the record at
its target has the artifact's hash. -/
theorem taskFor_of_ok (hr : r.result = .ok a) (hh : hash d a = .ok h) :
    r.taskFor state hash name d =
      if (state.record? name r.target.accountId r.target.region).map (·.lastCommittedHash) = some h
      then none
      else some { id := TaskId.ofTarget name r.target, target := r.target,
                  kind := .createOrUpdate (some a) (some h), imports := a.imports,
                  deployable := d } := by
  simp only [taskFor, hr, hh]

/-- A task a render asks for is at the render's target, under its unit's id there, with the
unit's deployable: a create-or-update that carries the artifact and its hash, or a deferred one
that carries neither. -/
theorem taskFor_eq_some {t : DeployTask δ} (ht : r.taskFor state hash name d = some t) :
    t.id = TaskId.ofTarget name r.target ∧ t.target = r.target ∧ t.deployable = d ∧
      ((∃ a h, r.result = .ok a ∧ hash d a = .ok h ∧ t.kind = .createOrUpdate (some a) (some h)) ∨
        t.kind = .createOrUpdate none none) := by
  unfold taskFor at ht
  split at ht
  · rename_i a' hr
    split at ht
    · rename_i h' hh
      split at ht
      · cases ht
      · cases ht
        exact ⟨rfl, rfl, rfl, .inl ⟨a', h', hr, hh, rfl⟩⟩
    · cases ht
  · cases ht
    exact ⟨rfl, rfl, rfl, .inr rfl⟩
  · cases ht

/-- A render that does not stop its unit asks for a task unless it is current: an artifact with
a hash that the unit's record at the target has. -/
theorem exists_taskFor (hstop : r.stopsWith hash name d = none)
    (hcur : ¬ ∃ a h, r.result = .ok a ∧ hash d a = .ok h ∧
      (state.record? name r.target.accountId r.target.region).map (·.lastCommittedHash) = some h) :
    ∃ t, r.taskFor state hash name d = some t := by
  cases hr : r.result with
  | ok a' =>
    cases hh : hash d a' with
    | ok h' =>
      exact ⟨_, by rw [taskFor_of_ok hr hh, if_neg fun hrec => hcur ⟨a', h', hr, hh, hrec⟩]⟩
    | error e => simp [stopsWith, hr, hh] at hstop
  | error e =>
    -- missing outputs defer the task; an invalid expression would have stopped the unit
    cases e with
    | unresolvedExport unit key missing => simp [taskFor, hr]
    | invalidExpression unit f m => simp [stopsWith, hr] at hstop

end TargetRender

/-! ## Planning one unit -/

/-- A unit none of whose renders stops it is planned with the task each render asks for, then
its deletes; with no deferred task when no render is deferred. -/
theorem planUnit_of_renders (state : State) (hash : δ → Artifact → Except TaskError String)
    (input : UnitInput δ)
    (hnone : ∀ r ∈ input.renders, r.stopsWith hash input.name input.deployable = none) :
    ∃ p, planUnit state hash input = .ok p ∧ p.unit = input.name ∧
      p.tasks = input.renders.filterMap (·.taskFor state hash input.name input.deployable) ++
        deleteTasks state input ∧
      ((∀ r ∈ input.renders, r.deferredEntry input.name = none) → p.deferred = []) := by
  have hall : input.renders.mapM (renderTask state hash input.name input.deployable) =
      .ok (input.renders.map fun r =>
        (r.taskFor state hash input.name input.deployable).map
          fun t => (t, (r.deferredEntry input.name).map Prod.snd)) :=
    mapM_ok_of_forall fun r hr => renderTask_eq_ok (hnone r hr)
  obtain ⟨htasks, -⟩ := filed_of_renders state hash input.name input.deployable input.renders
  rw [planUnit_eq, hall]
  refine ⟨_, rfl, rfl, ?_, fun hdef => ?_⟩
  · dsimp only
    rw [foldl_fileTask_fst, htasks, List.nil_append]
  · -- only a deferred render files an entry
    refine List.eq_nil_iff_forall_not_mem.mpr fun x hx => ?_
    rcases mem_foldl_fileTask_snd _ _ x hx with hx | ⟨t, ht, -⟩
    · cases hx
    · obtain ⟨r, hr, hrt⟩ := List.mem_map.mp ht
      rw [hdef r hr] at hrt
      simp at hrt

/-- A unit planned without error has no render that stops it. -/
theorem stopsWith_of_planUnit {state : State} {hash : δ → Artifact → Except TaskError String}
    {input : UnitInput δ} {p : UnitPlan δ} (h : planUnit state hash input = .ok p) :
    ∀ r ∈ input.renders, r.stopsWith hash input.name input.deployable = none := by
  rw [planUnit_eq] at h
  cases hm : input.renders.mapM (renderTask state hash input.name input.deployable) with
  | error e => rw [hm] at h; cases h
  | ok outs =>
    intro r hr
    obtain ⟨o, -, ho⟩ := exists_of_forall₂_mem_right (mapM_ok_forall₂ hm).flip r hr
    exact exists_renderTask_eq_ok_iff.mp ⟨o, ho⟩

/-- The tasks of a unit planned without error: the task each render asks for, then the
deletes. -/
theorem planUnit_tasks_eq {state : State} {hash : δ → Artifact → Except TaskError String}
    {input : UnitInput δ} {p : UnitPlan δ} (h : planUnit state hash input = .ok p) :
    p.tasks = input.renders.filterMap (·.taskFor state hash input.name input.deployable) ++
      deleteTasks state input := by
  obtain ⟨p', hp', -, htasks, -⟩ := planUnit_of_renders state hash input (stopsWith_of_planUnit h)
  rw [h] at hp'
  cases hp'
  exact htasks

/-- A delete task of a unit is at the target of a record that no render is for. -/
theorem mem_deleteTasks_target {state : State} {input : UnitInput δ} {t : DeployTask δ}
    (ht : t ∈ deleteTasks state input) :
    ∃ record ∈ state.records input.name,
      (input.renders.map (·.target.key)).contains record.key = false ∧
      t.id = TaskId.ofTarget input.name record.target ∧ t.target = record.target ∧
      t.kind = .delete := by
  obtain ⟨record, hrec, hsome⟩ := List.mem_filterMap.mp ht
  split at hsome
  · cases hsome
  · rename_i hnot
    cases hsome
    exact ⟨record, hrec, Bool.eq_false_iff.mpr hnot, rfl, rfl, rfl⟩

/-- A record at a target no render is for has its delete task. -/
theorem delete_mem_deleteTasks {state : State} {input : UnitInput δ} {record : Record}
    (hrec : record ∈ state.records input.name)
    (hkey : (input.renders.map (·.target.key)).contains record.key = false) :
    { id := TaskId.ofTarget input.name record.target, target := record.target, kind := .delete,
      imports := (input.deployedImports.get? record.key).getD [],
      deployable := input.deployable } ∈ deleteTasks state input :=
  List.mem_filterMap.mpr ⟨record, hrec, by rw [if_neg (Bool.eq_false_iff.mp hkey)]⟩

/-- A unit all of whose records are at targets it renders deletes nothing. -/
theorem deleteTasks_eq_nil {state : State} {input : UnitInput δ}
    (h : ∀ r ∈ state.records input.name, r.key ∈ input.renders.map (·.target.key)) :
    deleteTasks state input = [] := by
  unfold deleteTasks
  refine List.filterMap_eq_nil_iff.mpr fun r hr => ?_
  rw [if_pos (List.contains_iff_mem.mpr (h r hr))]

theorem TaskGraph.build_nil : TaskGraph.build ([] : List (DeployTask δ)) = .ok ⟨#[], #[], #[]⟩ := by
  simp [TaskGraph.build, firstRepeatedId, TaskGraph.links, findCycle, cycleOf]
  rfl

/-- Plans without tasks or deferred ones assemble into a graph without tasks, and no error. -/
theorem assemble_idle {plans : List (UnitPlan δ)}
    (h : ∀ p ∈ plans, p.tasks = [] ∧ p.deferred = []) :
    (assemble plans).graph.tasks = #[] ∧ (assemble plans).errors = [] := by
  have hflat : plans.flatMap (·.tasks) = [] :=
    List.flatMap_eq_nil_iff.mpr fun p hp => (h p hp).1
  have hres : unresolvable plans (taskIds plans .createOrUpdate) = [] :=
    List.filterMap_eq_nil_iff.mpr fun p hp => by simp [(h p hp).2]
  have hlink : linkTasks plans (taskIds plans .createOrUpdate) = [] := by
    have hmap := linkTasks_withoutLinks plans (taskIds plans .createOrUpdate)
    rw [hflat, List.map_nil] at hmap
    exact List.map_eq_nil_iff.mp hmap
  unfold assemble
  rw [assembleWithin]
  dsimp only
  rw [hres]
  dsimp only
  rw [hlink, TaskGraph.build_nil]
  exact ⟨rfl, rfl⟩

/-! ## Settled states -/

/-- A state settled for a template, in an organization and a world: every unit of the template
renders at each of its targets, with a hash that the unit's record there has; the state records
nothing at a target that no unit of the template renders; every record is under its own key, and
no unit's record table is empty. -/
structure Services.Settled (sv : Services σ) (template : Template) (o : Organization)
    (S : State) (w : σ) : Prop where
  current : ∀ u ∈ template.units, ∃ d targets, sv.deployable u = .ok d ∧
    u.binding.resolve o sv.config.regionOverride = .ok targets ∧
    ∀ t ∈ targets, ∃ a h, render o S u t = .ok a ∧ Deployable.contentHash w d a = .ok h ∧
      (S.record? u.name t.accountId t.region).map (·.lastCommittedHash) = some h
  only : ∀ n k r, (S.recordTable n).get? k = some r → ∃ u, template.unit? n = some u ∧
    ∃ targets, u.binding.resolve o sv.config.regionOverride = .ok targets ∧
      k ∈ targets.map (·.key)
  keyed : ∀ n, ∀ kr ∈ S.recordTable n, kr.1 = kr.2.key
  nonempty : ∀ n, S.deployments.get? n ≠ some []

namespace Services.Settled

variable {sv : Services σ} {template : Template} {o : Organization} {S : State} {w : σ}
  (hS : sv.Settled template o S w)
include hS

/-- Every record of a settled state is at a target of a unit of the template. -/
theorem record_rendered {n : String} {r : Record} (hr : r ∈ S.records n) :
    ∃ u, template.unit? n = some u ∧ ∃ targets,
      u.binding.resolve o sv.config.regionOverride = .ok targets ∧ r.key ∈ targets.map (·.key) := by
  obtain ⟨kr, hkr, rfl⟩ := List.mem_map.mp hr
  have hkeys : kr.1 ∈ (S.recordTable n).keys := List.mem_map_of_mem hkr
  obtain ⟨r', hr'⟩ := Option.isSome_iff_exists.mp (Table.get?_isSome_of_mem_keys hkeys)
  rw [← hS.keyed n kr hkr]
  exact hS.only n kr.1 r' hr'

/-- Every unit with records in a settled state is a unit of the template. -/
theorem unit_of_mem {n : String} (hn : n ∈ S.unitNames) : ∃ u, template.unit? n = some u := by
  obtain ⟨T, hT⟩ := Option.isSome_iff_exists.mp (Table.get?_isSome_of_mem_keys hn)
  cases T with
  | nil => exact absurd hT (hS.nonempty n)
  | cons kr T =>
    obtain ⟨k, r⟩ := kr
    have hget : (S.recordTable n).get? k = some r := by simp [State.recordTable, hT]
    obtain ⟨u, hu, -⟩ := hS.only n k r hget
    exact ⟨u, hu⟩

/-- A settled state has no unit that the template no longer has. -/
theorem plannedNames_eq : template.plannedNames S = template.unitNames := by
  unfold Template.plannedNames
  rw [List.filter_eq_nil_iff.mpr, List.append_nil]
  intro n hn
  obtain ⟨u, hu⟩ := hS.unit_of_mem hn
  have hmem : n ∈ template.unitNames := by
    rw [← Template.unit?_name hu]
    exact List.mem_map_of_mem (List.mem_of_find?_eq_some hu)
  simpa using hmem

/-- Against a settled state, a unit of the template is planned with no task. -/
theorem planTemplateUnit_eq (hnames : template.unitNames.Nodup) {u : UnitDef}
    (hu : u ∈ template.units) (previous : Option Template) :
    sv.planTemplateUnit o S previous w u = .ok ⟨u.name, [], []⟩ := by
  obtain ⟨d, targets, hd, hres, hcur⟩ := hS.current u hu
  set input : UnitInput (Deployable σ) := ⟨u.name, d, targets.map (targetRender o S u),
    deployedImports o S ((deployedDefinition S previous u.name).getD u)⟩ with hinput
  -- every render went through with the hash the record there has
  have hren : ∀ r ∈ input.renders, ∃ a h, r.result = .ok a ∧
      Deployable.contentHash w d a = .ok h ∧
      (S.record? u.name r.target.accountId r.target.region).map (·.lastCommittedHash) = some h := by
    intro r hr
    obtain ⟨t, ht, rfl⟩ := List.mem_map.mp hr
    exact hcur t ht
  obtain ⟨p, hp, hunit, htasks, hdef⟩ := planUnit_of_renders S (Deployable.contentHash w) input
    fun r hr => by
      obtain ⟨a, h, hra, hh, -⟩ := hren r hr
      exact TargetRender.stopsWith_of_ok hra hh
  have hfiled : input.renders.filterMap (·.taskFor S (Deployable.contentHash w) u.name d) = [] := by
    refine List.filterMap_eq_nil_iff.mpr fun r hr => ?_
    obtain ⟨a, h, hra, hh, hrec⟩ := hren r hr
    rw [TargetRender.taskFor_of_ok hra hh, if_pos hrec]
  -- every record is at a target the unit renders
  have hdel : deleteTasks S input = [] := by
    refine deleteTasks_eq_nil fun r hr => ?_
    obtain ⟨u', hu', targets', hres', hkey⟩ := hS.record_rendered hr
    rw [Template.unit?_of_mem hnames hu] at hu'
    cases hu'
    rw [hres] at hres'
    cases hres'
    simpa [hinput, targetRender, List.map_map, Function.comp_def] using hkey
  have hpeq : p = ⟨u.name, [], []⟩ := by
    obtain ⟨unit, tasks, deferred⟩ := p
    simp only at hunit htasks hdef
    rw [hunit, htasks, hfiled, hdel,
      hdef fun r hr => TargetRender.deferredEntry_of_ok (hren r hr).choose_spec.choose_spec.1]
    rfl
  unfold planTemplateUnit
  simp only [hd, hres, bind, Except.bind, Except.mapError]
  rw [← hpeq, ← hp]

/-- A settled state plans nothing: no task and no error. -/
theorem planTemplate_idle (hnames : template.unitNames.Nodup) :
    (sv.planTemplate template o S w).graph.tasks = #[] ∧
      (sv.planTemplate template o S w).errors = [] := by
  -- every planned name is a unit of the template, planned with no task
  have hplan : ∀ n ∈ template.plannedNames S,
      sv.unitPlan template o S w n = .ok ⟨n, [], []⟩ := by
    intro n hn
    rw [hS.plannedNames_eq] at hn
    obtain ⟨u, hu, rfl⟩ := List.mem_map.mp hn
    rw [sv.unitPlan_some (Template.unit?_of_mem hnames hu)]
    exact hS.planTemplateUnit_eq hnames hu _
  have herr : errorsOf (sv.unitPlan template o S w) (template.plannedNames S) = [] :=
    List.filterMap_eq_nil_iff.mpr fun n hn => by rw [hplan n hn]; rfl
  have hidle : ∀ p ∈ plansOf (sv.unitPlan template o S w) (template.plannedNames S),
      p.tasks = [] ∧ p.deferred = [] := by
    intro p hp
    obtain ⟨n, hn, hpn⟩ := List.mem_filterMap.mp hp
    rw [hplan n hn] at hpn
    cases hpn
    exact ⟨rfl, rfl⟩
  obtain ⟨hg, he⟩ := assemble_idle hidle
  rw [sv.planTemplate_eq hnames]
  exact ⟨hg, by rw [herr, he]; rfl⟩

end Services.Settled

end OrgDeploy
