import Mathlib
import OrgDeploy.Proofs.Plan.Unit
import OrgDeploy.Proofs.Render.Imports
import OrgDeploy.Proofs.Resolve.Targets
import OrgDeploy.Engine.Ops
import OrgDeploy.Cli.Run

/-!
# Planning a template

`planTemplate` plans each unit of the template, then each unit with records that the template
no longer has (`Template.plannedNames`), keeping the error of every unit whose planning fails
and the plan of every other one; then it assembles the plans. `planTemplate_eq` states it so,
with `Services.unitPlan` the planning of one name.

What the plan owes the units it was made from is `Plan.AccountsFor`: its graph is acyclic and
every dependency in it is a task of it; it holds exactly the tasks of the units no error names,
so each unit is planned whole or dropped whole, and is either named by an error or has all its
tasks in the graph, never both; no error is `graph`; and every deferred task is linked to a
create-or-update task producing each output it misses, never to itself.

* `accountsFor_of_units`: planning units one by one and assembling accounts for them, as soon
  as the units are distinct, each plan is its unit's and well formed, and each error names its
  unit alone.
* `planTemplate_accountsFor`: so does planning a template, for a template with distinct unit
  names (`Template.parse_unitNames_nodup`) and a state as the store keeps it (`State.Keyed`),
  provided each stored definition is stored under its own name. Without that last condition a
  unit the template no longer has, whose stored definition has another name and an unknown
  plugin, fails with an error naming the other unit: the removed unit is then named by no
  error and has no plan, and the other unit may be named and planned at once.
-/

namespace OrgDeploy

variable {σ δ : Type}

/-! ## Outcomes in `Except` -/

section Except

variable {α β ε : Type}

/-- The error of a failed computation. -/
def errorOf : Except ε α → Option ε
  | .error e => some e
  | .ok _ => none

theorem bind_eq_ok {x : Except ε α} {f : α → Except ε β} {b : β} :
    x >>= f = .ok b ↔ ∃ a, x = .ok a ∧ f a = .ok b := by
  cases x <;> simp [bind, Except.bind]

theorem bind_eq_error {x : Except ε α} {f : α → Except ε β} {e : ε} :
    x >>= f = .error e ↔ x = .error e ∨ ∃ a, x = .ok a ∧ f a = .error e := by
  cases x <;> simp [bind, Except.bind]

theorem toOption_eq_some {x : Except ε α} {a : α} : x.toOption = some a ↔ x = .ok a := by
  cases x <;> simp [Except.toOption]

theorem mapError_eq_ok {ε' : Type} {x : Except ε α} {f : ε → ε'} {a : α} :
    x.mapError f = .ok a ↔ x = .ok a := by
  cases x <;> simp [Except.mapError]

theorem mapError_eq_error {ε' : Type} {x : Except ε α} {f : ε → ε'} {e : ε'} :
    x.mapError f = .error e ↔ ∃ e₀, x = .error e₀ ∧ f e₀ = e := by
  cases x <;> simp [Except.mapError]

/-- A fold that files each outcome, the error of a failure or the value of a success, files
them in order. -/
theorem foldl_collect (f : α → Except ε β) (F : List ε × List β → α → List ε × List β)
    (hF : ∀ acc x, F acc x = (acc.1 ++ (errorOf (f x)).toList, acc.2 ++ (f x).toOption.toList)) :
    ∀ (xs : List α) (acc : List ε × List β), xs.foldl F acc =
      (acc.1 ++ xs.filterMap (fun x => errorOf (f x)), acc.2 ++ xs.filterMap fun x => (f x).toOption)
  | [], acc => by simp
  | x :: xs, acc => by
    rw [List.foldl_cons, foldl_collect f F hF xs, hF]
    cases hx : f x <;> simp [errorOf, Except.toOption, hx]

end Except

/-! ## Planning units by name and assembling them -/

section Units

variable {names : List String} {planOf : String → Except PlanError (UnitPlan δ)}

/-- The plans of the units whose planning succeeded, in order. -/
def plansOf (planOf : String → Except PlanError (UnitPlan δ)) (names : List String) :
    List (UnitPlan δ) :=
  names.filterMap fun n => (planOf n).toOption

/-- The errors of the units whose planning failed, in order. -/
def errorsOf (planOf : String → Except PlanError (UnitPlan δ)) (names : List String) :
    List PlanError :=
  names.filterMap fun n => errorOf (planOf n)

/-- What a plan owes the units `names` it was made from, given the outcome `planOf n` of
planning each of them. -/
structure Plan.AccountsFor (plan : Plan δ) (names : List String)
    (planOf : String → Except PlanError (UnitPlan δ)) : Prop where
  acyclic : ∀ i, ¬ Relation.TransGen plan.graph.DependsOn i i
  deps_present : ∀ t ∈ plan.graph.tasks, ∀ d ∈ t.dependsOn, ∃ u ∈ plan.graph.tasks, u.id = d
  /-- The graph holds, with their links, exactly the tasks of the units no error names. -/
  tasks_eq : ∃ kept : List (UnitPlan δ),
    kept.map (·.unit) = names.filter (fun n => !namedBy plan.errors n) ∧
    (∀ p ∈ kept, planOf p.unit = .ok p) ∧
    plan.graph.tasks.toList.map DeployTask.withoutLinks = kept.flatMap (·.tasks)
  /-- A unit is named by an error exactly when it does not have all its tasks in the graph. -/
  named_iff : ∀ n ∈ names, namedBy plan.errors n = true ↔
    ¬ ∃ p, planOf n = .ok p ∧ ∀ t ∈ p.tasks, t ∈ plan.graph.tasks.toList.map DeployTask.withoutLinks
  no_graph_error : ∀ e ∈ plan.errors, ∀ m, e ≠ .graph m
  deferred_linked : ∀ n ∈ names, ∀ p, planOf n = .ok p → namedBy plan.errors n = false →
    ∀ d ∈ p.deferred, ∀ i ∈ d.2.missingImports, TaskId.sourceOf i ≠ d.1 ∧
      ∃ t ∈ plan.graph.tasks, t.id = d.1 ∧ TaskId.sourceOf i ∈ t.dependsOn ∧
        ∃ s ∈ plan.graph.tasks, s.id = TaskId.sourceOf i ∧ s.action = .createOrUpdate

section

variable (hok : ∀ n p, planOf n = .ok p → p.unit = n ∧ p.WellFormed)
variable (herr : ∀ n e, planOf n = .error e → e.units = [n])

include hok in
theorem mem_plansOf {p : UnitPlan δ} : p ∈ plansOf planOf names ↔ p.unit ∈ names ∧ planOf p.unit = .ok p := by
  simp only [plansOf, List.mem_filterMap, toOption_eq_some]
  constructor
  · rintro ⟨n, hn, hp⟩
    obtain rfl := (hok n p hp).1
    exact ⟨hn, hp⟩
  · rintro ⟨hn, hp⟩
    exact ⟨p.unit, hn, hp⟩

include hok in
theorem plansOf_units :
    (plansOf planOf names).map (·.unit) = names.filter fun n => (planOf n).toOption.isSome := by
  induction names with
  | nil => rfl
  | cons n names ih =>
    simp only [plansOf, List.filterMap_cons, List.filter_cons] at ih ⊢
    cases hn : planOf n with
    | error e => simpa [Except.toOption] using ih
    | ok p => simpa [Except.toOption, (hok n p hn).1] using ih

include hok in
theorem plansOf_wellFormed (hnd : names.Nodup) : PlansWellFormed (plansOf planOf names) := by
  refine ⟨?_, fun p hp => (hok _ p ((mem_plansOf hok).mp hp).2).2⟩
  rw [plansOf_units hok]
  exact hnd.filter _

include herr in
/-- The errors of planning name exactly the units whose planning failed. -/
theorem namedBy_errorsOf {n : String} (hn : n ∈ names) :
    namedBy (errorsOf planOf names) n = true ↔ ∃ e, planOf n = .error e := by
  rw [namedBy_eq_true]
  simp only [errorsOf, List.mem_filterMap]
  constructor
  · rintro ⟨e, ⟨m, -, hm⟩, hne⟩
    cases hpm : planOf m with
    | error e' =>
      rw [hpm] at hm
      cases hm
      rw [herr m e hpm, List.mem_singleton] at hne
      exact ⟨e, hne ▸ hpm⟩
    | ok p =>
      rw [hpm] at hm
      cases hm
  · rintro ⟨e, he⟩
    exact ⟨e, ⟨n, hn, by rw [he]; rfl⟩, by rw [herr n e he]; exact List.mem_singleton_self n⟩

include herr in
theorem errorsOf_not_graph : ∀ e ∈ errorsOf planOf names, ∀ m, e ≠ .graph m := by
  intro e he m hg
  obtain ⟨n, -, hn⟩ := List.mem_filterMap.mp he
  cases hpn : planOf n with
  | error e' =>
    rw [hpn] at hn
    cases hn
    have := herr n e hpn
    rw [hg] at this
    cases this
  | ok p =>
    rw [hpn] at hn
    cases hn

include hok herr in
/-- Planning units one by one and assembling the plans accounts for the units, as soon as they
are distinct, each plan is its unit's and well formed, and each error names its unit alone. -/
theorem accountsFor_of_units (hnd : names.Nodup) :
    ({ assemble (plansOf planOf names) with
        errors := errorsOf planOf names ++ (assemble (plansOf planOf names)).errors } :
      Plan δ).AccountsFor names planOf := by
  have hw := plansOf_wellFormed hok hnd
  obtain ⟨new, g, hasm, hA⟩ := assemble_assembled hw
  rw [hasm]
  dsimp only
  set plans := plansOf planOf names
  set errors := errorsOf planOf names
  -- the units of planned plans are named by no planning error
  have hplanned : ∀ p ∈ plans, namedBy errors p.unit = false := by
    intro p hp
    obtain ⟨hn, hpok⟩ := (mem_plansOf hok).mp hp
    rw [Bool.eq_false_iff, ne_eq, namedBy_errorsOf herr hn]
    rintro ⟨e, he⟩
    rw [hpok] at he
    cases he
  have hkept : keptBy (errors ++ new) plans = keptBy new plans := by
    rw [keptBy_append]
    exact congrArg (keptBy new) (List.filter_eq_self.mpr fun p hp => by simp [hplanned p hp])
  have hnamed : ∀ n ∈ names, namedBy (errors ++ new) n = false ↔
      ∃ p, planOf n = .ok p ∧ p ∈ keptBy new plans := by
    intro n hn
    rw [namedBy_append, Bool.or_eq_false_iff, Bool.eq_false_iff, ne_eq, namedBy_errorsOf herr hn]
    constructor
    · rintro ⟨hnerr, hnew⟩
      cases hpn : planOf n with
      | error e => exact absurd ⟨e, hpn⟩ hnerr
      | ok p =>
        obtain rfl := (hok n p hpn).1
        exact ⟨p, rfl, List.mem_filter.mpr ⟨(mem_plansOf hok).mpr ⟨hn, hpn⟩, by simp [hnew]⟩⟩
    · rintro ⟨p, hpn, hp⟩
      obtain ⟨hp, hnew⟩ := List.mem_filter.mp hp
      obtain rfl := (hok n p hpn).1
      refine ⟨fun ⟨e, he⟩ => ?_, by simpa using hnew⟩
      rw [hpn] at he
      cases he
  have htasks := hA.tasks_withoutLinks hw
  refine ⟨hA.graph_built.acyclic, hA.deps_present hw, ⟨keptBy new plans, ?_, ?_, htasks⟩, ?_, ?_, ?_⟩
  · -- the kept plans are those of the names no error names
    have hunits : (keptBy new plans).map (·.unit) =
        (plans.map (·.unit)).filter fun n => !namedBy new n := by
      rw [keptBy, List.filter_map]
      rfl
    rw [hunits, plansOf_units hok, List.filter_filter]
    refine List.filter_congr fun n hn => ?_
    have herrs : namedBy errors n = !(planOf n).toOption.isSome := by
      rw [Bool.eq_iff_iff, namedBy_errorsOf herr hn]
      cases planOf n <;> simp [Except.toOption]
    rw [namedBy_append, herrs, Bool.not_or, Bool.not_not, Bool.and_comm]
  · intro p hp
    exact ((mem_plansOf hok).mp (List.mem_of_mem_filter hp)).2
  · intro n hn
    constructor
    · rintro hnamedn ⟨p, hpn, hall⟩
      -- a planned unit is named by a new error only, which names a planned unit with tasks
      have hnew : namedBy new n = true := by
        have herrs : namedBy errors n = false := by
          rw [Bool.eq_false_iff, ne_eq, namedBy_errorsOf herr hn]
          rintro ⟨e, he⟩
          rw [hpn] at he
          cases he
        simpa [namedBy_append, herrs] using hnamedn
      obtain ⟨e, he, hne⟩ := namedBy_eq_true.mp hnew
      obtain ⟨q, hq, hqn, hqt⟩ := hA.names_planned e he n hne
      have hqp := ((mem_plansOf hok).mp hq).2
      rw [hqn, hpn] at hqp
      cases hqp
      -- one of its tasks would be in the graph, so of a kept unit, which is this one
      obtain ⟨t, ht⟩ := List.exists_mem_of_ne_nil _ hqt
      have htg := hall t ht
      rw [htasks] at htg
      obtain ⟨r, hr, htr⟩ := List.mem_flatMap.mp htg
      obtain ⟨hr, hrnew⟩ := List.mem_filter.mp hr
      have hru : r.unit = n := by
        rw [← (hw.each r hr).unit_eq t htr, (hw.each p hq).unit_eq t ht, hqn]
      rw [hru, hnew] at hrnew
      cases hrnew
    · intro hnone
      by_contra hfalse
      obtain ⟨p, hpn, hp⟩ := (hnamed n hn).mp (Bool.eq_false_iff.mpr hfalse)
      exact hnone ⟨p, hpn, fun t ht => htasks ▸ List.mem_flatMap.mpr ⟨p, hp, ht⟩⟩
  · intro e he m
    rcases List.mem_append.mp he with he | he
    · exact errorsOf_not_graph herr e he m
    · exact hA.no_graph_error e he m
  · intro n hn p hpn hnn d hd i hi
    obtain ⟨q, hq, hkq⟩ := (hnamed n hn).mp hnn
    rw [hpn] at hq
    cases hq
    exact hA.deferred_linked hw p hkq d hd i hi

end

end Units

/-! ## Templates and states as the program keeps them -/

namespace Template

theorem check_go_nodup : ∀ {us : List UnitDef} {seen : List String} {i : Nat},
    check.go us seen i = .ok () → (us.map (·.name)).Nodup ∧ ∀ u ∈ us, u.name ∉ seen
  | [], _, _, _ => ⟨List.nodup_nil, by simp⟩
  | u :: rest, seen, i, h => by
    simp only [check.go] at h
    split at h
    · cases h
    · rename_i hprob
      obtain ⟨hnd, hout⟩ := check_go_nodup h
      -- a unit whose name was seen is refused, so the first unit's name is new
      have hu : u.name ∉ seen := by
        intro hs
        have hc : seen.contains u.name = true := List.contains_iff_mem.mpr hs
        unfold unitProblem at hprob
        split_ifs at hprob
      refine ⟨List.nodup_cons.mpr ⟨fun hmem => ?_, hnd⟩, fun v hv => ?_⟩
      · obtain ⟨v, hv, hvn⟩ := List.mem_map.mp hmem
        exact hout v hv (hvn ▸ List.mem_cons_self)
      · rcases List.mem_cons.mp hv with rfl | hv
        · exact hu
        · exact fun hs => hout v hv (List.mem_cons_of_mem _ hs)

/-- A parsed template has distinct unit names. -/
theorem parse_unitNames_nodup {text : String} {t : Template} (h : parse text = .ok t) :
    t.unitNames.Nodup := by
  unfold parse at h
  obtain ⟨t', -, h⟩ := bind_eq_ok.mp h
  obtain ⟨⟨⟩, hcheck, h⟩ := bind_eq_ok.mp h
  cases h
  exact (check_go_nodup hcheck).1

variable {t : Template}

theorem unit?_name {name : String} {u : UnitDef} (h : t.unit? name = some u) : u.name = name := by
  simpa using List.find?_some h

theorem unit?_of_mem (hnd : t.unitNames.Nodup) {u : UnitDef} (hu : u ∈ t.units) :
    t.unit? u.name = some u := by
  obtain ⟨v, hv⟩ : ∃ v, t.units.find? (·.name == u.name) = some v :=
    Option.isSome_iff_exists.mp (List.find?_isSome.mpr ⟨u, hu, by simp⟩)
  have hvname : v.name = u.name := by simpa using List.find?_some hv
  rw [unit?, hv, List.inj_on_of_nodup_map hnd (List.mem_of_find?_eq_some hv) hu hvname]

theorem unit?_eq_none {name : String} (h : name ∉ t.unitNames) : t.unit? name = none := by
  refine List.find?_eq_none.mpr fun v hv hname => h ?_
  rw [← (beq_iff_eq.mp hname)]
  exact List.mem_map_of_mem hv

/-- The units planning a template plans, in order: the template's, then those with records
that the template no longer has. -/
def plannedNames (template : Template) (st : State) : List String :=
  template.unitNames ++ st.unitNames.filter fun n => !template.unitNames.contains n

end Template

/-- A state as the store keeps it: each unit once, and each unit's records under distinct keys,
every record under its own key (as `State.setRecord` stores it). -/
structure State.Keyed (st : State) : Prop where
  units_nodup : st.unitNames.Nodup
  keys_nodup : ∀ n, (st.recordTable n).keys.Nodup
  key_eq : ∀ n, ∀ kr ∈ st.recordTable n, kr.1 = kr.2.key

/-- A state is keyed when its units are distinct and each unit's table has distinct keys, every
record under its own: a check over the tables themselves. -/
theorem State.Keyed.of_tables {st : State} (hunits : st.unitNames.Nodup)
    (htables : ∀ e ∈ st.deployments, e.2.keys.Nodup ∧ ∀ kr ∈ e.2, kr.1 = kr.2.key) : st.Keyed := by
  have htable : ∀ n, (st.recordTable n).keys.Nodup ∧ ∀ kr ∈ st.recordTable n, kr.1 = kr.2.key := by
    intro n
    unfold State.recordTable
    cases h : st.deployments.get? n with
    | none => simp [Table.keys]
    | some tbl => exact htables (n, tbl) (Table.mem_of_get? h)
  exact ⟨hunits, fun n => (htable n).1, fun n => (htable n).2⟩

/-- The records of a unit of a keyed state are at distinct account ids and regions. -/
theorem State.Keyed.records_nodup {st : State} (h : st.Keyed) (n : String) :
    ((st.records n).map fun r => (r.accountId, r.region)).Nodup := by
  have hkeys : (st.recordTable n).keys =
      ((st.records n).map fun r => (r.accountId, r.region)).map fun p => targetKey p.1 p.2 := by
    simp only [State.records, Table.values, Table.keys, List.map_map]
    exact List.map_congr_left fun kr hkr => h.key_eq n kr hkr
  exact List.Nodup.of_map _ (hkeys ▸ h.keys_nodup n)

/-- A unit with records that the template no longer has is no unit of the template. -/
theorem Template.not_mem_of_removed {template : Template} {names : List String} {n : String}
    (h : n ∈ names.filter fun n => !template.unitNames.contains n) : n ∉ template.unitNames := by
  intro hmem
  have hc := (List.mem_filter.mp h).2
  rw [List.contains_iff_mem.mpr hmem] at hc
  cases hc

theorem Template.plannedNames_nodup {template : Template} {st : State}
    (hnames : template.unitNames.Nodup) (hunits : st.unitNames.Nodup) :
    (template.plannedNames st).Nodup := by
  refine List.nodup_append.mpr ⟨hnames, hunits.filter _, fun a ha b hb hab => ?_⟩
  subst hab
  exact Template.not_mem_of_removed hb ha

/-! ## Planning the units of a template -/

namespace Services

variable (sv : Services σ) {o : Organization} {st : State} {previous : Option Template} {w : σ}

/-- How `planTemplate` plans one name: the template's unit of that name, else a unit with
records that the template no longer has. -/
def unitPlan (template : Template) (o : Organization) (st : State) (w : σ) (name : String) :
    Except PlanError (UnitPlan (Deployable σ)) :=
  match template.unit? name with
  | some u => sv.planTemplateUnit o st st.previousTemplateDef? w u
  | none => sv.planRemovedUnit o st st.previousTemplateDef? w name

theorem unitPlan_some {template : Template} {n : String} {u : UnitDef}
    (hu : template.unit? n = some u) :
    sv.unitPlan template o st w n = sv.planTemplateUnit o st st.previousTemplateDef? w u := by
  unfold unitPlan
  rw [hu]

theorem unitPlan_none {template : Template} {n : String} (hu : template.unit? n = none) :
    sv.unitPlan template o st w n = sv.planRemovedUnit o st st.previousTemplateDef? w n := by
  unfold unitPlan
  rw [hu]

theorem deployable_error {u : UnitDef} {e : PlanError} (h : sv.deployable u = .error e) :
    e.units = [u.name] := by
  unfold deployable at h
  split at h
  · cases h
  · split at h
    · cases h
    · cases h
      rfl

/-- Planning a unit of the template fails only with an error naming that unit. -/
theorem planTemplateUnit_error {u : UnitDef} {e : PlanError}
    (h : sv.planTemplateUnit o st previous w u = .error e) : e.units = [u.name] := by
  unfold planTemplateUnit at h
  rcases bind_eq_error.mp h with h | ⟨d, -, h⟩
  · exact sv.deployable_error h
  rcases bind_eq_error.mp h with h | ⟨targets, -, h⟩
  · obtain ⟨e₀, -, rfl⟩ := mapError_eq_error.mp h
    rfl
  · exact planUnit_error_units h

/-- The definition a unit was deployed with is of that unit, when stored definitions are. -/
theorem deployedDefinition_name (hdef : ∀ n u, st.definition? n = some u → u.name = n)
    {name : String} {u : UnitDef} (h : deployedDefinition st previous name = some u) :
    u.name = name := by
  unfold deployedDefinition at h
  split at h
  · rename_i u' hu'
    cases h
    exact hdef name u hu'
  · obtain ⟨t, -, ht⟩ := Option.bind_eq_some_iff.mp h
    exact Template.unit?_name ht

/-- Planning a removed unit fails only with an error naming that unit, when stored definitions
are stored under their own names. -/
theorem planRemovedUnit_error (hdef : ∀ n u, st.definition? n = some u → u.name = n)
    {name : String} {e : PlanError} (h : sv.planRemovedUnit o st previous w name = .error e) :
    e.units = [name] := by
  unfold planRemovedUnit at h
  dsimp only at h
  split at h
  · rename_i u hdu
    simp only [pure_bind] at h
    rcases bind_eq_error.mp h with h | ⟨d, -, h⟩
    · rw [sv.deployable_error h, deployedDefinition_name hdef hdu]
    · exact planUnit_error_units h
  · cases h
    rfl

/-- A plan of a unit of the template is the unit's, and well formed: the binding's targets are
distinct, a render misses only outputs it imports, and the state's records are keyed. -/
theorem planTemplateUnit_ok (hst : st.Keyed) {u : UnitDef} {p : UnitPlan (Deployable σ)}
    (h : sv.planTemplateUnit o st previous w u = .ok p) : p.unit = u.name ∧ p.WellFormed := by
  unfold planTemplateUnit at h
  obtain ⟨d, -, h⟩ := bind_eq_ok.mp h
  obtain ⟨targets, ht, h⟩ := bind_eq_ok.mp h
  have hres := mapError_eq_ok.mp ht
  refine planUnit_wellFormed h ⟨?_, ?_, hst.records_nodup u.name⟩
  · simpa [List.map_map, Function.comp_def, targetRender] using Binding.resolve_targets_nodup hres
  · intro r hr un tk missing hmiss i hi
    obtain ⟨t, -, rfl⟩ := List.mem_map.mp hr
    have hrender : render o st u t = .error (.unresolvedExport un tk missing) := hmiss
    obtain ⟨used, hcol, hsub⟩ := render_missing_collected hrender
    simp only [targetRender, hrender, hcol, Except.toOption, Option.getD_some]
    exact hsub i hi

/-- A plan of a removed unit is the unit's, and well formed. -/
theorem planRemovedUnit_ok (hst : st.Keyed) {name : String} {p : UnitPlan (Deployable σ)}
    (h : sv.planRemovedUnit o st previous w name = .ok p) : p.unit = name ∧ p.WellFormed := by
  unfold planRemovedUnit at h
  dsimp only at h
  split at h
  · simp only [pure_bind] at h
    obtain ⟨d, -, h⟩ := bind_eq_ok.mp h
    exact planUnit_wellFormed h ⟨by simp, by simp, hst.records_nodup name⟩
  · cases h

variable {template : Template}

theorem unitPlan_ok (hst : st.Keyed) {name : String} {p : UnitPlan (Deployable σ)}
    (h : sv.unitPlan template o st w name = .ok p) : p.unit = name ∧ p.WellFormed := by
  unfold unitPlan at h
  split at h
  · rename_i u hu
    rw [← Template.unit?_name hu]
    exact sv.planTemplateUnit_ok hst h
  · exact sv.planRemovedUnit_ok hst h

theorem unitPlan_error (hdef : ∀ n u, st.definition? n = some u → u.name = n) {name : String}
    {e : PlanError} (h : sv.unitPlan template o st w name = .error e) : e.units = [name] := by
  unfold unitPlan at h
  split at h
  · rename_i u hu
    rw [← Template.unit?_name hu]
    exact sv.planTemplateUnit_error h
  · exact sv.planRemovedUnit_error hdef h

/-- Filing the outcomes of the template's units, then of its removed units, files the outcome
of each planned name. -/
theorem filterMap_unitPlan {β : Type} (g : Except PlanError (UnitPlan (Deployable σ)) → Option β)
    (hnames : template.unitNames.Nodup) :
    (template.plannedNames st).filterMap (fun n => g (sv.unitPlan template o st w n)) =
      template.units.filterMap (fun u => g (sv.planTemplateUnit o st st.previousTemplateDef? w u)) ++
        (st.unitNames.filter fun n => !template.unitNames.contains n).filterMap
          fun n => g (sv.planRemovedUnit o st st.previousTemplateDef? w n) := by
  rw [Template.plannedNames, List.filterMap_append, Template.unitNames, List.filterMap_map]
  congr 1
  · refine List.filterMap_congr fun u hu => ?_
    simp only [Function.comp_apply, unitPlan, Template.unit?_of_mem hnames hu]
  · refine List.filterMap_congr fun n hn => ?_
    simp only [unitPlan, Template.unit?_eq_none (Template.not_mem_of_removed hn)]

/-- Planning a template plans each planned name, keeps the errors, and assembles the plans. -/
theorem planTemplate_eq (hnames : template.unitNames.Nodup) :
    sv.planTemplate template o st w =
      { assemble (plansOf (sv.unitPlan template o st w) (template.plannedNames st)) with
        errors := errorsOf (sv.unitPlan template o st w) (template.plannedNames st) ++
          (assemble (plansOf (sv.unitPlan template o st w) (template.plannedNames st))).errors } := by
  unfold planTemplate collectPlans
  dsimp only
  rw [foldl_collect (sv.planTemplateUnit o st st.previousTemplateDef? w) _ ?first,
    foldl_collect (sv.planRemovedUnit o st st.previousTemplateDef? w) _ ?removed]
  · simp only [plansOf, errorsOf, sv.filterMap_unitPlan _ hnames, List.nil_append]
  case first =>
    intro acc u
    cases sv.planTemplateUnit o st st.previousTemplateDef? w u <;> simp [errorOf, Except.toOption]
  case removed =>
    intro acc n
    cases sv.planRemovedUnit o st st.previousTemplateDef? w n <;> simp [errorOf, Except.toOption]

/-- The tasks of a unit's plan are carried out by the deployable of a unit. -/
theorem unitPlan_deployable {name : String} {p : UnitPlan (Deployable σ)}
    (h : sv.unitPlan template o st w name = .ok p) :
    ∃ u, ∀ t ∈ p.tasks, sv.deployable u = .ok t.deployable := by
  unfold unitPlan at h
  split at h
  · rename_i u _
    unfold planTemplateUnit at h
    obtain ⟨d, hd, h⟩ := bind_eq_ok.mp h
    obtain ⟨targets, -, h⟩ := bind_eq_ok.mp h
    exact ⟨u, fun t ht => by rw [planUnit_deployable h t ht]; exact hd⟩
  · unfold planRemovedUnit at h
    dsimp only at h
    split at h
    · rename_i u _
      simp only [pure_bind] at h
      obtain ⟨d, hd, h⟩ := bind_eq_ok.mp h
      exact ⟨u, fun t ht => by rw [planUnit_deployable h t ht]; exact hd⟩
    · cases h

/-- Every task of the graph of a template's plan is carried out by the deployable of a unit. -/
theorem planTemplate_deployable (hnames : template.unitNames.Nodup) :
    ∀ t ∈ (sv.planTemplate template o st w).graph.tasks, ∃ u, sv.deployable u = .ok t.deployable := by
  intro t ht
  rw [sv.planTemplate_eq hnames] at ht
  obtain ⟨t', ht', heq⟩ := assemble_tasks t ht
  obtain ⟨p, hp, htp⟩ := List.mem_flatMap.mp ht'
  obtain ⟨n, -, hn⟩ := List.mem_filterMap.mp hp
  obtain ⟨u, hu⟩ := sv.unitPlan_deployable (toOption_eq_some.mp hn)
  have hd : t'.deployable = t.deployable := congrArg (·.deployable) heq
  exact ⟨u, hd ▸ hu t' htp⟩

end Services

/-- Planning a template accounts for the template's units and for the units with records that
it no longer has, for a template with distinct unit names and a keyed state whose definitions
are stored under their own names. -/
theorem planTemplate_accountsFor (sv : Services σ) {template : Template} {o : Organization}
    {st : State} (w : σ) (hnames : template.unitNames.Nodup) (hst : st.Keyed)
    (hdef : ∀ n u, st.definition? n = some u → u.name = n) :
    (sv.planTemplate template o st w).AccountsFor (template.plannedNames st)
      (sv.unitPlan template o st w) := by
  rw [sv.planTemplate_eq hnames]
  exact accountsFor_of_units (fun n p h => sv.unitPlan_ok hst h)
    (fun n e h => sv.unitPlan_error hdef h) (Template.plannedNames_nodup hnames hst.units_nodup)

/-- A template with one stack, planned with the program's own services against a state that
still holds a record and the stored definition of a unit the template no longer has: both the
template's unit and the removed one are planned and accounted for. -/
theorem planTemplate_accountsFor_removed_unit :
    let sv := Cli.services ⟨none, "run", Timestamp.epoch⟩ ⟨"data", "state.json", "org.json"⟩ {} "."
    let o : Organization := { accounts := [{ logicalId := "Dev", physicalId := some "111" }] }
    let binding : Binding := { accounts := some (.list [.logicalId "Dev"]), regions := some ["eu"] }
    let template : Template := ⟨[⟨"app", binding, .stack (.obj []) []⟩]⟩
    let r : Record := { lastCommittedHash := "sha256:0", accountId := "111", region := "eu",
                        accountLogicalId := "Dev", deployedAt := Timestamp.epoch }
    let st : State := { deployments := [("old", [("111/eu", r)])],
                        definitions := [("old", ⟨"old", binding, .stack (.obj []) []⟩)] }
    template.plannedNames st = ["app", "old"] ∧
      (sv.planTemplate template o st ({}, {})).AccountsFor (template.plannedNames st)
        (sv.unitPlan template o st ({}, {})) := by
  intro sv o binding template r st
  have hdefs : ∀ e ∈ st.definitions, e.2.name = e.1 := by decide
  exact ⟨by decide, planTemplate_accountsFor sv _ (by decide)
    (State.Keyed.of_tables (by decide) (by decide)) fun n u h => hdefs _ (Table.mem_of_get? h)⟩

end OrgDeploy
