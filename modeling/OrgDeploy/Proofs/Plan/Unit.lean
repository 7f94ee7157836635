import Mathlib
import OrgDeploy.Proofs.Plan.Assemble

/-!
# Planning one unit

`planUnit` renders nothing itself: it files the task each render asks for (`renderTask`), in
render order, and then a delete task for each record of the unit at a target it no longer
renders. `planUnit_eq` states it so: the renders are mapped to their tasks first, and a
successful plan is the filed tasks, the deletes and the deferred entries.

From that form, `planUnit_wellFormed` proves that a plan made from `Plannable` input (renders
for distinct targets, each missing only outputs it imports, and records at distinct targets)
is well formed in the sense assembly needs.
-/

namespace OrgDeploy

variable {δ : Type}

/-! ## Folds in `Except` -/

section Except

variable {α β γ ε : Type}

/-- A successful `mapM` relates each element to its image. -/
theorem mapM_ok_forall₂ {f : α → Except ε β} :
    ∀ {xs : List α} {ys : List β}, xs.mapM f = .ok ys → List.Forall₂ (fun x y => f x = .ok y) xs ys
  | [], ys, h => by
    simp only [List.mapM_nil, pure, Except.pure, Except.ok.injEq] at h
    subst h; exact .nil
  | x :: xs, ys, h => by
    simp only [List.mapM_cons, bind, Except.bind, pure, Except.pure] at h
    split at h
    · cases h
    · rename_i y hy
      split at h
      · cases h
      · rename_i zs hzs
        cases h
        exact .cons hy (mapM_ok_forall₂ hzs)

/-- A failed `mapM` failed on one of the elements. -/
theorem mapM_error {f : α → Except ε β} :
    ∀ {xs : List α} {e : ε}, xs.mapM f = .error e → ∃ x ∈ xs, f x = .error e
  | [], e, h => by simp [pure, Except.pure] at h
  | x :: xs, e, h => by
    simp only [List.mapM_cons, bind, Except.bind, pure, Except.pure] at h
    split at h
    · rename_i e' hx
      cases h
      exact ⟨x, List.mem_cons_self, hx⟩
    · split at h
      · rename_i e' hxs
        cases h
        obtain ⟨y, hy, hf⟩ := mapM_error hxs
        exact ⟨y, List.mem_cons_of_mem _ hy, hf⟩
      · cases h

/-- A fold whose every step runs `f` on the element and then combines purely is `mapM f`
followed by a pure fold. -/
theorem foldlM_eq_mapM_map (f : α → Except ε β) (g : γ → β → γ) (step : γ → α → Except ε γ)
    (hstep : ∀ acc x, step acc x = (f x).map (g acc)) :
    ∀ (xs : List α) (init : γ), xs.foldlM step init = (xs.mapM f).map (·.foldl g init)
  | [], init => rfl
  | x :: xs, init => by
    rw [List.foldlM_cons, List.mapM_cons, hstep]
    cases f x with
    | error e => rfl
    | ok y =>
      simp only [Except.map, bind, Except.bind, pure, Except.pure]
      rw [foldlM_eq_mapM_map f g step hstep xs (g init y)]
      cases xs.mapM f <;> rfl

end Except

/-! ## `planUnit` as a map and a fold -/

/-- Files the task a render asks for, and its deferred entry when it has one. -/
def fileTask (acc : List (DeployTask δ) × List (TaskId × RenderError)) :
    Option (DeployTask δ × Option RenderError) → List (DeployTask δ) × List (TaskId × RenderError)
  | none => acc
  | some (t, none) => (acc.1 ++ [t], acc.2)
  | some (t, some e) => (acc.1 ++ [t], insertById t.id e acc.2)

/-- The delete tasks of a unit: one for each record at a target no render is for. -/
def deleteTasks (state : State) (input : UnitInput δ) : List (DeployTask δ) :=
  (state.records input.name).filterMap fun record =>
    if (input.renders.map (·.target.key)).contains record.key then none
    else some { id := TaskId.ofTarget input.name record.target, target := record.target,
                kind := .delete, imports := (input.deployedImports.get? record.key).getD [],
                deployable := input.deployable }

theorem planUnit_eq (state : State) (hash : δ → Artifact → Except TaskError String)
    (input : UnitInput δ) :
    planUnit state hash input =
      (input.renders.mapM (renderTask state hash input.name input.deployable)).map fun outs =>
        ⟨input.name, (outs.foldl fileTask ([], [])).1 ++ deleteTasks state input,
          (outs.foldl fileTask ([], [])).2⟩ := by
  unfold planUnit
  simp only [bind, Except.bind]
  rw [foldlM_eq_mapM_map (renderTask state hash input.name input.deployable) fileTask _ ?step]
  · cases input.renders.mapM (renderTask state hash input.name input.deployable) <;> rfl
  case step =>
    intro acc r
    cases renderTask state hash input.name input.deployable r with
    | error e => rfl
    | ok o => rcases o with _ | ⟨t, _ | e⟩ <;> rfl

theorem foldl_fileTask_fst (outs : List (Option (DeployTask δ × Option RenderError))) :
    ∀ acc, (outs.foldl fileTask acc).1 = acc.1 ++ outs.filterMap (·.map Prod.fst) := by
  induction outs with
  | nil => simp
  | cons o outs ih =>
    intro acc
    rw [List.foldl_cons, ih]
    rcases o with _ | ⟨t, _ | e⟩ <;> simp [fileTask]

/-- Each deferred entry filed comes from a render that asked for a task with its id and error. -/
theorem mem_foldl_fileTask_snd (outs : List (Option (DeployTask δ × Option RenderError))) :
    ∀ acc, ∀ x ∈ (outs.foldl fileTask acc).2, x ∈ acc.2 ∨ ∃ t, some (t, some x.2) ∈ outs ∧ t.id = x.1 := by
  induction outs with
  | nil => simp
  | cons o outs ih =>
    intro acc x hx
    rw [List.foldl_cons] at hx
    rcases ih _ x hx with hx | ⟨t, ht, hid⟩
    · rcases o with _ | ⟨t, _ | e⟩
      · exact .inl hx
      · exact .inl hx
      · rcases mem_insertById hx with rfl | hx
        · exact .inr ⟨t, List.mem_cons_self, rfl⟩
        · exact .inl hx
    · exact .inr ⟨t, List.mem_cons_of_mem _ ht, hid⟩

/-- The task a render asks for: at the render's target, without links, and, when deferred, a
create-or-update task importing what the render performs, whose render failed with the
deferred error. -/
theorem renderTask_some {state : State} {hash : δ → Artifact → Except TaskError String}
    {name : String} {d : δ} {r : TargetRender} {t : DeployTask δ} {eo : Option RenderError}
    (h : renderTask state hash name d r = .ok (some (t, eo))) :
    t.id = TaskId.ofTarget name r.target ∧ t.dependsOn = [] ∧
      (∀ e, eo = some e → t.action = .createOrUpdate ∧ t.imports = r.imports ∧ r.result = .error e) ∧
      t.deployable = d := by
  unfold renderTask at h
  split at h
  · simp only [bind, Except.bind] at h
    split at h
    · cases h
    · split at h <;> cases h
      exact ⟨rfl, rfl, fun e he => (by cases he), rfl⟩
  · rename_i u tk missing hr
    cases h
    exact ⟨rfl, rfl, fun e he => (by cases he; exact ⟨rfl, rfl, hr⟩), rfl⟩
  · cases h

/-- A render stops its unit only with an error naming that unit. -/
theorem renderTask_error_units {state : State} {hash : δ → Artifact → Except TaskError String}
    {name : String} {d : δ} {r : TargetRender} {e : PlanError}
    (h : renderTask state hash name d r = .error e) : e.units = [name] := by
  unfold renderTask at h
  split at h
  · rename_i artifact _
    simp only [bind, Except.bind] at h
    split at h
    · rename_i e' he
      cases h
      cases hh : hash d artifact with
      | error e₀ =>
        rw [hh] at he
        cases he
        rfl
      | ok v =>
        rw [hh] at he
        cases he
    · split at h <;> cases h
  · cases h
  · cases h
    rfl

/-- Planning a unit fails only with an error naming that unit. -/
theorem planUnit_error_units {state : State} {hash : δ → Artifact → Except TaskError String}
    {input : UnitInput δ} {e : PlanError} (h : planUnit state hash input = .error e) :
    e.units = [input.name] := by
  rw [planUnit_eq] at h
  cases hm : input.renders.mapM (renderTask state hash input.name input.deployable) with
  | error e' =>
    rw [hm] at h
    cases h
    obtain ⟨r, -, hr⟩ := mapM_error hm
    exact renderTask_error_units hr
  | ok outs =>
    rw [hm] at h
    cases h

/-! ## Well-formed plans -/

/-- What planning needs of a unit's input to plan it well: renders for distinct targets, each
missing only outputs that it imports, and records of the unit at distinct targets. -/
structure UnitInput.Plannable (state : State) (input : UnitInput δ) : Prop where
  targets_nodup : (input.renders.map fun r => (r.target.accountId, r.target.region)).Nodup
  missing_imported : ∀ r ∈ input.renders, ∀ u tk missing,
    r.result = .error (.unresolvedExport u tk missing) → ∀ i ∈ missing, i ∈ r.imports
  records_nodup : ((state.records input.name).map fun r => (r.accountId, r.region)).Nodup

/-- Ids at targets of one unit are equal exactly when the account ids and regions are. -/
theorem TaskId.ofTarget_eq_iff {name : String} {t u : Target} :
    TaskId.ofTarget name t = TaskId.ofTarget name u ↔
      (t.accountId, t.region) = (u.accountId, u.region) := by
  simp [TaskId.ofTarget]

/-- A `filterMap` that keeps some elements, each as its image, is a sublist of the map. -/
theorem filterMap_sublist_map {α β : Type} {f : α → Option β} {g : α → β}
    (hf : ∀ x b, f x = some b → b = g x) : ∀ l : List α, (l.filterMap f).Sublist (l.map g)
  | [] => by simp
  | x :: l => by
    cases hx : f x with
    | none => simpa [List.filterMap_cons, hx] using (filterMap_sublist_map hf l).cons _
    | some b =>
      rw [hf x b hx] at hx
      simpa [List.filterMap_cons, hx] using (filterMap_sublist_map hf l).cons_cons (g x)

/-- Each element related to the left list comes from an element of it. -/
theorem exists_of_forall₂_mem_right {α β : Type} {R : α → β → Prop} :
    ∀ {xs : List α} {ys : List β}, List.Forall₂ R xs ys → ∀ y ∈ ys, ∃ x ∈ xs, R x y
  | _, _, .nil, _, h => absurd h List.not_mem_nil
  | _, _, .cons hr hrest, y, hy => by
    rcases List.mem_cons.mp hy with rfl | hy
    · exact ⟨_, List.mem_cons_self, hr⟩
    · obtain ⟨x, hx, hxy⟩ := exists_of_forall₂_mem_right hrest y hy
      exact ⟨x, List.mem_cons_of_mem _ hx, hxy⟩

/-- The ids of a unit's tasks at distinct targets are distinct. -/
theorem nodup_map_ofTarget {α : Type} {name : String} {xs : List α} {f : α → Target}
    (h : (xs.map fun x => ((f x).accountId, (f x).region)).Nodup) :
    (xs.map fun x => TaskId.ofTarget name (f x)).Nodup := by
  have heq : (xs.map fun x => TaskId.ofTarget name (f x)) =
      (xs.map fun x => ((f x).accountId, (f x).region)).map fun k => (⟨name, k.1, k.2⟩ : TaskId) := by
    simp [TaskId.ofTarget]
  rw [heq]
  refine h.map fun a b hab => ?_
  simp only [TaskId.mk.injEq, true_and] at hab
  exact Prod.ext hab.1 hab.2

/-- The tasks filed from the renders: their ids are those of the renders' targets, in render
order, skipping the renders that ask for no task. -/
theorem filed_ids_sublist {state : State} {hash : δ → Artifact → Except TaskError String}
    {name : String} {d : δ} :
    ∀ {renders : List TargetRender} {outs : List (Option (DeployTask δ × Option RenderError))},
      List.Forall₂ (fun r o => renderTask state hash name d r = .ok o) renders outs →
      ((outs.filterMap (·.map Prod.fst)).map (·.id)).Sublist
        (renders.map fun r => TaskId.ofTarget name r.target)
  | _, _, .nil => by simp
  | r :: _, o :: _, .cons hr hrest => by
    have ih := filed_ids_sublist hrest
    rcases o with _ | ⟨t, eo⟩
    · simpa using ih.cons _
    · obtain ⟨hid, -, -⟩ := renderTask_some hr
      simpa [hid] using ih.cons_cons (TaskId.ofTarget name r.target)

/-- A filed task comes from a render that asked for it. -/
theorem mem_filed {state : State} {hash : δ → Artifact → Except TaskError String}
    {name : String} {d : δ} {renders : List TargetRender}
    {outs : List (Option (DeployTask δ × Option RenderError))}
    (hrel : List.Forall₂ (fun r o => renderTask state hash name d r = .ok o) renders outs)
    {t : DeployTask δ} (ht : t ∈ outs.filterMap (·.map Prod.fst)) :
    ∃ r ∈ renders, ∃ eo, renderTask state hash name d r = .ok (some (t, eo)) := by
  obtain ⟨o, ho, hot⟩ := List.mem_filterMap.mp ht
  obtain ⟨⟨t', eo⟩, rfl, rfl⟩ := Option.map_eq_some_iff.mp hot
  obtain ⟨r, hr, hro⟩ := exists_of_forall₂_mem_right hrel _ ho
  exact ⟨r, hr, eo, hro⟩

/-- A delete task is for a record of the unit at a target no render is for, without links and
with the unit's deployable. -/
theorem mem_deleteTasks {state : State} {input : UnitInput δ} {t : DeployTask δ}
    (ht : t ∈ deleteTasks state input) :
    ∃ record ∈ state.records input.name,
      (input.renders.map (·.target.key)).contains record.key = false ∧
      t.id = TaskId.ofTarget input.name record.target ∧ t.dependsOn = [] ∧
      t.deployable = input.deployable := by
  obtain ⟨record, hrec, hsome⟩ := List.mem_filterMap.mp ht
  split at hsome
  · cases hsome
  · rename_i hnot
    cases hsome
    exact ⟨record, hrec, Bool.eq_false_iff.mpr hnot, rfl, rfl, rfl⟩

/-- A plan made from plannable input is the unit's, and well formed. -/
theorem planUnit_wellFormed {state : State} {hash : δ → Artifact → Except TaskError String}
    {input : UnitInput δ} {p : UnitPlan δ} (h : planUnit state hash input = .ok p)
    (hin : input.Plannable state) : p.unit = input.name ∧ p.WellFormed := by
  rw [planUnit_eq] at h
  cases hm : input.renders.mapM (renderTask state hash input.name input.deployable) with
  | error e => rw [hm] at h; cases h
  | ok outs =>
    rw [hm] at h
    cases h
    have hrel := mapM_ok_forall₂ hm
    dsimp only
    rw [foldl_fileTask_fst]
    simp only [List.nil_append]
    have hfiled := fun t (ht : t ∈ outs.filterMap (·.map Prod.fst)) => mem_filed hrel ht
    have hdel := fun t (ht : t ∈ deleteTasks state input) => mem_deleteTasks ht
    refine ⟨trivial, ⟨fun t ht => ?_, ?_, fun t ht => ?_, fun x hx => ?_⟩⟩
    · -- every task is at one of the unit's targets
      rcases List.mem_append.mp ht with ht | ht
      · obtain ⟨r, -, eo, hr⟩ := hfiled t ht
        rw [(renderTask_some hr).1]; rfl
      · obtain ⟨record, -, -, hid, -⟩ := hdel t ht
        rw [hid]; rfl
    · -- filed tasks and deletes are at distinct targets, and no delete is at a rendered target
      rw [List.map_append, List.nodup_append]
      refine ⟨(filed_ids_sublist hrel).nodup (nodup_map_ofTarget hin.targets_nodup), ?_, ?_⟩
      · have hsub : ((deleteTasks state input).map (·.id)).Sublist
            ((state.records input.name).map fun record => TaskId.ofTarget input.name record.target) := by
          unfold deleteTasks
          rw [List.map_filterMap]
          refine filterMap_sublist_map (fun record id h => ?_) _
          split at h
          · cases h
          · cases h; rfl
        exact hsub.nodup (nodup_map_ofTarget hin.records_nodup)
      · intro a ha b hb hab
        subst hab
        obtain ⟨t, ht, rfl⟩ := List.mem_map.mp ha
        obtain ⟨u, hu, hid⟩ := List.mem_map.mp hb
        obtain ⟨r, hr, eo, hro⟩ := hfiled t ht
        obtain ⟨record, -, hkey, hrec, -⟩ := hdel u hu
        rw [(renderTask_some hro).1, hrec, TaskId.ofTarget_eq_iff] at hid
        simp only [Prod.mk.injEq] at hid
        have h1 : record.accountId = r.target.accountId := hid.1
        have h2 : record.region = r.target.region := hid.2
        have hmem : record.key ∈ input.renders.map (·.target.key) :=
          List.mem_map.mpr ⟨r, hr, by simp [Record.key, Target.key, h1, h2]⟩
        rw [← List.contains_iff_mem, hkey] at hmem
        cases hmem
    · -- no task has links yet
      rcases List.mem_append.mp ht with ht | ht
      · obtain ⟨r, -, eo, hr⟩ := hfiled t ht
        exact (renderTask_some hr).2.1
      · obtain ⟨-, -, -, -, hun, -⟩ := hdel t ht
        exact hun
    · -- a deferred entry is a filed create-or-update task that imports what it misses
      rcases mem_foldl_fileTask_snd outs ([], []) x hx with hx | ⟨t, ht, hid⟩
      · cases hx
      · obtain ⟨r, hr, hro⟩ := exists_of_forall₂_mem_right hrel _ ht
        obtain ⟨-, -, hdef, -⟩ := renderTask_some hro
        obtain ⟨hact, himp, hres⟩ := hdef x.2 rfl
        refine ⟨t, List.mem_append_left _ (List.mem_filterMap.mpr ⟨_, ht, rfl⟩), hid, hact,
          fun i hi => ?_⟩
        rw [himp]
        cases hx2 : x.2 with
        | unresolvedExport u tk missing =>
          rw [hx2] at hres hi
          exact hin.missing_imported r hr u tk missing hres i hi
        | invalidExpression u f m =>
          rw [hx2] at hi
          cases hi

/-- A task of a unit's plan is one a render of the unit asked for, or a delete task. -/
theorem mem_planUnit_tasks {state : State} {hash : δ → Artifact → Except TaskError String}
    {input : UnitInput δ} {p : UnitPlan δ} (h : planUnit state hash input = .ok p)
    {t : DeployTask δ} (ht : t ∈ p.tasks) :
    (∃ r ∈ input.renders, ∃ eo,
      renderTask state hash input.name input.deployable r = .ok (some (t, eo))) ∨
      t ∈ deleteTasks state input := by
  rw [planUnit_eq] at h
  cases hm : input.renders.mapM (renderTask state hash input.name input.deployable) with
  | error e => rw [hm] at h; cases h
  | ok outs =>
    rw [hm] at h
    cases h
    dsimp only at ht
    rw [foldl_fileTask_fst, List.nil_append] at ht
    exact (List.mem_append.mp ht).imp_left (mem_filed (mapM_ok_forall₂ hm))

/-- Every task of a unit's plan is carried out by the unit's deployable. -/
theorem planUnit_deployable {state : State} {hash : δ → Artifact → Except TaskError String}
    {input : UnitInput δ} {p : UnitPlan δ} (h : planUnit state hash input = .ok p) :
    ∀ t ∈ p.tasks, t.deployable = input.deployable := by
  intro t ht
  rcases mem_planUnit_tasks h ht with ⟨r, -, eo, hr⟩ | ht
  · exact (renderTask_some hr).2.2.2
  · obtain ⟨-, -, -, -, -, hd⟩ := mem_deleteTasks ht
    exact hd

end OrgDeploy
