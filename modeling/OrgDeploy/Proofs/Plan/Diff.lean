import Mathlib
import OrgDeploy.Proofs.Plan.Template
import OrgDeploy.Proofs.Plan.Links

/-!
# The hash diff of one unit

Planning a unit compares each target it renders with the unit's record there, and each record
with the targets rendered:

* a render whose content hash fails, or whose render failed otherwise than by missing outputs,
  stops the unit, and the first such render in order gives the error
  (`TargetRender.stopsWith`);
* otherwise each render asks for at most one task (`TargetRender.taskFor`): a create-or-update
  task with the artifact, its hash and the artifact's imports when the unit has no record at
  the target or one with another hash; none when the recorded hash is the one computed; and a
  deferred create-or-update task with the imports the render performs when it misses outputs,
  whose error is filed under the task's id (`TargetRender.deferredEntry`);
* a delete task follows for each record of the unit at a key no render has (`deleteTasks`).

Headline: `planUnit_hash_diff`.
-/

namespace OrgDeploy

variable {δ : Type}

/-! ## Traversals in `Except` -/

section Except

variable {α β ε : Type}

/-- A traversal fails exactly with the error of the first element that fails. -/
theorem mapM_eq_error_iff {f : α → Except ε β} {e : ε} :
    ∀ {xs : List α}, xs.mapM f = .error e ↔
      ∃ pre x post, xs = pre ++ x :: post ∧ (∀ y ∈ pre, ∃ b, f y = .ok b) ∧ f x = .error e
  | [] => by simp [pure, Except.pure]
  | y :: ys => by
    rw [List.mapM_cons, bind_eq_error]
    simp only [bind_eq_error, pure, Except.pure, reduceCtorEq, and_false, exists_false, or_false]
    constructor
    · rintro (hy | ⟨b, hb, hys⟩)
      · exact ⟨[], y, ys, rfl, by simp, hy⟩
      · obtain ⟨pre, x, post, rfl, hpre, hx⟩ := mapM_eq_error_iff.mp hys
        refine ⟨y :: pre, x, post, rfl, fun z hz => ?_, hx⟩
        rcases List.mem_cons.mp hz with rfl | hz
        · exact ⟨b, hb⟩
        · exact hpre z hz
    · rintro ⟨pre, x, post, hsplit, hpre, hx⟩
      cases pre with
      | nil =>
        obtain ⟨rfl, rfl⟩ := List.cons.inj hsplit
        exact .inl hx
      | cons z pre =>
        obtain ⟨rfl, rfl⟩ := List.cons.inj hsplit
        obtain ⟨b, hb⟩ := hpre y List.mem_cons_self
        exact .inr ⟨b, hb, mapM_eq_error_iff.mpr
          ⟨pre, x, post, rfl, fun w hw => hpre w (List.mem_cons_of_mem _ hw), hx⟩⟩

/-- A traversal whose every step succeeds with a value of `g` gives the image under `g`. -/
theorem mapM_ok_of_forall {f : α → Except ε β} {g : α → β} :
    ∀ {xs : List α}, (∀ x ∈ xs, f x = .ok (g x)) → xs.mapM f = .ok (xs.map g)
  | [], _ => rfl
  | x :: xs, h => by
    rw [List.mapM_cons, h x List.mem_cons_self,
      mapM_ok_of_forall fun y hy => h y (List.mem_cons_of_mem _ hy)]
    rfl

end Except

/-! ## What each render asks for -/

namespace TargetRender

variable (state : State) (hash : δ → Artifact → Except TaskError String) (name : String) (d : δ)
  (r : TargetRender)

/-- The error a render stops its unit with: a failed content hash, or a render error other
than missing outputs. -/
def stopsWith : Option PlanError :=
  match r.result with
  | .ok artifact =>
    match hash d artifact with
    | .ok _ => none
    | .error e => some (.hash name r.target.key e)
  | .error (.unresolvedExport ..) => none
  | .error e => some (.render name e)

/-- The task a render asks for when it does not stop its unit: a create-or-update task unless
the unit's record at the target has the artifact's hash, or a deferred one when outputs are
missing. -/
def taskFor : Option (DeployTask δ) :=
  match r.result with
  | .ok artifact =>
    match hash d artifact with
    | .ok h =>
      if (state.record? name r.target.accountId r.target.region).map (·.lastCommittedHash) = some h
      then none
      else some { id := TaskId.ofTarget name r.target, target := r.target,
                  kind := .createOrUpdate (some artifact) (some h), imports := artifact.imports,
                  deployable := d }
    | .error _ => none
  | .error (.unresolvedExport ..) =>
    some { id := TaskId.ofTarget name r.target, target := r.target,
           kind := .createOrUpdate none none, imports := r.imports, deployable := d }
  | .error _ => none

/-- The missing outputs of a deferred render, under its task's id. -/
def deferredEntry : Option (TaskId × RenderError) :=
  match r.result with
  | .error (.unresolvedExport u key missing) =>
    some (TaskId.ofTarget name r.target, .unresolvedExport u key missing)
  | _ => none

/-- The tasks a render asks for have no dependencies. -/
theorem taskFor_dependsOn {t : DeployTask δ} (h : r.taskFor state hash name d = some t) :
    t.dependsOn = [] := by
  unfold taskFor at h
  split at h
  · split at h
    · split at h
      · cases h
      · cases h; rfl
    · cases h
  · cases h; rfl
  · cases h

end TargetRender

section Render

variable {state : State} {hash : δ → Artifact → Except TaskError String} {name : String} {d : δ}
  {r : TargetRender}

/-- A render stops its unit exactly when `renderTask` fails, with the same error. -/
theorem renderTask_eq_error_iff {e : PlanError} :
    renderTask state hash name d r = .error e ↔ r.stopsWith hash name d = some e := by
  unfold renderTask TargetRender.stopsWith
  cases hres : r.result with
  | ok artifact =>
    cases hh : hash d artifact with
    | error e' =>
      simp [bind, Except.bind, Except.mapError, hh]
    | ok h =>
      simp only [bind, Except.bind, Except.mapError, hh]
      split <;> simp [pure, Except.pure]
  | error re =>
    cases re with
    | unresolvedExport u key missing => simp [pure, Except.pure]
    | invalidExpression u f m => simp [throw, throwThe, MonadExceptOf.throw]

/-- A render that does not stop its unit files the task it asks for, with its missing outputs
when it is deferred. -/
theorem renderTask_eq_ok (hs : r.stopsWith hash name d = none) :
    renderTask state hash name d r =
      .ok ((r.taskFor state hash name d).map fun t => (t, (r.deferredEntry name).map Prod.snd)) := by
  unfold TargetRender.stopsWith at hs
  unfold renderTask TargetRender.taskFor TargetRender.deferredEntry
  cases hres : r.result with
  | ok artifact =>
    rw [hres] at hs
    dsimp only at hs ⊢
    cases hh : hash d artifact with
    | error e => rw [hh] at hs; cases hs
    | ok h =>
      simp only [bind, Except.bind, Except.mapError]
      -- the record is unchanged exactly when its hash is the one computed
      cases hrec : state.record? name r.target.accountId r.target.region with
      | none => rfl
      | some rec =>
        by_cases heq : rec.lastCommittedHash = h <;> simp [heq, pure, Except.pure]
  | error re =>
    rw [hres] at hs
    cases re with
    | unresolvedExport u key missing => rfl
    | invalidExpression u f m => cases hs

/-- A render passes `renderTask` exactly when it does not stop its unit. -/
theorem exists_renderTask_eq_ok_iff :
    (∃ b, renderTask state hash name d r = .ok b) ↔ r.stopsWith hash name d = none := by
  constructor
  · rintro ⟨b, hb⟩
    cases hs : r.stopsWith hash name d with
    | none => rfl
    | some e => cases hb.symm.trans (renderTask_eq_error_iff.mpr hs)
  · intro hs
    exact ⟨_, renderTask_eq_ok hs⟩

end Render

/-! ## Filing the tasks -/

/-- The deferred entries filed from some outcomes: under each id, the last entry filed with
it. -/
theorem lookup_foldl_fileTask_snd (outs : List (Option (DeployTask δ × Option RenderError)))
    (id : TaskId) :
    ∀ acc, (outs.foldl fileTask acc).2.lookup id =
      ((outs.filterMap fun o => o.bind fun te => te.2.map (te.1.id, ·)).reverse.lookup id).or
        (acc.2.lookup id) := by
  induction outs with
  | nil => simp
  | cons o outs ih =>
    intro acc
    rw [List.foldl_cons, ih]
    rcases o with _ | ⟨t, _ | e⟩
    · rfl
    · rfl
    · -- a deferred task's entry goes in under its id, after the earlier ones
      simp only [fileTask, lookup_insertById, List.filterMap_cons, Option.bind_some,
        Option.map_some, List.reverse_cons, List.lookup_append, Option.or_assoc]
      congr 1
      by_cases h : id = t.id <;> simp [h, lookup_cons_eq_ite]

/-- The outcomes of renders that do not stop their unit file the tasks they ask for and their
deferred entries. -/
theorem filed_of_renders (state : State) (hash : δ → Artifact → Except TaskError String)
    (name : String) (d : δ) (renders : List TargetRender) :
    let outs := renders.map fun r =>
      (r.taskFor state hash name d).map fun t => (t, (r.deferredEntry name).map Prod.snd)
    outs.filterMap (·.map Prod.fst) = renders.filterMap (·.taskFor state hash name d) ∧
      (outs.filterMap fun o => o.bind fun te => te.2.map (te.1.id, ·)) =
        renders.filterMap (·.deferredEntry name) := by
  intro outs
  refine ⟨?_, ?_⟩
  · simp only [outs, List.filterMap_map]
    refine List.filterMap_congr fun r _ => ?_
    simp only [Function.comp_apply]
    cases r.taskFor state hash name d <;> rfl
  · simp only [outs, List.filterMap_map]
    refine List.filterMap_congr fun r _ => ?_
    simp only [Function.comp_apply]
    -- a deferred render asks for a task with its own id
    unfold TargetRender.taskFor TargetRender.deferredEntry
    cases hres : r.result with
    | ok artifact =>
      dsimp only
      cases hash d artifact with
      | error e => rfl
      | ok h =>
        dsimp only
        split <;> rfl
    | error re =>
      cases re with
      | unresolvedExport u key missing => rfl
      | invalidExpression u f m => rfl

/-! ## The plan of a unit -/

/-- Planning one unit diffs its renders against its records. It fails exactly with the error of
the first render that stops it. Otherwise the plan has, in render order, the task each render
asks for, then a delete task for each record at a key no render has; no task has dependencies
yet; and each deferred task's id files the missing outputs of the last render deferred under
it. -/
theorem planUnit_hash_diff (state : State) (hash : δ → Artifact → Except TaskError String)
    (input : UnitInput δ) :
    (∀ e, planUnit state hash input = .error e ↔
      ∃ pre r post, input.renders = pre ++ r :: post ∧
        (∀ r' ∈ pre, r'.stopsWith hash input.name input.deployable = none) ∧
        r.stopsWith hash input.name input.deployable = some e) ∧
    ((∀ r ∈ input.renders, r.stopsWith hash input.name input.deployable = none) →
      ∃ p, planUnit state hash input = .ok p ∧ p.unit = input.name ∧
        p.tasks = input.renders.filterMap (·.taskFor state hash input.name input.deployable) ++
          deleteTasks state input ∧
        (∀ t ∈ p.tasks, t.dependsOn = []) ∧
        ∀ id, p.deferred.lookup id =
          (input.renders.filterMap (·.deferredEntry input.name)).reverse.lookup id) := by
  refine ⟨fun e => ?_, fun hnone => ?_⟩
  · -- the unit fails where its traversal of the renders does
    rw [planUnit_eq]
    have hmap : ∀ m : Except PlanError (List (Option (DeployTask δ × Option RenderError))),
        (m.map fun outs => (⟨input.name, (outs.foldl fileTask ([], [])).1 ++ deleteTasks state input,
          (outs.foldl fileTask ([], [])).2⟩ : UnitPlan δ)) = .error e ↔ m = .error e := by
      intro m
      cases m <;> simp [Except.map]
    rw [hmap, mapM_eq_error_iff]
    simp only [renderTask_eq_error_iff, exists_renderTask_eq_ok_iff]
  · -- every render files what it asks for
    have hall : input.renders.mapM (renderTask state hash input.name input.deployable) =
        .ok (input.renders.map fun r =>
          (r.taskFor state hash input.name input.deployable).map
            fun t => (t, (r.deferredEntry input.name).map Prod.snd)) :=
      mapM_ok_of_forall fun r hr => renderTask_eq_ok (hnone r hr)
    obtain ⟨htasks, hdeferred⟩ := filed_of_renders state hash input.name input.deployable input.renders
    rw [planUnit_eq, hall]
    refine ⟨_, rfl, rfl, ?_, ?_, fun id => ?_⟩
    · dsimp only
      rw [foldl_fileTask_fst, htasks, List.nil_append]
    · intro t ht
      dsimp only at ht
      rw [foldl_fileTask_fst, htasks, List.nil_append] at ht
      rcases List.mem_append.mp ht with ht | ht
      · obtain ⟨r, -, hr⟩ := List.mem_filterMap.mp ht
        exact TargetRender.taskFor_dependsOn state hash input.name input.deployable r hr
      · obtain ⟨-, -, -, -, hun, -⟩ := mem_deleteTasks ht
        exact hun
    · dsimp only
      rw [lookup_foldl_fileTask_snd, hdeferred]
      simp

end OrgDeploy
