import Mathlib
import OrgDeploy.Proofs.Plan.Template
import OrgDeploy.Proofs.Run.Effects
import OrgDeploy.Proofs.Graph.Built

/-!
# When the engine saves the state

The engine changes its world by three kinds of call: a save of the state store, and an apply or
a delete, by the backend or a plugin, at a target. `Services.logged` is the same services over
a world that also lists these calls in the order they are made, so what an operation saves is
read off the list.

* `plan`, `renderUnit` and `describe` leave the world as it was (`Act.ReadOnly`).
* `deploy` leaves the world as it was, so saves nothing and applies nothing, when the template
  does not parse, the state or the organization does not load, or the plan has input errors; in
  the last case it fails with exactly those errors. Otherwise it runs the plan, whose tasks make
  no save, and then saves once: the state it loaded and bound to the organization, with what
  `recordSuccess` records for each succeeded task in the order the run took them, remembering
  the template text exactly when planning met no error and the run succeeded.
* `deleteUnit` leaves the world as it was when it fails before its run, as it does with an
  unknown unit, definition or plugin; once it has built its graph it runs it and saves once.

The run's part rests on `runGraph_keeps` and `runGraph_replays`: carrying out a task whose
deployable comes from the logged services only adds applies and deletes to the list and leaves
the state being built alone, and reporting a success changes that state by `recordSuccess`.
-/

namespace OrgDeploy

/-! ## Computations over a world -/

namespace Act

variable {σ ε α β : Type}

theorem run_bind_ok {m : Act σ ε β} {k : β → Act σ ε α} {w w' : σ} {b : β}
    (h : m.run w = (.ok b, w')) : (m >>= k).run w = (k b).run w' := by
  change (ExceptT.bindCont k (m.run w).1).run (m.run w).2 = _
  rw [h]
  rfl

theorem run_bind_error {m : Act σ ε β} {k : β → Act σ ε α} {w w' : σ} {e : ε}
    (h : m.run w = (.error e, w')) : (m >>= k).run w = (.error e, w') := by
  change (ExceptT.bindCont k (m.run w).1).run (m.run w).2 = _
  rw [h]
  rfl

theorem run_get_bind (k : σ → Act σ ε α) (w : σ) :
    (get >>= k : Act σ ε α).run w = (k w).run w := rfl

theorem run_liftExcept_ok_bind (b : β) (k : β → Act σ ε α) (w : σ) :
    (liftExcept (Except.ok b : Except ε β) >>= k : Act σ ε α).run w = (k b).run w := rfl

theorem run_liftExcept_error_bind (e : ε) (k : β → Act σ ε α) (w : σ) :
    (liftExcept (Except.error e : Except ε β) >>= k : Act σ ε α).run w = (.error e, w) := rfl

theorem run_pure_bind (b : β) (k : β → Act σ ε α) (w : σ) :
    (Pure.pure b >>= k : Act σ ε α).run w = (k b).run w := rfl

theorem run_throw_bind (e : ε) (k : β → Act σ ε α) (w : σ) :
    (throw e >>= k : Act σ ε α).run w = (.error e, w) := rfl

/-- A computation that leaves its world as it was, whatever it answers. -/
def ReadOnly (m : Act σ ε α) : Prop := ∀ w, (m.run w).2 = w

theorem ReadOnly.pure (a : α) : ReadOnly (Pure.pure a : Act σ ε α) := fun _ => rfl

theorem ReadOnly.throw (e : ε) : ReadOnly (MonadExcept.throw e : Act σ ε α) := fun _ => rfl

theorem ReadOnly.throw_bind (e : ε) (k : β → Act σ ε α) : ReadOnly (MonadExcept.throw e >>= k) :=
  fun _ => rfl

theorem ReadOnly.get : ReadOnly (MonadState.get : Act σ ε σ) := fun _ => rfl

theorem ReadOnly.liftExcept (x : Except ε α) : ReadOnly (liftExcept x : Act σ ε α) := by
  intro w
  cases x <;> rfl

theorem ReadOnly.bind {m : Act σ ε β} {k : β → Act σ ε α} (hm : ReadOnly m)
    (hk : ∀ b, ReadOnly (k b)) : ReadOnly (m >>= k) := by
  intro w
  rcases hrun : m.run w with ⟨r, w'⟩
  have hw : w' = w := by simpa [hrun] using hm w
  subst hw
  cases r with
  | ok b => rw [run_bind_ok hrun]; exact hk b w'
  | error e => rw [run_bind_error hrun]

end Act

/-! ## A world that lists the calls made to it -/

/-- A call that changes the engine's world: a save of the state, or an apply or a delete at a
target. -/
inductive Call where
  | save (st : State)
  | apply (target : Target)
  | delete (target : Target)

/-- The state a call saves, if it is a save. -/
def Call.saved? : Call → Option State
  | .save st => some st
  | _ => none

/-- The states a list of calls saves, in order. -/
def Call.saves (calls : List Call) : List State := calls.filterMap Call.saved?

@[simp] theorem Call.saves_nil : Call.saves [] = [] := rfl

@[simp] theorem Call.saves_append (a b : List Call) :
    Call.saves (a ++ b) = Call.saves a ++ Call.saves b := List.filterMap_append

@[simp] theorem Call.saves_save (st : State) : Call.saves [.save st] = [st] := rfl

@[simp] theorem Call.saves_apply (t : Target) : Call.saves [.apply t] = [] := rfl

@[simp] theorem Call.saves_delete (t : Target) : Call.saves [.delete t] = [] := rfl

/-- A world with the list of calls made to it so far. -/
structure Logged (σ : Type) where
  world : σ
  calls : List Call

variable {σ : Type}

/-- Runs a computation on the world and lists the call. -/
def logCall {ε α : Type} (call : Call) (m : Act σ ε α) : Act (Logged σ) ε α := fun W =>
  let (r, w) := m.run W.world
  (r, ⟨w, W.calls ++ [call]⟩)

/-- A plugin whose applies and deletes are listed. -/
def Plugin.logged (p : Plugin σ) : Plugin (Logged σ) where
  name := p.name
  contentHash config W := p.contentHash config W.world
  apply target config := logCall (.apply target) (p.apply target config)
  delete target config := logCall (.delete target) (p.delete target config)
  applyWaits := p.applyWaits
  deleteWaits := p.deleteWaits

/-- The same plugins, with their applies and deletes listed. -/
def PluginRegistry.logged (r : PluginRegistry σ) : PluginRegistry (Logged σ) where
  plugins := r.plugins.map Plugin.logged
  names_nodup := by simpa [Function.comp_def, Plugin.logged] using r.names_nodup

/-- The same services, over a world that lists every save, apply and delete. -/
def Services.logged (sv : Services σ) : Services (Logged σ) where
  config := sv.config
  directory W := sv.directory W.world
  store := ⟨fun W => sv.store.load W.world, fun st => logCall (.save st) (sv.store.save st)⟩
  backend :=
    { apply stack target body parameters :=
        logCall (.apply target) (sv.backend.apply stack target body parameters)
      delete stack target := logCall (.delete target) (sv.backend.delete stack target)
      applyWaits := sv.backend.applyWaits
      deleteWaits := sv.backend.deleteWaits }
  plugins := sv.plugins.logged
  now := sv.now

/-- The calls of `W'` are those of `W` followed by calls that save nothing. -/
def Logged.Unsaved (W W' : Logged σ) : Prop :=
  ∃ calls, W'.calls = W.calls ++ calls ∧ Call.saves calls = []

theorem Logged.Unsaved.refl (W : Logged σ) : W.Unsaved W := ⟨[], by simp, rfl⟩

theorem Logged.Unsaved.trans {W₁ W₂ W₃ : Logged σ} (h₁ : W₁.Unsaved W₂) (h₂ : W₂.Unsaved W₃) :
    W₁.Unsaved W₃ := by
  obtain ⟨c₁, hc₁, hs₁⟩ := h₁
  obtain ⟨c₂, hc₂, hs₂⟩ := h₂
  exact ⟨c₁ ++ c₂, by rw [hc₂, hc₁, List.append_assoc], by simp [hs₁, hs₂]⟩

namespace Services

variable (sv : Services σ)

@[simp] theorem logged_loadState (W : Logged σ) : sv.logged.loadState W = sv.loadState W.world :=
  rfl

@[simp] theorem logged_loadOrganization (st : State) (W : Logged σ) :
    sv.logged.loadOrganization st W = sv.loadOrganization st W.world := rfl

@[simp] theorem logged_now : sv.logged.now = sv.now := rfl

@[simp] theorem logged_config : sv.logged.config = sv.config := rfl

theorem logged_save_run (st : State) (W : Logged σ) :
    (sv.logged.store.save st).run W =
      (((sv.store.save st).run W.world).1, ⟨((sv.store.save st).run W.world).2, W.calls ++ [.save st]⟩) :=
  rfl

/-- A deployable that lists its calls: a stack, or a plugin of the logged services. -/
def Lists (d : Deployable (Logged σ)) : Prop :=
  (∃ name, d = .stack name) ∨ ∃ (p : Plugin σ) (config : Json.Value), d = .plugin p.logged config

/-- Every deployable the logged services give lists its calls. -/
theorem logged_deployable {u : UnitDef} {d : Deployable (Logged σ)}
    (h : sv.logged.deployable u = .ok d) : Lists d := by
  unfold deployable at h
  split at h
  · cases h
    exact .inl ⟨_, rfl⟩
  · rename_i name config _
    split at h
    · rename_i p hp
      cases h
      obtain ⟨q, -, rfl⟩ := List.mem_map.mp (List.mem_of_find?_eq_some hp)
      exact .inr ⟨q, config, rfl⟩
    · cases h

end Services

/-- What the successes of a run record in a state, in order. -/
def recordSuccesses {δ : Type} (units : List UnitDef) (now : Timestamp)
    (successes : List (DeployTask δ × Outcome)) (st : State) : State :=
  successes.foldl (fun s x => recordSuccess units now x.1 x.2 s) st

/-! ## What carrying out a task does to the logged world -/

/-- Runs on a run's world by adding calls that save nothing and leaving the state being built
alone. -/
def Effect.SavesNothing {α : Type} (m : Effect (RunWorld (Logged σ)) α) : Prop :=
  ∀ x, x.1.Unsaved (m.run x).2.1 ∧ (m.run x).2.2 = x.2

namespace Effect.SavesNothing

variable {α β : Type}

theorem pure (a : α) : SavesNothing (Pure.pure a : Effect (RunWorld (Logged σ)) α) :=
  fun x => ⟨.refl x.1, rfl⟩

theorem throw (e : TaskError) :
    SavesNothing (MonadExcept.throw e : Effect (RunWorld (Logged σ)) α) :=
  fun x => ⟨.refl x.1, rfl⟩

theorem bind {m : Effect (RunWorld (Logged σ)) β} {k : β → Effect (RunWorld (Logged σ)) α}
    (hm : SavesNothing m) (hk : ∀ b, SavesNothing (k b)) : SavesNothing (m >>= k) := by
  intro x
  rcases hrun : m.run x with ⟨r, y⟩
  have hy := hm x
  rw [hrun] at hy
  cases r with
  | ok b =>
    rw [Act.run_bind_ok hrun]
    obtain ⟨hcalls, hst⟩ := hk b y
    exact ⟨hy.1.trans hcalls, hst.trans hy.2⟩
  | error e =>
    rw [Act.run_bind_error hrun]
    exact hy

/-- An apply or a delete through the engine's world slot adds its call and nothing else. -/
theorem slot_logCall {ε : Type} {call : Call} (hcall : Call.saves [call] = [])
    (m : Act σ ε α) (wrap : ε → TaskError) :
    SavesNothing (worldSlot.run (logCall call m) wrap) :=
  fun _ => ⟨⟨[call], rfl, hcall⟩, rfl⟩

end Effect.SavesNothing

namespace Services

open Effect

variable (sv : Services σ) {o : Organization} {units : List UnitDef}

theorem apply_savesNothing {d : Deployable (Logged σ)} (hd : Lists d) (target : Target)
    (a : Artifact) :
    SavesNothing ((engineCollaborators sv.logged o units).apply d target a) := by
  rcases hd with ⟨name, rfl⟩ | ⟨p, config, rfl⟩
  · exact SavesNothing.slot_logCall (Call.saves_apply target) _ _
  · exact SavesNothing.slot_logCall (Call.saves_apply target) _ _

theorem delete_savesNothing {d : Deployable (Logged σ)} (hd : Lists d) (target : Target) :
    SavesNothing ((engineCollaborators sv.logged o units).delete d target) := by
  rcases hd with ⟨name, rfl⟩ | ⟨p, config, rfl⟩
  · exact SavesNothing.slot_logCall (Call.saves_delete target) _ _
  · exact SavesNothing.slot_logCall (Call.saves_delete target) _ _

theorem resolve_savesNothing (t : DeployTask (Deployable (Logged σ))) :
    SavesNothing ((engineCollaborators sv.logged o units).resolve t) := by
  intro x
  obtain ⟨W, st⟩ := x
  simp only [engineCollaborators]
  split <;> exact ⟨.refl W, rfl⟩

theorem contentHash_savesNothing (d : Deployable (Logged σ)) (a : Artifact) :
    SavesNothing ((engineCollaborators sv.logged o units).contentHash d a) :=
  fun x => ⟨.refl x.1, rfl⟩

/-- Carrying out a task whose deployable lists its calls saves nothing and leaves the state
being built alone. -/
theorem execute_savesNothing {t : DeployTask (Deployable (Logged σ))} (hd : Lists t.deployable) :
    SavesNothing (execute (engineCollaborators sv.logged o units) t) := by
  unfold execute
  split
  · -- create or update: find the artifact and its hash, then apply
    dsimp only
    have happly : ∀ ah : Artifact × String, SavesNothing
        ((engineCollaborators sv.logged o units).apply t.deployable t.target ah.1 >>= fun outputs =>
          Pure.pure ({ outputs, contentHash := some ah.2 } : Outcome)) :=
      fun ah => (sv.apply_savesNothing hd _ _).bind fun _ => SavesNothing.pure _
    split
    · exact (sv.resolve_savesNothing t).bind fun a =>
        (sv.contentHash_savesNothing _ a).bind fun h =>
          (SavesNothing.pure _).bind fun ah => happly ah
    · split
      · exact (SavesNothing.throw _).bind fun ah => happly ah
      · exact (SavesNothing.pure _).bind fun ah => happly ah
      · exact (sv.contentHash_savesNothing _ _).bind fun _ =>
          (SavesNothing.pure _).bind fun ah => happly ah
  · exact (sv.delete_savesNothing hd _).bind fun _ => SavesNothing.pure _

/-! ## A run on the logged world -/

variable {g : TaskGraph (Deployable (Logged σ))}

theorem engine_keeps (hg : ∀ t ∈ g.tasks, Lists t.deployable) (W : Logged σ) :
    Flight.Keeps g (engineCollaborators sv.logged o units) fun x => W.Unsaved x.1 where
  execute t ht x hx := hx.trans (sv.execute_savesNothing (hg t ht) x).1
  completed t _ outcome x hx := by
    obtain ⟨W', st⟩ := x
    exact hx

theorem engine_hooks (hg : ∀ t ∈ g.tasks, Lists t.deployable) :
    Flight.Hooks g (engineCollaborators sv.logged o units) Prod.snd (recordSuccess units sv.now) where
  execute t ht x := (sv.execute_savesNothing (hg t ht) x).2
  completed t _ outcome x := by
    obtain ⟨W', st⟩ := x
    rfl

/-- A run of a graph whose deployables list their calls adds calls that save nothing, and builds
the state by recording its successes, in the order its result lists them. -/
theorem runGraph_logged (hg : ∀ t ∈ g.tasks, Lists t.deployable) (opts : RunOptions)
    (o : Organization) (units : List UnitDef) (cancelled : Bool) (W : Logged σ) (st : State) :
    let run := runGraph opts g (engineCollaborators sv.logged o units) cancelled (W, st)
    W.Unsaved run.2.2.1 ∧ ∃ successes : List (DeployTask (Deployable (Logged σ)) × Outcome),
      (∀ x ∈ successes, x.1 ∈ g.tasks) ∧ successes.map (·.1.id) = run.1.succeeded ∧
      run.2.2.2 = recordSuccesses units sv.now successes st :=
  ⟨runGraph_keeps opts cancelled (sv.engine_keeps hg W) (Logged.Unsaved.refl W),
    runGraph_replays opts cancelled (sv.engine_hooks hg) (W, st)⟩

/-! ## Deploying -/

variable {text : String} {w : σ} {template : Template} {st₀ st : State}

theorem runPlanned_run (o : Organization) (units : List UnitDef) (g : TaskGraph (Deployable σ))
    (cancelled : Bool) (st : State) (w : σ) :
    (sv.runPlanned o units g cancelled st).run w =
      let run := runGraph sv.config.runOptions g (engineCollaborators sv o units) cancelled (w, st)
      (.ok (run.1, run.2.1, run.2.2.2), run.2.2.1) := rfl

/-- Committing, then answering: a failed save is a state error, and what the save did stays. -/
theorem run_commit_pure {α : Type} (st : State) (a : α) (w : σ) :
    (sv.commit st >>= fun _ => pure a).run w =
      let saved := (sv.store.save { st with committedAt := some sv.now }).run w
      ((saved.1.mapError .state).map fun _ => a, saved.2) := by
  show (ExceptT.bindCont (fun _ => (pure a : Act σ EngineError α))
      (((sv.store.save { st with committedAt := some sv.now }).run w).1.mapError
        EngineError.state)).run ((sv.store.save { st with committedAt := some sv.now }).run w).2 = _
  generalize (sv.store.save { st with committedAt := some sv.now }).run w = saved
  obtain ⟨r, w'⟩ := saved
  cases r <;> rfl

theorem deploy_unparsed (cancelled : Bool) {e : EngineError} (h : parseTemplate text = .error e) :
    (sv.deploy text cancelled).run w = (.error e, w) := by
  unfold deploy
  rw [h, Act.run_liftExcept_error_bind]

theorem deploy_unloaded (cancelled : Bool) {e : EngineError}
    (ht : parseTemplate text = .ok template) (h : sv.loadState w = .error e) :
    (sv.deploy text cancelled).run w = (.error e, w) := by
  unfold deploy
  rw [ht, Act.run_liftExcept_ok_bind, Act.run_get_bind, h, Act.run_liftExcept_error_bind]

theorem deploy_unbound (cancelled : Bool) {e : EngineError}
    (ht : parseTemplate text = .ok template) (hs : sv.loadState w = .ok st₀)
    (h : sv.loadOrganization st₀ w = .error e) :
    (sv.deploy text cancelled).run w = (.error e, w) := by
  unfold deploy
  rw [ht, Act.run_liftExcept_ok_bind, Act.run_get_bind, hs, Act.run_liftExcept_ok_bind, h,
    Act.run_liftExcept_error_bind]

theorem deploy_invalid (cancelled : Bool) (ht : parseTemplate text = .ok template)
    (hs : sv.loadState w = .ok st₀) (ho : sv.loadOrganization st₀ w = .ok (st, o))
    (h : (sv.planTemplate template o st w).hasInputErrors = true) :
    (sv.deploy text cancelled).run w =
      (.error (.invalidInput ((sv.planTemplate template o st w).errors.filter PlanError.isInputError)),
        w) := by
  unfold deploy
  rw [ht, Act.run_liftExcept_ok_bind, Act.run_get_bind, hs, Act.run_liftExcept_ok_bind, ho,
    Act.run_liftExcept_ok_bind]
  dsimp only
  rw [if_pos h, Act.run_throw_bind]

/-- A deploy whose plan has no input errors runs the plan, then commits the state the run built,
remembering the template text when the deploy succeeded. -/
theorem deploy_ready (cancelled : Bool) (ht : parseTemplate text = .ok template)
    (hs : sv.loadState w = .ok st₀) (ho : sv.loadOrganization st₀ w = .ok (st, o))
    (h : (sv.planTemplate template o st w).hasInputErrors = false) :
    let run := runGraph sv.config.runOptions (sv.planTemplate template o st w).graph
      (engineCollaborators sv o template.units) cancelled (w, st)
    let report : DeployReport := ⟨(sv.planTemplate template o st w).errors, run.1, run.2.1⟩
    let built := run.2.2.2
    let saved := (sv.store.save { (if report.isSuccess then { built with previousTemplate := some text }
      else built) with committedAt := some sv.now }).run run.2.2.1
    (sv.deploy text cancelled).run w = ((saved.1.mapError .state).map fun _ => report, saved.2) := by
  intro run report built saved
  unfold deploy
  rw [ht, Act.run_liftExcept_ok_bind, Act.run_get_bind, hs, Act.run_liftExcept_ok_bind, ho,
    Act.run_liftExcept_ok_bind]
  dsimp only
  rw [if_neg (by simp [h]), Act.run_bind_ok (sv.runPlanned_run _ _ _ _ _ _), sv.run_commit_pure]
  rfl

/-- The state a deploy commits: the state it loaded and bound to the organization, with what its
successes record, in order; it remembers the template text when the deploy succeeded, and it is
stamped with the time of the commit. -/
def deployCommitted {δ : Type} (now : Timestamp) (text : String) (units : List UnitDef)
    (st : State) (successes : List (DeployTask δ × Outcome)) (succeeded : Bool) : State :=
  let built := recordSuccesses units now successes st
  { (if succeeded then { built with previousTemplate := some text } else built) with
    committedAt := some now }

/-- A deploy that gets past planning runs the plan, whose tasks save nothing, and then saves
once: the state built from the succeeded tasks, in the order the run took them. -/
theorem deploy_commits (cancelled : Bool) {W : Logged σ} (ht : parseTemplate text = .ok template)
    (hs : sv.loadState W.world = .ok st₀) (ho : sv.loadOrganization st₀ W.world = .ok (st, o))
    (hclean : (sv.logged.planTemplate template o st W).hasInputErrors = false) :
    ∃ (report : DeployReport) (successes : List (DeployTask (Deployable (Logged σ)) × Outcome))
      (calls : List Call),
      report.planningErrors = (sv.logged.planTemplate template o st W).errors ∧
      (((sv.logged.deploy text cancelled).run W).1 = .ok report ∨
        ∃ e, ((sv.logged.deploy text cancelled).run W).1 = .error (.state e)) ∧
      (∀ x ∈ successes, x.1 ∈ (sv.logged.planTemplate template o st W).graph.tasks) ∧
      successes.map (·.1.id) = report.run.succeeded ∧ Call.saves calls = [] ∧
      ((sv.logged.deploy text cancelled).run W).2.calls = W.calls ++ calls ++
        [.save (deployCommitted sv.now text template.units st successes report.isSuccess)] := by
  -- every task of the plan is carried out by a deployable of the logged services
  have hnames : template.unitNames.Nodup := Template.parse_unitNames_nodup (mapError_eq_ok.mp ht)
  have hg : ∀ t ∈ (sv.logged.planTemplate template o st W).graph.tasks, Lists t.deployable :=
    fun t htask => by
      obtain ⟨u, hu⟩ := sv.logged.planTemplate_deployable hnames t htask
      exact sv.logged_deployable hu
  set run := runGraph sv.config.runOptions (sv.logged.planTemplate template o st W).graph
    (engineCollaborators sv.logged o template.units) cancelled (W, st)
  obtain ⟨⟨calls, hcalls, hsaves⟩, successes, hmem, hids, hbuilt⟩ :=
    sv.runGraph_logged hg sv.config.runOptions o template.units cancelled W st
  have hr := sv.logged.deploy_ready cancelled ht hs ho hclean
  simp only [logged_config, logged_now] at hr
  rw [hr, logged_save_run]
  refine ⟨⟨(sv.logged.planTemplate template o st W).errors, run.1, run.2.1⟩, successes, calls, rfl,
    ?_, hmem, hids, hsaves, ?_⟩
  · generalize ((sv.store.save _).run _).1 = saved
    cases saved with
    | ok u => exact .inl rfl
    | error e => exact .inr ⟨e, rfl⟩
  · rw [hcalls, hbuilt]
    rfl

/-! ## Deleting a unit -/

variable {name : String} {u : UnitDef} {d : Deployable σ}

theorem deleteUnit_unloaded (cancelled : Bool) {e : EngineError} (h : sv.loadState w = .error e) :
    (sv.deleteUnit name cancelled).run w = (.error e, w) := by
  unfold deleteUnit
  rw [Act.run_get_bind, h, Act.run_liftExcept_error_bind]

theorem deleteUnit_unknownUnit (cancelled : Bool) (hs : sv.loadState w = .ok st₀)
    (h : st₀.records name = []) :
    (sv.deleteUnit name cancelled).run w = (.error (.unknownUnit name), w) := by
  unfold deleteUnit
  rw [Act.run_get_bind, hs, Act.run_liftExcept_ok_bind]
  dsimp only
  rw [if_pos (by simp [h]), Act.run_throw_bind]

theorem deleteUnit_unbound (cancelled : Bool) {e : EngineError} (hs : sv.loadState w = .ok st₀)
    (hne : st₀.records name ≠ []) (h : sv.loadOrganization st₀ w = .error e) :
    (sv.deleteUnit name cancelled).run w = (.error e, w) := by
  unfold deleteUnit
  rw [Act.run_get_bind, hs, Act.run_liftExcept_ok_bind]
  dsimp only
  rw [if_neg (by simpa using hne), h, Act.run_liftExcept_error_bind]

theorem deleteUnit_unknownDefinition (cancelled : Bool) (hs : sv.loadState w = .ok st₀)
    (hne : st₀.records name ≠ []) (ho : sv.loadOrganization st₀ w = .ok (st, o))
    (h : deployedDefinition st st.previousTemplateDef? name = none) :
    (sv.deleteUnit name cancelled).run w = (.error (.unknownDefinition name), w) := by
  unfold deleteUnit
  rw [Act.run_get_bind, hs, Act.run_liftExcept_ok_bind]
  dsimp only
  rw [if_neg (by simpa using hne), ho, Act.run_liftExcept_ok_bind]
  dsimp only
  rw [h, Act.run_throw_bind]

theorem deleteUnit_unknownPlugin (cancelled : Bool) {e : PlanError} (hs : sv.loadState w = .ok st₀)
    (hne : st₀.records name ≠ []) (ho : sv.loadOrganization st₀ w = .ok (st, o))
    (hdef : deployedDefinition st st.previousTemplateDef? name = some u)
    (h : sv.deployable u = .error e) :
    (sv.deleteUnit name cancelled).run w = (.error (.unknownPlugin name (u.plugin?.getD "")), w) := by
  unfold deleteUnit
  rw [Act.run_get_bind, hs, Act.run_liftExcept_ok_bind]
  dsimp only
  rw [if_neg (by simpa using hne), ho, Act.run_liftExcept_ok_bind]
  dsimp only
  rw [hdef]
  dsimp only
  rw [Act.run_pure_bind, h]
  dsimp only
  rw [Act.run_throw_bind]

theorem deleteUnit_unbuilt (cancelled : Bool) {e : WorkflowError} (hs : sv.loadState w = .ok st₀)
    (hne : st₀.records name ≠ []) (ho : sv.loadOrganization st₀ w = .ok (st, o))
    (hdef : deployedDefinition st st.previousTemplateDef? name = some u)
    (hd : sv.deployable u = .ok d)
    (h : TaskGraph.build (deletionTasks name ((st₀.records name).map Record.target) d) = .error e) :
    (sv.deleteUnit name cancelled).run w = (.error (.graph e), w) := by
  unfold deleteUnit
  rw [Act.run_get_bind, hs, Act.run_liftExcept_ok_bind]
  dsimp only
  rw [if_neg (by simpa using hne), ho, Act.run_liftExcept_ok_bind]
  dsimp only
  rw [hdef]
  dsimp only
  rw [Act.run_pure_bind, hd]
  dsimp only
  rw [Act.run_pure_bind, h]
  exact Act.run_liftExcept_error_bind _ _ _

/-- A deletion that has built its graph runs it, then commits the state the run built. -/
theorem deleteUnit_ready (cancelled : Bool) {g : TaskGraph (Deployable σ)}
    (hs : sv.loadState w = .ok st₀) (hne : st₀.records name ≠ [])
    (ho : sv.loadOrganization st₀ w = .ok (st, o))
    (hdef : deployedDefinition st st.previousTemplateDef? name = some u)
    (hd : sv.deployable u = .ok d)
    (hg : TaskGraph.build (deletionTasks name ((st₀.records name).map Record.target) d) = .ok g) :
    let run := runGraph sv.config.runOptions g (engineCollaborators sv o [u]) cancelled (w, st)
    let saved := (sv.store.save { run.2.2.2 with committedAt := some sv.now }).run run.2.2.1
    (sv.deleteUnit name cancelled).run w =
      ((saved.1.mapError .state).map fun _ => ⟨[], run.1, run.2.1⟩, saved.2) := by
  intro run saved
  unfold deleteUnit
  rw [Act.run_get_bind, hs, Act.run_liftExcept_ok_bind]
  dsimp only
  rw [if_neg (by simpa using hne), ho, Act.run_liftExcept_ok_bind]
  dsimp only
  rw [hdef]
  dsimp only
  rw [Act.run_pure_bind, hd]
  dsimp only
  rw [Act.run_pure_bind, hg]
  refine (Act.run_liftExcept_ok_bind g _ w).trans ?_
  rw [Act.run_bind_ok (sv.runPlanned_run _ _ _ _ _ _), sv.run_commit_pure]

/-- A deletion that fails other than by a state error fails before its run, with the world as
it was: so with an unknown unit, definition or plugin, an organization that does not load, or a
graph that cannot be built. -/
theorem deleteUnit_stops (cancelled : Bool) {e : EngineError}
    (h : ((sv.deleteUnit name cancelled).run w).1 = .error e) (hstate : ∀ se, e ≠ .state se) :
    ((sv.deleteUnit name cancelled).run w).2 = w := by
  rcases hs : sv.loadState w with e₀ | st₀
  · rw [sv.deleteUnit_unloaded cancelled hs]
  by_cases hne : st₀.records name = []
  · rw [sv.deleteUnit_unknownUnit cancelled hs hne]
  rcases ho : sv.loadOrganization st₀ w with e₀ | ⟨st, o⟩
  · rw [sv.deleteUnit_unbound cancelled hs hne ho]
  rcases hdef : deployedDefinition st st.previousTemplateDef? name with _ | u
  · rw [sv.deleteUnit_unknownDefinition cancelled hs hne ho hdef]
  rcases hd : sv.deployable u with e₀ | d
  · rw [sv.deleteUnit_unknownPlugin cancelled hs hne ho hdef hd]
  rcases hg : TaskGraph.build (deletionTasks name ((st₀.records name).map Record.target) d) with
    e₀ | g
  · rw [sv.deleteUnit_unbuilt cancelled hs hne ho hdef hd hg]
  · -- the run was reached, and the only failure left is the save's
    have hr := sv.deleteUnit_ready cancelled hs hne ho hdef hd hg
    dsimp only at hr
    rw [hr] at h
    exfalso
    revert h
    generalize ((sv.store.save _).run _).1 = saved
    cases saved with
    | ok _ => exact fun h => by cases h
    | error se => exact fun h => hstate se (Except.error.inj h).symm

theorem deployable_of_mem_deletionTasks {δ : Type} {targets : List Target} {d : δ}
    {t : DeployTask δ} (ht : t ∈ deletionTasks name targets d) : t.deployable = d := by
  obtain ⟨target, -, rfl⟩ := List.mem_map.mp ht
  rfl

/-- A deletion that has built its graph runs it, whose tasks save nothing, and then saves once:
the state built from the succeeded deletions, in the order the run took them. -/
theorem deleteUnit_commits (cancelled : Bool) {W : Logged σ} {d : Deployable (Logged σ)}
    {g : TaskGraph (Deployable (Logged σ))} (hs : sv.loadState W.world = .ok st₀)
    (hne : st₀.records name ≠ []) (ho : sv.loadOrganization st₀ W.world = .ok (st, o))
    (hdef : deployedDefinition st st.previousTemplateDef? name = some u)
    (hd : sv.logged.deployable u = .ok d)
    (hg : TaskGraph.build (deletionTasks name ((st₀.records name).map Record.target) d) = .ok g) :
    ∃ (report : DeployReport) (successes : List (DeployTask (Deployable (Logged σ)) × Outcome))
      (calls : List Call),
      report.planningErrors = [] ∧
      (((sv.logged.deleteUnit name cancelled).run W).1 = .ok report ∨
        ∃ e, ((sv.logged.deleteUnit name cancelled).run W).1 = .error (.state e)) ∧
      (∀ x ∈ successes, x.1 ∈ g.tasks) ∧ successes.map (·.1.id) = report.run.succeeded ∧
      Call.saves calls = [] ∧
      ((sv.logged.deleteUnit name cancelled).run W).2.calls = W.calls ++ calls ++
        [.save { recordSuccesses [u] sv.now successes st with committedAt := some sv.now }] := by
  -- every task of the graph deletes with the unit's deployable
  have hlists : ∀ t ∈ g.tasks, Lists t.deployable := fun t ht => by
    rw [(TaskGraph.build_built hg).tasks_eq, List.mem_toArray] at ht
    rw [deployable_of_mem_deletionTasks ht]
    exact sv.logged_deployable hd
  set run := runGraph sv.config.runOptions g (engineCollaborators sv.logged o [u]) cancelled (W, st)
  obtain ⟨⟨calls, hcalls, hsaves⟩, successes, hmem, hids, hbuilt⟩ :=
    sv.runGraph_logged hlists sv.config.runOptions o [u] cancelled W st
  have hr := sv.logged.deleteUnit_ready cancelled hs hne ho hdef hd hg
  simp only [logged_config, logged_now] at hr
  rw [hr, logged_save_run]
  refine ⟨⟨[], run.1, run.2.1⟩, successes, calls, rfl, ?_, hmem, hids, hsaves, ?_⟩
  · generalize ((sv.store.save _).run _).1 = saved
    cases saved with
    | ok _ => exact .inl rfl
    | error e => exact .inr ⟨e, rfl⟩
  · rw [hcalls, hbuilt]

/-! ## Saving at most once, and reading only -/

/-- Whatever its template text and its world, a deploy makes at most one save. -/
theorem deploy_saves_at_most_once (text : String) (cancelled : Bool) (W : Logged σ) :
    ∃ calls, ((sv.logged.deploy text cancelled).run W).2.calls = W.calls ++ calls ∧
      (Call.saves calls).length ≤ 1 := by
  rcases ht : parseTemplate text with e | template
  · exact ⟨[], by rw [sv.logged.deploy_unparsed cancelled ht]; simp, by simp⟩
  rcases hs : sv.loadState W.world with e | st₀
  · exact ⟨[], by rw [sv.logged.deploy_unloaded cancelled ht hs]; simp, by simp⟩
  rcases ho : sv.loadOrganization st₀ W.world with e | ⟨st, o⟩
  · exact ⟨[], by rw [sv.logged.deploy_unbound cancelled ht hs ho]; simp, by simp⟩
  cases hi : (sv.logged.planTemplate template o st W).hasInputErrors
  · obtain ⟨_, _, calls, -, -, -, -, hsaves, hcalls⟩ := sv.deploy_commits cancelled ht hs ho hi
    exact ⟨calls ++ [_], by rw [hcalls, List.append_assoc], by simp [hsaves]⟩
  · exact ⟨[], by rw [sv.logged.deploy_invalid cancelled ht hs ho hi]; simp, by simp⟩

/-- Planning reads the world and changes nothing. -/
theorem plan_readOnly (text : String) : Act.ReadOnly (sv.plan text) := by
  unfold plan
  refine Act.ReadOnly.bind (.liftExcept _) fun template => ?_
  refine Act.ReadOnly.bind .get fun w => ?_
  refine Act.ReadOnly.bind (.liftExcept _) fun st => ?_
  exact Act.ReadOnly.bind (.liftExcept _) fun _ => .pure _

/-- Rendering a unit reads the world and changes nothing. -/
theorem renderUnit_readOnly (text name : String) : Act.ReadOnly (sv.renderUnit text name) := by
  unfold renderUnit
  refine Act.ReadOnly.bind (.liftExcept _) fun template => ?_
  dsimp only
  split
  · refine Act.ReadOnly.bind (.pure _) fun u => ?_
    refine Act.ReadOnly.bind .get fun w => ?_
    refine Act.ReadOnly.bind (.liftExcept _) fun st => ?_
    refine Act.ReadOnly.bind (.liftExcept _) fun ⟨st, o⟩ => ?_
    exact Act.ReadOnly.bind (.liftExcept _) fun _ => .liftExcept _
  · exact Act.ReadOnly.throw_bind _ _

/-- Describing the records reads the world and changes nothing. -/
theorem describe_readOnly (unit : Option String) : Act.ReadOnly (sv.describe unit) := by
  unfold describe
  refine Act.ReadOnly.bind .get fun w => ?_
  refine Act.ReadOnly.bind (.liftExcept _) fun st => ?_
  dsimp only
  split
  · split
    · exact Act.ReadOnly.throw_bind _ _
    · exact .pure _
  · exact .pure _

end Services

/-! ## The discipline as a whole -/

/-- When the engine over services `sv` saves, seen on the world that lists their calls. -/
structure CommitDiscipline (sv : Services σ) : Prop where
  /-- Planning, rendering a unit and describing records change nothing. -/
  reads_only : ∀ text name unit, Act.ReadOnly (sv.logged.plan text) ∧
    Act.ReadOnly (sv.logged.renderUnit text name) ∧ Act.ReadOnly (sv.logged.describe unit)
  /-- A deploy saves at most once. -/
  deploy_once : ∀ text cancelled (W : Logged σ), ∃ calls,
    ((sv.logged.deploy text cancelled).run W).2.calls = W.calls ++ calls ∧
      (Call.saves calls).length ≤ 1
  /-- A template that does not parse stops a deploy, which then changes nothing. -/
  parse_failure : ∀ text cancelled (W : Logged σ) e, Services.parseTemplate text = .error e →
    (sv.logged.deploy text cancelled).run W = (.error e, W)
  /-- So does a state that does not load. -/
  load_failure : ∀ text cancelled (W : Logged σ) template e,
    Services.parseTemplate text = .ok template → sv.loadState W.world = .error e →
    (sv.logged.deploy text cancelled).run W = (.error e, W)
  /-- So does an organization that does not load. -/
  organization_failure : ∀ text cancelled (W : Logged σ) template st₀ e,
    Services.parseTemplate text = .ok template → sv.loadState W.world = .ok st₀ →
    sv.loadOrganization st₀ W.world = .error e →
    (sv.logged.deploy text cancelled).run W = (.error e, W)
  /-- So does a plan with input errors, and the deploy fails with exactly those errors. -/
  input_errors : ∀ text cancelled (W : Logged σ) template st₀ st o,
    Services.parseTemplate text = .ok template → sv.loadState W.world = .ok st₀ →
    sv.loadOrganization st₀ W.world = .ok (st, o) →
    (sv.logged.planTemplate template o st W).hasInputErrors = true →
    (sv.logged.deploy text cancelled).run W =
      (.error (.invalidInput ((sv.logged.planTemplate template o st W).errors.filter
        PlanError.isInputError)), W)
  /-- Otherwise a deploy runs its plan, whose tasks save nothing, and then saves once the state
  it loaded and bound to the organization, with what each succeeded task records, in the order
  the run took them, and the template text when the deploy succeeded. -/
  deploy_commit : ∀ text cancelled (W : Logged σ) template st₀ st o,
    Services.parseTemplate text = .ok template → sv.loadState W.world = .ok st₀ →
    sv.loadOrganization st₀ W.world = .ok (st, o) →
    (sv.logged.planTemplate template o st W).hasInputErrors = false →
    ∃ (report : DeployReport) (successes : List (DeployTask (Deployable (Logged σ)) × Outcome))
      (calls : List Call),
      report.planningErrors = (sv.logged.planTemplate template o st W).errors ∧
      (((sv.logged.deploy text cancelled).run W).1 = .ok report ∨
        ∃ e, ((sv.logged.deploy text cancelled).run W).1 = .error (.state e)) ∧
      (∀ x ∈ successes, x.1 ∈ (sv.logged.planTemplate template o st W).graph.tasks) ∧
      successes.map (·.1.id) = report.run.succeeded ∧ Call.saves calls = [] ∧
      ((sv.logged.deploy text cancelled).run W).2.calls = W.calls ++ calls ++
        [.save (Services.deployCommitted sv.now text template.units st successes report.isSuccess)]
  /-- A deletion that fails other than by a state error, as with an unknown unit, definition or
  plugin, changes nothing. -/
  delete_failure : ∀ name cancelled (W : Logged σ) e,
    ((sv.logged.deleteUnit name cancelled).run W).1 = .error e → (∀ se, e ≠ .state se) →
    ((sv.logged.deleteUnit name cancelled).run W).2 = W
  /-- A deletion that has built its graph runs it, whose tasks save nothing, and then saves
  once the state built from the succeeded deletions. -/
  delete_commit : ∀ name cancelled (W : Logged σ) st₀ st o u d g,
    sv.loadState W.world = .ok st₀ → st₀.records name ≠ [] →
    sv.loadOrganization st₀ W.world = .ok (st, o) →
    Services.deployedDefinition st st.previousTemplateDef? name = some u →
    sv.logged.deployable u = .ok d →
    TaskGraph.build (deletionTasks name ((st₀.records name).map Record.target) d) = .ok g →
    ∃ (report : DeployReport) (successes : List (DeployTask (Deployable (Logged σ)) × Outcome))
      (calls : List Call),
      report.planningErrors = [] ∧
      (((sv.logged.deleteUnit name cancelled).run W).1 = .ok report ∨
        ∃ e, ((sv.logged.deleteUnit name cancelled).run W).1 = .error (.state e)) ∧
      (∀ x ∈ successes, x.1 ∈ g.tasks) ∧ successes.map (·.1.id) = report.run.succeeded ∧
      Call.saves calls = [] ∧
      ((sv.logged.deleteUnit name cancelled).run W).2.calls = W.calls ++ calls ++
        [.save { recordSuccesses [u] sv.now successes st with committedAt := some sv.now }]

/-- The engine saves only at the end of a deploy or a deletion that reached its run, once, the
state its run built; everything that stops before saves nothing and changes nothing. -/
theorem commit_discipline (sv : Services σ) : CommitDiscipline sv where
  reads_only text name unit :=
    ⟨sv.logged.plan_readOnly text, sv.logged.renderUnit_readOnly text name,
      sv.logged.describe_readOnly unit⟩
  deploy_once := sv.deploy_saves_at_most_once
  parse_failure _ cancelled _ _ h := sv.logged.deploy_unparsed cancelled h
  load_failure _ cancelled _ _ _ ht h := sv.logged.deploy_unloaded cancelled ht h
  organization_failure _ cancelled _ _ _ _ ht hs h := sv.logged.deploy_unbound cancelled ht hs h
  input_errors _ cancelled _ _ _ _ _ ht hs ho h := sv.logged.deploy_invalid cancelled ht hs ho h
  deploy_commit _ cancelled _ _ _ _ _ ht hs ho h := sv.deploy_commits cancelled ht hs ho h
  delete_failure _ cancelled _ _ h hstate := sv.logged.deleteUnit_stops cancelled h hstate
  delete_commit _ cancelled _ _ _ _ _ _ _ hs hne ho hdef hd hg :=
    sv.deleteUnit_commits cancelled hs hne ho hdef hd hg

end OrgDeploy
