import Mathlib
import OrgDeploy.Proofs.Engine.Reachable
import OrgDeploy.Proofs.Fs.Tree

/-!
# What a plugin delete is given, and what a copy-file delete removes

A plugin's apply is given the unit's configuration rendered for the target (the artifact's
body), but its delete is given the configuration the unit's definition declares, as written:
`engineCollaborators` passes the deployable's own configuration, and the deployable is built
from a definition, never from a render.

## Which definition

* `Services.planTemplate_declared`: a task of a template's plan, a delete of a target that left
  the unit's binding included, is carried by the template's unit of its name; a task of a unit
  the template no longer has, by the definition that unit was deployed with
  (`deployedDefinition`: stored with its records, else in the last full template).
* `Services.deleteUnit_deletes`: deleting a unit stops before any run with the world as it was,
  or runs deletions of the unit's recorded targets carried by its deployed definition.
* `Services.deployable_plugin`, `Services.execute_plugin_delete`: a plugin deployable holds its
  definition's configuration, and a delete task runs the plugin's delete with it.

## Which plugin

The services hold a `PluginRegistry`, one plugin of each name. `PluginRegistry.get_of_mem` and
`get_spec`: the plugin found under a name is the registered one of that name; so a plugin unit's
deployable is the registered plugin its definition names (`Services.deployable_of_registered`).
`get_register`: registering replaces the plugin of its name; `names_nodup_sorted`: the names are
listed once each, in order.

## What copy-file removes

The copy-file delete reads the configuration (`CopyFile.config`), then unlinks
`destination/<account id>/<region>/<remote_path>` and accepts a file that is not there:

* `CopyFile.delete_refuses`: a configuration that does not read is refused with every file as
  it was; a reference in `remote_path`, an object until rendered, is such a configuration.
* `CopyFile.delete_removes_only`: otherwise at most the file at the remote path goes.
* `CopyFile.delete_undoes_apply`: given a configuration with the remote path a successful apply
  used, the delete removes the file that apply stored and answered; every file is then as before
  the apply, less any at that path. The directories the apply made stay.

So a delete undoes the recorded apply exactly when the declared remote path reads as the
rendered one, as when it holds no expression (`plugin_deletes_use_declared_config`); with a
reference it does not (`referenced_remote_path_outlives_delete`).
-/

namespace OrgDeploy

open OrgDeploy.Json OrgDeploy.Fs

namespace CopyFile

variable (cf : CopyFile) (target : Target)

/-- A delete of a configuration that does not read refuses it and touches nothing. -/
theorem delete_refuses {v : Value} {e : PluginError} (h : CopyFile.config v = .error e)
    (T : FileTree) : (cf.delete target v).run T = (.error e, T) := by
  unfold CopyFile.delete
  rw [h]
  exact Act.run_liftExcept_error_bind _ _ _

/-- A delete removes at most the file at its configuration's remote path for the target. -/
theorem delete_removes_only {v : Value} {c : CopyFileConfig} (h : CopyFile.config v = .ok c)
    (T : FileTree) :
    ((cf.delete target v).run T).2 = T ∨
      ∃ loc, T.locate (cf.remote target c) = .ok loc ∧
        (cf.delete target v).run T = (.ok (), T.drop loc) := by
  unfold CopyFile.delete
  rw [h, Act.run_liftExcept_ok_bind]
  dsimp only
  rw [Act.run_adapt]
  rcases unlinkFile_cases (cf.remote target c) T with hkeep | ⟨loc, hloc, hrun⟩
  · left
    -- a refusal is accepted for a missing file and passed on otherwise, with the tree as it was
    cases hr : (unlinkFile (cf.remote target c)).run T with
    | mk r T' =>
      rw [hr] at hkeep
      subst hkeep
      cases r with
      | ok u => rw [Act.run_tryCatch_ok hr]
      | error e =>
        rw [Act.run_tryCatch_error hr]
        split <;> rfl
  · right
    refine ⟨loc, hloc, ?_⟩
    rw [Act.run_tryCatch_ok hrun]
    rfl

/-- The end of an apply: the copy to the remote path went through, and the answer names that
path. -/
theorem copy_answer_ok {c : CopyFileConfig} {T' T₁ : FileTree} {outs : Outputs}
    (h : ((copyFile (cf.localFile c) (cf.remote target c)).adapt (PluginError.io (cf.localFile c))
      >>= fun _ => pure [("RemotePath", cf.remote target c)]).run T' = (.ok outs, T₁)) :
    outs = [("RemotePath", cf.remote target c)] ∧
      ∃ loc text, T'.locate (cf.remote target c) = .ok loc ∧ T'.entry? loc ≠ some .dir ∧
        (cf.remote target c).endsWith "/" = false ∧ T₁ = T'.put loc text := by
  obtain ⟨u, T₂, hcopy, hanswer⟩ := Act.run_bind_eq_ok h
  cases hanswer
  rw [Act.run_adapt] at hcopy
  cases hr : (copyFile (cf.localFile c) (cf.remote target c)).run T' with
  | mk r T₃ =>
    rw [hr] at hcopy
    cases r with
    | error e => cases hcopy
    | ok u =>
      cases hcopy
      exact ⟨rfl, copyFile_ok hr⟩

/-- An apply that went through read its configuration, made the parents of the remote path
(adding directories only), and stored a text at the remote path's location, over no directory;
it answers that path. -/
theorem apply_ok {v : Value} {T T₁ : FileTree} {outs : Outputs}
    (h : (cf.apply target v).run T = (.ok outs, T₁)) :
    ∃ (c : CopyFileConfig) (T' : FileTree) (loc : Location) (text : String),
      CopyFile.config v = .ok c ∧ outs = [("RemotePath", cf.remote target c)] ∧
      T'.files = T.files ∧ T'.cwd = T.cwd ∧ T'.locate (cf.remote target c) = .ok loc ∧
      T'.entry? loc ≠ some .dir ∧ (cf.remote target c).endsWith "/" = false ∧
      T₁ = T'.put loc text := by
  unfold CopyFile.apply at h
  cases hc : CopyFile.config v with
  | error e => rw [hc, Act.run_liftExcept_error_bind] at h; cases h
  | ok c =>
  rw [hc, Act.run_liftExcept_ok_bind] at h
  dsimp only at h
  -- the parents of the remote path are made first, when it has any
  obtain ⟨T', ⟨hfiles, hcwd⟩, h⟩ : ∃ T' : FileTree, (T'.files = T.files ∧ T'.cwd = T.cwd) ∧
      ((copyFile (cf.localFile c) (cf.remote target c)).adapt (PluginError.io (cf.localFile c))
        >>= fun _ => pure [("RemotePath", cf.remote target c)]).run T' = (.ok outs, T₁) := by
    cases hpar : parentPath (cf.remote target c) with
    | none =>
      rw [hpar] at h
      exact ⟨T, ⟨rfl, rfl⟩, h⟩
    | some parent =>
      rw [hpar] at h
      obtain ⟨u, T', hdirs, h⟩ := Act.run_bind_eq_ok h
      rw [Act.run_adapt] at hdirs
      have hT' : ((makeDirs parent).run T).2 = T' := congrArg Prod.snd hdirs
      exact ⟨T', hT' ▸ keepsFiles_makeDirs parent T, h⟩
  obtain ⟨rfl, loc, text, hloc, hdir, hslash, rfl⟩ := cf.copy_answer_ok target h
  exact ⟨c, T', loc, text, rfl, rfl, hfiles, hcwd, hloc, hdir, hslash, rfl⟩

/-- A delete whose configuration names the remote path an apply wrote removes the file that
apply stored: afterwards every file is as it was before the apply, less any at that path. -/
theorem delete_undoes_apply {v v' : Value} {T T₁ : FileTree} {outs : Outputs}
    (h : (cf.apply target v).run T = (.ok outs, T₁))
    (hpath : (CopyFile.config v').map (·.remotePath) = (CopyFile.config v).map (·.remotePath)) :
    ∃ c loc, CopyFile.config v = .ok c ∧ outs = [("RemotePath", cf.remote target c)] ∧
      T₁.locate (cf.remote target c) = .ok loc ∧
      (cf.delete target v').run T₁ = (.ok (), T₁.drop loc) ∧
      (T₁.drop loc).files = (T.drop loc).files ∧ (T₁.drop loc).cwd = T.cwd := by
  obtain ⟨c, T', loc, text, hc, rfl, hfiles, hcwd, hloc, hdir, hslash, rfl⟩ := cf.apply_ok target h
  -- the delete's configuration reads, and names the same remote path
  obtain ⟨c', hc', hsame⟩ : ∃ c', CopyFile.config v' = .ok c' ∧ c'.remotePath = c.remotePath := by
    rw [hc] at hpath
    cases hv' : CopyFile.config v' with
    | error e => rw [hv'] at hpath; cases hpath
    | ok c' => rw [hv'] at hpath; exact ⟨c', rfl, Except.ok.inj hpath⟩
  have hremote : cf.remote target c' = cf.remote target c := by simp [CopyFile.remote, hsame]
  -- storing the file kept the directories the remote path goes through
  have hloc₁ : (T'.put loc text).locate (cf.remote target c) = .ok loc :=
    (FileTree.dirsKept_put T' hdir text).locate hloc
  refine ⟨c, loc, hc, rfl, hloc₁, ?_, by rw [FileTree.drop_put]; simp [FileTree.drop, hfiles],
    by simp [hcwd]⟩
  unfold CopyFile.delete
  rw [hc', Act.run_liftExcept_ok_bind]
  dsimp only
  rw [hremote, Act.run_adapt,
    Act.run_tryCatch_ok (run_unlinkFile hloc₁ (FileTree.entry?_put_self T' hdir text) hslash)]
  rfl

end CopyFile

namespace PluginRegistry

variable {σ : Type} (r : PluginRegistry σ)

/-- The plugin found under a name is registered under that name. -/
theorem get_spec {name : String} {p : Plugin σ} (h : r.get name = some p) :
    p ∈ r ∧ p.name = name :=
  ⟨List.mem_of_find?_eq_some h, by simpa using List.find?_some h⟩

/-- A registered plugin is the one found under its name: no other has that name. -/
theorem get_of_mem {p : Plugin σ} (hp : p ∈ r) : r.get p.name = some p := by
  obtain ⟨q, hq⟩ : ∃ q, r.get p.name = some q :=
    Option.isSome_iff_exists.mp (List.find?_isSome.mpr ⟨p, hp, by simp⟩)
  obtain ⟨hqmem, hqname⟩ := r.get_spec hq
  rw [hq, List.inj_on_of_nodup_map r.names_nodup hqmem hp hqname]

/-- Registering a plugin makes it the one of its name and keeps the others. -/
theorem get_register (p : Plugin σ) (name : String) :
    (r.register p).get name = if p.name = name then some p else r.get name := by
  unfold register get
  split_ifs with h
  · simp [h]
  · -- a plugin found under `name` is not named `p.name`, so the filter keeps it
    rw [List.find?_cons_of_neg (by simpa using h), List.find?_filter]
    refine List.find?_congr fun a _ => ?_
    by_cases ha : a.name = name
    · simp [ha, Ne.symm h]
    · simp [ha]

/-- The names listed are those a plugin is found under. -/
theorem mem_names {name : String} : name ∈ r.names ↔ (r.get name).isSome := by
  simp [names, get, List.mem_mergeSort, List.find?_isSome]

/-- The names are listed once each, in order. -/
theorem names_nodup_sorted : r.names.Nodup ∧ r.names.Pairwise (· ≤ ·) := by
  refine ⟨(List.mergeSort_perm _ _).nodup_iff.mpr r.names_nodup, ?_⟩
  have htrans : ∀ a b c : String,
      decide (a ≤ b) = true → decide (b ≤ c) = true → decide (a ≤ c) = true := by
    simp only [decide_eq_true_eq]
    exact fun _ _ _ => le_trans
  have htotal : ∀ a b : String, (decide (a ≤ b) || decide (b ≤ a)) = true := by
    simpa using le_total
  simpa [names] using List.pairwise_mergeSort htrans htotal (r.plugins.map (·.name))

end PluginRegistry

theorem unit_of_mem_deletionTasks {δ : Type} {name : String} {targets : List Target} {d : δ}
    {t : DeployTask δ} (ht : t ∈ deletionTasks name targets d) : t.id.unit = name := by
  obtain ⟨target, -, rfl⟩ := List.mem_map.mp ht
  rfl

namespace Services

variable {σ : Type} (sv : Services σ)

/-- A plugin deployable carries the configuration its unit declares. -/
theorem deployable_plugin {u : UnitDef} {p : Plugin σ} {c : Value}
    (h : sv.deployable u = .ok (.plugin p c)) : u.kind = .plugin p.name c := by
  unfold deployable at h
  split at h
  · cases h
  · rename_i name config hkind
    split at h
    · rename_i p' hfind
      cases h
      have hname : p.name = name := by simpa using List.find?_some hfind
      rw [hkind, hname]
    · cases h

/-- A unit of a registered plugin has that plugin as its deployable, with the configuration the
unit declares. -/
theorem deployable_of_registered {u : UnitDef} {p : Plugin σ} {c : Value}
    (hkind : u.kind = .plugin p.name c) (hp : p ∈ sv.plugins) :
    sv.deployable u = .ok (.plugin p c) := by
  unfold deployable
  rw [hkind]
  simp only [sv.plugins.get_of_mem hp]

variable {o : Organization} {st : State} {previous : Option Template} {w : σ}

theorem planTemplateUnit_deployable {u : UnitDef} {p : UnitPlan (Deployable σ)}
    (h : sv.planTemplateUnit o st previous w u = .ok p) :
    ∀ t ∈ p.tasks, sv.deployable u = .ok t.deployable := by
  unfold planTemplateUnit at h
  obtain ⟨d, hd, h⟩ := bind_eq_ok.mp h
  obtain ⟨targets, -, h⟩ := bind_eq_ok.mp h
  intro t ht
  rw [planUnit_deployable h t ht, hd]

theorem planRemovedUnit_deployable {name : String} {p : UnitPlan (Deployable σ)}
    (h : sv.planRemovedUnit o st previous w name = .ok p) :
    ∃ u, deployedDefinition st previous name = some u ∧
      ∀ t ∈ p.tasks, sv.deployable u = .ok t.deployable ∧ t.id.unit = name := by
  unfold planRemovedUnit at h
  dsimp only at h
  split at h
  · rename_i u hu
    simp only [pure_bind] at h
    obtain ⟨d, hd, h⟩ := bind_eq_ok.mp h
    exact ⟨u, hu, fun t ht => ⟨by rw [planUnit_deployable h t ht, hd], (planUnit_tasks h t ht).1⟩⟩
  · cases h

/-- Every task of a template's plan is carried by the deployable of a definition: the
template's unit of the task's name, or, for a unit the template no longer has, the definition
it was deployed with. -/
theorem planTemplate_declared (template : Template) (o : Organization) (st : State) (w : σ) :
    ∀ t ∈ (sv.planTemplate template o st w).graph.tasks, ∃ u,
      sv.deployable u = .ok t.deployable ∧
      (u ∈ template.units ∧ u.name = t.id.unit ∨
        t.id.unit ∉ template.unitNames ∧
          deployedDefinition st st.previousTemplateDef? t.id.unit = some u) := by
  intro t ht
  rw [sv.planTemplate_filed] at ht
  obtain ⟨t', ht', heq⟩ := assemble_tasks t ht
  -- taking the links off keeps a task's id and deployable
  have hid := congrArg DeployTask.id heq
  have hdep := congrArg DeployTask.deployable heq
  change t'.id = t.id at hid
  change t'.deployable = t.deployable at hdep
  obtain ⟨p, hp, htp⟩ := List.mem_flatMap.mp ht'
  rcases List.mem_append.mp hp with hp | hp
  · obtain ⟨u, hu, hpu⟩ := List.mem_filterMap.mp hp
    have hpu := toOption_eq_some.mp hpu
    refine ⟨u, hdep ▸ sv.planTemplateUnit_deployable hpu t' htp, .inl ⟨hu, ?_⟩⟩
    rw [← hid, sv.planTemplateUnit_tasks hpu t' htp]
  · obtain ⟨n, hn, hpn⟩ := List.mem_filterMap.mp hp
    obtain ⟨u, hu, hdu⟩ := sv.planRemovedUnit_deployable (toOption_eq_some.mp hpn)
    obtain ⟨hd, hname⟩ := hdu t' htp
    have hgone : n ∉ template.unitNames := by simpa using (List.mem_filter.mp hn).2
    rw [← hid, hname]
    exact ⟨u, hdep ▸ hd, .inr ⟨hgone, hu⟩⟩

/-- Deleting a unit either stops before any run, with the world as it was, or runs a graph of
deletions of the unit, each carried by the deployable of the definition the unit was deployed
with, and commits the state the run built. -/
theorem deleteUnit_deletes (name : String) (cancelled : Bool) (w : σ) :
    (∃ e, (sv.deleteUnit name cancelled).run w = (.error e, w)) ∨
      ∃ st o u g, deployedDefinition st st.previousTemplateDef? name = some u ∧
        (∀ t ∈ g.tasks, t.action = .delete ∧ t.id.unit = name ∧
          sv.deployable u = .ok t.deployable) ∧
        let run := runGraph sv.config.runOptions g (engineCollaborators sv o [u]) cancelled (w, st)
        let saved := (sv.store.save { run.2.2.2 with committedAt := some sv.now }).run run.2.2.1
        (sv.deleteUnit name cancelled).run w =
          ((saved.1.mapError .state).map fun _ => ⟨[], run.1, run.2.1⟩, saved.2) := by
  rcases hs : sv.loadState w with e | st₀
  · exact .inl ⟨e, sv.deleteUnit_unloaded cancelled hs⟩
  by_cases hne : st₀.records name = []
  · exact .inl ⟨_, sv.deleteUnit_unknownUnit cancelled hs hne⟩
  rcases ho : sv.loadOrganization st₀ w with e | ⟨st, o⟩
  · exact .inl ⟨e, sv.deleteUnit_unbound cancelled hs hne ho⟩
  rcases hdef : deployedDefinition st st.previousTemplateDef? name with _ | u
  · exact .inl ⟨_, sv.deleteUnit_unknownDefinition cancelled hs hne ho hdef⟩
  rcases hd : sv.deployable u with e | d
  · exact .inl ⟨_, sv.deleteUnit_unknownPlugin cancelled hs hne ho hdef hd⟩
  rcases hg : TaskGraph.build (deletionTasks name ((st₀.records name).map Record.target) d) with
    e | g
  · exact .inl ⟨_, sv.deleteUnit_unbuilt cancelled hs hne ho hdef hd hg⟩
  -- the graph was built from the deletions of the unit's recorded targets
  refine .inr ⟨st, o, u, g, hdef, fun t ht => ?_, sv.deleteUnit_ready cancelled hs hne ho hdef hd hg⟩
  rw [(TaskGraph.build_built hg).tasks_eq, List.mem_toArray] at ht
  exact ⟨action_of_mem_deletionTasks ht, unit_of_mem_deletionTasks ht,
    by rw [deployable_of_mem_deletionTasks ht, hd]⟩

/-- Carrying out a plugin's delete task runs the plugin's delete for the task's target with the
configuration the deployable carries, on the engine's world; the state being built stays. -/
theorem execute_plugin_delete (o : Organization) (units : List UnitDef)
    {t : DeployTask (Deployable σ)} {p : Plugin σ} {c : Value}
    (hk : t.kind = .delete) (hd : t.deployable = .plugin p c) (w : σ) (st : State) :
    (execute (engineCollaborators sv o units) t).run (w, st) =
      ((((p.delete t.target c).run w).1.mapError (.backend "delete" ·.message)).map fun _ => {},
        (((p.delete t.target c).run w).2, st)) := by
  cases hr : (p.delete t.target c).run w with
  | mk r w' =>
  -- the delete runs on the engine's part of the run's world
  have hdel : ((engineCollaborators sv o units).delete t.deployable t.target).run (w, st) =
      (r.mapError (.backend "delete" ·.message), w', st) := by
    rw [hd]
    show (let (r, a) := (p.delete t.target c).run w; (r.mapError _, (a, st))) = _
    rw [hr]
  unfold execute
  rw [hk]
  cases r with
  | ok u => exact (Act.run_bind_ok hdel).trans rfl
  | error e => exact (Act.run_bind_error hdel).trans rfl

end Services

section Laws

variable {σ : Type}

/-- Where a plugin's delete takes its configuration from: the definition the unit declares, as
written, whichever way its delete task came about. -/
structure Services.DeclaredDeletes (sv : Services σ) : Prop where
  /-- A plugin deployable carries the configuration its unit's definition declares. -/
  declared : ∀ u p c, sv.deployable u = .ok (.plugin p c) → u.kind = .plugin p.name c
  /-- A planned task, a delete of a target that left the binding or of a unit that left the
  template included, is carried by the template's unit of its name, or, for a unit the template
  no longer has, by the definition the unit was deployed with. -/
  planned : ∀ template o st w, ∀ t ∈ (sv.planTemplate template o st w).graph.tasks, ∃ u,
    sv.deployable u = .ok t.deployable ∧
    (u ∈ template.units ∧ u.name = t.id.unit ∨
      t.id.unit ∉ template.unitNames ∧
        Services.deployedDefinition st st.previousTemplateDef? t.id.unit = some u)
  /-- Deleting a unit stops with the world as it was, or runs deletions of the unit carried by
  the definition it was deployed with. -/
  unit : ∀ name cancelled w,
    (∃ e, (sv.deleteUnit name cancelled).run w = (.error e, w)) ∨
      ∃ st o u g, Services.deployedDefinition st st.previousTemplateDef? name = some u ∧
        (∀ t ∈ g.tasks, t.action = .delete ∧ t.id.unit = name ∧
          sv.deployable u = .ok t.deployable) ∧
        let run := runGraph sv.config.runOptions g (engineCollaborators sv o [u]) cancelled (w, st)
        let saved := (sv.store.save { run.2.2.2 with committedAt := some sv.now }).run run.2.2.1
        (sv.deleteUnit name cancelled).run w =
          ((saved.1.mapError .state).map fun _ => ⟨[], run.1, run.2.1⟩, saved.2)
  /-- A plugin's delete task runs the plugin's delete with the deployable's configuration; no
  render takes part. -/
  executes : ∀ o units (t : DeployTask (Deployable σ)) p c, t.kind = .delete →
    t.deployable = .plugin p c → ∀ w st,
    (execute (engineCollaborators sv o units) t).run (w, st) =
      ((((p.delete t.target c).run w).1.mapError (.backend "delete" ·.message)).map fun _ => {},
        (((p.delete t.target c).run w).2, st))

/-- What a copy-file delete does with the configuration it is given. -/
structure CopyFile.DeleteLaws (cf : CopyFile) : Prop where
  /-- A configuration that does not read is refused, and no file changes. -/
  refuses : ∀ target v e, CopyFile.config v = .error e → ∀ T,
    (cf.delete target v).run T = (.error e, T)
  /-- At most the file at the configuration's remote path for the target goes. -/
  removesOnly : ∀ target v c, CopyFile.config v = .ok c → ∀ T,
    ((cf.delete target v).run T).2 = T ∨
      ∃ loc, T.locate (cf.remote target c) = .ok loc ∧
        (cf.delete target v).run T = (.ok (), T.drop loc)
  /-- Given a configuration with the remote path of a successful apply, the delete removes the
  file the apply stored and answered: every file is as before the apply, less any at that path. -/
  undoes : ∀ target v v' T T₁ outs, (cf.apply target v).run T = (.ok outs, T₁) →
    (CopyFile.config v').map (·.remotePath) = (CopyFile.config v).map (·.remotePath) →
    ∃ c loc, CopyFile.config v = .ok c ∧ outs = [("RemotePath", cf.remote target c)] ∧
      T₁.locate (cf.remote target c) = .ok loc ∧
      (cf.delete target v').run T₁ = (.ok (), T₁.drop loc) ∧
      (T₁.drop loc).files = (T.drop loc).files ∧ (T₁.drop loc).cwd = T.cwd

/-- A plugin's delete task runs the plugin's delete with the configuration the unit's definition
declares, not the one rendered for the target; a copy-file delete removes the file that
configuration's remote path names for the target, and so undoes an apply exactly when the two
name the same remote path. -/
theorem plugin_deletes_use_declared_config (sv : Services σ) :
    sv.DeclaredDeletes ∧ ∀ cf : CopyFile, cf.DeleteLaws :=
  ⟨⟨fun _ _ _ => sv.deployable_plugin, sv.planTemplate_declared, sv.deleteUnit_deletes,
      fun o units _ _ _ hk hd => sv.execute_plugin_delete o units hk hd⟩,
    fun cf => ⟨fun target _ _ h => cf.delete_refuses target h,
      fun target _ _ h => cf.delete_removes_only target h,
      fun target _ _ _ _ _ h hpath => cf.delete_undoes_apply target h hpath⟩⟩

/-- A copy-file unit whose remote path is a reference to its account: rendered for account
`111111111111` the path reads `111111111111`, and the record keeps the path the apply answered.
The unit's delete task, as deleting the unit builds it from the stored definition, is given the
declared configuration, whose remote path is an object: the delete fails and the applied file
stays. -/
theorem referenced_remote_path_outlives_delete :
    let cf : CopyFile := ⟨"files", "deployments"⟩
    let sv : Services FileTree :=
      { directory := fun _ => .ok {}, store := ⟨fun _ => .ok {}, fun _ => pure ()⟩,
        backend := { apply := fun _ _ _ _ => pure [], delete := fun _ _ => pure () },
        plugins := PluginRegistry.register {} (cf.plugin Slot.whole), now := Timestamp.epoch }
    let o : Organization :=
      { accounts := [{ logicalId := "Dev", physicalId := some "111111111111" }] }
    let target : Target := ⟨"111111111111", "eu-west-1", "Dev"⟩
    let declared : Value :=
      .obj [("local_path", .str "a.txt"), ("remote_path", .obj [("Ref", .str "Dev")])]
    let u : UnitDef := ⟨"f", {}, .plugin "copy-file" declared⟩
    let r : Record :=
      { lastCommittedHash := "", accountId := target.accountId, region := target.region,
        accountLogicalId := target.accountLogicalId,
        outputs := [("RemotePath", "deployments/111111111111/eu-west-1/111111111111")],
        deployedAt := Timestamp.epoch }
    let st : State := { deployments := [("f", [(target.key, r)])], definitions := [("f", u)] }
    let T : FileTree :=
      { dirs := [["files"], ["deployments"], ["deployments", "111111111111"],
          ["deployments", "111111111111", "eu-west-1"]],
        files := [(["files", "a.txt"], "hello"),
          (["deployments", "111111111111", "eu-west-1", "111111111111"], "hello")] }
    let t : DeployTask (Deployable FileTree) :=
      { id := TaskId.ofTarget "f" target, target, kind := .delete,
        deployable := .plugin (cf.plugin Slot.whole) declared }
    (render o st u target).map Artifact.body =
        .ok (.obj [("local_path", .str "a.txt"), ("remote_path", .str "111111111111")]) ∧
      Services.deployedDefinition st st.previousTemplateDef? "f" = some u ∧
      sv.deployable u = .ok t.deployable ∧
      (execute (engineCollaborators sv o [u]) t).run (T, st) =
        (.error (.backend "delete"
          "invalid config for plugin 'copy-file': invalid type: map, expected a string"), (T, st)) :=
  ⟨rfl, rfl, rfl, rfl⟩

end Laws

end OrgDeploy
