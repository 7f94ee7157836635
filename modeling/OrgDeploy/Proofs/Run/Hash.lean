import Mathlib
import OrgDeploy.Proofs.Run.Serial
import OrgDeploy.Proofs.Fs.Tree
import OrgDeploy.Proofs.Engine.Reachable

/-!
# The hash a run reports

A create-or-update task reports, with its success, a content hash; the engine records it
(`recordOf`), and the next plan compares the hash of a fresh render with it. The task comes by
the artifact it applies and by that hash in one of three ways (`Prepared`):

* a task that needs late resolution (it is deferred, or depends on tasks of the run) renders its
  artifact again through `resolve`, and the deployable hashes that;
* any other task applies the artifact it carries and reports the hash it carries, or, when it
  carries none, the deployable's hash of its artifact.

`execute_ok` inverts a successful `execute` into these cases. A task that needs late resolution
applies only what `resolve` gives it (`Prepared.resolved`), and a task without an artifact needs
it, so it is never applied unresolved. A carried hash is taken on trust: nothing checks it
against the artifact (`carried_hash_is_reported`).

Over a run, every outcome waiting to be taken is what carrying out its task gave
(`Flight.Executed`, which every move keeps), so every success the coordinator takes and reports
to `completed` came about in one of these ways. `planUnit` gives each task it plans with an
artifact the hash of that artifact, the hash it compared with the unit's record at the target
(`planUnit_carries_hash`); such a task that needs no late resolution reports and records exactly
that hash.

Headline: `run_reports_prepared_hash`.
-/

namespace OrgDeploy

variable {δ σ : Type}

/-! ## How a task comes by its artifact and its hash -/

/-- How the create-or-update task `t`, from world `w`, comes by the artifact `a` it applies and
the hash `h` it reports, leaving world `w'`. -/
inductive Prepared (c : Collaborators δ σ) (t : DeployTask δ) : σ → Artifact → String → σ → Prop
  /-- A task that needs late resolution renders its artifact again and hashes it. -/
  | late {w w₁ w' : σ} {a : Artifact} {h : String} (hlate : t.needsLateResolution = true)
      (hresolve : (c.resolve t).run w = (.ok a, w₁))
      (hhash : (c.contentHash t.deployable a).run w₁ = (.ok h, w')) : Prepared c t w a h w'
  /-- Another task applies its own artifact and reports the hash it carries. -/
  | carried {w : σ} {a : Artifact} {h : String} (hlate : t.needsLateResolution = false)
      (hkind : t.kind = .createOrUpdate (some a) (some h)) : Prepared c t w a h w
  /-- Another task that carries no hash has the deployable hash its own artifact. -/
  | hashed {w w' : σ} {a : Artifact} {h : String} (hlate : t.needsLateResolution = false)
      (hkind : t.kind = .createOrUpdate (some a) none)
      (hhash : (c.contentHash t.deployable a).run w = (.ok h, w')) : Prepared c t w a h w'

namespace Prepared

variable {c : Collaborators δ σ} {t : DeployTask δ} {w w' : σ} {a : Artifact} {h : String}

/-- A task that needs late resolution applies what `resolve` renders for it. -/
theorem resolved (hp : Prepared c t w a h w') (hlate : t.needsLateResolution = true) :
    ∃ w₁, (c.resolve t).run w = (.ok a, w₁) := by
  cases hp with
  | late _ hresolve _ => exact ⟨_, hresolve⟩
  | carried hlate' _ => simp [hlate] at hlate'
  | hashed hlate' _ _ => simp [hlate] at hlate'

/-- A task that needs no late resolution and carries an artifact and a hash applies that
artifact and reports that hash. -/
theorem eq_carried (hp : Prepared c t w a h w') (hlate : t.needsLateResolution = false)
    {a₀ : Artifact} {h₀ : String} (hkind : t.kind = .createOrUpdate (some a₀) (some h₀)) :
    a = a₀ ∧ h = h₀ := by
  cases hp with
  | late hlate' _ _ => simp [hlate] at hlate'
  | carried _ hkind' =>
    rw [hkind] at hkind'
    simp only [TaskKind.createOrUpdate.injEq, Option.some.injEq] at hkind'
    exact ⟨hkind'.1.symm, hkind'.2.symm⟩
  | hashed _ hkind' _ =>
    rw [hkind] at hkind'
    simp at hkind'

end Prepared

/-- A create-or-update without an artifact is deferred, so it needs late resolution. -/
theorem DeployTask.needsLateResolution_of_artifact_none {t : DeployTask δ}
    (hcreate : t.action = .createOrUpdate) (hnone : t.artifact? = none) :
    t.needsLateResolution = true := by
  cases hk : t.kind with
  | delete => simp [DeployTask.action, hk] at hcreate
  | createOrUpdate a hopt =>
    simp only [DeployTask.artifact?, hk] at hnone
    simp [DeployTask.needsLateResolution, DeployTask.action, DeployTask.isDeferred, hk, hnone]

/-- The end of a create-or-update: the artifact is applied, and the outcome lists the outputs of
the apply with the hash. -/
theorem run_apply_report {c : Collaborators δ σ} {t : DeployTask δ} {a : Artifact} {hash : String}
    {w w' : σ} {o : Outcome}
    (h : (pure (a, hash) >>= fun x : Artifact × String =>
      c.apply t.deployable t.target x.1 >>= fun outputs =>
        (pure { outputs, contentHash := some x.2 } : Effect σ Outcome)).run w = (.ok o, w')) :
    (c.apply t.deployable t.target a).run w = (.ok o.outputs, w') ∧ o.contentHash = some hash := by
  rw [Act.run_pure_bind] at h
  obtain ⟨outputs, w₁, happly, hpure⟩ := Act.run_bind_eq_ok h
  cases hpure
  exact ⟨happly, rfl⟩

/-- A create-or-update that succeeds came by an artifact and a hash, applied the artifact, and
reports the outputs of the apply with the hash. -/
theorem execute_ok {c : Collaborators δ σ} {t : DeployTask δ} {w w' : σ} {o : Outcome}
    (hcreate : t.action = .createOrUpdate) (h : (execute c t).run w = (.ok o, w')) :
    ∃ a hash w₁, Prepared c t w a hash w₁ ∧
      (c.apply t.deployable t.target a).run w₁ = (.ok o.outputs, w') ∧
      o.contentHash = some hash := by
  cases hk : t.kind with
  | delete => simp [DeployTask.action, hk] at hcreate
  | createOrUpdate artifact hopt =>
    simp only [execute, hk] at h
    split at h
    · -- rendered again, then hashed
      rename_i hlate
      obtain ⟨a, w₁, hresolve, h⟩ := Act.run_bind_eq_ok h
      obtain ⟨hash, w₂, hhash, h⟩ := Act.run_bind_eq_ok h
      exact ⟨a, hash, w₂, .late hlate hresolve hhash, run_apply_report h⟩
    · rename_i hlate
      have hlate : t.needsLateResolution = false := by simpa using hlate
      split at h
      · rw [Act.run_throw_bind] at h
        cases h
      · rename_i a hash
        exact ⟨a, hash, w, .carried hlate hk, run_apply_report h⟩
      · rename_i a
        obtain ⟨hash, w₁, hhash, h⟩ := Act.run_bind_eq_ok h
        exact ⟨a, hash, w₁, .hashed hlate hk hhash, run_apply_report h⟩

/-! ## The outcomes of a run -/

namespace Flight

variable {g : TaskGraph δ} {c : Collaborators δ σ} {opts : RunOptions}

/-- Every outcome waiting to be taken is what carrying out its task gave, in some world. -/
def Executed (g : TaskGraph δ) (c : Collaborators δ σ) (f : Flight σ) : Prop :=
  ∀ x ∈ f.progress.done, ∃ t w, g.tasks[x.1]? = some t ∧ ((execute c t).run w).1 = x.2

theorem executed_launch (w : σ) : Executed g c (launch g w) := by
  intro x hx
  simp [launch] at hx

/-- What a move does to the outcomes waiting: nothing; or it puts last the outcome of a task of
the graph carried out on the world; or it takes one away. -/
theorem Step.done_cases {f f' : Flight σ} {m : Move} (h : Step g c opts f m f') :
    f'.progress.done = f.progress.done ∨
    (∃ i t, g.tasks[i]? = some t ∧
      f'.progress.done = f.progress.done ++ [(i, ((execute c t).run f.world).1)]) ∨
    (∃ pre x post, f.progress.done = pre ++ x :: post ∧ f'.progress.done = pre ++ post) := by
  cases h with
  | observe cancelled _ => exact .inl (congrArg Prod.snd (observed_pool f cancelled))
  | start _ hready _ =>
    left
    simp only [started, hready]
    split <;> rfl
  | close => exact .inl rfl
  | finish hstage hexec =>
    rename_i i
    simp only [finished]
    split
    · exact .inl rfl
    · rename_i t ht
      exact .inr (.inl ⟨i, t, ht, rfl⟩)
  | settle hstage hdone =>
    rename_i pre post i outcome
    refine .inr (.inr ⟨pre, (i, outcome), post, hdone, ?_⟩)
    rw [settled_progress]
    exact congrArg Prod.snd
      (Progress.pool_settle g c opts { f.progress with done := pre ++ post } i outcome f.world)
  | stop => exact .inl (congrArg Prod.snd (Progress.pool_finish g f.progress))

/-- What holds of every outcome waiting holds after a move, in the weaker form `Q`, when `Q`
holds of the outcome of every task of the graph carried out on the world the move starts from. -/
theorem Step.done_of {P Q : Nat × Except TaskError Outcome → Prop} {f f' : Flight σ} {m : Move}
    (h : Step g c opts f m f') (hPQ : ∀ x, P x → Q x)
    (hnew : ∀ i t, g.tasks[i]? = some t → Q (i, ((execute c t).run f.world).1))
    (hf : ∀ x ∈ f.progress.done, P x) : ∀ x ∈ f'.progress.done, Q x := by
  intro x hx
  rcases Step.done_cases h with hd | ⟨i, t, ht, hd⟩ | ⟨pre, y, post, hpre, hd⟩
  · exact hPQ x (hf x (hd ▸ hx))
  · -- the outcome put last is that of task `i` on the world
    rw [hd, List.mem_append, List.mem_singleton] at hx
    rcases hx with hx | rfl
    · exact hPQ x (hf x hx)
    · exact hnew i t ht
  · rw [hd] at hx
    refine hPQ x (hf x ?_)
    rw [hpre]
    exact List.mem_append.mpr ((List.mem_append.mp hx).imp id (List.mem_cons_of_mem y))

theorem Step.executed {f f' : Flight σ} {m : Move} (h : Step g c opts f m f')
    (hf : Executed g c f) : Executed g c f' :=
  Step.done_of h (fun _ hx => hx) (fun _ t ht => ⟨t, f.world, ht, rfl⟩) hf

/-- The success a move takes was waiting. -/
theorem Step.success_waiting {f f' : Flight σ} {m : Move} (h : Step g c opts f m f')
    {x : Nat × Outcome} (hx : m.success? = some x) : (x.1, .ok x.2) ∈ f.progress.done := by
  rw [Move.success?_eq_some] at hx
  cases h with
  | settle _ hdone =>
    simp only [Move.taken?, Option.some.injEq, Prod.mk.injEq] at hx
    obtain ⟨rfl, rfl⟩ := hx
    rw [hdone]
    simp
  | _ => simp [Move.taken?] at hx

/-- The success a move takes was waiting, so it is what carrying out its task gave. -/
theorem Step.success_executed {f f' : Flight σ} {m : Move} (h : Step g c opts f m f')
    (hf : Executed g c f) {x : Nat × Outcome} (hx : m.success? = some x) :
    ∃ t w, g.tasks[x.1]? = some t ∧ ((execute c t).run w).1 = .ok x.2 :=
  hf _ (Step.success_waiting h hx)

/-- Along a run the outcomes waiting stay what carrying out their tasks gave, and so is every
success the coordinator takes. -/
theorem Flies.successes_executed {f f' : Flight σ} {ms : List Move}
    (h : Flies g c opts f ms f') (hf : Executed g c f) :
    Executed g c f' ∧ ∀ x ∈ ms.filterMap Move.success?,
      ∃ t w, g.tasks[x.1]? = some t ∧ ((execute c t).run w).1 = .ok x.2 := by
  induction h with
  | refl => exact ⟨hf, by simp⟩
  | tail _ hstep ih =>
    refine ⟨Step.executed hstep ih.1, fun x hx => ?_⟩
    rw [Move.filterMap_snoc, List.mem_append] at hx
    rcases hx with hx | hx
    · exact ih.2 x hx
    · exact Step.success_executed hstep ih.1 (by simpa using hx)

end Flight

/-! ## The hash a plan gives its tasks -/

section Plan

variable {state : State} {hash : δ → Artifact → Except TaskError String}

/-- A task a render asks for with an artifact carries the hash of that artifact, one the unit's
record at the target does not have. -/
theorem renderTask_carries_hash {name : String} {d : δ} {r : TargetRender} {t : DeployTask δ}
    {eo : Option RenderError} (h : renderTask state hash name d r = .ok (some (t, eo)))
    {a : Artifact} {hopt : Option String} (hkind : t.kind = .createOrUpdate (some a) hopt) :
    ∃ h', hopt = some h' ∧ hash d a = .ok h' ∧ t.target = r.target ∧
      ∀ record, state.record? name r.target.accountId r.target.region = some record →
        record.lastCommittedHash ≠ h' := by
  unfold renderTask at h
  split at h
  · rename_i artifact _
    simp only [bind, Except.bind] at h
    split at h
    · cases h
    · rename_i h' hh
      split at h
      · cases h
      · rename_i hnew
        cases h
        have hhash : hash d artifact = .ok h' := by
          cases hx : hash d artifact with
          | error e => rw [hx] at hh; cases hh
          | ok v => rw [hx] at hh; cases hh; rfl
        simp only [TaskKind.createOrUpdate.injEq, Option.some.injEq] at hkind
        obtain ⟨rfl, rfl⟩ := hkind
        exact ⟨h', rfl, hhash, rfl, fun record hrec hsame => hnew (by simp [hrec, hsame])⟩
  · cases h
    simp at hkind
  · cases h

/-- Every task a unit's plan carries with an artifact carries the hash of that artifact too: the
hash it compared with the unit's record at the task's target, and found new. -/
theorem planUnit_carries_hash {input : UnitInput δ} {p : UnitPlan δ}
    (h : planUnit state hash input = .ok p) :
    ∀ t ∈ p.tasks, ∀ a hopt, t.kind = .createOrUpdate (some a) hopt →
      ∃ h', hopt = some h' ∧ hash t.deployable a = .ok h' ∧
        ∀ record, state.record? input.name t.target.accountId t.target.region = some record →
          record.lastCommittedHash ≠ h' := by
  intro t ht a hopt hkind
  rcases mem_planUnit_tasks h ht with ⟨r, -, eo, hro⟩ | ht
  · -- a task a render asked for
    obtain ⟨h', rfl, hhash, htarget, hrec⟩ := renderTask_carries_hash hro hkind
    rw [(renderTask_some hro).2.2.2, htarget]
    exact ⟨h', rfl, hhash, hrec⟩
  · -- a delete carries no artifact
    have hdel := action_of_mem_deleteTasks ht
    simp [DeployTask.action, hkind] at hdel

end Plan

/-! ## What a run reports -/

/-- What a run reports with a success `o` of the task `t`, when `t` is a create-or-update: from
some world the task came by an artifact and a hash (`Prepared`), applied the artifact with the
outputs `o` lists, and `o` reports the hash. A task that needs late resolution, as every task
without an artifact does, applied what `resolve` gave it; one that needs none and carries an
artifact and a hash applied that artifact and is recorded with that hash. -/
def ReportsPrepared (c : Collaborators δ σ) (t : DeployTask δ) (o : Outcome) : Prop :=
  t.action = .createOrUpdate → ∃ w a h w₁ w₂, Prepared c t w a h w₁ ∧
    (c.apply t.deployable t.target a).run w₁ = (.ok o.outputs, w₂) ∧ o.contentHash = some h ∧
    (t.needsLateResolution = true → ∃ w', (c.resolve t).run w = (.ok a, w')) ∧
    (t.artifact? = none → ∃ w', (c.resolve t).run w = (.ok a, w')) ∧
    ∀ a₀ h₀, t.needsLateResolution = false → t.kind = .createOrUpdate (some a₀) (some h₀) →
      a = a₀ ∧ ∀ now, (recordOf t o now).lastCommittedHash = h₀

/-- Carrying out a task reports what it prepared, whatever the world. -/
theorem reportsPrepared_of_execute {c : Collaborators δ σ} {t : DeployTask δ} {w w' : σ}
    {o : Outcome} (h : (execute c t).run w = (.ok o, w')) : ReportsPrepared c t o := by
  intro hcreate
  obtain ⟨a, hash, w₁, hp, happly, hhash⟩ := execute_ok hcreate h
  refine ⟨w, a, hash, w₁, w', hp, happly, hhash, hp.resolved,
    fun hnone => hp.resolved (DeployTask.needsLateResolution_of_artifact_none hcreate hnone),
    fun a₀ h₀ hlate hkind => ?_⟩
  obtain ⟨rfl, rfl⟩ := hp.eq_carried hlate hkind
  exact ⟨rfl, fun now => by simp [recordOf, hhash]⟩

/-- Every success a run takes of a create-or-update task reports the hash the task came by, with
the artifact it applied; and a unit's plan gives every task with an artifact the hash of that
artifact it compared with the unit's record. -/
theorem run_reports_prepared_hash {g : TaskGraph δ} (c : Collaborators δ σ) (opts : RunOptions)
    (w : σ) {ms : List Move} {f : Flight σ} (hrun : Flies g c opts (Flight.launch g w) ms f) :
    (∀ x ∈ ms.filterMap Move.success?, ∃ t, g.tasks[x.1]? = some t ∧ ReportsPrepared c t x.2) ∧
    ∀ (state : State) (hash : δ → Artifact → Except TaskError String) (input : UnitInput δ)
      (p : UnitPlan δ), planUnit state hash input = .ok p →
      ∀ t ∈ p.tasks, ∀ a hopt, t.kind = .createOrUpdate (some a) hopt →
        ∃ h, hopt = some h ∧ hash t.deployable a = .ok h ∧
          ∀ record, state.record? input.name t.target.accountId t.target.region = some record →
            record.lastCommittedHash ≠ h := by
  refine ⟨fun x hx => ?_, fun state hash input p hp => planUnit_carries_hash hp⟩
  obtain ⟨t, w₀, ht, hexec⟩ :=
    (Flight.Flies.successes_executed hrun (Flight.executed_launch w)).2 x hx
  exact ⟨t, ht, reportsPrepared_of_execute (Prod.ext hexec rfl)⟩

/-- A producer that carries its artifact and hash and a deferred consumer that depends on it:
both succeed, and the theorem applies to the run. -/
theorem deferred_pair_reports_prepared_hash :
    let tasks : List (DeployTask Unit) :=
      [{ id := ⟨"a", "1", "eu"⟩, target := ⟨"1", "eu", "A"⟩,
         kind := .createOrUpdate (some ⟨.obj [], [], []⟩) (some "planned"), deployable := () },
       { id := ⟨"b", "1", "eu"⟩, target := ⟨"1", "eu", "A"⟩, kind := .createOrUpdate none none,
         dependsOn := [⟨"a", "1", "eu"⟩], deployable := () }]
    let c : Collaborators Unit Unit :=
      { resolve := fun _ => pure ⟨.obj [], [], []⟩, completed := fun _ _ w => w,
        contentHash := fun _ _ => pure "hashed", apply := fun _ _ _ => pure [],
        delete := fun _ _ => pure () }
    ∃ (g : TaskGraph Unit) (ms : List Move) (f : Flight Unit),
      TaskGraph.build tasks = .ok g ∧ Flies g c {} (Flight.launch g ()) ms f ∧
      f.stage = .over ∧ f.progress.result.succeeded.length = 2 ∧
      ∀ x ∈ ms.filterMap Move.success?, ∃ t, g.tasks[x.1]? = some t ∧ ReportsPrepared c t x.2 := by
  intro tasks c
  let g : TaskGraph Unit := ⟨tasks.toArray, #[[], [0]], #[[1], []]⟩
  have hg : TaskGraph.build tasks = .ok g := by cbv
  obtain ⟨ms, hms⟩ := @Flight.flies_drive Unit Unit g c {} false 18 {} (Flight.launch g ())
  exact ⟨g, ms, _, hg, hms, by decide +kernel, by decide +kernel,
    (run_reports_prepared_hash c {} () hms).1⟩

/-- A task that needs no late resolution reports the hash it carries, even one that is not the
deployable's hash of its artifact: here it carries `planned`, the deployable hashes the artifact
to `hashed`, and the run reports `planned` to `completed`. -/
theorem carried_hash_is_reported :
    let t : DeployTask Unit :=
      { id := ⟨"a", "1", "eu"⟩, target := ⟨"1", "eu", "A"⟩,
        kind := .createOrUpdate (some ⟨.obj [], [], []⟩) (some "planned"), deployable := () }
    let c : Collaborators Unit (List Outcome) :=
      { resolve := fun _ => throw (.lateResolution "none"), completed := fun _ o w => w ++ [o],
        contentHash := fun _ _ => pure "hashed", apply := fun _ _ _ => pure [],
        delete := fun _ _ => pure () }
    ∃ g : TaskGraph Unit, TaskGraph.build [t] = .ok g ∧
      ((c.contentHash t.deployable ⟨.obj [], [], []⟩).run []).1 = .ok "hashed" ∧
      (runGraph {} g c false []).2.2 = [{ outputs := [], contentHash := some "planned" }] := by
  intro t c
  let g : TaskGraph Unit := ⟨#[t], #[[]], #[[]]⟩
  exact ⟨g, by cbv, rfl, by decide +kernel⟩

end OrgDeploy
