import Mathlib
import OrgDeploy.Proofs.Engine.Commit
import OrgDeploy.Proofs.Run.Serial
import OrgDeploy.Proofs.State.Commute

/-!
# The engine's runs agree

Two runs of a graph agree when its tasks serialize through a view of the world (`Serializes`,
`runs_agree`). For the engine that view is the state being built (`engineView`), and its tasks
serialize through it under four conditions (`Services.Serializable`):

* every deployable is deterministic (`Services.Deterministic`): its hash, and what an apply or a
  delete of it answers, depend on the artifact and the target, not on the engine's world;
* every create-or-update names a unit of the template;
* no two tasks record under one unit and target key;
* a task rendered late renders the same after the success of any task it is unrelated to.

Carrying out a task then leaves the state being built alone and answers what its late render on
that state allows (`Services.execute_reads`), and successes recorded in any order leave the same
state (`recordSuccess_comm`).

`deploys_agree`: under these conditions two runs of the engine from one world and one state that
do not halt list the same tasks under the same statuses and build the same state, whatever their
options and the order in which their workers finish. The last condition is the one late
resolution can break: a delete unrelated to a consumer removes the record whose output the
consumer imports, and the consumer's render then depends on which ran first.
-/

namespace OrgDeploy

variable {σ : Type}

/-- A computation whose result does not depend on the world it runs in. -/
def Act.Oblivious {ε α : Type} (m : Act σ ε α) : Prop := ∀ w w', (m.run w).1 = (m.run w').1

/-- A deployable that answers the same in every world: its hash, and what an apply or a delete
of it answers, are functions of the artifact and the target. -/
def Services.Deterministic (sv : Services σ) : Deployable σ → Prop
  | .stack name =>
    (∀ target body parameters, (sv.backend.apply name target body parameters).Oblivious) ∧
      ∀ target, (sv.backend.delete name target).Oblivious
  | .plugin p config =>
    (∀ body w w', p.contentHash body w = p.contentHash body w') ∧
      (∀ target body, (p.apply target body).Oblivious) ∧
        ∀ target, (p.delete target config).Oblivious

/-- Over a run's world, a computation that leaves the state being built alone and answers the
same on any engine worlds and any two states related by `S`. -/
structure Effect.Reads {α : Type} (S : State → State → Prop) (m : Effect (RunWorld σ) α) :
    Prop where
  keeps : ∀ x, (m.run x).2.2 = x.2
  result : ∀ w w' st st', S st st' → (m.run (w, st)).1 = (m.run (w', st')).1

namespace Effect.Reads

variable {S S' : State → State → Prop} {α β : Type}

theorem pure (a : α) : Reads S (Pure.pure a : Effect (RunWorld σ) α) :=
  ⟨fun _ => rfl, fun _ _ _ _ _ => rfl⟩

theorem throw (e : TaskError) : Reads S (MonadExcept.throw e : Effect (RunWorld σ) α) :=
  ⟨fun _ => rfl, fun _ _ _ _ _ => rfl⟩

theorem mono {m : Effect (RunWorld σ) α} (hm : Reads S m)
    (h : ∀ st st', S' st st' → S st st') : Reads S' m :=
  ⟨hm.keeps, fun w w' st st' hS => hm.result w w' st st' (h st st' hS)⟩

theorem bind {m : Effect (RunWorld σ) β} {k : β → Effect (RunWorld σ) α} (hm : Reads S m)
    (hk : ∀ b, Reads S (k b)) : Reads S (m >>= k) := by
  refine ⟨fun x => ?_, fun w w' st st' hS => ?_⟩
  · rcases hrun : m.run x with ⟨r, y⟩
    have hy : y.2 = x.2 := by simpa [hrun] using hm.keeps x
    cases r with
    | ok b =>
      rw [Act.run_bind_ok hrun]
      exact ((hk b).keeps y).trans hy
    | error e =>
      rw [Act.run_bind_error hrun]
      exact hy
  · -- both runs of `m` answer alike and keep their states, so `k` starts from related states
    rcases h₁ : m.run (w, st) with ⟨r, v, s⟩
    rcases h₂ : m.run (w', st') with ⟨r', v', s'⟩
    have hr : r = r' := by simpa [h₁, h₂] using hm.result w w' st st' hS
    have hs : s = st := by simpa [h₁] using hm.keeps (w, st)
    have hs' : s' = st' := by simpa [h₂] using hm.keeps (w', st')
    subst hr hs hs'
    cases r with
    | ok b =>
      rw [Act.run_bind_ok h₁, Act.run_bind_ok h₂]
      exact (hk b).result v v' s s' hS
    | error e => rw [Act.run_bind_error h₁, Act.run_bind_error h₂]

theorem run_worldSlot {ε : Type} (m : Act σ ε α) (wrap : ε → TaskError) (w : σ)
    (st : State) :
    (worldSlot.run m wrap).run (w, st) = ((m.run w).1.mapError wrap, (m.run w).2, st) := rfl

/-- A computation on the engine's world alone, whose answer does not depend on that world. -/
theorem slot_run {ε : Type} {m : Act σ ε α} (hm : m.Oblivious) (wrap : ε → TaskError) :
    Reads S (worldSlot.run m wrap) :=
  ⟨fun _ => rfl, fun w w' _ _ _ => by rw [run_worldSlot, run_worldSlot, hm w w']⟩

end Effect.Reads

/-- The late render of a task is the same on both states. -/
def SameRender {δ : Type} (o : Organization) (units : List UnitDef) (t : DeployTask δ)
    (st st' : State) : Prop :=
  ∀ u, units.find? (·.name == t.id.unit) = some u →
    render o st u t.target = render o st' u t.target

namespace Services

open Effect

variable (sv : Services σ) {o : Organization} {units : List UnitDef} {S : State → State → Prop}

theorem apply_reads {d : Deployable σ} (hd : sv.Deterministic d) (target : Target)
    (a : Artifact) : Reads S ((engineCollaborators sv o units).apply d target a) := by
  cases d with
  | stack name => exact Reads.slot_run (hd.1 _ _ _) _
  | plugin p config => exact Reads.slot_run (hd.2.1 _ _) _

theorem delete_reads {d : Deployable σ} (hd : sv.Deterministic d) (target : Target) :
    Reads S ((engineCollaborators sv o units).delete d target) := by
  cases d with
  | stack name => exact Reads.slot_run (hd.2 _) _
  | plugin p config => exact Reads.slot_run (hd.2.2 _) _

theorem contentHash_reads {d : Deployable σ} (hd : sv.Deterministic d) (a : Artifact) :
    Reads S ((engineCollaborators sv o units).contentHash d a) := by
  refine ⟨fun _ => rfl, fun w w' _ _ _ => ?_⟩
  cases d with
  | stack name => rfl
  | plugin p config =>
    simp only [engineCollaborators, ExceptT.run, Deployable.contentHash, hd.1 a.body w w']

theorem resolve_reads (t : DeployTask (Deployable σ)) :
    Reads (SameRender o units t) ((engineCollaborators sv o units).resolve t) := by
  refine ⟨fun x => ?_, fun w w' st st' hS => ?_⟩
  · obtain ⟨w, st⟩ := x
    simp only [engineCollaborators]
    split <;> rfl
  · simp only [engineCollaborators]
    split
    · rfl
    · next u hu =>
      simp only [ExceptT.run]
      rw [hS u hu]

/-- Carrying out a task with a deterministic deployable leaves the state being built alone, and
answers alike on any engine worlds and on states where its late render, if it has one, is the
same. -/
theorem execute_reads {t : DeployTask (Deployable σ)} (hd : sv.Deterministic t.deployable) :
    Reads (fun st st' => t.needsLateResolution → SameRender o units t st st')
      (execute (engineCollaborators sv o units) t) := by
  unfold execute
  split
  · dsimp only
    have happly : ∀ ah : Artifact × String, Reads (fun st st' =>
        t.needsLateResolution → SameRender o units t st st')
        ((engineCollaborators sv o units).apply t.deployable t.target ah.1 >>= fun outputs =>
          Pure.pure ({ outputs, contentHash := some ah.2 } : Outcome)) :=
      fun ah => (sv.apply_reads hd _ _).bind fun _ => Reads.pure _
    split
    · next hlate =>
      -- only a late task renders, against the state being built
      exact ((sv.resolve_reads t).mono fun _ _ h => h hlate).bind fun a =>
        (sv.contentHash_reads hd a).bind fun _ => (Reads.pure _).bind fun ah => happly ah
    · split
      · exact (Reads.throw _).bind fun ah => happly ah
      · exact (Reads.pure _).bind fun ah => happly ah
      · exact (sv.contentHash_reads hd _).bind fun _ => (Reads.pure _).bind fun ah => happly ah
  · exact (sv.delete_reads hd _).bind fun _ => Reads.pure _

end Services

/-! ## The state being built as the view of a run -/

/-- The engine's tasks seen through the state being built: a task's outcome is what carrying it
out from the engine world `w₀` answers, and a success changes the state by `recordSuccess`. -/
def engineView (sv : Services σ) (o : Organization) (units : List UnitDef)
    (g : TaskGraph (Deployable σ)) (w₀ : σ) : TaskView (RunWorld σ) State where
  view := Prod.snd
  good := State.Sorted
  outcome i st :=
    match g.tasks[i]? with
    | some t => ((execute (engineCollaborators sv o units) t).run (w₀, st)).1
    | none => .ok {}
  update i out st :=
    match g.tasks[i]? with
    | some t => recordSuccess units sv.now t out st
    | none => st

/-- What makes the engine's run of `g` serialize through the state being built. -/
structure Services.Serializable (sv : Services σ) (o : Organization) (units : List UnitDef)
    (g : TaskGraph (Deployable σ)) : Prop where
  deterministic : ∀ t ∈ g.tasks, sv.Deterministic t.deployable
  named : ∀ t ∈ g.tasks, t.Named units
  keyed : ∀ (i j : Nat) ti tj, g.tasks[i]? = some ti → g.tasks[j]? = some tj →
    ti.id.unit = tj.id.unit → ti.target.key = tj.target.key → i = j
  framed : ∀ (i j : Nat) ti tj, g.tasks[i]? = some ti → g.tasks[j]? = some tj →
    g.Unrelated i j → ti.needsLateResolution → ∀ out st, st.Sorted →
      SameRender o units ti (recordSuccess units sv.now tj out st) st

namespace Services.Serializable

variable {sv : Services σ} {o : Organization} {units : List UnitDef}
  {g : TaskGraph (Deployable σ)}

theorem execute_reads (h : sv.Serializable o units g) {i : Nat} {t : DeployTask (Deployable σ)}
    (ht : g.tasks[i]? = some t) :
    Effect.Reads (fun st st' => t.needsLateResolution → SameRender o units t st st')
      (execute (engineCollaborators sv o units) t) :=
  sv.execute_reads (h.deterministic t (Array.mem_of_getElem? ht))

/-- Under the conditions, the engine's tasks serialize through the state being built. -/
theorem serializes (h : sv.Serializable o units g) (w₀ : σ) :
    Serializes g (engineCollaborators sv o units) (engineView sv o units g w₀) where
  outcome_eq i t w ht _ := by
    obtain ⟨v, st⟩ := w
    simp only [engineView, ht]
    exact (h.execute_reads ht).result v w₀ st st fun _ _ _ => rfl
  view_execute i t w ht := (h.execute_reads ht).keeps w
  view_completed i t out w ht := by
    obtain ⟨v, st⟩ := w
    simp [engineView, ht, engineCollaborators]
  good_update i out st hs := by
    simp only [engineView]
    split
    · exact hs.recordSuccess
    · exact hs
  update_comm i j out out' st hs hji := by
    simp only [engineView]
    rcases hi : g.tasks[i]? with _ | ti <;> rcases hj : g.tasks[j]? with _ | tj
    · rfl
    · rfl
    · rfl
    · -- distinct tasks record under distinct units or keys
      have hdist : ti.id.unit = tj.id.unit → ti.target.key ≠ tj.target.key :=
        fun hu hk => hji (h.keyed j i tj ti hj hi hu.symm hk.symm)
      exact recordSuccess_comm out' hs hdist (h.named ti (Array.mem_of_getElem? hi))
        (h.named tj (Array.mem_of_getElem? hj))
  outcome_update i j out st hs hu := by
    simp only [engineView]
    rcases hi : g.tasks[i]? with _ | ti
    · rfl
    · rcases hj : g.tasks[j]? with _ | tj
      · rfl
      · exact (h.execute_reads hi).result w₀ w₀ _ _ fun hlate =>
          h.framed i j ti tj hi hj hu hlate out st hs

end Services.Serializable

/-- Two runs of the engine over a graph that serializes through the state being built, from one
world and one sorted state, that do not halt: whatever their options and the order in which
their workers finish, they give every task the same status, list the same tasks, and build the
same state. -/
theorem deploys_agree {tasks : List (DeployTask (Deployable σ))} {g : TaskGraph (Deployable σ)}
    (hg : TaskGraph.build tasks = .ok g) {sv : Services σ} {o : Organization}
    {units : List UnitDef} (hs : sv.Serializable o units g) {w : σ} {st : State}
    (hst : st.Sorted) {opts₁ opts₂ : RunOptions} {ms₁ ms₂ : List Move}
    {f₁ f₂ : Flight (RunWorld σ)}
    (h₁ : Flies g (engineCollaborators sv o units) opts₁ (Flight.launch g (w, st)) ms₁ f₁)
    (h₂ : Flies g (engineCollaborators sv o units) opts₂ (Flight.launch g (w, st)) ms₂ f₂)
    (hover₁ : f₁.stage = .over) (hover₂ : f₂.stage = .over)
    (hh₁ : f₁.progress.result.halted = false) (hh₂ : f₂.progress.result.halted = false) :
    (∀ j, f₁.progress.statusOf j = f₂.progress.statusOf j) ∧
      f₁.progress.result.entries.Perm f₂.progress.result.entries ∧
      f₁.world.2 = f₂.world.2 :=
  runs_agree (w := (w, st)) hg (hs.serializes w) hst h₁ h₂ hover₁ hover₂ hh₁ hh₂

/-- Deleting three recorded stacks, the second after the first, with a backend that answers alike
in every world: one task at a time or three at a time, both runs list the same tasks and leave the
same state. -/
theorem stack_deletions_deploys_agree :
    let sv : Services Unit :=
      { directory := fun _ => .ok {}, store := ⟨fun _ => .ok {}, fun _ => pure ()⟩,
        backend := { apply := fun _ _ _ _ => pure [], delete := fun _ _ => pure () }, now := ⟨0, 0, 0⟩ }
    let r : Record :=
      { lastCommittedHash := "h", accountId := "1", region := "eu", accountLogicalId := "A",
        deployedAt := ⟨0, 0, 0⟩ }
    let st : State :=
      { deployments := [("a", [("1/eu", r)]), ("b", [("1/eu", r)]), ("c", [("1/eu", r)])] }
    let tasks : List (DeployTask (Deployable Unit)) :=
      [{ id := ⟨"a", "1", "eu"⟩, target := ⟨"1", "eu", "A"⟩, kind := .delete,
         deployable := .stack "a" },
       { id := ⟨"b", "1", "eu"⟩, target := ⟨"1", "eu", "A"⟩, kind := .delete,
         dependsOn := [⟨"a", "1", "eu"⟩], deployable := .stack "b" },
       { id := ⟨"c", "1", "eu"⟩, target := ⟨"1", "eu", "A"⟩, kind := .delete,
         deployable := .stack "c" }]
    ∃ g : TaskGraph (Deployable Unit), TaskGraph.build tasks = .ok g ∧
      (runGraph {} g (engineCollaborators sv {} []) false ((), st)).1.entries.Perm
        (runGraph { maxConcurrent := 3 } g (engineCollaborators sv {} []) false
          ((), st)).1.entries ∧
      (runGraph {} g (engineCollaborators sv {} []) false ((), st)).2.2.2 =
        (runGraph { maxConcurrent := 3 } g (engineCollaborators sv {} []) false
          ((), st)).2.2.2 := by
  intro sv r st tasks
  let g : TaskGraph (Deployable Unit) := ⟨tasks.toArray, #[[], [0], []], #[[1], [], []]⟩
  have hg : TaskGraph.build tasks = .ok g := by cbv
  have ha := (TaskGraph.build_built hg).adjacency_size
  have hst : st.Sorted :=
    { deployments := by unfold Table.Sorted; decide
      records := by
        intro n T h
        simp only [st, Table.get?_cons] at h
        split_ifs at h <;> cases h <;> (unfold Table.Sorted; decide)
      definitions := Table.sorted_nil }
  -- every task is a deletion of a stack, which the backend answers alike in every world
  have htask : ∀ t ∈ g.tasks, t.kind = .delete ∧ ∃ name, t.deployable = .stack name := by
    intro t ht
    simp only [g, tasks, List.mem_toArray, List.mem_cons, List.not_mem_nil, or_false] at ht
    rcases ht with rfl | rfl | rfl <;> exact ⟨rfl, _, rfl⟩
  have hs : sv.Serializable {} [] g :=
    { deterministic := fun t ht => by
        obtain ⟨_, name, hd⟩ := htask t ht
        rw [hd]
        exact ⟨fun _ _ _ _ _ => rfl, fun _ _ _ => rfl⟩
      named := fun t ht hc => by simp [DeployTask.action, (htask t ht).1] at hc
      keyed := fun i j ti tj hi hj hu _ => by
        have hi' : i < 3 := (Array.getElem?_eq_some_iff.mp hi).1
        have hj' : j < 3 := (Array.getElem?_eq_some_iff.mp hj).1
        interval_cases i <;> interval_cases j <;> first
          | rfl
          | (simp only [g, tasks, List.getElem?_toArray, List.getElem?_cons_zero,
              List.getElem?_cons_succ, Option.some.injEq] at hi hj
             subst hi hj
             simp at hu)
      framed := fun i j ti tj hi _ _ hlate => by
        simp [DeployTask.needsLateResolution, DeployTask.action,
          (htask ti (Array.mem_of_getElem? hi)).1] at hlate }
  obtain ⟨ms₁, h₁⟩ := @Flight.flies_drive (Deployable Unit) (RunWorld Unit) g
    (engineCollaborators sv {} []) {} false (6 * (g.size + 1)) {} (Flight.launch g ((), st))
  obtain ⟨ms₂, h₂⟩ := @Flight.flies_drive (Deployable Unit) (RunWorld Unit) g
    (engineCollaborators sv {} []) { maxConcurrent := 3 } false (6 * (g.size + 1))
    {} (Flight.launch g ((), st))
  have hagree := deploys_agree hg hs hst h₁ h₂
    (Flight.drive_over ha false _ _ _ (Flight.sound_launch ha _) (Flight.potential_launch_lt _))
    (Flight.drive_over ha false _ _ _ (Flight.sound_launch ha _) (Flight.potential_launch_lt _))
    (by decide +kernel :
      (runGraph {} g (engineCollaborators sv {} []) false ((), st)).1.halted = false)
    (by decide +kernel :
      (runGraph { maxConcurrent := 3 } g (engineCollaborators sv {} []) false ((), st)).1.halted
        = false)
  exact ⟨g, hg, hagree.2.1, hagree.2.2⟩

end OrgDeploy
