import Mathlib
import OrgDeploy.Proofs.Run.Outcome

/-!
# Runs whose end does not depend on the order of their moves

How a run goes is up to its environment: when workers finish, which outcome the coordinator
takes first, how many tasks may run at a time. Where it ends is not, when the tasks of the graph
*serialize* (`Serializes`) through a view `T` of the world:

* carrying out task `i` gives `T.outcome i` of the view, and leaves the view alone;
* reporting a success of task `i` changes the view by `T.update i`;
* successes of distinct tasks commute, and a success of a task unrelated to `i` (neither depends
  on the other, directly or not) does not change what `i` gives.

The last condition is what a run can break: a task may read only what the tasks it depends on
have written. When it holds, `runs_agree`: two runs of a built graph from one world that have
left their loop without halting, with any options, in any order, give every task the same
status, list the same tasks under each status, and end with the same view.

The proof follows what a run has taken so far (`Flight.Serial`): the view is the start with the
successes taken replayed over it in order, and every outcome taken or waiting is what its task
gives after the successes of its own dependencies alone (`Ancestry`), since the other successes
are of unrelated tasks, which can be reported last and then change nothing
(`Serializes.outcome_ancestry`). At the end of a run a task is skipped exactly when a dependency
did not succeed, so going up the ranks of the graph both runs agree on each task
(`Flight.Ended.agree`).
-/

namespace OrgDeploy

/-- Tasks `i` and `j` are distinct and neither depends on the other, directly or not. -/
def TaskGraph.Unrelated {δ : Type} (g : TaskGraph δ) (i j : Nat) : Prop :=
  j ≠ i ∧ ¬ Relation.TransGen g.DependsOn i j ∧ ¬ Relation.TransGen g.DependsOn j i

namespace Move

/-- The outcome a move takes, with its task. -/
def taken? : Move → Option (Nat × Except TaskError Outcome)
  | .settle i o => some (i, o)
  | _ => none

/-- The success a move takes, with its task and what it produced. -/
def success? : Move → Option (Nat × Outcome)
  | .settle i (.ok o) => some (i, o)
  | _ => none

/-- A move takes a success exactly when the outcome it takes is one. -/
theorem success?_eq_some {m : Move} {x : Nat × Outcome} :
    m.success? = some x ↔ m.taken? = some (x.1, .ok x.2) := by
  obtain ⟨i, o⟩ := x
  rcases m with _ | _ | _ | _ | ⟨j, _ | r⟩ | _ <;> simp [success?, taken?]

theorem success?_eq_none {m : Move} (h : m.taken? = none) : m.success? = none := by
  rcases m with _ | _ | _ | _ | ⟨j, _ | r⟩ | _ <;> simp_all [success?, taken?]

theorem mem_successes {ms : List Move} {i : Nat} {o : Outcome} :
    (i, o) ∈ ms.filterMap success? ↔ (i, .ok o) ∈ ms.filterMap taken? := by
  simp only [List.mem_filterMap, success?_eq_some]

/-- The tasks of the successes taken are the tasks whose success was reported. -/
theorem map_fst_successes (ms : List Move) :
    (ms.filterMap success?).map Prod.fst = ms.filterMap succeeded? := by
  rw [List.map_filterMap]
  refine List.filterMap_congr fun m _ => ?_
  rcases m with _ | _ | _ | _ | ⟨j, _ | r⟩ | _ <;> rfl

end Move

/-! ## Views of the world that tasks act on -/

/-- How the tasks of a graph act on a view `V` of a world `σ`: `outcome i` is what carrying out
task `i` gives on a view, `update i o` is what reporting its success with `o` does to a view, and
`good` holds of the views a run can meet. -/
structure TaskView (σ V : Type) where
  view : σ → V
  good : V → Prop
  outcome : Nat → V → Except TaskError Outcome
  update : Nat → Outcome → V → V

namespace TaskView

variable {σ V : Type} (T : TaskView σ V)

/-- The view after reporting the successes `L`, in order, from `v`. -/
def replay (v : V) (L : List (Nat × Outcome)) : V := L.foldl (fun v x => T.update x.1 x.2 v) v

@[simp] theorem replay_nil (v : V) : T.replay v [] = v := rfl

@[simp] theorem replay_cons (v : V) (x : Nat × Outcome) (L : List (Nat × Outcome)) :
    T.replay v (x :: L) = T.replay (T.update x.1 x.2 v) L := rfl

@[simp] theorem replay_append (v : V) (L L' : List (Nat × Outcome)) :
    T.replay v (L ++ L') = T.replay (T.replay v L) L' := List.foldl_append ..

end TaskView

variable {δ σ V : Type}

/-- The tasks of `g` serialize through the view `T` of the world: on a good view, carrying out
task `i` gives `T.outcome i` of the view; it never changes the view; reporting a success of `i`
changes the view by `T.update i`; and on good views, successes of distinct tasks commute and a
success of a task unrelated to `i` does not change what `i` gives. -/
structure Serializes (g : TaskGraph δ) (c : Collaborators δ σ) (T : TaskView σ V) : Prop where
  outcome_eq : ∀ (i : Nat) t w, g.tasks[i]? = some t → T.good (T.view w) →
    ((execute c t).run w).1 = T.outcome i (T.view w)
  view_execute : ∀ (i : Nat) t w, g.tasks[i]? = some t → T.view ((execute c t).run w).2 = T.view w
  view_completed : ∀ (i : Nat) t o w, g.tasks[i]? = some t →
    T.view (c.completed t o w) = T.update i o (T.view w)
  good_update : ∀ i o v, T.good v → T.good (T.update i o v)
  update_comm : ∀ i j o o' v, T.good v → j ≠ i →
    T.update i o (T.update j o' v) = T.update j o' (T.update i o v)
  outcome_update : ∀ i j o v, T.good v → g.Unrelated i j →
    T.outcome i (T.update j o v) = T.outcome i v

/-- `L` lists the successes in `S` of the tasks that `i` depends on, directly or not, each task
once. -/
def Ancestry (g : TaskGraph δ) (i : Nat) (S L : List (Nat × Outcome)) : Prop :=
  (L.map Prod.fst).Nodup ∧ ∀ x, x ∈ L ↔ x ∈ S ∧ Relation.TransGen g.DependsOn i x.1

namespace Ancestry

variable {g : TaskGraph δ} {i : Nat} {S L : List (Nat × Outcome)}

/-- Successes of distinct tasks split into those of the dependencies of `i`, and the others. -/
theorem exists_split (hS : (S.map Prod.fst).Nodup) :
    ∃ A B, (A ++ B).Perm S ∧ Ancestry g i S A ∧
      ∀ x ∈ B, ¬ Relation.TransGen g.DependsOn i x.1 := by
  classical
  refine ⟨S.filter fun x => decide (Relation.TransGen g.DependsOn i x.1),
    S.filter fun x => !decide (Relation.TransGen g.DependsOn i x.1),
    List.filter_append_perm _ _, ⟨?_, fun x => ?_⟩, fun x hx => ?_⟩
  · exact hS.sublist (List.filter_sublist.map Prod.fst)
  · simp [List.mem_filter]
  · simpa using (List.mem_filter.mp hx).2

/-- Two lists of the successes of the dependencies of `i`, in runs that agree on those, list the
same successes. -/
theorem perm {S' L' : List (Nat × Outcome)} (h : Ancestry g i S L) (h' : Ancestry g i S' L')
    (hS : ∀ x, Relation.TransGen g.DependsOn i x.1 → (x ∈ S ↔ x ∈ S')) : L.Perm L' := by
  refine (List.perm_ext_iff_of_nodup (h.1.of_map _) (h'.1.of_map _)).2 fun x => ?_
  rw [h.2, h'.2]
  exact and_congr_left fun ha => hS x ha

/-- Successes of tasks that `i` does not depend on leave its ancestry as it was. -/
theorem of_append {N : List (Nat × Outcome)} (h : Ancestry g i (S ++ N) L)
    (hN : ∀ y ∈ N, ¬ Relation.TransGen g.DependsOn i y.1) : Ancestry g i S L := by
  refine ⟨h.1, fun x => ?_⟩
  rw [h.2, List.mem_append]
  constructor
  · rintro ⟨hx | hx, ha⟩
    · exact ⟨hx, ha⟩
    · exact absurd ha (hN x hx)
  · rintro ⟨hx, ha⟩
    exact ⟨.inl hx, ha⟩

end Ancestry

namespace Serializes

variable {g : TaskGraph δ} {c : Collaborators δ σ} {T : TaskView σ V} (hT : Serializes g c T)
include hT

theorem good_replay {v : V} (hv : T.good v) (L : List (Nat × Outcome)) :
    T.good (T.replay v L) := by
  induction L generalizing v with
  | nil => exact hv
  | cons x L ih => exact ih (hT.good_update x.1 x.2 v hv)

/-- Reporting the successes of distinct tasks in another order gives the same view. -/
theorem replay_perm {L L' : List (Nat × Outcome)} (hp : L.Perm L') (hn : (L.map Prod.fst).Nodup)
    {v : V} (hv : T.good v) : T.replay v L = T.replay v L' := by
  induction hp generalizing v with
  | nil => rfl
  | cons x _ ih =>
    simp only [List.map_cons, List.nodup_cons] at hn
    exact ih hn.2 (hT.good_update x.1 x.2 v hv)
  | swap x y L =>
    simp only [List.map_cons, List.nodup_cons, List.mem_cons, not_or] at hn
    simp only [TaskView.replay_cons]
    rw [hT.update_comm x.1 y.1 x.2 y.2 v hv hn.1.1]
  | trans hp₁ _ ih₁ ih₂ => exact (ih₁ hn hv).trans (ih₂ ((hp₁.map Prod.fst).nodup_iff.mp hn) hv)

/-- Successes of tasks unrelated to `i` do not change what `i` gives. -/
theorem outcome_replay_unrelated {i : Nat} {B : List (Nat × Outcome)}
    (hB : ∀ x ∈ B, g.Unrelated i x.1) {v : V} (hv : T.good v) :
    T.outcome i (T.replay v B) = T.outcome i v := by
  induction B generalizing v with
  | nil => rfl
  | cons x B ih =>
    rw [TaskView.replay_cons,
      ih (fun y hy => hB y (List.mem_cons_of_mem _ hy)) (hT.good_update x.1 x.2 v hv)]
    exact hT.outcome_update i x.1 x.2 v hv (hB x List.mem_cons_self)

/-- What task `i` gives after the successes `S` is what it gives after those of its own
dependencies, when every other success in `S` is of a task unrelated to it: those can be
reported last, and then change nothing. -/
theorem outcome_ancestry {i : Nat} {S L : List (Nat × Outcome)} (hS : (S.map Prod.fst).Nodup)
    (hrel : ∀ x ∈ S, Relation.TransGen g.DependsOn i x.1 ∨ g.Unrelated i x.1)
    (hL : Ancestry g i S L) {v : V} (hv : T.good v) :
    T.outcome i (T.replay v S) = T.outcome i (T.replay v L) := by
  obtain ⟨A, B, hperm, hA, hB⟩ := Ancestry.exists_split (g := g) (i := i) hS
  have hB' : ∀ x ∈ B, g.Unrelated i x.1 := fun x hx =>
    (hrel x (hperm.subset (List.mem_append_right A hx))).resolve_left (hB x hx)
  calc T.outcome i (T.replay v S)
      = T.outcome i (T.replay (T.replay v A) B) := by
        rw [hT.replay_perm hperm.symm hS hv, TaskView.replay_append]
    _ = T.outcome i (T.replay v A) := hT.outcome_replay_unrelated hB' (hT.good_replay hv A)
    _ = T.outcome i (T.replay v L) := by
        rw [hT.replay_perm (hA.perm hL fun _ _ => Iff.rfl) hA.1 hv]

end Serializes

/-! ## What a run has taken so far -/

namespace Flight

variable {g : TaskGraph δ} {c : Collaborators δ σ} {opts : RunOptions} {T : TaskView σ V}

/-- What one move does to the outcomes waiting to be taken and to the world: nothing; or a
running task `i` is carried out and its outcome put last; or the outcome of `i` is taken, and a
success reported to `completed`. -/
theorem Step.pool_cases {f f' : Flight σ} {m : Move} (hs : f.Sound g opts)
    (h : Step g c opts f m f') :
    (m.taken? = none ∧ f'.progress.done = f.progress.done ∧ f'.world = f.world) ∨
    (∃ i t, m = .finish i ∧ g.tasks[i]? = some t ∧ f.progress.statusOf i = .running ∧
      f'.progress.done = f.progress.done ++ [(i, ((execute c t).run f.world).1)] ∧
      f'.world = ((execute c t).run f.world).2) ∨
    (∃ i r t pre post, m = .settle i (.ok r) ∧ g.tasks[i]? = some t ∧
      f.progress.done = pre ++ (i, .ok r) :: post ∧ f'.progress.done = pre ++ post ∧
      f'.world = c.completed t r f.world) ∨
    (∃ i e pre post, m = .settle i (.error e) ∧
      f.progress.done = pre ++ (i, .error e) :: post ∧ f'.progress.done = pre ++ post ∧
      f'.world = f.world) := by
  cases h with
  | observe cancelled h =>
    refine .inl ⟨rfl, congrArg Prod.snd (observed_pool f cancelled), ?_⟩
    unfold observed
    dsimp only
    split <;> split <;> rfl
  | start h hready hfree =>
    refine .inl ⟨rfl, ?_, ?_⟩ <;> simp only [started, hready] <;> split <;> rfl
  | close h hend => exact .inl ⟨rfl, rfl, rfl⟩
  | finish h hi =>
    rename_i i
    have hrun : f.progress.statusOf i = .running :=
      (hs.progress.mem_workers i).1 (by simp [Progress.workers, hi])
    obtain ⟨t, ht⟩ : ∃ t, g.tasks[i]? = some t := hs.progress.exists_task (by simp [hrun])
    obtain ⟨out, w', hexec⟩ : ∃ out w', (execute c t).run f.world = (out, w') := ⟨_, _, rfl⟩
    refine .inr (.inl ⟨i, t, rfl, ht, hrun, ?_, ?_⟩) <;> simp [finished, ht, hexec]
  | settle h hdone =>
    rename_i pre post i outcome
    have hi : f.progress.statusOf i = .running := hs.progress.running_of_done hdone
    obtain ⟨t, ht⟩ : ∃ t, g.tasks[i]? = some t := hs.progress.exists_task (by simp [hi])
    have hd : (f.settled g c opts (pre ++ post) i outcome).progress.done = pre ++ post := by
      rw [settled_progress]
      exact congrArg Prod.snd
        (Progress.pool_settle g c opts { f.progress with done := pre ++ post } i outcome f.world)
    cases outcome with
    | ok r =>
      refine .inr (.inr (.inl ⟨i, r, t, pre, post, rfl, ht, hdone, hd, ?_⟩))
      simp [settled, Progress.settle, ht]
    | error e =>
      refine .inr (.inr (.inr ⟨i, e, pre, post, rfl, hdone, hd, ?_⟩))
      simp only [settled, Progress.settle, ht]
      split <;> rfl
  | stop h hdone hidle =>
    exact .inl ⟨rfl, congrArg Prod.snd (Progress.pool_finish g f.progress), rfl⟩

section Graph

variable (ha : TaskGraph.Adjacency g.size g.prerequisites g.dependents)
include ha

/-- Every move keeps the tasks that succeeded or failed those whose outcome was taken, each with
the status of its outcome. -/
theorem Step.taken_status {f f' : Flight σ} {m : Move} {ms : List Move} (hs : f.Sound g opts)
    (h : Step g c opts f m f')
    (hst : ∀ x ∈ ms.filterMap Move.taken?, f.progress.statusOf x.1 = TaskStatus.ofOutcome x.2)
    (hran : ∀ j, f.progress.statusOf j = .succeeded ∨ f.progress.statusOf j = .failed →
      ∃ o, (j, o) ∈ ms.filterMap Move.taken?) :
    (∀ x ∈ (ms ++ [m]).filterMap Move.taken?,
      f'.progress.statusOf x.1 = TaskStatus.ofOutcome x.2) ∧
    (∀ j, f'.progress.statusOf j = .succeeded ∨ f'.progress.statusOf j = .failed →
      ∃ o, (j, o) ∈ (ms ++ [m]).filterMap Move.taken?) := by
  have hended : ∀ o, (TaskStatus.ofOutcome o).started = true := fun o => by cases o <;> rfl
  -- a task taken before is not the one the move starts or takes: that one was ready or running
  have hnot : ∀ x ∈ ms.filterMap Move.taken?, m.task? ≠ some x.1 := by
    intro x hx hm
    have hx' := hst x hx
    cases m with
    | start i =>
      obtain rfl : i = x.1 := by simpa [Move.task?] using hm
      rw [(Step.statusOf_started hs h).1] at hx'
      cases hx2 : x.2 <;> simp [hx2, TaskStatus.ofOutcome] at hx'
    | settle i o =>
      obtain rfl : i = x.1 := by simpa [Move.task?] using hm
      rw [(Step.statusOf_settled ha hs h).1] at hx'
      cases hx2 : x.2 <;> simp [hx2, TaskStatus.ofOutcome] at hx'
    | _ => simp [Move.task?] at hm
  constructor
  · intro x hx
    rw [Move.filterMap_snoc, List.mem_append] at hx
    rcases hx with hx | hx
    · rw [(Step.unstartedAt ha hs h (hnot x hx)).eq_of_started (by rw [hst x hx]; exact hended _)]
      exact hst x hx
    · -- the outcome this move takes
      cases m with
      | settle i o =>
        obtain rfl : x = (i, o) := by simpa [Move.taken?] using hx
        exact (Step.statusOf_settled ha hs h).2
      | _ => simp [Move.taken?] at hx
  · intro j hj
    by_cases hm : m.task? = some j
    · cases m with
      | start i =>
        obtain rfl : i = j := by simpa [Move.task?] using hm
        rw [(Step.statusOf_started hs h).2] at hj
        simp at hj
      | settle i o =>
        obtain rfl : i = j := by simpa [Move.task?] using hm
        exact ⟨o, by simp [Move.taken?]⟩
      | _ => simp [Move.task?] at hm
    · -- any other task that succeeded or failed did so before
      have hu := Step.unstartedAt ha hs h hm
      have heq : f'.progress.statusOf j = f.progress.statusOf j := by
        refine hu.eq_of_started ?_
        rw [← hu.started_iff]
        rcases hj with hj | hj <;> simp [hj, TaskStatus.started]
      obtain ⟨o, ho⟩ := hran j (heq ▸ hj)
      exact ⟨o, by rw [Move.filterMap_snoc]; exact List.mem_append_left _ ho⟩

end Graph

/-- No task that started depends, directly or not, on a running one: all it depends on
succeeded. -/
theorem Sound.not_transGen_running {tasks : List (DeployTask δ)} (hb : g.Built tasks)
    {f : Flight σ} (hs : f.Sound g opts) {k i : Nat} (hk : (f.progress.statusOf k).started = true)
    (hi : f.progress.statusOf i = .running) : ¬ Relation.TransGen g.DependsOn k i := fun hki => by
  have hsucc := Sound.succeeded_of_transGen hb hs (fun e => by simp [e, TaskStatus.started] at hk)
    (fun e => by simp [e, TaskStatus.started] at hk) hki
  simp [hi] at hsucc

variable (g) in
/-- What the moves `ms` of a run from a world of view `v₀` say of its flight `f`, through the
view `T`: the view of the world is `v₀` with the successes taken so far replayed in order; each
outcome taken or waiting to be taken is what its task gives on `v₀` with the successes of its
dependencies replayed; and the tasks that succeeded or failed are those whose outcome was taken,
with the status of that outcome. -/
structure Serial (T : TaskView σ V) (v₀ : V) (ms : List Move) (f : Flight σ) : Prop where
  view_eq : T.view f.world = T.replay v₀ (ms.filterMap Move.success?)
  outcome_eq : ∀ x ∈ ms.filterMap Move.taken? ++ f.progress.done, ∀ L,
    Ancestry g x.1 (ms.filterMap Move.success?) L → x.2 = T.outcome x.1 (T.replay v₀ L)
  status_taken : ∀ x ∈ ms.filterMap Move.taken?,
    f.progress.statusOf x.1 = TaskStatus.ofOutcome x.2
  taken_of_status : ∀ j, f.progress.statusOf j = .succeeded ∨ f.progress.statusOf j = .failed →
    ∃ o, (j, o) ∈ ms.filterMap Move.taken?

theorem serial_launch (T : TaskView σ V) (w : σ) : Serial g T (T.view w) [] (launch g w) where
  view_eq := rfl
  outcome_eq x hx := by simp [launch] at hx
  status_taken x hx := by simp at hx
  taken_of_status j hj := by
    rw [Progress.statusOf_launch] at hj
    split at hj <;> simp at hj

section Built

variable {tasks : List (DeployTask δ)} (hb : g.Built tasks) (hT : Serializes g c T) {v₀ : V}
  (hv₀ : T.good v₀)
include hb hv₀

omit hv₀ in
/-- Taking the outcome of task `i` keeps each outcome taken or waiting what its task gives: `i`
was running, no started task depends on a running one, so a success of `i` is in no ancestry of
theirs. -/
theorem Serial.outcome_eq_settle {f f' : Flight σ} {ms : List Move} {i : Nat}
    {o : Except TaskError Outcome} {pre post : List (Nat × Except TaskError Outcome)}
    (hs : f.Sound g opts) (h : Step g c opts f (.settle i o) f') (hser : Serial g T v₀ ms f)
    (hpre : f.progress.done = pre ++ (i, o) :: post) (hdone : f'.progress.done = pre ++ post) :
    ∀ x ∈ (ms ++ [Move.settle i o]).filterMap Move.taken? ++ f'.progress.done, ∀ L,
      Ancestry g x.1 ((ms ++ [Move.settle i o]).filterMap Move.success?) L →
        x.2 = T.outcome x.1 (T.replay v₀ L) := by
  have hi := (Step.statusOf_settled hb.adjacency_size hs h).1
  intro x hx L hL
  rw [Move.filterMap_snoc, hdone] at hx
  rw [Move.filterMap_snoc] at hL
  -- the outcome was taken or waiting before, so its task had started
  have hx' : x ∈ ms.filterMap Move.taken? ++ f.progress.done := by
    rw [hpre]
    simp only [Move.taken?, Option.toList, List.mem_append, List.mem_cons, List.mem_nil_iff]
      at hx ⊢
    tauto
  have hstarted : (f.progress.statusOf x.1).started = true := by
    rcases List.mem_append.mp hx' with hx' | hx'
    · rw [hser.status_taken x hx']
      cases x.2 <;> rfl
    · rw [(hs.progress.mem_workers x.1).1
        (List.mem_append_right _ (List.mem_map_of_mem hx'))]
      rfl
  refine hser.outcome_eq x hx' L (hL.of_append fun y hy => ?_)
  have hyi : y.1 = i := by
    cases o <;> simp only [Move.success?, Option.toList, List.mem_singleton, List.not_mem_nil] at hy
    rw [hy]
  rw [hyi]
  exact Sound.not_transGen_running hb hs hstarted hi

include hT in
/-- Every move keeps the account of what the run has taken. -/
theorem Step.serial {f f' : Flight σ} {m : Move} {ms : List Move} (hs : f.Sound g opts)
    (ht : Traced g ms f) (h : Step g c opts f m f') (hser : Serial g T v₀ ms f) :
    Serial g T v₀ (ms ++ [m]) f' := by
  obtain ⟨hst, hran⟩ :=
    Step.taken_status hb.adjacency_size hs h hser.status_taken hser.taken_of_status
  -- the successes taken so far are of distinct tasks, and those succeeded
  have hS : ((ms.filterMap Move.success?).map Prod.fst).Nodup := by
    rw [Move.map_fst_successes]
    exact ht.successes_nodup
  have hsucc : ∀ x ∈ ms.filterMap Move.success?, f.progress.statusOf x.1 = .succeeded :=
    fun x hx => (ht.succeeded_iff x.1).2
      (by rw [← Move.map_fst_successes]; exact List.mem_map_of_mem hx)
  rcases Step.pool_cases hs h with ⟨hm, hdone, hw⟩ | ⟨i, t, rfl, hti, hi, hdone, hw⟩ |
      ⟨i, r, t, pre, post, rfl, hti, hpre, hdone, hw⟩ | ⟨i, e, pre, post, rfl, hpre, hdone, hw⟩
  · -- nothing taken, nothing carried out
    have hsm := Move.success?_eq_none hm
    refine ⟨?_, ?_, hst, hran⟩
    · rw [Move.filterMap_snoc, hsm, hw, hser.view_eq]
      simp
    · rw [Move.filterMap_snoc, hm, Move.filterMap_snoc, hsm, hdone]
      simpa using hser.outcome_eq
  · -- task `i` is carried out on the view the successes so far left; all of them are of tasks
    -- it depends on or unrelated to it, since none depends on a running task
    have hrel : ∀ x ∈ ms.filterMap Move.success?,
        Relation.TransGen g.DependsOn i x.1 ∨ g.Unrelated i x.1 := by
      intro x hx
      by_cases hd : Relation.TransGen g.DependsOn i x.1
      · exact .inl hd
      · refine .inr ⟨fun e => ?_, hd,
          Sound.not_transGen_running hb hs (by simp [hsucc x hx, TaskStatus.started]) hi⟩
        have := hsucc x hx
        rw [e, hi] at this
        cases this
    have hout : ((execute c t).run f.world).1 =
        T.outcome i (T.replay v₀ (ms.filterMap Move.success?)) := by
      rw [hT.outcome_eq i t f.world hti (by rw [hser.view_eq]; exact hT.good_replay hv₀ _),
        hser.view_eq]
    refine ⟨?_, ?_, hst, hran⟩
    · rw [Move.filterMap_snoc, hw, hT.view_execute i t f.world hti, hser.view_eq]
      simp [Move.success?]
    · intro x hx L hL
      rw [Move.filterMap_snoc, hdone] at hx
      rw [Move.filterMap_snoc] at hL
      simp only [Move.taken?, Move.success?, Option.toList, List.append_nil] at hx hL
      rcases List.mem_append.mp hx with hx | hx
      · exact hser.outcome_eq x (List.mem_append_left _ hx) L hL
      · rcases List.mem_append.mp hx with hx | hx
        · exact hser.outcome_eq x (List.mem_append_right _ hx) L hL
        · obtain rfl := List.mem_singleton.mp hx
          rw [hout]
          exact hT.outcome_ancestry hS hrel hL hv₀
  · -- a success of `i` is taken and reported
    refine ⟨?_, Serial.outcome_eq_settle hb hs h hser hpre hdone, hst, hran⟩
    rw [Move.filterMap_snoc, hw, hT.view_completed i t r f.world hti, hser.view_eq]
    simp [Move.success?]
  · -- a failure of `i` is taken
    refine ⟨?_, Serial.outcome_eq_settle hb hs h hser hpre hdone, hst, hran⟩
    rw [Move.filterMap_snoc, hw, hser.view_eq]
    simp [Move.success?]

omit hv₀ in
include hT in
/-- Along every run of a built graph from a world of good view, the account of what the run has
taken holds, together with the record of its moves. -/
theorem Flies.serial {w : σ} {ms : List Move} {f : Flight σ} (hw : T.good (T.view w))
    (h : Flies g c opts (launch g w) ms f) : Serial g T (T.view w) ms f ∧ Traced g ms f :=
  Flies.invariant hb.adjacency_size (P := fun ms f => Serial g T (T.view w) ms f ∧ Traced g ms f)
    ⟨serial_launch T w, traced_launch w⟩
    (fun _ _ _ _ hs hstep hf => ⟨Step.serial hb hT hw hs hf.2 hstep hf.1,
      hf.2.step hb.adjacency_size hs hstep⟩) h

end Built

/-! ## Two runs that end without halting -/

/-- In a run of a built graph that has left its loop without halting, a task is skipped exactly
when one of its dependencies did not succeed. -/
theorem Flies.skipped_iff {tasks : List (DeployTask δ)} (hg : TaskGraph.build tasks = .ok g)
    {w : σ} {ms : List Move} {f : Flight σ} (h : Flies g c opts (launch g w) ms f)
    (hover : f.stage = .over) (hh : f.progress.result.halted = false) {j : Nat} (hj : j < g.size) :
    f.progress.statusOf j = .skipped ↔
      ∃ d ∈ g.prerequisitesOf j, f.progress.statusOf d ≠ .succeeded := by
  have hb := TaskGraph.build_built hg
  have hs := Flies.sound hb.adjacency_size h (sound_launch hb.adjacency_size w)
  constructor
  · -- the result names a failure that `j` depends on; the chain to it starts at a dependency
    -- of `j`, which cannot have succeeded
    intro hsk
    obtain ⟨k, hk, hjk⟩ := ((Flies.concluded hg h hover).skipped_iff hh j hj).mp
      ((RunResult.mem_entries_skipped _ _).mp ((Flies.mem_entries hb h hover hj _).mpr hsk))
    have hkf : f.progress.statusOf k = .failed :=
      (Flies.mem_entries hb h hover (TaskGraph.transGen_dependsOn_lt hjk).2 _).mp
        ((RunResult.mem_entries_failed _ _).mpr hk)
    obtain ⟨d, hjd, hdk⟩ := Relation.TransGen.head'_iff.mp hjk
    refine ⟨d, hb.mem_prerequisitesOf hjd, fun hd => ?_⟩
    rcases Relation.reflTransGen_iff_eq_or_transGen.mp hdk with rfl | hdk
    · simp [hd] at hkf
    · have := Sound.succeeded_of_transGen hb hs (by simp [hd]) (by simp [hd]) hdk
      simp [hkf] at this
  · -- a task that got past pending without being skipped had its dependencies succeed
    rintro ⟨d, hd, hne⟩
    by_contra hns
    have hfin := Flies.final hb.adjacency_size h hover j hj
    have hnp : f.progress.statusOf j ≠ .pending := fun e => by simp [e, TaskStatus.final] at hfin
    exact hne (hs.progress.prerequisites_succeeded j hnp hns d hd)

variable (g) in
/-- What is known of a run that has left its loop without halting, from a world of view `v₀`:
the account of what it took, the record of its moves, that every task of the graph came to an
end, and that a task was skipped exactly when one of its dependencies did not succeed. -/
structure Ended (T : TaskView σ V) (v₀ : V) (ms : List Move) (f : Flight σ) : Prop where
  serial : Serial g T v₀ ms f
  traced : Traced g ms f
  sound : f.progress.Sound g
  final : ∀ j < g.size, (f.progress.statusOf j).final = true
  skipped_iff : ∀ j < g.size, f.progress.statusOf j = .skipped ↔
    ∃ d ∈ g.prerequisitesOf j, f.progress.statusOf d ≠ .succeeded

theorem Flies.ended {tasks : List (DeployTask δ)} (hg : TaskGraph.build tasks = .ok g)
    (hT : Serializes g c T) {w : σ} (hw : T.good (T.view w)) {ms : List Move} {f : Flight σ}
    (h : Flies g c opts (launch g w) ms f) (hover : f.stage = .over)
    (hh : f.progress.result.halted = false) : Ended g T (T.view w) ms f := by
  have hb := TaskGraph.build_built hg
  obtain ⟨hser, ht⟩ := Flies.serial hb hT hw h
  exact ⟨hser, ht, (Flies.sound hb.adjacency_size h (sound_launch hb.adjacency_size w)).progress,
    Flies.final hb.adjacency_size h hover, fun j hj => Flies.skipped_iff hg h hover hh hj⟩

namespace Ended

variable {v₀ : V} {ms : List Move} {f : Flight σ} (e : Ended g T v₀ ms f)
include e

theorem successes_nodup : ((ms.filterMap Move.success?).map Prod.fst).Nodup := by
  rw [Move.map_fst_successes]
  exact e.traced.successes_nodup

theorem succeeded_of_mem {x : Nat × Outcome} (hx : x ∈ ms.filterMap Move.success?) :
    f.progress.statusOf x.1 = .succeeded :=
  (e.traced.succeeded_iff x.1).2 (by rw [← Move.map_fst_successes]; exact List.mem_map_of_mem hx)

/-- A task of the graph that was not skipped had its outcome taken, with its status. -/
theorem taken {j : Nat} (hj : j < g.size) (hsk : f.progress.statusOf j ≠ .skipped) :
    ∃ o, (j, o) ∈ ms.filterMap Move.taken? ∧ f.progress.statusOf j = TaskStatus.ofOutcome o := by
  have hfin := e.final j hj
  obtain ⟨o, ho⟩ := e.serial.taken_of_status j (by
    cases hst : f.progress.statusOf j <;> simp_all [TaskStatus.final])
  exact ⟨o, ho, e.serial.status_taken _ ho⟩

/-- A task's outcome is taken once: every outcome taken of it is what it gives. -/
theorem taken_unique {j : Nat} {o o' : Except TaskError Outcome}
    (h : (j, o) ∈ ms.filterMap Move.taken?) (h' : (j, o') ∈ ms.filterMap Move.taken?) : o = o' := by
  obtain ⟨L, -, -, hL, -⟩ := Ancestry.exists_split (g := g) (i := j) e.successes_nodup
  exact (e.serial.outcome_eq _ (List.mem_append_left _ h) L hL).trans
    (e.serial.outcome_eq _ (List.mem_append_left _ h') L hL).symm

end Ended

/-- Two runs of a built graph that have left their loop without halting, from one view, agree on
every task of the graph: the same status, and the same success. The induction goes up the ranks
of the graph: the dependencies of a task agree, so it is skipped in both runs or in neither, and
if not, its outcome in each is what it gives after the same successes of its dependencies. -/
theorem Ended.agree {tasks : List (DeployTask δ)} (hg : TaskGraph.build tasks = .ok g) {v₀ : V}
    {ms₁ ms₂ : List Move} {f₁ f₂ : Flight σ} (e₁ : Ended g T v₀ ms₁ f₁)
    (e₂ : Ended g T v₀ ms₂ f₂) :
    ∀ j < g.size, f₁.progress.statusOf j = f₂.progress.statusOf j ∧
      ∀ o, (j, o) ∈ ms₁.filterMap Move.success? ↔ (j, o) ∈ ms₂.filterMap Move.success? := by
  obtain ⟨r, hr⟩ := (TaskGraph.build_built hg).ranked_transGen
  intro j
  induction hn : r j using Nat.strong_induction_on generalizing j with
  | _ n ih =>
  intro hj
  have hdep : ∀ d, Relation.TransGen g.DependsOn j d →
      f₁.progress.statusOf d = f₂.progress.statusOf d ∧
        ∀ o, (d, o) ∈ ms₁.filterMap Move.success? ↔ (d, o) ∈ ms₂.filterMap Move.success? :=
    fun d hd => ih (r d) (hn ▸ hr j d hd) d rfl (TaskGraph.transGen_dependsOn_lt hd).2
  have hsk : f₁.progress.statusOf j = .skipped ↔ f₂.progress.statusOf j = .skipped := by
    rw [e₁.skipped_iff j hj, e₂.skipped_iff j hj]
    refine exists_congr fun d => and_congr_right fun hd => ?_
    rw [(hdep d (.single (TaskGraph.build_dependsOn hg hd))).1]
  by_cases hs₁ : f₁.progress.statusOf j = .skipped
  · -- skipped in both runs: no success of `j` was taken in either
    have hs₂ := hsk.mp hs₁
    refine ⟨hs₁.trans hs₂.symm, fun o => ⟨fun hx => ?_, fun hx => ?_⟩⟩
    · simp [e₁.succeeded_of_mem hx] at hs₁
    · simp [e₂.succeeded_of_mem hx] at hs₂
  · -- taken in both runs, after the same successes of its dependencies
    have hs₂ : f₂.progress.statusOf j ≠ .skipped := fun h => hs₁ (hsk.mpr h)
    obtain ⟨o₁, ho₁, hst₁⟩ := e₁.taken hj hs₁
    obtain ⟨o₂, ho₂, hst₂⟩ := e₂.taken hj hs₂
    obtain ⟨L, -, -, hL₁, -⟩ := Ancestry.exists_split (g := g) (i := j) e₁.successes_nodup
    have hL₂ : Ancestry g j (ms₂.filterMap Move.success?) L :=
      ⟨hL₁.1, fun x => (hL₁.2 x).trans (and_congr_left fun ha => (hdep x.1 ha).2 x.2)⟩
    have ho : o₁ = o₂ := (e₁.serial.outcome_eq _ (List.mem_append_left _ ho₁) L hL₁).trans
      (e₂.serial.outcome_eq _ (List.mem_append_left _ ho₂) L hL₂).symm
    subst ho
    refine ⟨hst₁.trans hst₂.symm, fun o => ?_⟩
    rw [Move.mem_successes, Move.mem_successes]
    constructor
    · intro h
      rw [e₁.taken_unique h ho₁]
      exact ho₂
    · intro h
      rw [e₂.taken_unique h ho₂]
      exact ho₁

end Flight

/-- When the tasks of a built graph serialize through a view of the world, where a run ends does
not depend on the order of its moves: two runs from one world that have left their loop without
halting, whatever their options (how many tasks may run at a time, how many failures are
tolerated), whenever their workers finish and in whatever order their outcomes are taken, give
every task the same status, list the same tasks under each status, and end with the same view
of the world. -/
theorem runs_agree {tasks : List (DeployTask δ)} {g : TaskGraph δ} {c : Collaborators δ σ}
    {T : TaskView σ V} (hg : TaskGraph.build tasks = .ok g) (hT : Serializes g c T) {w : σ}
    (hw : T.good (T.view w)) {opts₁ opts₂ : RunOptions} {ms₁ ms₂ : List Move}
    {f₁ f₂ : Flight σ} (h₁ : Flies g c opts₁ (Flight.launch g w) ms₁ f₁)
    (h₂ : Flies g c opts₂ (Flight.launch g w) ms₂ f₂) (hover₁ : f₁.stage = .over)
    (hover₂ : f₂.stage = .over) (hh₁ : f₁.progress.result.halted = false)
    (hh₂ : f₂.progress.result.halted = false) :
    (∀ j, f₁.progress.statusOf j = f₂.progress.statusOf j) ∧
      f₁.progress.result.entries.Perm f₂.progress.result.entries ∧
      T.view f₁.world = T.view f₂.world := by
  have ha := (TaskGraph.build_built hg).adjacency_size
  have e₁ := Flight.Flies.ended hg hT hw h₁ hover₁ hh₁
  have e₂ := Flight.Flies.ended hg hT hw h₂ hover₂ hh₂
  have hagree := Flight.Ended.agree hg e₁ e₂
  -- past the graph every task is pending in both runs
  have hstatus : ∀ j, f₁.progress.statusOf j = f₂.progress.statusOf j := by
    intro j
    by_cases hj : j < g.size
    · exact (hagree j hj).1
    · rw [Progress.statusOf_of_size_le (by rw [e₁.sound.status_size]; omega),
        Progress.statusOf_of_size_le (by rw [e₂.sound.status_size]; omega)]
  -- both runs took the same successes, perhaps in another order
  have hlt : ∀ {ms : List Move} {f : Flight σ}, Flight.Ended g T (T.view w) ms f →
      ∀ x ∈ ms.filterMap Move.success?, x.1 < g.size :=
    fun e x hx => e.sound.lt_of_ne_pending (by simp [e.succeeded_of_mem hx])
  have hperm : (ms₁.filterMap Move.success?).Perm (ms₂.filterMap Move.success?) := by
    refine (List.perm_ext_iff_of_nodup (e₁.successes_nodup.of_map _)
      (e₂.successes_nodup.of_map _)).2 fun x => ⟨fun hx => ?_, fun hx => ?_⟩
    · exact ((hagree x.1 (hlt e₁ x hx)).2 x.2).1 hx
    · exact ((hagree x.1 (hlt e₂ x hx)).2 x.2).2 hx
  refine ⟨hstatus, ?_, ?_⟩
  · -- each result lists every task of the graph under its status
    have hl₁ := Flight.Flies.entries_perm ha h₁ hover₁
    have hl₂ := Flight.Flies.entries_perm ha h₂ hover₂
    simp only [hstatus] at hl₁
    exact hl₁.trans hl₂.symm
  · rw [e₁.serial.view_eq, e₂.serial.view_eq]
    exact hT.replay_perm hperm e₁.successes_nodup hw

end OrgDeploy
