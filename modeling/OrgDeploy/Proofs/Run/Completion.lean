import Mathlib
import OrgDeploy.Proofs.Run.Safety

/-!
# Runs come to an end

`runGraph` makes at most `6 * (size + 1)` moves. That is enough: every move lowers the
`potential` of the flight, five for each task still to start, four for each started worker,
three for each outcome waiting to be taken, and what the coordinator's loop still has to do at
its stage. A task takes its start, its finish and the taking of its outcome, and each taking
sends the loop round once more; the loop ends with one more move. So a run always leaves the
loop (`Flight.drive_over`).

At the close every task that never started is skipped, and every task that came to an end is
listed in the result under its status (`Progress.Reported`). So a run that succeeds, with no
failure, no skip and no halt, has run every task of its graph to success
(`runGraph_succeeded_all`).
-/

namespace OrgDeploy

/-- Whether a task in this status is still to be started. -/
def TaskStatus.toStart : TaskStatus → Bool
  | .pending | .ready => true
  | _ => false

/-- Whether a task in this status has come to an end. -/
def TaskStatus.final : TaskStatus → Bool
  | .succeeded | .failed | .skipped => true
  | _ => false

/-- The tasks a result lists under a status. -/
def RunResult.listed (r : RunResult) : TaskStatus → List TaskId
  | .succeeded => r.succeeded
  | .failed => r.failed.map Prod.fst
  | .skipped => r.skipped.map Prod.fst
  | _ => []

/-- What the coordinator's loop still has to do at a stage, in moves, besides its tasks: look at
the cancellation, close the admission, leave the loop. -/
def Stage.cost : Stage → Nat
  | .top => 3
  | .admitting => 2
  | .joining => 1
  | .over => 0

/-- A property kept by each step of a left fold holds of its end. -/
theorem foldl_keeps {α β : Type} (P : α → Prop) {F : α → β → α} (hF : ∀ a b, P a → P (F a b)) :
    ∀ (l : List β) (a : α), P a → P (l.foldl F a)
  | [], _, h => h
  | b :: l, a, h => foldl_keeps P hF l (F a b) (hF a b h)

namespace Progress

variable {δ : Type} (g : TaskGraph δ)

/-- A property kept by each skip for a failed dependency is kept by skipping the dependents. -/
theorem skipFrom_keeps (P : Progress → Prop) (dep : TaskId)
    (hskip : ∀ p i, P p → P (p.skip g i (.dependencyFailed dep))) :
    ∀ (fuel : Nat) (stack : List Nat) (p : Progress), P p → P (skipFrom g dep fuel stack p)
  | 0, _, _, hp => hp
  | _ + 1, [], _, hp => hp
  | fuel + 1, i :: stack, p, hp => by
    unfold skipFrom
    split
    · exact skipFrom_keeps P dep hskip fuel stack p hp
    · exact skipFrom_keeps P dep hskip fuel _ _ (hskip p i hp)

/-! ## The workers

No operation of the coordinator on its progress touches the started workers or the outcomes
waiting to be taken: only the moves that start a task, finish a worker or take an outcome do. -/

/-- The started workers, and the outcomes of finished workers waiting to be taken. -/
def pool (p : Progress) : List Nat × List (Nat × Except TaskError Outcome) := (p.executing, p.done)

@[simp] theorem pool_emit (p : Progress) (e : RunEvent) : (p.emit e).pool = p.pool := rfl
@[simp] theorem pool_skip (p : Progress) (i : Nat) (r : SkipReason) :
    (p.skip g i r).pool = p.pool := rfl
@[simp] theorem pool_halt (p : Progress) : p.halt.pool = p.pool := rfl
@[simp] theorem pool_markSucceeded (p : Progress) (i : Nat) (id : TaskId) :
    (p.markSucceeded i id).pool = p.pool := rfl
@[simp] theorem pool_markFailed (p : Progress) (i : Nat) (id : TaskId) (e : TaskError) :
    (p.markFailed i id e).pool = p.pool := rfl

@[simp] theorem pool_release (p : Progress) (d : Nat) : (p.release d).pool = p.pool := by
  rw [release_spec]
  split <;> rfl

@[simp] theorem pool_skipReady (p : Progress) : (p.skipReady g).pool = p.pool := by
  obtain ⟨ev, hq⟩ := skipReady_spec g p
  rw [hq]
  rfl

@[simp] theorem pool_skipDependents (p : Progress) (i : Nat) :
    (p.skipDependents g i).pool = p.pool :=
  skipFrom_keeps g (fun q => q.pool = p.pool) _ (fun _ _ hq => hq) _ _ p rfl

@[simp] theorem pool_settle {σ : Type} (c : Collaborators δ σ) (opts : RunOptions) (p : Progress)
    (i : Nat) (outcome : Except TaskError Outcome) (w : σ) :
    (settle g c opts p i outcome w).1.pool = p.pool := by
  unfold settle
  split
  · rfl
  · exact foldl_keeps (fun q : Progress => q.pool = p.pool) (fun _ _ hq => by simpa using hq) _ _ rfl
  · dsimp only
    split <;> simp

@[simp] theorem pool_abandon (p : Progress) (i : Nat) : (p.abandon g i).pool = p.pool := by
  unfold abandon
  split <;> rfl

@[simp] theorem pool_finish (p : Progress) : (p.finish g).pool = p.pool :=
  foldl_keeps (fun q : Progress => q.pool = p.pool) (fun _ _ hq => by simpa using hq) _ _ rfl

/-! ## The tasks still to start -/

/-- The tasks of the graph still to be started. -/
def toStart (p : Progress) : Finset Nat :=
  (Finset.range g.size).filter fun i => (p.statusOf i).toStart

variable {g}

theorem UnstartedAt.toStart {p q : Progress} {j : Nat} (h : UnstartedAt p q j)
    (hq : (q.statusOf j).toStart = true) : (p.statusOf j).toStart = true := by
  rcases h with h | ⟨hp | hp, -⟩
  · rwa [← h]
  · simp [hp, TaskStatus.toStart]
  · simp [hp, TaskStatus.toStart]

theorem card_toStart_le (p : Progress) : (p.toStart g).card ≤ g.size :=
  calc (p.toStart g).card ≤ (Finset.range g.size).card := Finset.card_filter_le _ _
    _ = g.size := Finset.card_range _

/-! ## Tasks that came to an end are listed -/

variable (g)

/-- Every task that came to an end is listed in the result under its status. -/
def Reported (p : Progress) : Prop :=
  ∀ j, (p.statusOf j).final = true → idOf g j ∈ p.result.listed (p.statusOf j)

variable {g}

/-- With the statuses as they were, a result that lists at least as much still reports. -/
theorem Reported.of_status_eq {p q : Progress} (hp : p.Reported g) (hstatus : q.status = p.status)
    (hgrow : ∀ s, p.result.listed s ⊆ q.result.listed s) : q.Reported g := by
  intro j hj
  have h : q.statusOf j = p.statusOf j := by simp [statusOf, hstatus]
  rw [h] at hj ⊢
  exact hgrow _ (hp j hj)

/-- Changing the status of one task to `s` keeps the result reporting when it lists at least as
much as before, and lists the task under `s` if `s` is final. -/
theorem Reported.set {p q : Progress} (hp : p.Reported g) {i : Nat} {s : TaskStatus}
    (hstatus : q.status = p.status.set! i s) (hgrow : ∀ s', p.result.listed s' ⊆ q.result.listed s')
    (hnew : s.final = true → idOf g i ∈ q.result.listed s) : q.Reported g := by
  intro j hj
  have h : q.statusOf j = if i = j ∧ i < p.status.size then s else p.statusOf j := by
    simp only [statusOf, hstatus, Array.set!, Array.getD_eq_getD_getElem?,
      getElem?_setIfInBounds_getD]
  rw [h] at hj ⊢
  split at hj
  · rename_i hij
    rw [if_pos hij, ← hij.1]
    exact hnew hj
  · rw [if_neg ‹_›]
    exact hgrow _ (hp j hj)

theorem reported_skip {p : Progress} (hp : p.Reported g) (i : Nat) (r : SkipReason) :
    (p.skip g i r).Reported g :=
  hp.set rfl (fun s => by cases s <;> simp [RunResult.listed]) fun _ => by simp [RunResult.listed]

theorem reported_halt {p : Progress} (hp : p.Reported g) : p.halt.Reported g :=
  hp.of_status_eq rfl fun _ => List.Subset.refl _

theorem reported_release {p : Progress} (hp : p.Reported g) (d : Nat) : (p.release d).Reported g := by
  rw [release_spec]
  split
  · exact hp.set rfl (fun _ => List.Subset.refl _) fun h => by simp [TaskStatus.final] at h
  · exact hp.of_status_eq rfl fun _ => List.Subset.refl _

theorem reported_skipReady {p : Progress} (hp : p.Reported g) : (p.skipReady g).Reported g :=
  foldl_keeps (Reported g) (fun _ i hq => reported_skip hq i .halted) _ _
    (hp.of_status_eq rfl fun _ => List.Subset.refl _)

theorem reported_skipDependents {p : Progress} (hp : p.Reported g) (i : Nat) :
    (p.skipDependents g i).Reported g :=
  skipFrom_keeps g (Reported g) _ (fun _ j hq => reported_skip hq j _) _ _ p hp

theorem reported_settle {σ : Type} (c : Collaborators δ σ) (opts : RunOptions) {p : Progress}
    (hp : p.Reported g) (i : Nat) (outcome : Except TaskError Outcome) (w : σ) :
    (settle g c opts p i outcome w).1.Reported g := by
  unfold settle
  split
  · exact hp
  · -- the success is listed under the task's own id, and releasing its dependents lists nothing
    rename_i t o ht
    have hs : (p.markSucceeded i t.id).Reported g :=
      hp.set rfl (fun s => by cases s <;> simp [markSucceeded, emit, RunResult.listed])
        fun _ => by simp [markSucceeded, emit, RunResult.listed, idOf_of_getElem? g ht]
    exact foldl_keeps (Reported g) (fun _ d hq => reported_release hq d) _ _ hs
  · rename_i t e ht
    have hf : (p.markFailed i t.id e).Reported g :=
      hp.set rfl (fun s => by cases s <;> simp [markFailed, emit, RunResult.listed])
        fun _ => by simp [markFailed, emit, RunResult.listed, idOf_of_getElem? g ht]
    dsimp only
    split
    · exact reported_halt (reported_skipDependents hf i)
    · exact reported_skipDependents hf i

theorem reported_abandon {p : Progress} (hp : p.Reported g) (i : Nat) :
    (p.abandon g i).Reported g := by
  unfold abandon
  split
  · exact reported_skip hp i _
  · exact reported_skip hp i _
  · exact hp.set rfl (fun s => by cases s <;> simp [RunResult.listed]) fun _ => by
      simp [RunResult.listed]
  · exact hp

theorem reported_finish {p : Progress} (hp : p.Reported g) : (p.finish g).Reported g :=
  (foldl_keeps (Reported g) (fun _ i hq => reported_abandon hq i) _ _ hp).of_status_eq rfl
    fun _ => List.Subset.refl _

/-! ## The close ends every task -/

theorem statusOf_abandon_of_ne (p : Progress) {i j : Nat} (h : j ≠ i) :
    (p.abandon g i).statusOf j = p.statusOf j := by
  unfold abandon
  split
  · rw [statusOf_skip, if_neg fun h' => h h'.1.symm]
  · rw [statusOf_skip, if_neg fun h' => h h'.1.symm]
  · simp only [statusOf, Array.set!, Array.getD_eq_getD_getElem?, getElem?_setIfInBounds_getD]
    rw [if_neg fun h' => h h'.1.symm]
  · rfl

theorem size_status_abandon (p : Progress) (i : Nat) :
    (p.abandon g i).status.size = p.status.size := by
  unfold abandon
  split <;> simp

/-- A task of the graph given up on at the close has come to an end. -/
theorem final_abandon (p : Progress) {i : Nat} (hi : i < p.status.size) :
    ((p.abandon g i).statusOf i).final = true := by
  unfold abandon
  split
  · simp [statusOf_skip, hi, TaskStatus.final]
  · simp [statusOf_skip, hi, TaskStatus.final]
  · simp [statusOf, hi, TaskStatus.final]
  · rename_i h1 h2 h3
    cases hst : p.statusOf i <;> simp_all [TaskStatus.final]

/-- After the close every task of the graph has come to an end. -/
theorem final_finish (p : Progress) (hsize : p.status.size = g.size) {j : Nat} (hj : j < g.size) :
    ((p.finish g).statusOf j).final = true := by
  -- the indices still to close, or the task already at an end
  have key : ∀ (l : List Nat) (q : Progress), q.status.size = g.size →
      (j ∈ l ∨ (q.statusOf j).final = true) →
        ((l.foldl (abandon g) q).statusOf j).final = true := by
    intro l
    induction l with
    | nil => intro q _ h; simpa using h
    | cons i l ih =>
      intro q hq h
      rw [List.foldl_cons]
      refine ih _ (by rw [size_status_abandon, hq]) ?_
      by_cases hji : j = i
      · subst hji
        exact .inr (final_abandon q (by omega))
      · rcases h with h | h
        · exact .inl (List.mem_of_ne_of_mem hji h)
        · exact .inr (by rwa [statusOf_abandon_of_ne q hji])
  exact key _ p hsize (.inl (List.mem_range.mpr hj))

end Progress

namespace Flight

variable {δ σ : Type} (g : TaskGraph δ) {c : Collaborators δ σ} {opts : RunOptions}

/-- The moves a run has left at most. -/
def potential (f : Flight σ) : Nat :=
  5 * (f.progress.toStart g).card + 4 * f.progress.executing.length +
    3 * f.progress.done.length + f.stage.cost

/-- Once the loop is left, every task of the graph has come to an end. -/
def Closed (f : Flight σ) : Prop :=
  f.stage = .over → ∀ i < g.size, (f.progress.statusOf i).final = true

variable {g}

theorem potential_launch_lt (w : σ) : (launch g w).potential g < 6 * (g.size + 1) := by
  have h := Progress.card_toStart_le (g := g) (launch g w).progress
  have he : (launch g w).progress.executing = [] := rfl
  have hd : (launch g w).progress.done = [] := rfl
  have hs : (launch g w).stage = .top := rfl
  simp only [potential, he, hd, hs, Stage.cost, List.length_nil]
  omega

/-- A move that keeps the workers, adds no task to start and lowers the cost of the stage lowers
the potential. -/
theorem potential_lt_of_pool {f f' : Flight σ}
    (hsub : f'.progress.toStart g ⊆ f.progress.toStart g)
    (hpool : f'.progress.pool = f.progress.pool) (hcost : f'.stage.cost < f.stage.cost) :
    f'.potential g < f.potential g := by
  have he : f'.progress.executing = f.progress.executing := congrArg Prod.fst hpool
  have hd : f'.progress.done = f.progress.done := congrArg Prod.snd hpool
  have hcard := Finset.card_le_card hsub
  unfold potential
  rw [he, hd]
  omega

theorem observed_pool (f : Flight σ) (cancelled : Bool) :
    (f.observed g cancelled).progress.pool = f.progress.pool := by
  unfold observed
  dsimp only
  split <;> split <;> simp

theorem observed_cost {f : Flight σ} (h : f.stage = .top) (cancelled : Bool) :
    (f.observed g cancelled).stage.cost < f.stage.cost := by
  unfold observed
  dsimp only
  split <;> split <;> simp [h, Stage.cost]

section Graph

variable (ha : TaskGraph.Adjacency g.size g.prerequisites g.dependents)
include ha

/-- A move adds no task to start: the task it starts or takes an outcome of is started after it,
and every other task only ever leaves the tasks to start. -/
theorem Step.toStart_subset {f f' : Flight σ} {m : Move} (hs : f.Sound g opts)
    (h : Step g c opts f m f') : f'.progress.toStart g ⊆ f.progress.toStart g := by
  intro j hj
  simp only [Progress.toStart, Finset.mem_filter] at hj ⊢
  refine ⟨hj.1, ?_⟩
  by_cases hjm : m.task? = some j
  · exfalso
    cases m <;> simp only [Move.task?, reduceCtorEq, Option.some.injEq] at hjm
    · subst hjm
      simp [(Step.statusOf_started hs h).2, TaskStatus.toStart] at hj
    · rename_i o
      subst hjm
      rw [(Step.statusOf_settled ha hs h).2] at hj
      cases o <;> simp [TaskStatus.ofOutcome, TaskStatus.toStart] at hj
  · exact (Step.unstartedAt ha hs h hjm).toStart hj.2

/-- Every move lowers the potential. -/
theorem Step.potential_lt {f f' : Flight σ} {m : Move} (hs : f.Sound g opts)
    (h : Step g c opts f m f') : f'.potential g < f.potential g := by
  have hsub := Step.toStart_subset ha hs h
  cases h with
  | observe cancelled h => exact potential_lt_of_pool hsub (observed_pool f cancelled) (observed_cost h _)
  | start h hready hfree =>
    -- the task leaves the tasks to start and holds a worker
    rename_i i rest
    obtain ⟨hi, hi'⟩ := Step.statusOf_started (c := c) hs (.start h hready hfree)
    have hlt : i < g.size := hs.progress.lt_of_ne_pending (by simp [hi])
    obtain ⟨t, ht⟩ : ∃ t, g.tasks[i]? = some t := ⟨g.tasks[i], by simp [TaskGraph.size] at hlt; simp [hlt]⟩
    have he : (f.started g).progress.executing = f.progress.executing ++ [i] := by
      simp [started, hready, ht, Progress.emit]
    have hd : (f.started g).progress.done = f.progress.done := by
      simp [started, hready, ht, Progress.emit]
    have hst : (f.started g).stage = f.stage := by simp [started, hready, ht]
    have hin : i ∈ f.progress.toStart g :=
      Finset.mem_filter.2 ⟨Finset.mem_range.2 hlt, by rw [hi]; rfl⟩
    have hout : i ∉ (f.started g).progress.toStart g := fun hm => by
      have h' := (Finset.mem_filter.1 hm).2
      rw [hi'] at h'
      cases h'
    have hcard := Finset.card_lt_card ((Finset.ssubset_iff_of_subset hsub).2 ⟨i, hin, hout⟩)
    unfold potential
    rw [he, hd, hst, List.length_append, List.length_singleton]
    omega
  | close h hend =>
    exact potential_lt_of_pool hsub rfl (by simp [h, Stage.cost])
  | finish h hi =>
    -- the worker's outcome now waits to be taken
    rename_i i
    have hrun : f.progress.statusOf i = .running :=
      (hs.progress.mem_workers i).1 (by simp [Progress.workers, hi])
    obtain ⟨t, ht⟩ : ∃ t, g.tasks[i]? = some t := hs.progress.exists_task (by simp [hrun])
    obtain ⟨out, w', hexec⟩ : ∃ out w', (execute c t).run f.world = (out, w') := ⟨_, _, rfl⟩
    have he : (f.finished g c i).progress.executing = f.progress.executing.erase i := by
      simp [finished, ht, hexec]
    have hd : (f.finished g c i).progress.done.length = f.progress.done.length + 1 := by
      simp [finished, ht, hexec]
    have hst : (f.finished g c i).stage = f.stage := by simp [finished, ht, hexec]
    have hcard := Finset.card_le_card hsub
    have hlen := List.length_erase_of_mem hi
    have hpos := List.length_pos_of_mem hi
    unfold potential
    rw [he, hd, hst, hlen]
    omega
  | settle h hdone =>
    -- the outcome is taken, and the loop goes round once more
    rename_i pre post i outcome
    have hpool := Progress.pool_settle g c opts { f.progress with done := pre ++ post } i outcome
      f.world
    have he : (f.settled g c opts (pre ++ post) i outcome).progress.executing =
        f.progress.executing := by
      rw [settled_progress]; exact congrArg Prod.fst hpool
    have hd : (f.settled g c opts (pre ++ post) i outcome).progress.done = pre ++ post := by
      rw [settled_progress]; exact congrArg Prod.snd hpool
    have hst : (f.settled g c opts (pre ++ post) i outcome).stage = .top := rfl
    have hcard := Finset.card_le_card hsub
    unfold potential
    rw [he, hd, hst, hdone, h]
    simp only [List.length_append, List.length_cons, Stage.cost]
    omega
  | stop h hdone hidle =>
    exact potential_lt_of_pool hsub (by simp [stopped]) (by simp [stopped, h, Stage.cost])

omit ha in
/-- `advance` has a move at every stage but the last. -/
theorem stage_of_advance_eq_none {cancelled : Bool} {k : Clock} {f : Flight σ}
    (h : f.advance g c opts cancelled k = none) : f.stage = .over := by
  unfold advance at h
  split at h
  · cases h
  · split at h
    · split at h <;> cases h
    · cases h
  · split at h
    · split at h <;> cases h
    · cases h
  · assumption

/-- Driven with more fuel than its potential, a sound flight leaves the loop. -/
theorem drive_over (cancelled : Bool) :
    ∀ (fuel : Nat) (k : Clock) (f : Flight σ), f.Sound g opts → f.potential g < fuel →
      (f.drive g c opts cancelled fuel k).stage = .over
  | 0, _, _, _, hlt => absurd hlt (Nat.not_lt_zero _)
  | fuel + 1, k, f, hs, hlt => by
    unfold drive
    split
    · exact stage_of_advance_eq_none ‹_›
    · rename_i m k' f' hadv
      have hstep := advance_step hadv
      have hdown := Step.potential_lt ha hs hstep
      exact drive_over cancelled fuel k' f' (hs.step ha hstep) (by omega)

omit ha in
/-- Every move keeps the result reporting the tasks that came to an end. -/
theorem Step.reported {f f' : Flight σ} {m : Move} (h : Step g c opts f m f')
    (hf : f.progress.Reported g) : f'.progress.Reported g := by
  cases h with
  | observe cancelled h =>
    have hp : (if !f.progress.halted && cancelled then f.progress.halt else f.progress).Reported g := by
      split
      · exact Progress.reported_halt hf
      · exact hf
    unfold observed
    dsimp only
    generalize (if (!f.progress.halted && cancelled) = true then f.progress.halt else f.progress) = q
      at hp ⊢
    split
    · exact Progress.reported_skipReady hp
    · exact hp
  | start h hready hfree =>
    simp only [started, hready]
    split
    · exact hf.of_status_eq rfl fun _ => List.Subset.refl _
    · exact hf.set rfl (fun _ => List.Subset.refl _) fun h => by simp [TaskStatus.final] at h
  | close h hend => exact hf
  | finish h hi =>
    simp only [finished]
    split
    · exact hf.of_status_eq rfl fun _ => List.Subset.refl _
    · exact hf.of_status_eq rfl fun _ => List.Subset.refl _
  | settle h hdone =>
    rename_i pre post i outcome
    have hq : ({ f.progress with done := pre ++ post } : Progress).Reported g :=
      hf.of_status_eq rfl fun _ => List.Subset.refl _
    rw [settled_progress]
    exact Progress.reported_settle c opts hq _ _ _
  | stop h hdone hidle => exact Progress.reported_finish hf

omit ha in
/-- Every move keeps the tasks at an end once the loop is left: only the close leaves it, and it
ends every task. -/
theorem Step.closed {f f' : Flight σ} {m : Move} (hs : f.Sound g opts)
    (h : Step g c opts f m f') : f'.Closed g := by
  intro hover i hi
  cases h with
  | observe cancelled h =>
    unfold observed at hover
    dsimp only at hover
    split at hover <;> split at hover <;> cases hover
  | start h hready hfree =>
    have hst : (f.started g).stage = f.stage := by
      simp only [started]
      split
      · rfl
      · split <;> rfl
    rw [hst, h] at hover
    cases hover
  | close h hend => cases hover
  | finish h hi' =>
    rename_i k
    have hst : (f.finished g c k).stage = f.stage := by
      simp only [finished]
      split <;> rfl
    exact absurd (hst ▸ hover) h
  | settle h hdone => cases hover
  | stop h hdone hidle => exact Progress.final_finish f.progress hs.progress.status_size hi

/-- Along a run from a sound flight, the result keeps reporting the tasks that came to an end,
and once the loop is left every task has. -/
theorem Flies.closed {f f' : Flight σ} {ms : List Move} (h : Flies g c opts f ms f')
    (hs : f.Sound g opts) (hr : f.progress.Reported g) (hc : f.Closed g) :
    f'.progress.Reported g ∧ f'.Closed g := by
  induction h with
  | refl => exact ⟨hr, hc⟩
  | tail hflies hstep ih => exact ⟨Step.reported hstep ih.1, Step.closed (Flies.sound ha hflies hs) hstep⟩

end Graph

theorem reported_launch (w : σ) : (launch g w).progress.Reported g := by
  intro j hj
  rw [Progress.statusOf_launch] at hj
  split at hj <;> cases hj

end Flight

/-- A run that succeeds, with no failure, no skip and no halt, has run every task of its graph
to success: whatever order its workers finish in, the run leaves its loop, every task has come
to an end, and the result lists each under its status. -/
theorem runGraph_succeeded_all {δ σ : Type} {g : TaskGraph δ} {c : Collaborators δ σ}
    (ha : TaskGraph.Adjacency g.size g.prerequisites g.dependents) (opts : RunOptions)
    (cancelled : Bool) (w : σ) (hsucc : (runGraph opts g c cancelled w).1.isSuccess = true) :
    ∀ t ∈ g.tasks, t.id ∈ (runGraph opts g c cancelled w).1.succeeded := by
  set f := Flight.drive g c opts cancelled (6 * (g.size + 1)) {} (Flight.launch g w) with hf
  have hres : (runGraph opts g c cancelled w).1 = f.progress.result := rfl
  obtain ⟨ms, hms⟩ := @Flight.flies_drive δ σ g c opts cancelled (6 * (g.size + 1))
    {} (Flight.launch g w)
  have hs₀ : (Flight.launch g w).Sound g opts := Flight.sound_launch ha w
  have hover : f.stage = .over :=
    Flight.drive_over ha cancelled _ _ _ hs₀ (Flight.potential_launch_lt w)
  obtain ⟨hrep, hclosed⟩ := Flight.Flies.closed ha hms hs₀ (Flight.reported_launch w)
    fun h => by cases h
  -- a successful result lists no failure and no skip
  have hnone : f.progress.result.failed = [] ∧ f.progress.result.skipped = [] := by
    rw [hres] at hsucc
    simp only [RunResult.isSuccess, Bool.and_eq_true, List.isEmpty_iff] at hsucc
    exact ⟨hsucc.1.1, hsucc.1.2⟩
  intro t ht
  obtain ⟨i, hi, rfl⟩ := Array.mem_iff_getElem.1 ht
  have hid : Progress.idOf g i = g.tasks[i].id := Progress.idOf_of_getElem? g (by simp)
  have hfin := hclosed hover i hi
  have hlisted := hrep i hfin
  rw [hres, ← hid]
  cases hst : f.progress.statusOf i <;> rw [hst] at hfin hlisted
  all_goals simp_all [TaskStatus.final, RunResult.listed]

end OrgDeploy
