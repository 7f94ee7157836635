import Mathlib
import OrgDeploy.Proofs.Run.Sound

/-!
# Dependency safety of runs

Over every run of a built graph, whatever the collaborators do, in whatever order the workers
finish and their outcomes are taken, and whenever the cancellation shows:

* a task is started only once each of its dependencies has succeeded and that success has been
  reported to `completed` (the move that takes a successful outcome);
* no task is started twice;
* successes are reported once each, they are exactly the successes of the result, in order, and
  none of those tasks failed or was skipped;
* hence no task with a dependency, direct or not, that failed or was skipped is ever started.

The main statement is `run_respects_dependencies`. Its proof follows the statuses: apart from
the task a move starts or whose outcome it takes, a move only makes pending tasks ready and
skips tasks that have not started (`Progress.Unstarted`).
-/

namespace OrgDeploy

/-- Whether a task in this status has been started. -/
def TaskStatus.started : TaskStatus → Bool
  | .running | .succeeded | .failed => true
  | _ => false

namespace Move

/-- The task a move starts. -/
def started? : Move → Option Nat
  | .start i => some i
  | _ => none

/-- The task whose success a move reports. -/
def succeeded? : Move → Option Nat
  | .settle i (.ok _) => some i
  | _ => none

/-- The task a move starts or whose outcome it takes. -/
def task? : Move → Option Nat
  | .start i => some i
  | .settle i _ => some i
  | _ => none

@[simp] theorem started?_start (i : Nat) : (Move.start i).started? = some i := rfl
@[simp] theorem started?_settle (i : Nat) (o : Except TaskError Outcome) :
    (Move.settle i o).started? = none := rfl
@[simp] theorem succeeded?_start (i : Nat) : (Move.start i).succeeded? = none := rfl
@[simp] theorem succeeded?_settle_ok (i : Nat) (o : Outcome) :
    (Move.settle i (.ok o)).succeeded? = some i := rfl
@[simp] theorem succeeded?_settle_error (i : Nat) (e : TaskError) :
    (Move.settle i (.error e)).succeeded? = none := rfl
@[simp] theorem task?_start (i : Nat) : (Move.start i).task? = some i := rfl

/-- What a view reads off a run grown by one move. -/
theorem filterMap_snoc {β : Type} (F : Move → Option β) (ms : List Move) (m : Move) :
    (ms ++ [m]).filterMap F = ms.filterMap F ++ (F m).toList := by
  rw [List.filterMap_append]
  cases h : F m <;> simp [h]
@[simp] theorem task?_settle (i : Nat) (o : Except TaskError Outcome) :
    (Move.settle i o).task? = some i := rfl

end Move

/-- The status an outcome gives its task. -/
def TaskStatus.ofOutcome : Except TaskError Outcome → TaskStatus
  | .ok _ => .succeeded
  | .error _ => .failed

namespace Progress

variable {δ : Type} {g : TaskGraph δ}

/-! ## Changes to tasks that have not started -/

/-- Task `j` is where `p` left it, or it had not started and it is ready or skipped now. -/
def UnstartedAt (p q : Progress) (j : Nat) : Prop :=
  q.statusOf j = p.statusOf j ∨
    ((p.statusOf j = .pending ∨ p.statusOf j = .ready) ∧
      (q.statusOf j = .ready ∨ q.statusOf j = .skipped))

/-- From `p` to `q` only tasks that had not started change, and none of them starts. -/
def Unstarted (p q : Progress) : Prop := ∀ j, UnstartedAt p q j

theorem Unstarted.refl (p : Progress) : Unstarted p p := fun _ => .inl rfl

theorem Unstarted.of_status_eq {p q : Progress} (h : q.status = p.status) : Unstarted p q :=
  fun j => .inl (by simp [statusOf, h])

theorem Unstarted.trans {p q r : Progress} (h₁ : Unstarted p q) (h₂ : Unstarted q r) :
    Unstarted p r := by
  intro j
  rcases h₁ j with h₁ | ⟨hp, hq⟩ <;> rcases h₂ j with h₂ | ⟨hq', hr⟩
  · exact .inl (h₂.trans h₁)
  · exact .inr ⟨h₁ ▸ hq', hr⟩
  · exact .inr ⟨hp, h₂ ▸ hq⟩
  · exact .inr ⟨hp, hr⟩

/-- A change to a task that had not started leaves a started task as it was. -/
theorem UnstartedAt.eq_of_started {p q : Progress} {j : Nat} (h : UnstartedAt p q j)
    (hs : (p.statusOf j).started = true) : q.statusOf j = p.statusOf j := by
  rcases h with h | ⟨hp | hp, -⟩
  · exact h
  · simp [hp, TaskStatus.started] at hs
  · simp [hp, TaskStatus.started] at hs

/-- A change to a task that had not started does not start it. -/
theorem UnstartedAt.started_iff {p q : Progress} {j : Nat} (h : UnstartedAt p q j) :
    (q.statusOf j).started = (p.statusOf j).started := by
  rcases h with h | ⟨hp | hp, hq | hq⟩ <;> simp_all [TaskStatus.started]

theorem UnstartedAt.succeeded_iff {p q : Progress} {j : Nat} (h : UnstartedAt p q j) :
    q.statusOf j = .succeeded ↔ p.statusOf j = .succeeded := by
  rcases h with h | ⟨hp | hp, hq | hq⟩ <;> simp_all

/-! ## What the coordinator's operations change -/

variable (g)

theorem unstarted_skip (p : Progress) {i : Nat}
    (hp : p.statusOf i = .pending ∨ p.statusOf i = .ready) (r : SkipReason) :
    Unstarted p (p.skip g i r) := by
  intro j
  rw [UnstartedAt, statusOf_skip]
  by_cases h : i = j ∧ i < p.status.size
  · obtain ⟨rfl, hlt⟩ := h
    exact .inr ⟨hp, by simp [hlt]⟩
  · exact .inl (by simp [h])

theorem unstarted_skipReady (p : Progress) (hr : ∀ j ∈ p.ready, p.statusOf j = .ready) :
    Unstarted p (p.skipReady g) := by
  intro j
  rw [UnstartedAt, statusOf_skipReady]
  by_cases h : j ∈ p.ready ∧ j < p.status.size
  · exact .inr ⟨.inr (hr j h.1), by simp [h]⟩
  · exact .inl (by simp [h])

theorem unstarted_skipDependents (p : Progress) (ha : TaskGraph.Adjacency g.size g.prerequisites
    g.dependents) (i : Nat) : Unstarted p (p.skipDependents g i) :=
  skipFrom_preserves g (Unstarted p) _ (dependentsOf_lt ha)
    (fun _ _ hq hj _ => hq.trans (unstarted_skip g _ (.inl hj) _)) _ _ p
    (fun d hd => dependentsOf_lt ha i d (List.mem_reverse.mp hd)) (Unstarted.refl p)

variable {g}

/-- Releasing dependents only makes pending tasks ready. -/
theorem Released.unstarted {p q : Progress} {L : List Nat} (h : Released p L q) : Unstarted p q := by
  intro j
  rw [UnstartedAt, h.statusOf_eq]
  by_cases hf : p.Frees L j
  · exact .inr ⟨.inl hf.1, by simp [hf]⟩
  · exact .inl (by simp [hf])

variable (g)

/-- With no task running, closing a run only skips tasks that had not started. -/
theorem unstarted_finish (p : Progress) (hu : ∀ j, p.statusOf j ≠ .running) :
    Unstarted p (p.finish g) := by
  have key : ∀ (l : List Nat) (q : Progress), Unstarted p q → (∀ j, q.statusOf j ≠ .running) →
      Unstarted p (l.foldl (abandon g) q) := by
    intro l
    induction l with
    | nil => exact fun q h _ => h
    | cons i l ih =>
      intro q hq hqu
      rw [List.foldl_cons]
      by_cases hp : q.statusOf i = .pending ∨ q.statusOf i = .ready
      · have hab : q.abandon g i = q.skip g i .halted := by
          rcases hp with hp | hp <;> simp [abandon, hp]
        have hskip := unstarted_skip g q hp .halted
        rw [hab]
        refine ih _ (hq.trans hskip) fun j hj => ?_
        rcases hskip j with h | ⟨-, h | h⟩ <;> simp_all
      · rw [abandon_of_finished g q i (fun h => hp (.inl h)) (fun h => hp (.inr h)) (hqu i)]
        exact ih q hq hqu
  exact (key _ p (Unstarted.refl p) hu).trans (Unstarted.of_status_eq rfl)

/-- Skipping dependents leaves the successes of the result alone. -/
theorem result_succeeded_skipDependents (p : Progress) (i : Nat) :
    (p.skipDependents g i).result.succeeded = p.result.succeeded :=
  result_succeeded_skipFrom g _ _ _ p

/-- Closing a run leaves the successes of the result alone. -/
theorem result_succeeded_finish (p : Progress) :
    (p.finish g).result.succeeded = p.result.succeeded := by
  have key : ∀ (l : List Nat) (q : Progress),
      (l.foldl (abandon g) q).result.succeeded = q.result.succeeded := by
    intro l
    induction l with
    | nil => exact fun _ => rfl
    | cons i l ih =>
      intro q
      rw [List.foldl_cons, ih]
      unfold abandon
      split <;> simp
  exact key _ p

section Settle

variable {σ : Type} (ha : TaskGraph.Adjacency g.size g.prerequisites g.dependents)
  {p : Progress} (hsize : p.status.size = g.size) (hw : p.waiting.size = g.size)
  {i : Nat} {t : DeployTask δ} (ht : g.tasks[i]? = some t)
  (c : Collaborators δ σ) (opts : RunOptions) (outcome : Except TaskError Outcome) (w : σ)
include ha hsize hw ht

/-- Taking an outcome sets its task's status, then changes only tasks that had not started. -/
theorem unstarted_settle :
    Unstarted { p with status := p.status.set! i (TaskStatus.ofOutcome outcome) }
      (settle g c opts p i outcome w).1 := by
  unfold settle
  rw [ht]
  cases outcome with
  | ok o =>
    dsimp only
    refine Unstarted.trans ?_ (Released.unstarted (foldl_release _ _ ?_))
    · exact Unstarted.of_status_eq rfl
    · intro d hd
      have := dependentsOf_lt ha i d hd
      simp [markSucceeded, emit, hsize, hw, this]
  | error e =>
    dsimp only
    have hfail := (Unstarted.of_status_eq (p := { p with status := p.status.set! i .failed })
      (q := p.markFailed i t.id e) rfl).trans (unstarted_skipDependents g _ ha i)
    split
    · exact hfail.trans (Unstarted.of_status_eq rfl)
    · exact hfail

/-- Taking an outcome adds its task to the successes of the result if it succeeded. -/
theorem result_succeeded_settle :
    (settle g c opts p i outcome w).1.result.succeeded =
      p.result.succeeded ++ ((Move.settle i outcome).succeeded?.map (idOf g)).toList := by
  unfold settle
  rw [ht]
  cases outcome with
  | ok o =>
    dsimp only
    have hR := foldl_release (g.dependentsOf i) (p.markSucceeded i t.id) fun d hd => by
      have := dependentsOf_lt ha i d hd
      simp [markSucceeded, emit, hsize, hw, this]
    rw [hR.frame]
    simp [markSucceeded, emit, Move.succeeded?, ht]
  | error e =>
    dsimp only
    split <;> simp [halt, emit, result_succeeded_skipDependents g, markFailed, Move.succeeded?]

end Settle

end Progress


namespace Flight

variable {δ σ : Type} {g : TaskGraph δ} {c : Collaborators δ σ} {opts : RunOptions}

theorem settled_progress (f : Flight σ) (rest : List (Nat × Except TaskError Outcome)) (i : Nat)
    (outcome : Except TaskError Outcome) :
    (f.settled g c opts rest i outcome).progress =
      (Progress.settle g c opts { f.progress with done := rest } i outcome f.world).1 := rfl

/-- The task a move starts was ready and is running. -/
theorem Step.statusOf_started {f f' : Flight σ} {i : Nat} (hs : f.Sound g opts)
    (h : Step g c opts f (.start i) f') :
    f.progress.statusOf i = .ready ∧ f'.progress.statusOf i = .running := by
  cases h with
  | start h hready hfree =>
    have hi : f.progress.statusOf i = .ready := (hs.progress.mem_ready i).1 (by simp [hready])
    have hlt : i < g.tasks.size := hs.progress.lt_of_ne_pending (by simp [hi])
    obtain ⟨t, ht⟩ : ∃ t, g.tasks[i]? = some t := ⟨g.tasks[i], by simp [hlt]⟩
    refine ⟨hi, ?_⟩
    simp only [started, hready, ht]
    have hlt' : i < f.progress.status.size := by
      rw [hs.progress.status_size]; exact hlt
    simp [Progress.statusOf, Progress.emit, hlt']

section Graph

variable (ha : TaskGraph.Adjacency g.size g.prerequisites g.dependents)
include ha

/-- Apart from the task a move starts or whose outcome it takes, a move changes only tasks that
had not started. -/
theorem Step.unstartedAt {f f' : Flight σ} {m : Move} (hs : f.Sound g opts)
    (h : Step g c opts f m f') {j : Nat} (hj : m.task? ≠ some j) :
    f.progress.UnstartedAt f'.progress j := by
  cases h with
  | observe cancelled h =>
    have hp : (if !f.progress.halted && cancelled then f.progress.halt else f.progress).Sound g ∧
        Progress.Unstarted f.progress
          (if !f.progress.halted && cancelled then f.progress.halt else f.progress) := by
      split
      · exact ⟨hs.progress.halt, Progress.Unstarted.of_status_eq rfl⟩
      · exact ⟨hs.progress, Progress.Unstarted.refl _⟩
    unfold observed
    dsimp only
    generalize (if (!f.progress.halted && cancelled) = true then f.progress.halt else f.progress) = q
      at hp ⊢
    split
    · exact (hp.2.trans (Progress.unstarted_skipReady g q fun k hk =>
        (hp.1.mem_ready k).1 hk)) j
    · exact hp.2 j
  | start h hready hfree =>
    rename_i i rest
    have hji : j ≠ i := fun e => hj (by simp [Move.task?, e])
    have hi : f.progress.statusOf i = .ready := (hs.progress.mem_ready i).1 (by simp [hready])
    obtain ⟨t, ht⟩ : ∃ t, g.tasks[i]? = some t := hs.progress.exists_task (by simp [hi])
    simp only [started, hready, ht]
    exact .inl (by simp [Progress.statusOf, Progress.emit, Ne.symm hji])
  | close h hend => exact .inl rfl
  | finish h hi =>
    rename_i i
    simp only [finished]
    split
    · exact .inl rfl
    · exact .inl rfl
  | settle h hdone =>
    rename_i pre post i outcome
    have hji : j ≠ i := fun e => hj (by simp [Move.task?, e])
    have hi : f.progress.statusOf i = .running := hs.progress.running_of_done hdone
    obtain ⟨t, ht⟩ : ∃ t, g.tasks[i]? = some t := hs.progress.exists_task (by simp [hi])
    have hu := Progress.unstarted_settle g ha (p := { f.progress with done := pre ++ post })
      hs.progress.status_size hs.progress.waiting_size ht c opts outcome f.world j
    rw [settled_progress]
    unfold Progress.UnstartedAt at hu ⊢
    have hmid : ({ f.progress with
        done := pre ++ post, status := f.progress.status.set! i (TaskStatus.ofOutcome outcome) } :
          Progress).statusOf j = f.progress.statusOf j := by
      simp [Progress.statusOf, Ne.symm hji]
    rwa [hmid] at hu
  | stop h hdone hidle =>
    have hu : ∀ k, f.progress.statusOf k ≠ .running := fun k hk => by
      have := (hs.progress.mem_workers k).2 hk
      simp [Progress.workers, hdone, hidle] at this
    exact Progress.unstarted_finish g f.progress hu j

/-- The task whose outcome a move takes was running, and has the status of its outcome. -/
theorem Step.statusOf_settled {f f' : Flight σ} {i : Nat} {outcome : Except TaskError Outcome}
    (hs : f.Sound g opts) (h : Step g c opts f (.settle i outcome) f') :
    f.progress.statusOf i = .running ∧ f'.progress.statusOf i = TaskStatus.ofOutcome outcome := by
  cases h with
  | settle h hdone =>
    rename_i pre post
    have hi : f.progress.statusOf i = .running := hs.progress.running_of_done hdone
    have hlt : i < g.tasks.size := hs.progress.lt_of_ne_pending (by simp [hi])
    obtain ⟨t, ht⟩ : ∃ t, g.tasks[i]? = some t := ⟨g.tasks[i], by simp [hlt]⟩
    have hu := Progress.unstarted_settle g ha (p := { f.progress with done := pre ++ post })
      hs.progress.status_size hs.progress.waiting_size ht c opts outcome f.world i
    have hlt' : i < f.progress.status.size := by
      rw [hs.progress.status_size]; exact hlt
    have hmid : ({ f.progress with
        done := pre ++ post, status := f.progress.status.set! i (TaskStatus.ofOutcome outcome) } :
          Progress).statusOf i = TaskStatus.ofOutcome outcome := by
      simp [Progress.statusOf, hlt']
    have hst : (TaskStatus.ofOutcome outcome).started = true := by cases outcome <;> rfl
    refine ⟨hi, ?_⟩
    rw [settled_progress, hu.eq_of_started (by simpa [Progress.statusOf, hlt'] using hst)]
    simpa [Progress.statusOf] using hmid

/-- A move adds to the successes of the result the task whose success it reports, if any. -/
theorem Step.result_succeeded {f f' : Flight σ} {m : Move} (hs : f.Sound g opts)
    (h : Step g c opts f m f') :
    f'.progress.result.succeeded =
      f.progress.result.succeeded ++ (m.succeeded?.map (Progress.idOf g)).toList := by
  cases h with
  | observe cancelled h =>
    unfold observed
    dsimp only
    split <;> split <;> simp [Progress.halt, Progress.emit, Move.succeeded?]
  | start h hready hfree =>
    simp only [started, hready]
    split <;> simp [Progress.emit, Move.succeeded?]
  | close h hend => simp [Move.succeeded?]
  | finish h hi =>
    simp only [finished]
    split
    · simp [Move.succeeded?]
    · split
      simp [Move.succeeded?]
  | settle h hdone =>
    rename_i pre post i outcome
    have hi : f.progress.statusOf i = .running := hs.progress.running_of_done hdone
    obtain ⟨t, ht⟩ : ∃ t, g.tasks[i]? = some t := hs.progress.exists_task (by simp [hi])
    rw [settled_progress, Progress.result_succeeded_settle g ha (p := { f.progress with
      done := pre ++ post }) hs.progress.status_size hs.progress.waiting_size ht]
  | stop h hdone hidle =>
    simp only [stopped]
    rw [Progress.result_succeeded_finish]
    simp [Move.succeeded?]

/-! ## What a run has done so far -/

variable (g) in
/-- What the moves of a run so far say of its flight: the tasks reported successful are the
succeeded ones and the result's successes, once each, and the tasks started are started, once
each. -/
structure Traced (ms : List Move) (f : Flight σ) : Prop where
  succeeded_iff : ∀ i, f.progress.statusOf i = .succeeded ↔ i ∈ ms.filterMap Move.succeeded?
  successes_nodup : (ms.filterMap Move.succeeded?).Nodup
  result_succeeded : f.progress.result.succeeded = (ms.filterMap Move.succeeded?).map (Progress.idOf g)
  started_iff : ∀ i, (f.progress.statusOf i).started = true ↔ i ∈ ms.filterMap Move.started?
  starts_nodup : (ms.filterMap Move.started?).Nodup

omit ha in
theorem traced_launch (w : σ) : Traced g [] (launch g w) where
  succeeded_iff i := by
    rw [Progress.statusOf_launch]
    split <;> simp
  successes_nodup := List.nodup_nil
  result_succeeded := rfl
  started_iff i := by
    rw [Progress.statusOf_launch]
    split <;> simp [TaskStatus.started]
  starts_nodup := List.nodup_nil

omit ha in
/-- A move that neither starts a task nor takes an outcome keeps the record of the run. -/
theorem Traced.of_untouched {f f' : Flight σ} {ms : List Move} {m : Move} (ht : Traced g ms f)
    (hm : m.task? = none) (hother : ∀ j, m.task? ≠ some j → f.progress.UnstartedAt f'.progress j)
    (hres : f'.progress.result.succeeded =
      f.progress.result.succeeded ++ (m.succeeded?.map (Progress.idOf g)).toList) :
    Traced g (ms ++ [m]) f' := by
  have hs : m.succeeded? = none := by cases m <;> simp_all [Move.task?, Move.succeeded?]
  have hb : m.started? = none := by cases m <;> simp_all [Move.task?, Move.started?]
  have hu : ∀ j, f.progress.UnstartedAt f'.progress j := fun j => hother j (by simp [hm])
  refine ⟨fun j => ?_, ?_, ?_, fun j => ?_, ?_⟩
  · simpa [hs] using (hu j).succeeded_iff.trans (ht.succeeded_iff j)
  · simpa [hs] using ht.successes_nodup
  · simpa [hs, ht.result_succeeded] using hres
  · simpa [hb, (hu j).started_iff] using ht.started_iff j
  · simpa [hb] using ht.starts_nodup

/-- Every move keeps the record of what the run has done. -/
theorem Traced.step {f f' : Flight σ} {ms : List Move} {m : Move} (hs : f.Sound g opts)
    (ht : Traced g ms f) (h : Step g c opts f m f') : Traced g (ms ++ [m]) f' := by
  have hother := fun j => Step.unstartedAt ha hs h (j := j)
  have hres := Step.result_succeeded ha hs h
  -- a task not named by the move keeps whether it succeeded and whether it started
  have hsucc : ∀ j, m.task? ≠ some j →
      (f'.progress.statusOf j = .succeeded ↔ j ∈ ms.filterMap Move.succeeded?) :=
    fun j hj => ((hother j hj).succeeded_iff).trans (ht.succeeded_iff j)
  have hstart : ∀ j, m.task? ≠ some j →
      (f'.progress.statusOf j).started = (f.progress.statusOf j).started :=
    fun j hj => (hother j hj).started_iff
  cases m with
  | start i =>
    obtain ⟨hi, hi'⟩ := Step.statusOf_started hs h
    have hni : i ∉ ms.filterMap Move.started? := fun hm => by
      simpa [hi, TaskStatus.started] using (ht.started_iff i).2 hm
    have hns : i ∉ ms.filterMap Move.succeeded? := fun hm => by
      simpa [hi] using (ht.succeeded_iff i).2 hm
    have hS : (ms ++ [Move.start i]).filterMap Move.succeeded? = ms.filterMap Move.succeeded? := by
      simp
    have hB : (ms ++ [Move.start i]).filterMap Move.started? = ms.filterMap Move.started? ++ [i] := by
      simp
    refine ⟨fun j => ?_, hS ▸ ht.successes_nodup, ?_, fun j => ?_, ?_⟩
    · rw [hS]
      by_cases hj : j = i
      · subst hj; simp [hi', hns]
      · exact hsucc j (by simp [Ne.symm hj])
    · simpa [hS, ht.result_succeeded] using hres
    · rw [hB, List.mem_append]
      by_cases hji : j = i
      · subst hji; simp [hi', TaskStatus.started]
      · rw [hstart j (by simp [Ne.symm hji]), ht.started_iff j]
        simp [hji]
    · rw [hB]
      exact List.nodup_append.mpr ⟨ht.starts_nodup, by simp,
        fun a ha b hb => by
          obtain rfl : b = i := by simpa using hb
          exact fun e => hni (e ▸ ha)⟩
  | settle i outcome =>
    obtain ⟨hi, hi'⟩ := Step.statusOf_settled ha hs h
    have hns : i ∉ ms.filterMap Move.succeeded? := fun hm => by
      simpa [hi] using (ht.succeeded_iff i).2 hm
    have hB : (ms ++ [Move.settle i outcome]).filterMap Move.started? =
        ms.filterMap Move.started? := by simp
    refine ⟨fun j => ?_, ?_, ?_, fun j => ?_, hB ▸ ht.starts_nodup⟩
    · rw [Move.filterMap_snoc]
      by_cases hj : j = i
      · subst hj
        cases outcome <;> simp [hi', hns, TaskStatus.ofOutcome]
      · have := hsucc j (by simp [Ne.symm hj])
        cases outcome <;> simpa [hj] using this
    · rw [Move.filterMap_snoc]
      refine List.nodup_append.mpr ⟨ht.successes_nodup, ?_, fun a ha b hb => ?_⟩
      · cases outcome <;> simp
      · cases outcome <;> simp at hb
        subst hb
        exact fun e => hns (e ▸ ha)
    · rw [hres, ht.result_succeeded, Move.filterMap_snoc]
      cases outcome <;> simp
    · rw [hB]
      by_cases hji : j = i
      · -- a task whose outcome is taken was running, so it had been started
        subst hji
        have hrun : (f.progress.statusOf j).started = true := by simp [hi, TaskStatus.started]
        rw [hi', ← ht.started_iff j, hrun]
        cases outcome <;> rfl
      · rw [hstart j (by simp [Ne.symm hji])]
        exact ht.started_iff j
  | observe cancelled => exact ht.of_untouched rfl hother hres
  | close => exact ht.of_untouched rfl hother hres
  | finish i => exact ht.of_untouched rfl hother hres
  | stop => exact ht.of_untouched rfl hother hres

/-- Every flight a run reaches from the start is sound, and its moves say what it has done. -/
theorem Flies.traced {w : σ} {ms : List Move} {f : Flight σ}
    (h : Flies g c opts (launch g w) ms f) : Traced g ms f ∧ f.Sound g opts :=
  ⟨Flies.invariant ha (P := Traced g) (traced_launch w)
      (fun _ _ _ _ hs hstep ht => ht.step ha hs hstep) h,
    Flies.sound ha h (sound_launch ha w)⟩

omit ha in
/-- A task that got past pending and was not skipped had all its dependencies succeed, and so
did their dependencies, all the way down. -/
theorem Sound.succeeded_of_transGen {tasks : List (DeployTask δ)} (hb : TaskGraph.Built g tasks)
    {f : Flight σ} (hs : f.Sound g opts) {i : Nat} (hp : f.progress.statusOf i ≠ .pending)
    (hk : f.progress.statusOf i ≠ .skipped) {d : Nat} (h : Relation.TransGen g.DependsOn i d) :
    f.progress.statusOf d = .succeeded := by
  induction h with
  | single hdep =>
    exact hs.progress.prerequisites_succeeded i hp hk _ (hb.mem_prerequisitesOf hdep)
  | tail _ hdep ih =>
    exact hs.progress.prerequisites_succeeded _ (by simp [ih]) (by simp [ih]) _
      (hb.mem_prerequisitesOf hdep)

omit ha in
/-- A succeeded task is not among the failures or skips of the result. -/
theorem Sound.not_failed_of_succeeded {tasks : List (DeployTask δ)} (hb : TaskGraph.Built g tasks)
    {f : Flight σ} (hs : f.Sound g opts) {i : Nat} (h : f.progress.statusOf i = .succeeded) :
    Progress.idOf g i ∉ f.progress.result.failed.map Prod.fst ∧
      Progress.idOf g i ∉ f.progress.result.skipped.map Prod.fst := by
  -- two tasks of one id are one task
  have hsame : ∀ k, Progress.idOf g k = Progress.idOf g i → f.progress.statusOf k ≠ .pending →
      k = i := by
    intro k hk hkp
    have hilt : i < g.tasks.size := hs.progress.lt_of_ne_pending (by simp [h])
    have hklt : k < g.tasks.size := hs.progress.lt_of_ne_pending hkp
    have hti : g.tasks[i]? = some g.tasks[i] := by simp [hilt]
    have htk : g.tasks[k]? = some g.tasks[k] := by simp [hklt]
    refine hb.eq_of_id_eq htk hti ?_
    rwa [Progress.idOf_of_getElem? g htk, Progress.idOf_of_getElem? g hti] at hk
  constructor
  · intro hm
    obtain ⟨x, hx, hxi⟩ := List.mem_map.mp hm
    obtain ⟨k, hk, hkf⟩ := hs.progress.failed_named x hx
    have := hsame k (hk.trans hxi) (by simp [hkf])
    subst this
    simp [h] at hkf
  · intro hm
    obtain ⟨x, hx, hxi⟩ := List.mem_map.mp hm
    obtain ⟨k, hk, hks⟩ := hs.progress.skipped_named x hx
    have := hsame k (hk.trans hxi) (by simp [hks])
    subst this
    simp [h] at hks

end Graph

end Flight

variable {δ σ : Type}

/-- Dependency safety of a run of graph `g` that has made the moves `ms` and reached `f`. -/
structure RespectsDependencies (g : TaskGraph δ) (c : Collaborators δ σ) (opts : RunOptions)
    (ms : List Move) (f : Flight σ) : Prop where
  /-- A move that starts or carries out a task comes after each of its dependencies succeeded and
  its success was reported. -/
  dependencies_first : ∀ m i t f', (m = .start i ∨ m = .finish i) → g.tasks[i]? = some t →
    Step g c opts f m f' → ∀ dep ∈ t.dependsOn, ∃ d, Progress.idOf g d = dep ∧
      f.progress.statusOf d = .succeeded ∧ d ∈ ms.filterMap Move.succeeded?
  /-- No task starts twice. -/
  starts_nodup : (ms.filterMap Move.started?).Nodup
  /-- Each success is reported once. -/
  successes_nodup : (ms.filterMap Move.succeeded?).Nodup
  /-- The reported tasks are the result's successes, in order. -/
  result_succeeded : f.progress.result.succeeded = (ms.filterMap Move.succeeded?).map (Progress.idOf g)
  /-- No reported task failed or was skipped. -/
  successes_not_failed : ∀ i ∈ ms.filterMap Move.succeeded?,
    Progress.idOf g i ∉ f.progress.result.failed.map Prod.fst ∧
      Progress.idOf g i ∉ f.progress.result.skipped.map Prod.fst
  /-- Every dependency, direct or not, of a started task has succeeded. -/
  transitive_succeeded : ∀ i ∈ ms.filterMap Move.started?, ∀ d,
    Relation.TransGen g.DependsOn i d → f.progress.statusOf d = .succeeded

/-- Dependency safety: every run of a built graph, whatever the collaborators do, in whatever
order workers finish and outcomes are taken, respects the dependencies of its tasks. -/
theorem run_respects_dependencies {tasks : List (DeployTask δ)} {g : TaskGraph δ}
    (hg : TaskGraph.build tasks = .ok g) (c : Collaborators δ σ) (opts : RunOptions) (w : σ)
    {ms : List Move} {f : Flight σ} (hrun : Flies g c opts (Flight.launch g w) ms f) :
    RespectsDependencies g c opts ms f := by
  have hb := TaskGraph.build_built hg
  have ha := hb.adjacency_size
  obtain ⟨ht, hs⟩ := Flight.Flies.traced ha hrun
  -- a started task is neither pending nor skipped
  have hlive : ∀ i, (f.progress.statusOf i).started = true →
      f.progress.statusOf i ≠ .pending ∧ f.progress.statusOf i ≠ .skipped := by
    intro i hi
    constructor <;> intro h <;> simp [h, TaskStatus.started] at hi
  refine ⟨fun m i t f' hm ht' hstep dep hdep => ?_, ht.starts_nodup, ht.successes_nodup,
    ht.result_succeeded, fun i hi => ?_, fun i hi d hd => ?_⟩
  · -- the task is ready or running, so its dependencies succeeded
    have hnp : f.progress.statusOf i ≠ .pending ∧ f.progress.statusOf i ≠ .skipped := by
      rcases hm with rfl | rfl
      · have := (Flight.Step.statusOf_started hs hstep).1
        simp [this]
      · cases hstep with
        | finish _ hexec =>
          have := (hs.progress.mem_workers i).1 (by simp [Progress.workers, hexec])
          simp [this]
    obtain ⟨d, u, hu, hid, hpre⟩ := hb.exists_prerequisite ht' hdep
    have hsucc := hs.progress.prerequisites_succeeded i hnp.1 hnp.2 d hpre
    exact ⟨d, by rw [Progress.idOf_of_getElem? g hu, hid], hsucc, (ht.succeeded_iff d).1 hsucc⟩
  · exact hs.not_failed_of_succeeded hb ((ht.succeeded_iff i).2 hi)
  · obtain ⟨hp, hk⟩ := hlive i ((ht.started_iff i).2 hi)
    exact hs.succeeded_of_transGen hb hp hk hd

/-- Two tasks, the second depending on the first, run to the end by the executable schedule:
the run respects the dependency. -/
theorem chain_run_respects_dependencies :
    let tasks : List (DeployTask Unit) :=
      [{ id := ⟨"a", "1", "eu"⟩, target := ⟨"1", "eu", "A"⟩, kind := .delete, deployable := () },
       { id := ⟨"b", "1", "eu"⟩, target := ⟨"1", "eu", "A"⟩, kind := .delete,
         dependsOn := [⟨"a", "1", "eu"⟩], deployable := () }]
    ∃ (g : TaskGraph Unit) (c : Collaborators Unit Unit) (ms : List Move) (f : Flight Unit),
      TaskGraph.build tasks = .ok g ∧ Flies g c {} (Flight.launch g ()) ms f ∧
      f.stage = .over ∧ f.progress.result.succeeded.length = 2 ∧
      RespectsDependencies g c {} ms f := by
  intro tasks
  let g : TaskGraph Unit := ⟨tasks.toArray, #[[], [0]], #[[1], []]⟩
  let c : Collaborators Unit Unit :=
    { resolve := fun _ => throw (.lateResolution "none"), completed := fun _ _ w => w,
      contentHash := fun _ _ => pure "", apply := fun _ _ _ => pure [], delete := fun _ _ => pure () }
  have hg : TaskGraph.build tasks = .ok g := by cbv
  obtain ⟨ms, hms⟩ := @Flight.flies_drive Unit Unit g c {} false 18 {} (Flight.launch g ())
  refine ⟨g, c, ms, _, hg, hms, by decide +kernel, by decide +kernel,
    run_respects_dependencies hg c {} () hms⟩

end OrgDeploy
