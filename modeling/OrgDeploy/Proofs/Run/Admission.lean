import Mathlib
import OrgDeploy.Proofs.Run.Outcome

/-!
# Admission control

A run never has more workers executing than it has permits: a task starts only while a permit
is free, and its worker holds the permit until it finishes. Once the run is halted, by a
cancellation the coordinator sees or by failures beyond the tolerance, no task starts; the
workers already running finish, and their outcomes are taken and listed. The run is halted
exactly when one of those two things happened, and says so with one `runHalted` event. While the
coordinator waits for a worker, nothing is ready or every permit is held, so a ready task never
waits for unrelated work.

`run_admission_control` states all of it along every run (`Admission`).
-/

namespace OrgDeploy

/-- Whether an event reports the halt of a run. -/
def RunEvent.isHalt : RunEvent → Bool
  | .runHalted _ => true
  | _ => false

namespace Move

/-- What a move does to the flags, read off the moves so far: failures are counted one for each
failure taken, and the run is halted once a cancellation was seen or failures exceed the
tolerance. -/
theorem flagsAfter_snoc (opts : RunOptions) (ms : List Move) (m : Move) {fl : Bool × Nat}
    (hn : fl.2 = (ms.filterMap failed?).length)
    (hh : fl.1 = true ↔ observe true ∈ ms ∨ opts.failureTolerance < fl.2) :
    (m.flagsAfter opts fl).2 = ((ms ++ [m]).filterMap failed?).length ∧
      ((m.flagsAfter opts fl).1 = true ↔
        observe true ∈ ms ++ [m] ∨ opts.failureTolerance < (m.flagsAfter opts fl).2) := by
  rw [filterMap_snoc, List.length_append, ← hn]
  obtain ⟨halted, n⟩ := fl
  simp only at hn hh ⊢
  cases m with
  | observe b =>
    cases b <;> simp [flagsAfter, failed?, hh]
  | settle i o =>
    cases o with
    | ok o => simp [flagsAfter, failed?, hh]
    | error e =>
      -- a failure beyond the tolerance halts, and one within it did not
      have hle := @Nat.le_of_lt opts.failureTolerance n
      simp only [flagsAfter, failed?, Option.toList_some, List.length_singleton, Bool.or_eq_true,
        decide_eq_true_eq, List.mem_append, List.mem_singleton, reduceCtorEq, or_false, hh,
        Nat.lt_succ_iff, true_and]
      tauto
  | start i => simp [flagsAfter, failed?, hh]
  | close => simp [flagsAfter, failed?, hh]
  | finish i => simp [flagsAfter, failed?, hh]
  | stop => simp [flagsAfter, failed?, hh]

end Move

namespace Progress

variable {δ : Type} (g : TaskGraph δ)

/-! ## The halt is reported once -/

/-- A halted run has reported its halt once, and a run not halted never. -/
def HaltReported (p : Progress) : Prop :=
  p.events.countP RunEvent.isHalt = if p.halted then 1 else 0

@[simp] theorem countP_isHalt_skip (p : Progress) (i : Nat) (r : SkipReason) :
    (p.skip g i r).events.countP RunEvent.isHalt = p.events.countP RunEvent.isHalt := by
  simp [RunEvent.isHalt]

theorem countP_isHalt_skipDependents (p : Progress) (i : Nat) :
    (p.skipDependents g i).events.countP RunEvent.isHalt = p.events.countP RunEvent.isHalt :=
  skipFrom_keeps g (fun q => q.events.countP RunEvent.isHalt = p.events.countP RunEvent.isHalt) _
    (fun _ _ hq => by rw [countP_isHalt_skip, hq]) _ _ p rfl

theorem countP_isHalt_skipReady (p : Progress) :
    (p.skipReady g).events.countP RunEvent.isHalt = p.events.countP RunEvent.isHalt :=
  foldl_keeps (fun q : Progress => q.events.countP RunEvent.isHalt = p.events.countP RunEvent.isHalt)
    (fun _ _ hq => by rw [countP_isHalt_skip, hq]) _ _ rfl

theorem countP_isHalt_finish (p : Progress) :
    (p.finish g).events.countP RunEvent.isHalt = p.events.countP RunEvent.isHalt := by
  have hfold := foldl_keeps (F := abandon g) (fun q : Progress => q.events.countP RunEvent.isHalt =
      p.events.countP RunEvent.isHalt) (fun q j hq => by
    unfold abandon
    split
    · rw [countP_isHalt_skip, hq]
    · rw [countP_isHalt_skip, hq]
    · exact hq
    · exact hq) (List.range g.size) p rfl
  unfold finish
  simp [emit, hfold, RunEvent.isHalt]

variable {g}

/-- A change that keeps the halted flag and reports no halt keeps the report. -/
theorem HaltReported.of_quiet {p q : Progress} (hp : p.HaltReported)
    (hh : q.halted = p.halted)
    (hc : q.events.countP RunEvent.isHalt = p.events.countP RunEvent.isHalt) : q.HaltReported := by
  unfold HaltReported at hp ⊢
  rw [hc, hh, hp]

/-- Halting a run that was not halted reports the halt. -/
theorem HaltReported.halt {p : Progress} (hp : p.HaltReported) (hh : p.halted = false) :
    p.halt.HaltReported := by
  unfold HaltReported at hp ⊢
  rw [hh] at hp
  simp [hp, Progress.halt, Progress.emit, RunEvent.isHalt]

/-- Taking an outcome halts the run, and reports it, only for a failure beyond the tolerance in
a run not yet halted. -/
theorem HaltReported.settle {σ : Type} {p : Progress} (hp : p.HaltReported) (c : Collaborators δ σ)
    (opts : RunOptions) (i : Nat) (outcome : Except TaskError Outcome) (w : σ) :
    (settle g c opts p i outcome w).1.HaltReported := by
  unfold Progress.settle
  split
  · exact hp
  · rename_i t o _
    have hfold := foldl_keeps (fun q : Progress => q.halted = p.halted ∧
        q.events.countP RunEvent.isHalt = p.events.countP RunEvent.isHalt)
      (fun q d hq => ⟨(congrArg Prod.fst (flags_release q d)).trans hq.1,
        by rw [events_release]; exact hq.2⟩)
      (g.dependentsOf i) (p.markSucceeded i t.id)
      ⟨rfl, by simp [events_markSucceeded, RunEvent.isHalt]⟩
    exact hp.of_quiet hfold.1 hfold.2
  · rename_i t e _
    have hq : ((p.markFailed i t.id e).skipDependents g i).HaltReported :=
      hp.of_quiet ((congrArg Prod.fst (flags_skipDependents g _ i)).trans rfl)
        (by rw [countP_isHalt_skipDependents, events_markFailed]; simp [RunEvent.isHalt])
    dsimp only
    split
    · rename_i hc
      simp only [Bool.and_eq_true, Bool.not_eq_eq_eq_not, Bool.not_true] at hc
      exact hq.halt hc.1
    · exact hq

end Progress

namespace Flight

variable {δ σ : Type} {g : TaskGraph δ} {c : Collaborators δ σ} {opts : RunOptions}

/-! ## What each move does to admission -/

/-- A move starts a task only while a permit is free, and no other move adds a worker. -/
theorem Step.executing_le {f f' : Flight σ} {m : Move} (h : Step g c opts f m f')
    (hle : f.progress.executing.length ≤ opts.permits) :
    f'.progress.executing.length ≤ opts.permits := by
  cases h with
  | observe cancelled h =>
    have he : (f.observed g cancelled).progress.executing = f.progress.executing :=
      congrArg Prod.fst (observed_pool f cancelled)
    rwa [he]
  | start h hready hfree =>
    simp only [started, hready]
    split
    · exact hle
    · simp [Progress.emit]
      omega
  | close h hend => exact hle
  | finish h hi =>
    simp only [finished]
    split
    · exact List.length_erase_le.trans hle
    · split
      exact List.length_erase_le.trans hle
  | settle h hdone =>
    rename_i pre post i outcome
    have he : (Progress.settle g c opts { f.progress with done := pre ++ post } i outcome
        f.world).1.executing = f.progress.executing :=
      congrArg Prod.fst (Progress.pool_settle g c opts _ i outcome f.world)
    rwa [settled_progress, he]
  | stop h hdone hidle =>
    have he : (f.progress.finish g).executing = f.progress.executing :=
      congrArg Prod.fst (Progress.pool_finish g f.progress)
    rwa [stopped, he]

/-- The coordinator admits only while the run is not halted. -/
theorem Step.admitting_not_halted {f f' : Flight σ} {m : Move} (hs : f.Sound g opts)
    (h : Step g c opts f m f') (hadm : f.stage = .admitting → f.progress.halted = false) :
    f'.stage = .admitting → f'.progress.halted = false := by
  have hhalt : f'.progress.halted = (m.flagsAfter opts f.progress.flags).1 :=
    congrArg Prod.fst (Step.flags hs h)
  intro hst
  cases h with
  | observe cancelled h =>
    unfold observed at hst ⊢
    dsimp only at hst ⊢
    generalize (if (!f.progress.halted && cancelled) = true then f.progress.halt else f.progress) = q
      at hst ⊢
    split at hst
    · cases hst
    · rename_i hnot
      rw [if_neg hnot]
      simpa using hnot
  | start h hready hfree =>
    have hst' : (f.started g).stage = f.stage := by
      simp only [started, hready]
      split <;> rfl
    rw [hhalt]
    exact hadm (hst' ▸ hst)
  | close h hend => cases hst
  | finish h hi =>
    rename_i i
    have hst' : (f.finished g c i).stage = f.stage := by
      simp only [finished]
      split
      · rfl
      · split; rfl
    rw [hhalt]
    exact hadm (hst' ▸ hst)
  | settle h hdone => cases hst
  | stop h hdone hidle => cases hst

/-- Every move keeps the halt reported once. -/
theorem Step.haltReported {f f' : Flight σ} {m : Move} (h : Step g c opts f m f')
    (hr : f.progress.HaltReported) : f'.progress.HaltReported := by
  cases h with
  | observe cancelled h =>
    have hq : (if !f.progress.halted && cancelled then f.progress.halt else f.progress).HaltReported := by
      split
      · rename_i hc
        simp only [Bool.and_eq_true, Bool.not_eq_eq_eq_not, Bool.not_true] at hc
        exact hr.halt hc.1
      · exact hr
    unfold observed
    dsimp only
    generalize (if (!f.progress.halted && cancelled) = true then f.progress.halt else f.progress) = q
      at hq ⊢
    split
    · exact hq.of_quiet (congrArg Prod.fst (Progress.flags_skipReady g q))
        (Progress.countP_isHalt_skipReady g q)
    · exact hq
  | start h hready hfree =>
    simp only [started, hready]
    split
    · exact hr
    · exact hr.of_quiet rfl (by simp [Progress.emit, RunEvent.isHalt])
  | close h hend => exact hr
  | finish h hi =>
    simp only [finished]
    split
    · exact hr
    · split
      exact hr
  | settle h hdone =>
    rename_i pre post i outcome
    rw [settled_progress]
    exact Progress.HaltReported.settle (p := { f.progress with done := pre ++ post }) hr c opts i
      outcome f.world
  | stop h hdone hidle =>
    exact hr.of_quiet (congrArg Prod.fst (Progress.flags_finish g f.progress))
      (Progress.countP_isHalt_finish g f.progress)

end Flight

variable {δ σ : Type}

/-- Admission control along a run of graph `g` that has made the moves `ms` and reached `f`. -/
structure Admission (g : TaskGraph δ) (c : Collaborators δ σ) (opts : RunOptions) (ms : List Move)
    (f : Flight σ) : Prop where
  /-- No more tasks execute than there are permits. -/
  executing_le : f.progress.executing.length ≤ opts.permits
  /-- A halted run starts no task. -/
  start_not_halted : ∀ i f', Step g c opts f (.start i) f' → f.progress.halted = false
  /-- The failures counted are the failed outcomes taken. -/
  failures_eq : f.progress.failures = (ms.filterMap Move.failed?).length
  /-- The run is halted exactly when the coordinator saw a cancellation or the failures exceed the
  tolerance. -/
  halted_iff : f.progress.halted = true ↔
    Move.observe true ∈ ms ∨ opts.failureTolerance < f.progress.failures
  /-- A halted run has reported its halt once, and a run not halted never. -/
  halt_reported : f.progress.events.countP RunEvent.isHalt = if f.progress.halted then 1 else 0
  /-- While the coordinator waits for a worker, nothing is ready or every permit is held. -/
  waiting_saturated : f.stage = .joining → f.progress.done = [] →
    f.progress.ready = [] ∨ opts.permits ≤ f.progress.executing.length
  /-- Once the loop is left, every task that was started has finished and is listed as succeeded
  or failed. -/
  started_listed : f.stage = .over → ∀ i ∈ ms.filterMap Move.started?,
    Progress.idOf g i ∈ f.progress.result.succeeded ∨
      Progress.idOf g i ∈ f.progress.result.failed.map Prod.fst

/-- Admission control: along every run of a built graph, whatever the collaborators do, whenever
the cancellation shows and in whatever order workers finish, no more tasks execute than there are
permits, a halted run starts nothing, the run is halted exactly when a cancellation was seen or
failures exceeded the tolerance and says so once, a waiting coordinator has nothing ready or no
permit free, and every task started is listed once the loop is left. -/
theorem run_admission_control {tasks : List (DeployTask δ)} {g : TaskGraph δ}
    (hg : TaskGraph.build tasks = .ok g) (c : Collaborators δ σ) (opts : RunOptions) (w : σ)
    {ms : List Move} {f : Flight σ} (hrun : Flies g c opts (Flight.launch g w) ms f) :
    Admission g c opts ms f := by
  have ha := (TaskGraph.build_built hg).adjacency_size
  obtain ⟨ht, hs⟩ := Flight.Flies.traced ha hrun
  -- the four invariants, carried together along the run
  obtain ⟨hle, hadm, hflags, hrep⟩ := Flight.Flies.invariant ha (P := fun ms f =>
      f.progress.executing.length ≤ opts.permits ∧
      (f.stage = .admitting → f.progress.halted = false) ∧
      (f.progress.failures = (ms.filterMap Move.failed?).length ∧
        (f.progress.halted = true ↔
          Move.observe true ∈ ms ∨ opts.failureTolerance < f.progress.failures)) ∧
      f.progress.HaltReported)
    ⟨by simp [Flight.launch], by simp [Flight.launch], by simp [Flight.launch],
      by simp [Flight.launch, Progress.HaltReported, RunEvent.isHalt]⟩
    (fun ms f m f' hs h ⟨hle, hadm, hfl, hrep⟩ => by
      have hfl' := Flight.Step.flags hs h
      refine ⟨Flight.Step.executing_le h hle, Flight.Step.admitting_not_halted hs h hadm, ?_,
        Flight.Step.haltReported h hrep⟩
      rw [show f'.progress.failures = (f'.progress.flags).2 from rfl,
        show f'.progress.halted = (f'.progress.flags).1 from rfl, hfl']
      exact Move.flagsAfter_snoc opts ms m hfl.1 hfl.2)
    hrun
  obtain ⟨hrepd, hclosed⟩ := Flight.Flies.closed ha hrun (Flight.sound_launch ha w)
    (Flight.reported_launch w) fun h => by cases h
  refine ⟨hle, fun i f' hstep => ?_, hflags.1, hflags.2, hrep, fun hj hd => ?_, fun hover i hi => ?_⟩
  · cases hstep with
    | start h _ _ => exact hadm h
  · have hw : f.progress.workers.length = f.progress.executing.length := by
      simp [Progress.workers, hd]
    rw [← hw]
    exact hs.joining hj
  · -- a started task has finished, so it succeeded or failed, and is listed so
    have hst := (ht.started_iff i).2 hi
    have hlt : i < g.size := hs.progress.lt_of_ne_pending fun h => by
      simp [h, TaskStatus.started] at hst
    have hfin := hclosed hover i hlt
    have hlisted := hrepd i hfin
    cases hs' : f.progress.statusOf i <;> simp_all [TaskStatus.started, TaskStatus.final,
      RunResult.listed]

/-- Two independent tasks, one permit and no tolerance, the first failing: the run halts after
the first failure and skips the second, and admission control holds. -/
theorem failing_pair_admission_control :
    let tasks : List (DeployTask Unit) :=
      [{ id := ⟨"a", "1", "eu"⟩, target := ⟨"1", "eu", "A"⟩, kind := .delete, deployable := () },
       { id := ⟨"b", "1", "eu"⟩, target := ⟨"1", "eu", "B"⟩, kind := .delete, deployable := () }]
    let c : Collaborators Unit Unit :=
      { resolve := fun _ => throw (.lateResolution "none"), completed := fun _ _ w => w,
        contentHash := fun _ _ => pure "", apply := fun _ _ _ => pure [],
        delete := fun _ _ => throw (.backend "delete" "refused") }
    ∃ (g : TaskGraph Unit) (ms : List Move) (f : Flight Unit),
      TaskGraph.build tasks = .ok g ∧ Flies g c {} (Flight.launch g ()) ms f ∧
      f.stage = .over ∧ f.progress.halted = true ∧ f.progress.result.skipped.length = 1 ∧
      Admission g c {} ms f := by
  intro tasks c
  let g : TaskGraph Unit := ⟨tasks.toArray, #[[], []], #[[], []]⟩
  have hg : TaskGraph.build tasks = .ok g := by cbv
  obtain ⟨ms, hms⟩ := @Flight.flies_drive Unit Unit g c {} false 18 {} (Flight.launch g ())
  exact ⟨g, ms, _, hg, hms, by decide +kernel, by decide +kernel, by decide +kernel,
    run_admission_control hg c {} () hms⟩

end OrgDeploy
