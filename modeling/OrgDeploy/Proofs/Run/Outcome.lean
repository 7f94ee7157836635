import Mathlib
import OrgDeploy.Proofs.Run.Cascade

/-!
# What a run reports at its end

Whatever the collaborators do, whenever the cancellation shows and in whatever order workers
finish, a run of a built graph ends, and what it reports then is accounted for:

* it leaves its loop within `6 * (size + 1)` moves, and until then some move is always possible
  (`Flight.Flies.length_lt`, `Flight.exists_step`);
* the result lists every task of the graph once, under one status, and the terminal events
  report the same tasks under the same statuses (`Progress.Tallied`): each task comes to an end
  once, and is then listed and reported once;
* the first event is `runStarted`, the last `runCompleted` with the lengths of the result's
  lists (`Flight.Flies.head_events`, `Flight.Step.report_at_over`);
* in a run that was not halted, a task is skipped exactly when it depends, directly or not, on a
  failed task, and its skip names one; every other task ran, and the run succeeds exactly when
  no task failed.

`run_outcome_partition` puts these together.
-/

namespace OrgDeploy

/-- The task a terminal event ends, with the status it ends in. -/
def RunEvent.ended : RunEvent → Option (TaskId × TaskStatus)
  | .taskSucceeded id => some (id, .succeeded)
  | .taskFailed id _ => some (id, .failed)
  | .taskSkipped id _ => some (id, .skipped)
  | _ => none

/-- The tasks a result lists, each with the status it lists it under. -/
def RunResult.entries (r : RunResult) : List (TaskId × TaskStatus) :=
  r.succeeded.map (fun id => (id, .succeeded)) ++ r.failed.map (fun x => (x.1, .failed)) ++
    r.skipped.map (fun x => (x.1, .skipped))

namespace RunResult

theorem entries_succeeded_append (r : RunResult) (id : TaskId) :
    (({ r with succeeded := r.succeeded ++ [id] } : RunResult).entries :
      Multiset (TaskId × TaskStatus)) = r.entries + {(id, TaskStatus.succeeded)} := by
  simp only [entries, List.map_append, List.map_cons, List.map_nil, ← Multiset.coe_add,
    Multiset.coe_singleton]
  abel

theorem entries_failed_append (r : RunResult) (x : TaskId × TaskError) :
    (({ r with failed := r.failed ++ [x] } : RunResult).entries :
      Multiset (TaskId × TaskStatus)) = r.entries + {(x.1, TaskStatus.failed)} := by
  simp only [entries, List.map_append, List.map_cons, List.map_nil, ← Multiset.coe_add,
    Multiset.coe_singleton]
  abel

theorem entries_skipped_append (r : RunResult) (x : TaskId × SkipReason) :
    (({ r with skipped := r.skipped ++ [x] } : RunResult).entries :
      Multiset (TaskId × TaskStatus)) = r.entries + {(x.1, TaskStatus.skipped)} := by
  simp only [entries, List.map_append, List.map_cons, List.map_nil, ← Multiset.coe_add,
    Multiset.coe_singleton]
  abel

theorem mem_entries_succeeded (r : RunResult) (x : TaskId) :
    (x, TaskStatus.succeeded) ∈ r.entries ↔ x ∈ r.succeeded := by
  simp [entries]

theorem mem_entries_failed (r : RunResult) (x : TaskId) :
    (x, TaskStatus.failed) ∈ r.entries ↔ x ∈ r.failed.map Prod.fst := by
  simp [entries]

theorem mem_entries_skipped (r : RunResult) (x : TaskId) :
    (x, TaskStatus.skipped) ∈ r.entries ↔ x ∈ r.skipped.map Prod.fst := by
  simp [entries]

/-- The ids a result lists, under any status. -/
theorem map_fst_entries (r : RunResult) :
    r.entries.map Prod.fst = r.succeeded ++ r.failed.map Prod.fst ++ r.skipped.map Prod.fst := by
  simp [entries, Function.comp_def]

end RunResult

namespace TaskGraph

variable {δ : Type} {g : TaskGraph δ}

/-- Both ends of a dependency, direct or not, are tasks of the graph. -/
theorem transGen_dependsOn_lt {i d : Nat} (h : Relation.TransGen g.DependsOn i d) :
    i < g.size ∧ d < g.size := by
  have hlt : ∀ {a b}, g.DependsOn a b → a < g.size ∧ b < g.size := by
    rintro a b ⟨t, u, ht, hu, -⟩
    exact ⟨(Array.getElem?_eq_some_iff.mp ht).1, (Array.getElem?_eq_some_iff.mp hu).1⟩
  induction h with
  | single h => exact hlt h
  | tail _ h ih => exact ⟨ih.1, (hlt h).2⟩

/-- The ids of the tasks, by position, are the tasks' ids. -/
theorem map_idOf_range (g : TaskGraph δ) :
    (List.range g.size).map (Progress.idOf g) = g.tasks.toList.map (·.id) := by
  refine List.ext_getElem (by simp [size]) fun j h₁ _ => ?_
  have hj : j < g.tasks.size := by simpa [size] using h₁
  simp [Progress.idOf, hj]

/-- Positions of a built graph are told apart by their ids. -/
theorem Built.idOf_injective {tasks : List (DeployTask δ)} (hb : g.Built tasks) {j k : Nat}
    (hj : j < g.size) (hk : k < g.size) (h : Progress.idOf g j = Progress.idOf g k) : j = k := by
  have hj' : j < g.tasks.size := hj
  have hk' : k < g.tasks.size := hk
  have htj : g.tasks[j]? = some g.tasks[j] := by simp [hj']
  have htk : g.tasks[k]? = some g.tasks[k] := by simp [hk']
  exact hb.eq_of_id_eq htj htk
    (by rwa [Progress.idOf_of_getElem? g htj, Progress.idOf_of_getElem? g htk] at h)

end TaskGraph

namespace Progress

variable {δ : Type} (g : TaskGraph δ)

/-! ## The tally of the tasks that came to an end -/

@[simp] theorem events_skip (p : Progress) (i : Nat) (r : SkipReason) :
    (p.skip g i r).events = p.events ++ [.taskSkipped (idOf g i) r.message] := rfl

@[simp] theorem events_halt (p : Progress) : p.halt.events = p.events ++ [.runHalted p.failures] :=
  rfl

@[simp] theorem events_release (p : Progress) (d : Nat) : (p.release d).events = p.events := by
  rw [release_spec]
  split <;> rfl

theorem events_markSucceeded (p : Progress) (i : Nat) (id : TaskId) :
    (p.markSucceeded i id).events = p.events ++ [.taskSucceeded id] := rfl

theorem events_markFailed (p : Progress) (i : Nat) (id : TaskId) (e : TaskError) :
    (p.markFailed i id e).events = p.events ++ [.taskFailed id e.message] := rfl

theorem result_markSucceeded (p : Progress) (i : Nat) (id : TaskId) :
    (p.markSucceeded i id).result = { p.result with succeeded := p.result.succeeded ++ [id] } := rfl

theorem result_markFailed (p : Progress) (i : Nat) (id : TaskId) (e : TaskError) :
    (p.markFailed i id e).result = { p.result with failed := p.result.failed ++ [(id, e)] } := rfl

/-- What a task has come to, if it has come to an end. -/
def endOf (p : Progress) (j : Nat) : Multiset (TaskId × TaskStatus) :=
  if (p.statusOf j).final then {(idOf g j, p.statusOf j)} else 0

/-- The tasks of the graph that have come to an end, with their statuses. -/
def tally (p : Progress) : Multiset (TaskId × TaskStatus) :=
  ∑ j ∈ Finset.range g.size, p.endOf g j

/-- The result lists, and the terminal events report, exactly the tasks of the graph that came to
an end, each under its status. -/
structure Tallied (p : Progress) : Prop where
  result_eq : (p.result.entries : Multiset (TaskId × TaskStatus)) = p.tally g
  events_eq : (p.events.filterMap RunEvent.ended : Multiset (TaskId × TaskStatus)) = p.tally g

variable {g}

theorem endOf_of_final {p : Progress} {j : Nat} (h : (p.statusOf j).final = true) :
    p.endOf g j = {(idOf g j, p.statusOf j)} := by
  simp [endOf, h]

theorem endOf_of_not_final {p : Progress} {j : Nat} (h : (p.statusOf j).final = false) :
    p.endOf g j = 0 := by
  simp [endOf, h]

/-- Changing the status of task `j` alone changes the tally by what `j` comes to. -/
theorem tally_update {p q : Progress} {j : Nat} (hj : j < g.size)
    (hother : ∀ k, k ≠ j → q.statusOf k = p.statusOf k) :
    q.tally g + p.endOf g j = p.tally g + q.endOf g j := by
  have hmem : j ∈ Finset.range g.size := Finset.mem_range.mpr hj
  have hrest : ∑ k ∈ (Finset.range g.size).erase j, q.endOf g k =
      ∑ k ∈ (Finset.range g.size).erase j, p.endOf g k :=
    Finset.sum_congr rfl fun k hk => by simp only [endOf, hother k (Finset.ne_of_mem_erase hk)]
  unfold tally
  rw [← Finset.add_sum_erase _ _ hmem, ← Finset.add_sum_erase _ _ hmem, hrest]
  abel

/-- Statuses that change only while no task comes to an end leave the tally alone. -/
theorem tally_congr {p q : Progress} (h : ∀ k, q.statusOf k = p.statusOf k ∨
    ((q.statusOf k).final = false ∧ (p.statusOf k).final = false)) : q.tally g = p.tally g := by
  refine Finset.sum_congr rfl fun k _ => ?_
  rcases h k with h | ⟨hq, hp⟩
  · simp only [endOf, h]
  · rw [endOf_of_not_final hq, endOf_of_not_final hp]

/-- Once every task of the graph has come to an end, the tally lists each with its status. -/
theorem tally_of_final {p : Progress} (h : ∀ j < g.size, (p.statusOf j).final = true) :
    p.tally g = ↑((List.range g.size).map fun j => (idOf g j, p.statusOf j)) := by
  have key : ∀ n ≤ g.size, ∑ j ∈ Finset.range n, p.endOf g j =
      ↑((List.range n).map fun j => (idOf g j, p.statusOf j)) := by
    intro n
    induction n with
    | zero => intro; rfl
    | succ n ih =>
      intro hn
      rw [Finset.sum_range_succ, ih (by omega), endOf_of_final (h n (by omega)), List.range_succ,
        List.map_append, ← Multiset.coe_add]
      rfl
  exact key g.size le_rfl

/-- Task `j` coming to an end keeps the tally when the result lists it and an event reports it. -/
theorem Tallied.of_change {p q : Progress} (hp : p.Tallied g) {j : Nat} (hj : j < g.size)
    (hother : ∀ k, k ≠ j → q.statusOf k = p.statusOf k)
    (hres : (q.result.entries : Multiset (TaskId × TaskStatus)) + p.endOf g j =
      p.result.entries + q.endOf g j)
    (hev : (q.events.filterMap RunEvent.ended : Multiset (TaskId × TaskStatus)) + p.endOf g j =
      (p.events.filterMap RunEvent.ended : Multiset (TaskId × TaskStatus)) + q.endOf g j) :
    q.Tallied g := by
  have ht := tally_update hj hother
  refine ⟨(add_left_inj (p.endOf g j)).mp ?_, (add_left_inj (p.endOf g j)).mp ?_⟩
  · calc (q.result.entries : Multiset (TaskId × TaskStatus)) + p.endOf g j =
          p.result.entries + q.endOf g j := hres
      _ = p.tally g + q.endOf g j := by rw [hp.result_eq]
      _ = q.tally g + p.endOf g j := ht.symm
  · calc (q.events.filterMap RunEvent.ended : Multiset (TaskId × TaskStatus)) + p.endOf g j =
          (p.events.filterMap RunEvent.ended : Multiset (TaskId × TaskStatus)) + q.endOf g j := hev
      _ = p.tally g + q.endOf g j := by rw [hp.events_eq]
      _ = q.tally g + p.endOf g j := ht.symm

/-- A change that ends no task, lists nothing and reports no end keeps the tally. -/
theorem Tallied.of_unended {p q : Progress} (hp : p.Tallied g) (htally : q.tally g = p.tally g)
    (hres : q.result.entries = p.result.entries)
    (hev : q.events.filterMap RunEvent.ended = p.events.filterMap RunEvent.ended) :
    q.Tallied g :=
  ⟨by rw [hres, htally, hp.result_eq], by rw [hev, htally, hp.events_eq]⟩

/-! ## What the coordinator's operations do to the tally -/

section Ops

variable {p : Progress} (hp : p.Tallied g) (hsize : p.status.size = g.size)
include hp hsize

/-- Skipping a task of the graph that had not come to an end lists and reports its skip. -/
theorem Tallied.skip {i : Nat} (hi : i < g.size) (hnf : (p.statusOf i).final = false)
    (r : SkipReason) : (p.skip g i r).Tallied g := by
  have hlt : i < p.status.size := hsize ▸ hi
  have hsk : (p.skip g i r).statusOf i = .skipped := by rw [statusOf_skip, if_pos ⟨rfl, hlt⟩]
  refine hp.of_change hi (fun k hk => by rw [statusOf_skip, if_neg fun h => hk h.1.symm]) ?_ ?_
  · rw [endOf_of_not_final hnf, endOf_of_final (by simp [hsk, TaskStatus.final]), hsk, result_skip,
      RunResult.entries_skipped_append]
    simp
  · rw [endOf_of_not_final hnf, endOf_of_final (by simp [hsk, TaskStatus.final]), hsk, events_skip]
    simp [RunEvent.ended, ← Multiset.coe_add]

/-- Task `i`, running, comes to an end as `s`, with a result and events that list and report it. -/
theorem Tallied.set {q : Progress} {i : Nat} (hi : p.statusOf i = .running) {s : TaskStatus}
    (hs : s.final = true) (hstatus : q.status = p.status.set! i s)
    (hres : (q.result.entries : Multiset (TaskId × TaskStatus)) = p.result.entries + {(idOf g i, s)})
    (hev : (q.events.filterMap RunEvent.ended : Multiset (TaskId × TaskStatus)) =
      (p.events.filterMap RunEvent.ended : Multiset (TaskId × TaskStatus)) + {(idOf g i, s)}) : q.Tallied g := by
  have hlt : i < p.status.size := Nat.lt_of_not_le fun hn => by simp [statusOf_of_size_le hn] at hi
  have hst := statusOf_of_status_set hlt hstatus
  have hqi : q.statusOf i = s := by simp [hst]
  have hnf : (p.statusOf i).final = false := by simp [hi, TaskStatus.final]
  refine hp.of_change (hsize ▸ hlt) (fun k hk => by simp [hst, hk]) ?_ ?_
  · rw [endOf_of_not_final hnf, endOf_of_final (hqi ▸ hs), hqi, hres]
    simp
  · rw [endOf_of_not_final hnf, endOf_of_final (hqi ▸ hs), hqi, hev]
    simp

omit hsize in
/-- Halting lists and reports no end. -/
theorem Tallied.halt : p.halt.Tallied g :=
  hp.of_unended (tally_congr fun _ => .inl rfl) rfl (by simp [RunEvent.ended])

/-- Skipping tasks of the graph that had not come to an end, each once, lists and reports each
skip. -/
theorem Tallied.foldl_skip (r : SkipReason) :
    ∀ (l : List Nat), l.Nodup → (∀ j ∈ l, j < g.size ∧ (p.statusOf j).final = false) →
      (l.foldl (fun q j => q.skip g j r) p).Tallied g := by
  intro l
  induction l generalizing p with
  | nil => exact fun _ _ => hp
  | cons i l ih =>
    intro hnd hl
    obtain ⟨hi, hnf⟩ := hl i List.mem_cons_self
    rw [List.foldl_cons]
    refine ih (hp.skip hsize hi hnf r) (by simp [hsize]) (List.nodup_cons.mp hnd).2 fun j hj => ?_
    have hji : j ≠ i := fun h => (List.nodup_cons.mp hnd).1 (h ▸ hj)
    refine ⟨(hl j (List.mem_cons_of_mem i hj)).1, ?_⟩
    rw [statusOf_skip, if_neg fun h => hji h.1.symm]
    exact (hl j (List.mem_cons_of_mem i hj)).2

/-- A halted run lists and reports the skip of each ready task. -/
theorem Tallied.skipReady (hs : p.Sound g) : (p.skipReady g).Tallied g := by
  have hq : ({ p with ready := [] } : Progress).Tallied g := hp.of_unended rfl rfl rfl
  refine Tallied.foldl_skip hq hsize .halted p.ready hs.ready_nodup fun j hj => ?_
  have hr : p.statusOf j = .ready := (hs.mem_ready j).1 hj
  refine ⟨hs.lt_of_ne_pending (by simp [hr]), ?_⟩
  change (p.statusOf j).final = false
  rw [hr]
  rfl

/-- Skipping the dependents of a failure lists and reports each skip. -/
theorem Tallied.skipDependents (ha : TaskGraph.Adjacency g.size g.prerequisites g.dependents)
    (i : Nat) : (p.skipDependents g i).Tallied g :=
  (skipFrom_preserves g (fun q => q.Tallied g ∧ q.status.size = g.size) _ (dependentsOf_lt ha)
    (fun _ j hq hj hjlt => ⟨hq.1.skip hq.2 hjlt (by simp [hj, TaskStatus.final]) _, by simp [hq.2]⟩)
    _ _ p (fun d hd => dependentsOf_lt ha i d (List.mem_reverse.mp hd)) ⟨hp, hsize⟩).1

omit hsize in
/-- Releasing dependents only makes pending tasks ready, and lists and reports nothing. -/
theorem Tallied.released {L : List Nat} {q : Progress} (hR : Released p L q) : q.Tallied g := by
  refine hp.of_unended (tally_congr fun k => ?_) (by rw [hR.frame]) (by rw [hR.frame])
  rw [hR.statusOf_eq]
  split
  · rename_i hf
    exact .inr ⟨rfl, by simp [hf.1, TaskStatus.final]⟩
  · exact .inl rfl

/-- Giving up on a task that is not running skips it if it had not started, and changes nothing
otherwise. -/
theorem Tallied.abandon {i : Nat} (hi : i < g.size) (hu : p.statusOf i ≠ .running) :
    (p.abandon g i).Tallied g := by
  unfold Progress.abandon
  split
  · exact hp.skip hsize hi (by simp [*, TaskStatus.final]) _
  · exact hp.skip hsize hi (by simp [*, TaskStatus.final]) _
  · exact absurd ‹_› hu
  · exact hp

/-- Closing a run with no task running lists and reports the skip of every task not started. -/
theorem Tallied.finish (hu : ∀ j, p.statusOf j ≠ .running) : (p.finish g).Tallied g := by
  -- the tasks left to close, and a progress that is tallied, of the graph's size, with no task
  -- running
  have key : ∀ (l : List Nat) (q : Progress), (∀ j ∈ l, j < g.size) → q.Tallied g →
      q.status.size = g.size → (∀ j, q.statusOf j ≠ .running) → (l.foldl (Progress.abandon g) q).Tallied g := by
    intro l
    induction l with
    | nil => exact fun q _ hq _ _ => hq
    | cons i l ih =>
      intro q hl hq hqs hqu
      rw [List.foldl_cons]
      refine ih _ (fun j hj => hl j (List.mem_cons_of_mem i hj))
        (hq.abandon hqs (hl i List.mem_cons_self) (hqu i)) (by rw [size_status_abandon, hqs]) ?_
      intro j
      by_cases hji : j = i
      · subst hji
        unfold Progress.abandon
        split
        · rw [statusOf_skip]; split <;> simp_all
        · rw [statusOf_skip]; split <;> simp_all
        · exact absurd ‹_› (hqu j)
        · exact hqu j
      · rw [statusOf_abandon_of_ne q hji]
        exact hqu j
  have hfold := key (List.range g.size) p (fun j hj => List.mem_range.mp hj) hp hsize hu
  refine hfold.of_unended (tally_congr fun _ => .inl rfl) rfl ?_
  unfold Progress.finish
  simp [emit, RunEvent.ended]

end Ops

section Settle

variable {σ : Type} (ha : TaskGraph.Adjacency g.size g.prerequisites g.dependents)
  {p : Progress} (hp : p.Tallied g) (hsize : p.status.size = g.size) (hw : p.waiting.size = g.size)
  {i : Nat} (hi : p.statusOf i = .running) {t : DeployTask δ} (ht : g.tasks[i]? = some t)
  (c : Collaborators δ σ) (opts : RunOptions) (outcome : Except TaskError Outcome) (w : σ)
include ha hp hsize hw hi ht

/-- Taking the outcome of a running task lists and reports its end, and the skips of its
dependents if it failed. -/
theorem Tallied.settle : (settle g c opts p i outcome w).1.Tallied g := by
  unfold Progress.settle
  rw [ht]
  cases outcome with
  | ok o =>
    have hms : (p.markSucceeded i t.id).Tallied g :=
      hp.set hsize hi rfl rfl
        (by rw [result_markSucceeded, RunResult.entries_succeeded_append, idOf_of_getElem? g ht])
        (by simp [events_markSucceeded, RunEvent.ended, ← Multiset.coe_add, idOf_of_getElem? g ht])
    exact hms.released (foldl_release _ _ fun d hd => by
      have := dependentsOf_lt ha i d hd
      simp [markSucceeded, emit, hsize, hw, this])
  | error e =>
    have hmf : (p.markFailed i t.id e).Tallied g :=
      hp.set hsize hi rfl rfl
        (by rw [result_markFailed, RunResult.entries_failed_append, idOf_of_getElem? g ht])
        (by simp [events_markFailed, RunEvent.ended, ← Multiset.coe_add, idOf_of_getElem? g ht])
    have hsd := hmf.skipDependents (by simp [markFailed, emit, hsize]) ha i
    dsimp only
    split
    · exact hsd.halt
    · exact hsd

end Settle

/-! ## Skips follow failures -/

section Built

variable {tasks : List (DeployTask δ)} (hb : g.Built tasks) {p : Progress} (hs : p.Sound g)
  (hc : p.Cascaded g) (hh : p.halted = false)
include hb hs hc hh

/-- While a run is not halted, a task that depends on a failed or skipped one is skipped: it is not
pending, and a task that got past pending without being skipped had its dependencies succeed. -/
theorem skipped_of_dependsOn {a b : Nat} (hd : g.DependsOn a b)
    (hblk : (p.statusOf b).blocking = true) : p.statusOf a = .skipped := by
  have hpre := hb.mem_prerequisitesOf hd
  have hnp : p.statusOf a ≠ .pending := hc hh b hblk a (hb.adjacency_size.mem_down_of_mem_up hpre)
  by_contra hns
  have hsucc := hs.prerequisites_succeeded a hnp hns b hpre
  simp [hsucc, TaskStatus.blocking] at hblk

/-- While a run is not halted, a task that depends, directly or not, on a failed one is skipped. -/
theorem skipped_of_transGen {j k : Nat} (hk : p.statusOf k = .failed)
    (h : Relation.TransGen g.DependsOn j k) : p.statusOf j = .skipped := by
  induction h using Relation.TransGen.head_induction_on with
  | single hd => exact skipped_of_dependsOn hb hs hc hh hd (by simp [hk, TaskStatus.blocking])
  | head hd _ ih => exact skipped_of_dependsOn hb hs hc hh hd (by simp [ih, TaskStatus.blocking])

end Built

/-! ## Events are only ever added -/

variable (g)

theorem prefix_events_skipDependents (p : Progress) (i : Nat) :
    p.events <+: (p.skipDependents g i).events :=
  skipFrom_keeps g (fun q => p.events <+: q.events) _
    (fun _ _ hq => hq.trans (List.prefix_append _ _)) _ _ p (List.prefix_refl _)

theorem prefix_events_skipReady (p : Progress) : p.events <+: (p.skipReady g).events :=
  foldl_keeps (fun q : Progress => p.events <+: q.events)
    (fun _ _ hq => hq.trans (List.prefix_append _ _)) _ _ (List.prefix_refl _)

theorem prefix_events_finish (p : Progress) : p.events <+: (p.finish g).events := by
  have hfold : p.events <+: ((List.range g.size).foldl (abandon g) p).events :=
    foldl_keeps (fun q : Progress => p.events <+: q.events) (fun q j hq => by
      unfold abandon
      split
      · exact hq.trans (List.prefix_append _ _)
      · exact hq.trans (List.prefix_append _ _)
      · exact hq
      · exact hq) _ _ (List.prefix_refl _)
  exact hfold.trans (List.prefix_append _ _)

theorem prefix_events_settle {σ : Type} (c : Collaborators δ σ) (opts : RunOptions) (p : Progress)
    (i : Nat) (outcome : Except TaskError Outcome) (w : σ) :
    p.events <+: (settle g c opts p i outcome w).1.events := by
  unfold settle
  split
  · exact List.prefix_refl _
  · rename_i t o _
    have h : ((g.dependentsOf i).foldl release (p.markSucceeded i t.id)).events =
        (p.markSucceeded i t.id).events :=
      foldl_keeps (fun q : Progress => q.events = (p.markSucceeded i t.id).events)
        (fun _ _ hq => by rw [events_release, hq]) _ _ rfl
    rw [h, events_markSucceeded]
    exact List.prefix_append _ _
  · rename_i t e _
    have h := (List.prefix_append p.events _).trans
      (prefix_events_skipDependents g (p.markFailed i t.id e) i)
    dsimp only
    split
    · exact h.trans (List.prefix_append _ _)
    · exact h

end Progress

namespace Flight

variable {δ σ : Type} {g : TaskGraph δ} {c : Collaborators δ σ} {opts : RunOptions}

/-! ## Every move keeps the tally -/

theorem tallied_launch (w : σ) : (launch g w).progress.Tallied g := by
  have htally : (launch g w).progress.tally g = 0 := by
    refine Finset.sum_eq_zero fun j _ => Progress.endOf_of_not_final ?_
    rw [Progress.statusOf_launch]
    split <;> rfl
  exact ⟨by rw [htally]; rfl, by rw [htally]; rfl⟩

section Graph

variable (ha : TaskGraph.Adjacency g.size g.prerequisites g.dependents)
include ha

/-- Every move keeps the result and the terminal events in step with the tasks that came to an
end. -/
theorem Step.tallied {f f' : Flight σ} {m : Move} (hs : f.Sound g opts) (h : Step g c opts f m f')
    (ht : f.progress.Tallied g) : f'.progress.Tallied g := by
  have hsize := hs.progress.status_size
  cases h with
  | observe cancelled h =>
    have hp : (if !f.progress.halted && cancelled then f.progress.halt else f.progress).Tallied g ∧
        (if !f.progress.halted && cancelled then f.progress.halt else f.progress).Sound g := by
      split
      · exact ⟨ht.halt, hs.progress.halt⟩
      · exact ⟨ht, hs.progress⟩
    unfold observed
    dsimp only
    generalize (if (!f.progress.halted && cancelled) = true then f.progress.halt else f.progress) = q
      at hp ⊢
    split
    · exact hp.1.skipReady hp.2.status_size hp.2
    · exact hp.1
  | start h hready hfree =>
    rename_i i rest
    have hstep : Step g c opts f (.start i) (f.started g) := .start h hready hfree
    obtain ⟨hi, hi'⟩ := Step.statusOf_started hs hstep
    refine ht.of_unended (Progress.tally_congr fun k => ?_) ?_ ?_
    · by_cases hk : k = i
      · subst hk
        exact .inr ⟨by simp [hi', TaskStatus.final], by simp [hi, TaskStatus.final]⟩
      · exact .inl (started_statusOf_of_ne hready hk)
    · simp only [started, hready]
      split <;> rfl
    · simp only [started, hready]
      split <;> simp [Progress.emit, RunEvent.ended]
  | close h hend => exact ht
  | finish h hi =>
    simp only [finished]
    split
    · exact ⟨ht.result_eq, ht.events_eq⟩
    · split
      exact ⟨ht.result_eq, ht.events_eq⟩
  | settle h hdone =>
    rename_i pre post i outcome
    have hi : f.progress.statusOf i = .running := hs.progress.running_of_done hdone
    obtain ⟨t, htask⟩ : ∃ t, g.tasks[i]? = some t := hs.progress.exists_task (by simp [hi])
    rw [settled_progress]
    exact Progress.Tallied.settle ha (p := { f.progress with done := pre ++ post })
      ⟨ht.result_eq, ht.events_eq⟩ hsize hs.progress.waiting_size hi htask c opts outcome f.world
  | stop h hdone hidle =>
    refine ht.finish hsize fun j hj => ?_
    simpa [Progress.workers, hdone, hidle] using (hs.progress.mem_workers j).2 hj

/-- Along a run from the start, the result and the terminal events stay in step with the tasks
that came to an end. -/
theorem Flies.tallied {w : σ} {ms : List Move} {f : Flight σ}
    (h : Flies g c opts (launch g w) ms f) : f.progress.Tallied g :=
  Flies.invariant ha (P := fun _ f => f.progress.Tallied g) (tallied_launch w)
    (fun _ _ _ _ hs hstep ht => Step.tallied ha hs hstep ht) h

/-- Once a run has left its loop, every task of the graph has come to an end. -/
theorem Flies.final {w : σ} {ms : List Move} {f : Flight σ}
    (h : Flies g c opts (launch g w) ms f) (hover : f.stage = .over) :
    ∀ j < g.size, (f.progress.statusOf j).final = true :=
  (Flies.closed ha h (sound_launch ha w) (reported_launch w) fun h => by cases h).2 hover

/-- Once a run has left its loop, its result lists each task of the graph under its status. -/
theorem Flies.entries_perm {w : σ} {ms : List Move} {f : Flight σ}
    (h : Flies g c opts (launch g w) ms f) (hover : f.stage = .over) :
    f.progress.result.entries.Perm
      ((List.range g.size).map fun j => (Progress.idOf g j, f.progress.statusOf j)) :=
  Multiset.coe_eq_coe.mp
    ((Flies.tallied ha h).result_eq.trans (Progress.tally_of_final (Flies.final ha h hover)))

/-! ## A run ends, and ends in one way -/

/-- Each move lowers the potential, so a run makes no more moves than its potential at the
start. -/
theorem Flies.length_add_potential {f f' : Flight σ} {ms : List Move}
    (h : Flies g c opts f ms f') (hs : f.Sound g opts) : ms.length + f'.potential g ≤ f.potential g := by
  induction h with
  | refl => simp
  | tail hflies hstep ih =>
    have hlt := Step.potential_lt ha (Flies.sound ha hflies hs) hstep
    simp only [List.length_append, List.length_singleton]
    omega

/-- A run makes fewer than `6 * (size + 1)` moves. -/
theorem Flies.length_lt {w : σ} {ms : List Move} {f : Flight σ}
    (h : Flies g c opts (launch g w) ms f) : ms.length < 6 * (g.size + 1) := by
  have hle := Flies.length_add_potential ha h (sound_launch ha w)
  have hlt := potential_launch_lt (g := g) w
  omega

end Graph

/-- Until the loop is left, some move is always possible. -/
theorem exists_step (f : Flight σ) (h : f.stage ≠ .over) : ∃ m f', Step g c opts f m f' := by
  cases hadv : f.advance g c opts false {} with
  | none => exact absurd (stage_of_advance_eq_none hadv) h
  | some mf =>
    obtain ⟨m, k', f'⟩ := mf
    exact ⟨m, f', advance_step hadv⟩

/-- No move adds an event anywhere but at the end. -/
theorem Step.prefix_events {f f' : Flight σ} {m : Move} (h : Step g c opts f m f') :
    f.progress.events <+: f'.progress.events := by
  cases h with
  | observe cancelled h =>
    have hp : f.progress.events <+:
        (if !f.progress.halted && cancelled then f.progress.halt else f.progress).events := by
      split
      · exact List.prefix_append _ _
      · exact List.prefix_refl _
    unfold observed
    dsimp only
    generalize (if (!f.progress.halted && cancelled) = true then f.progress.halt else f.progress) = q
      at hp ⊢
    split
    · exact hp.trans (Progress.prefix_events_skipReady g q)
    · exact hp
  | start h hready hfree =>
    simp only [started, hready]
    split
    · exact List.prefix_refl _
    · exact List.prefix_append _ _
  | close h hend => exact List.prefix_refl _
  | finish h hi =>
    simp only [finished]
    split
    · exact List.prefix_refl _
    · split
      exact List.prefix_refl _
  | settle h hdone =>
    rename_i pre post i outcome
    rw [settled_progress]
    exact Progress.prefix_events_settle g c opts { f.progress with done := pre ++ post } i outcome _
  | stop h hdone hidle => exact Progress.prefix_events_finish g f.progress

theorem Flies.prefix_events {f f' : Flight σ} {ms : List Move} (h : Flies g c opts f ms f') :
    f.progress.events <+: f'.progress.events := by
  induction h with
  | refl => exact List.prefix_refl _
  | tail _ hstep ih => exact ih.trans (Step.prefix_events hstep)

/-- A run's first event is `runStarted`, with the number of tasks. -/
theorem Flies.head_events {w : σ} {ms : List Move} {f : Flight σ}
    (h : Flies g c opts (launch g w) ms f) : f.progress.events.head? = some (.runStarted g.size) := by
  obtain ⟨rest, hrest⟩ := Flies.prefix_events h
  rw [← hrest]
  rfl

/-- The move that leaves the loop ends the events with `runCompleted`, with the lengths of the
result's lists, and records in the result whether the run was halted. -/
theorem Step.report_at_over {f f' : Flight σ} {m : Move} (h : Step g c opts f m f')
    (hover : f'.stage = .over) :
    f'.progress.events.getLast? = some (.runCompleted f'.progress.result.succeeded.length
      f'.progress.result.failed.length f'.progress.result.skipped.length) ∧
    f'.progress.result.halted = f'.progress.halted := by
  cases h with
  | observe cancelled h =>
    unfold observed at hover
    dsimp only at hover
    split at hover <;> split at hover <;> cases hover
  | start h hready hfree =>
    have hst : (f.started g).stage = f.stage := by
      simp only [started]
      split
      · rfl
      · split <;> rfl
    rw [hst, h] at hover
    cases hover
  | close h hend => cases hover
  | finish h hi' =>
    rename_i k
    have hst : (f.finished g c k).stage = f.stage := by
      simp only [finished]
      split <;> rfl
    exact absurd (hst ▸ hover) h
  | settle h hdone => cases hover
  | stop h hdone hidle =>
    refine ⟨by simp [stopped, Progress.finish, Progress.emit], ?_⟩
    simp only [stopped, Progress.finish, Progress.emit]

end Flight

variable {δ σ : Type}

/-- What a run of graph `g` reports once it has left its loop, with result `r` and events
`evs`. -/
structure Concluded (g : TaskGraph δ) (r : RunResult) (evs : List RunEvent) : Prop where
  /-- The result lists no task twice, under one status or two. -/
  listed_nodup : (r.succeeded ++ r.failed.map Prod.fst ++ r.skipped.map Prod.fst).Nodup
  /-- The result lists the tasks of the graph and nothing else. -/
  listed_perm : (r.succeeded ++ r.failed.map Prod.fst ++ r.skipped.map Prod.fst).Perm
    (g.tasks.toList.map (·.id))
  /-- The terminal events report the tasks the result lists, under the same statuses. -/
  ended_perm : (evs.filterMap RunEvent.ended).Perm r.entries
  first_event : evs.head? = some (.runStarted g.size)
  last_event : evs.getLast? = some (.runCompleted r.succeeded.length r.failed.length
    r.skipped.length)
  /-- A run that was not halted skips no task as halted, ... -/
  no_halted_skip : r.halted = false → ∀ x ∈ r.skipped, x.2 ≠ .halted
  /-- ... skips exactly the tasks that depend, directly or not, on a failed task, ... -/
  skipped_iff : r.halted = false → ∀ j < g.size, Progress.idOf g j ∈ r.skipped.map Prod.fst ↔
    ∃ k, Progress.idOf g k ∈ r.failed.map Prod.fst ∧ Relation.TransGen g.DependsOn j k
  /-- ... naming in each skip one such failed task, ... -/
  skip_names_failure : r.halted = false → ∀ x ∈ r.skipped, ∃ j k, Progress.idOf g j = x.1 ∧
    x.2 = .dependencyFailed (Progress.idOf g k) ∧ Progress.idOf g k ∈ r.failed.map Prod.fst ∧
    Relation.TransGen g.DependsOn j k
  /-- ... ran every other task, ... -/
  ran : r.halted = false → ∀ j < g.size, Progress.idOf g j ∉ r.skipped.map Prod.fst →
    Progress.idOf g j ∈ r.succeeded ∨ Progress.idOf g j ∈ r.failed.map Prod.fst
  /-- ... and succeeds exactly when no task failed. -/
  success_iff : r.halted = false → (r.isSuccess = true ↔ r.failed = [])

namespace Flight

variable {g : TaskGraph δ} {c : Collaborators δ σ} {opts : RunOptions}

/-- Once a run of a built graph has left its loop, its result lists task `j` under `s` exactly
when `s` is the status of `j`. -/
theorem Flies.mem_entries {tasks : List (DeployTask δ)} (hb : g.Built tasks) {w : σ}
    {ms : List Move} {f : Flight σ} (h : Flies g c opts (launch g w) ms f)
    (hover : f.stage = .over) {j : Nat} (hj : j < g.size) (s : TaskStatus) :
    (Progress.idOf g j, s) ∈ f.progress.result.entries ↔ f.progress.statusOf j = s := by
  rw [(Flies.entries_perm hb.adjacency_size h hover).mem_iff, List.mem_map]
  constructor
  · rintro ⟨k, hk, hks⟩
    obtain ⟨h1, h2⟩ := Prod.mk.inj hks
    rw [← hb.idOf_injective (List.mem_range.mp hk) hj h1]
    exact h2
  · intro hjs
    exact ⟨j, List.mem_range.mpr hj, by rw [hjs]⟩

/-- Every run of a built graph that has left its loop has concluded. -/
theorem Flies.concluded {tasks : List (DeployTask δ)} (hg : TaskGraph.build tasks = .ok g) {w : σ}
    {ms : List Move} {f : Flight σ} (h : Flies g c opts (launch g w) ms f)
    (hover : f.stage = .over) : Concluded g f.progress.result f.progress.events := by
  have hb := TaskGraph.build_built hg
  have ha := hb.adjacency_size
  have hs := Flies.sound ha h (sound_launch ha w)
  have hfinal := Flies.final ha h hover
  have htal := Flies.tallied ha h
  obtain ⟨hc, he⟩ := Flies.cascaded hg h
  obtain ⟨hlast, hhalted⟩ : f.progress.events.getLast? = some (.runCompleted
      f.progress.result.succeeded.length f.progress.result.failed.length
      f.progress.result.skipped.length) ∧ f.progress.result.halted = f.progress.halted := by
    cases h with
    | refl => simp [launch] at hover
    | tail _ hstep => exact Step.report_at_over hstep hover
  -- the result lists each task of the graph with its status
  have hperm := Flies.entries_perm ha h hover
  have hmem : ∀ j < g.size, ∀ s, (Progress.idOf g j, s) ∈ f.progress.result.entries ↔
      f.progress.statusOf j = s := fun j hj s => Flies.mem_entries hb h hover hj s
  have hlisted : (f.progress.result.succeeded ++ f.progress.result.failed.map Prod.fst ++
      f.progress.result.skipped.map Prod.fst).Perm (g.tasks.toList.map (·.id)) := by
    rw [← RunResult.map_fst_entries, ← TaskGraph.map_idOf_range]
    simpa [List.map_map, Function.comp_def] using hperm.map Prod.fst
  have hids : (g.tasks.toList.map (·.id)).Nodup := by
    rw [hb.tasks_eq]
    simpa using hb.ids_nodup
  -- in a run that was not halted every skip names a failure that the skipped task depends on
  have hnames : f.progress.result.halted = false → ∀ x ∈ f.progress.result.skipped, ∃ j k,
      Progress.idOf g j = x.1 ∧ x.2 = .dependencyFailed (Progress.idOf g k) ∧
      Progress.idOf g k ∈ f.progress.result.failed.map Prod.fst ∧
      Relation.TransGen g.DependsOn j k := by
    intro hr x hx
    rcases he x hx with ⟨-, hh⟩ | ⟨j, k, hj, hreason, hk, hdep⟩
    · rw [← hhalted, hr] at hh
      cases hh
    · have hklt := (TaskGraph.transGen_dependsOn_lt hdep).2
      exact ⟨j, k, hj, hreason, (RunResult.mem_entries_failed _ _).mp ((hmem k hklt _).mpr hk),
        hdep⟩
  refine { listed_nodup := hlisted.nodup_iff.mpr hids
           listed_perm := hlisted
           ended_perm := Multiset.coe_eq_coe.mp (htal.events_eq.trans htal.result_eq.symm)
           first_event := Flies.head_events h
           last_event := hlast
           no_halted_skip := fun hr x hx => ?_
           skipped_iff := fun hr j hj => ?_
           skip_names_failure := hnames
           ran := fun hr j hj hns => ?_
           success_iff := fun hr => ?_ }
  · obtain ⟨j, k, -, hreason, -⟩ := hnames hr x hx
    rw [hreason]
    exact SkipReason.noConfusion
  · have hh : f.progress.halted = false := hhalted ▸ hr
    constructor
    · intro hsk
      obtain ⟨x, hx, hxj⟩ := List.mem_map.mp hsk
      obtain ⟨j', k, hj', -, hk, hdep⟩ := hnames hr x hx
      have hj'lt := (TaskGraph.transGen_dependsOn_lt hdep).1
      obtain rfl := hb.idOf_injective hj'lt hj (hj'.trans hxj)
      exact ⟨k, hk, hdep⟩
    · rintro ⟨k, hk, hdep⟩
      have hklt := (TaskGraph.transGen_dependsOn_lt hdep).2
      have hkf := (hmem k hklt _).mp ((RunResult.mem_entries_failed _ _).mpr hk)
      have hjs := Progress.skipped_of_transGen hb hs.progress hc hh hkf hdep
      exact (RunResult.mem_entries_skipped _ _).mp ((hmem j hj _).mpr hjs)
  · have hnot : f.progress.statusOf j ≠ .skipped := fun hjs =>
      hns ((RunResult.mem_entries_skipped _ _).mp ((hmem j hj _).mpr hjs))
    have hfj := hfinal j hj
    cases hst : f.progress.statusOf j with
    | succeeded => exact .inl ((RunResult.mem_entries_succeeded _ _).mp ((hmem j hj _).mpr hst))
    | failed => exact .inr ((RunResult.mem_entries_failed _ _).mp ((hmem j hj _).mpr hst))
    | skipped => exact absurd hst hnot
    | _ => simp [hst, TaskStatus.final] at hfj
  · constructor
    · intro hsucc
      simp only [RunResult.isSuccess, Bool.and_eq_true, List.isEmpty_iff] at hsucc
      exact hsucc.1.1
    · intro hf
      have hsk : f.progress.result.skipped = [] := by
        refine List.eq_nil_iff_forall_not_mem.mpr fun x hx => ?_
        obtain ⟨_, _, -, -, hk, -⟩ := hnames hr x hx
        simp [hf] at hk
      simp [RunResult.isSuccess, hf, hsk, hr]

end Flight

/-- A run of a built graph ends and accounts for every task: whatever the collaborators do,
whenever the cancellation shows and in whatever order workers finish, it makes fewer than
`6 * (size + 1)` moves and can always move until it leaves its loop; once it has, its result
lists each task once, its terminal events report each task once, it began with `runStarted` and
ended with `runCompleted`, and if it was not halted a task was skipped exactly when it depends on
a failed one. `runGraph` is one such run. -/
theorem run_outcome_partition {tasks : List (DeployTask δ)} {g : TaskGraph δ}
    (hg : TaskGraph.build tasks = .ok g) (c : Collaborators δ σ) (opts : RunOptions) (w : σ) :
    (∀ ms f, Flies g c opts (Flight.launch g w) ms f →
      ms.length < 6 * (g.size + 1) ∧ (f.stage = .over ∨ ∃ m f', Step g c opts f m f')) ∧
    (∀ ms f, Flies g c opts (Flight.launch g w) ms f → f.stage = .over →
      Concluded g f.progress.result f.progress.events) ∧
    ∀ cancelled, Concluded g (runGraph opts g c cancelled w).1 (runGraph opts g c cancelled w).2.1 := by
  have ha := (TaskGraph.build_built hg).adjacency_size
  refine ⟨fun ms f h => ⟨Flight.Flies.length_lt ha h, ?_⟩, fun ms f h hover =>
    Flight.Flies.concluded hg h hover, fun cancelled => ?_⟩
  · by_cases hover : f.stage = .over
    · exact .inl hover
    · exact .inr (Flight.exists_step f hover)
  · obtain ⟨ms, hms⟩ := @Flight.flies_drive δ σ g c opts cancelled (6 * (g.size + 1))
      {} (Flight.launch g w)
    exact Flight.Flies.concluded hg hms (Flight.drive_over ha cancelled _ _ _
      (Flight.sound_launch ha w) (Flight.potential_launch_lt w))

/-- Two tasks, the second depending on the first, whose deletion fails: the run lists the first
as failed and the second as skipped, and has concluded. -/
theorem failing_chain_run_outcome :
    let tasks : List (DeployTask Unit) :=
      [{ id := ⟨"a", "1", "eu"⟩, target := ⟨"1", "eu", "A"⟩, kind := .delete, deployable := () },
       { id := ⟨"b", "1", "eu"⟩, target := ⟨"1", "eu", "A"⟩, kind := .delete,
         dependsOn := [⟨"a", "1", "eu"⟩], deployable := () }]
    let c : Collaborators Unit Unit :=
      { resolve := fun _ => throw (.lateResolution "none"), completed := fun _ _ w => w,
        contentHash := fun _ _ => pure "", apply := fun _ _ _ => pure [],
        delete := fun _ _ => throw (.backend "delete" "refused") }
    ∃ g : TaskGraph Unit, TaskGraph.build tasks = .ok g ∧
      (runGraph {} g c false ()).1.failed.map Prod.fst = [⟨"a", "1", "eu"⟩] ∧
      (runGraph {} g c false ()).1.skipped.map Prod.fst = [⟨"b", "1", "eu"⟩] ∧
      Concluded g (runGraph {} g c false ()).1 (runGraph {} g c false ()).2.1 := by
  intro tasks c
  let g : TaskGraph Unit := ⟨tasks.toArray, #[[], [0]], #[[1], []]⟩
  have hg : TaskGraph.build tasks = .ok g := by cbv
  exact ⟨g, hg, by decide +kernel, by decide +kernel, (run_outcome_partition hg c {} ()).2.2 false⟩

end OrgDeploy
