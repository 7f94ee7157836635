import Mathlib
import OrgDeploy.Proofs.Run.Progress
import OrgDeploy.Proofs.Graph.Built

/-!
# The invariant of runs

`Progress.Sound` ties the coordinator's bookkeeping to the statuses of the tasks: the ready queue
holds exactly the ready tasks, once each; the workers are exactly the running tasks, once each; a
pending task waits for exactly its dependencies that have not succeeded, and for at least one; a
task that got past pending without being skipped has all its dependencies succeeded; and the
failures and skips of the result name failed and skipped tasks.

`Flight.Sound` adds that a coordinator waiting for its workers has nothing left to start or no
free permit. The main statements are `Flight.sound_launch` and `Flight.Sound.step`: the first
flight of a run is sound and every move keeps it so; hence `Flies.sound`, every flight a run
reaches is sound.
-/

namespace OrgDeploy

namespace Progress

variable {δ : Type} (g : TaskGraph δ)

/-- The dependencies of task `i` that have not succeeded, with multiplicity. -/
def unmet (p : Progress) (i : Nat) : Nat :=
  (g.prerequisitesOf i).countP fun d => p.statusOf d ≠ .succeeded

/-- The invariant of the coordinator's bookkeeping. -/
structure Sound (p : Progress) : Prop where
  status_size : p.status.size = g.size
  waiting_size : p.waiting.size = g.size
  mem_ready : ∀ i, i ∈ p.ready ↔ p.statusOf i = .ready
  ready_nodup : p.ready.Nodup
  mem_workers : ∀ i, i ∈ p.workers ↔ p.statusOf i = .running
  workers_nodup : p.workers.Nodup
  /-- A pending task waits for exactly its dependencies that have not succeeded. -/
  waiting_eq : ∀ i, p.statusOf i = .pending → p.waitingOf i = p.unmet g i
  /-- A pending task of the graph has a dependency that has not succeeded. -/
  unmet_pos : ∀ i < g.size, p.statusOf i = .pending → 0 < p.unmet g i
  /-- A task that got past pending and was not skipped had all its dependencies succeed. -/
  prerequisites_succeeded : ∀ i, p.statusOf i ≠ .pending → p.statusOf i ≠ .skipped →
    ∀ d ∈ g.prerequisitesOf i, p.statusOf d = .succeeded
  failed_named : ∀ x ∈ p.result.failed, ∃ i, idOf g i = x.1 ∧ p.statusOf i = .failed
  skipped_named : ∀ x ∈ p.result.skipped, ∃ i, idOf g i = x.1 ∧ p.statusOf i = .skipped

variable {g}

/-! ## Statuses and unmet dependencies -/

theorem statusOf_of_size_le {p : Progress} {i : Nat} (h : p.status.size ≤ i) :
    p.statusOf i = .pending := by
  simp [statusOf, Array.getElem?_eq_none h]

/-- Only tasks of the graph are ever anything but pending. -/
theorem Sound.lt_of_ne_pending {p : Progress} (hs : p.Sound g) {i : Nat}
    (h : p.statusOf i ≠ .pending) : i < g.size := by
  rw [← hs.status_size]
  exact Nat.lt_of_not_le fun hn => h (statusOf_of_size_le hn)

theorem Sound.exists_task {p : Progress} (hs : p.Sound g) {i : Nat}
    (h : p.statusOf i ≠ .pending) : ∃ t, g.tasks[i]? = some t := by
  have hlt : i < g.tasks.size := hs.lt_of_ne_pending h
  exact ⟨g.tasks[i], by simp [hlt]⟩

/-- The task of an outcome waiting to be taken is running. -/
theorem Sound.running_of_done {p : Progress} (hs : p.Sound g)
    {pre post : List (Nat × Except TaskError Outcome)} {i : Nat} {out : Except TaskError Outcome}
    (hd : p.done = pre ++ (i, out) :: post) : p.statusOf i = .running :=
  (hs.mem_workers i).1 ((workers_perm_take p hd).mem_iff.mpr List.mem_cons_self)

/-- Dependencies left unmet are counted by what has succeeded only. -/
theorem unmet_congr {p q : Progress}
    (h : ∀ d, q.statusOf d = .succeeded ↔ p.statusOf d = .succeeded) (i : Nat) :
    q.unmet g i = p.unmet g i := by
  unfold unmet
  congr 1
  funext d
  simp [h d]

theorem unmet_eq_zero {p : Progress} {i : Nat} :
    p.unmet g i = 0 ↔ ∀ d ∈ g.prerequisitesOf i, p.statusOf d = .succeeded := by
  simp [unmet, List.countP_eq_zero]

/-- The success of `k` meets each of its occurrences among the dependencies of a task. -/
theorem unmet_succeed {p q : Progress} {k : Nat} (hk : p.statusOf k ≠ .succeeded)
    (h : ∀ d, q.statusOf d = .succeeded ↔ d = k ∨ p.statusOf d = .succeeded) (i : Nat) :
    p.unmet g i = q.unmet g i + (g.prerequisitesOf i).count k := by
  unfold unmet
  induction g.prerequisitesOf i with
  | nil => simp
  | cons d l ih =>
    rw [List.countP_cons, List.countP_cons, List.count_cons, ih]
    by_cases hd : d = k
    · subst hd
      simp [hk, (h d).2 (.inl rfl)]
      omega
    · by_cases hp : p.statusOf d = .succeeded
      · simp [hp, hd, h d]
      · simp [hp, hd, h d]
        omega

/-! ## Operations that keep the invariant -/

/-- The invariant reads the statuses, the counts, the queue, the workers and the failures and
skips of the result, and nothing else. -/
theorem Sound.congr {p q : Progress} (hs : p.Sound g) (hstatus : q.status = p.status)
    (hwaiting : q.waiting = p.waiting) (hready : q.ready = p.ready)
    (hworkers : q.workers.Perm p.workers) (hfailed : q.result.failed = p.result.failed)
    (hskipped : q.result.skipped = p.result.skipped) : q.Sound g := by
  have hst : ∀ j, q.statusOf j = p.statusOf j := by simp [statusOf, hstatus]
  have hun : ∀ j, q.unmet g j = p.unmet g j := unmet_congr (by simp [hst])
  have hwt : ∀ j, q.waitingOf j = p.waitingOf j := by simp [waitingOf, hwaiting]
  exact {
    status_size := hstatus ▸ hs.status_size
    waiting_size := hwaiting ▸ hs.waiting_size
    mem_ready := by simpa [hready, hst] using hs.mem_ready
    ready_nodup := hready ▸ hs.ready_nodup
    mem_workers := by simpa [hworkers.mem_iff, hst] using hs.mem_workers
    workers_nodup := hworkers.nodup_iff.mpr hs.workers_nodup
    waiting_eq := by simpa [hst, hun, hwt] using hs.waiting_eq
    unmet_pos := by simpa [hst, hun] using hs.unmet_pos
    prerequisites_succeeded := by simpa [hst] using hs.prerequisites_succeeded
    failed_named := by simpa [hfailed, hst] using hs.failed_named
    skipped_named := by simpa [hskipped, hst] using hs.skipped_named }

theorem Sound.halt {p : Progress} (hs : p.Sound g) : p.halt.Sound g :=
  hs.congr rfl rfl rfl (List.Perm.refl _) rfl rfl

/-- Skipping a pending task of the graph keeps the invariant. -/
theorem Sound.skip {p : Progress} (hs : p.Sound g) {i : Nat} (hp : p.statusOf i = .pending)
    (hi : i < g.size) (r : SkipReason) : (p.skip g i r).Sound g := by
  have hlt : i < p.status.size := hs.status_size ▸ hi
  have hst : ∀ j, (p.skip g i r).statusOf j = if j = i then .skipped else p.statusOf j := by
    intro j
    rw [statusOf_skip]
    by_cases h : j = i
    · simp [h, hlt]
    · simp [h, Ne.symm h]
  have hsucc : ∀ d, (p.skip g i r).statusOf d = .succeeded ↔ p.statusOf d = .succeeded := by
    intro d; rw [hst]; by_cases h : d = i <;> simp [h, hp]
  -- a task other than `i` keeps its status
  have hother : ∀ j, (p.skip g i r).statusOf j ≠ .skipped → (p.skip g i r).statusOf j = p.statusOf j := by
    intro j hj; rw [hst] at hj ⊢; by_cases h : j = i <;> simp_all
  exact {
    status_size := by simp [hs.status_size]
    waiting_size := by simp [hs.waiting_size]
    mem_ready := fun j => by
      rw [ready_skip, hs.mem_ready, hst]; by_cases h : j = i <;> simp [h, hp]
    ready_nodup := by simpa using hs.ready_nodup
    mem_workers := fun j => by
      rw [workers_skip, hs.mem_workers, hst]; by_cases h : j = i <;> simp [h, hp]
    workers_nodup := by simpa using hs.workers_nodup
    waiting_eq := fun j hj => by
      rw [unmet_congr hsucc, hother j (by simp [hj])] at *
      exact hs.waiting_eq j hj
    unmet_pos := fun j hn hj => by
      rw [unmet_congr hsucc]
      exact hs.unmet_pos j hn (by rwa [hother j (by simp [hj])] at hj)
    prerequisites_succeeded := fun j h1 h2 d hd => by
      rw [hsucc]
      rw [hother j h2] at h1 h2
      exact hs.prerequisites_succeeded j h1 h2 d hd
    failed_named := fun x hx => by
      obtain ⟨k, hk, hkf⟩ := hs.failed_named x (by simpa using hx)
      exact ⟨k, hk, by rw [hst]; by_cases h : k = i <;> simp_all⟩
    skipped_named := fun x hx => by
      rw [result_skip] at hx
      rcases List.mem_append.mp hx with hx | hx
      · obtain ⟨k, hk, hks⟩ := hs.skipped_named x hx
        exact ⟨k, hk, by rw [hst]; by_cases h : k = i <;> simp_all⟩
      · exact ⟨i, by simp_all, by simp [hst]⟩ }

section Graph

variable (ha : TaskGraph.Adjacency g.size g.prerequisites g.dependents)
include ha

theorem dependentsOf_lt (i d : Nat) (h : d ∈ g.dependentsOf i) : d < g.size :=
  ha.down_lt i d h

/-- Skipping the dependents of a failure keeps the invariant. -/
theorem Sound.skipDependents {p : Progress} (hs : p.Sound g) (i : Nat) :
    (p.skipDependents g i).Sound g :=
  skipFrom_preserves g (fun q => q.Sound g) _ (dependentsOf_lt ha)
    (fun _ _ hq hj hn => hq.skip hj hn _) _ _ p
    (fun d hd => dependentsOf_lt ha i d (List.mem_reverse.mp hd)) hs

end Graph

/-- A halted run skips its ready tasks and keeps the invariant. -/
theorem Sound.skipReady {p : Progress} (hs : p.Sound g) : (p.skipReady g).Sound g := by
  have hst : ∀ j, (p.skipReady g).statusOf j =
      if p.statusOf j = .ready then .skipped else p.statusOf j := by
    intro j
    by_cases hr : p.statusOf j = .ready
    · have hlt : j < p.status.size := hs.status_size ▸ hs.lt_of_ne_pending (by simp [hr])
      simp [statusOf_skipReady, hs.mem_ready, hr, hlt]
    · simp [statusOf_skipReady, hs.mem_ready, hr]
  -- only ready tasks change, and they become skipped
  have hother : ∀ j, (p.skipReady g).statusOf j ≠ .skipped →
      (p.skipReady g).statusOf j = p.statusOf j := by
    intro j hj; rw [hst] at hj ⊢; by_cases h : p.statusOf j = .ready <;> simp_all
  have hsucc : ∀ d, (p.skipReady g).statusOf d = .succeeded ↔ p.statusOf d = .succeeded := by
    intro d; rw [hst]; by_cases h : p.statusOf d = .ready <;> simp [h]
  exact {
    status_size := by simp [hs.status_size]
    waiting_size := by simp [hs.waiting_size]
    mem_ready := fun j => by
      rw [hst, ready_skipReady]; by_cases h : p.statusOf j = .ready <;> simp [h]
    ready_nodup := by simp
    mem_workers := fun j => by
      rw [workers_skipReady, hst, hs.mem_workers]; by_cases h : p.statusOf j = .ready <;> simp [h]
    workers_nodup := by simpa using hs.workers_nodup
    waiting_eq := fun j hj => by
      have hw : (p.skipReady g).waitingOf j = p.waitingOf j := by simp [waitingOf]
      rw [hw, unmet_congr hsucc]
      exact hs.waiting_eq j (hother j (by simp [hj]) ▸ hj)
    unmet_pos := fun j hn hj => by
      rw [unmet_congr hsucc]
      exact hs.unmet_pos j hn (hother j (by simp [hj]) ▸ hj)
    prerequisites_succeeded := fun j h1 h2 d hd => by
      rw [hsucc]
      rw [hother j h2] at h1 h2
      exact hs.prerequisites_succeeded j h1 h2 d hd
    failed_named := fun x hx => by
      obtain ⟨k, hk, hkf⟩ := hs.failed_named x (by simpa using hx)
      exact ⟨k, hk, by rw [hst]; simp [hkf]⟩
    skipped_named := fun x hx => by
      rw [result_skipReady] at hx
      rcases List.mem_append.mp hx with hx | hx
      · obtain ⟨k, hk, hks⟩ := hs.skipped_named x hx
        exact ⟨k, hk, by rw [hst]; simp [hks]⟩
      · obtain ⟨k, hk, rfl⟩ := List.mem_map.mp hx
        exact ⟨k, rfl, by rw [hst]; simp [(hs.mem_ready k).1 hk]⟩ }

/-- With no task ready or running, abandoning tasks of the graph skips the pending ones and
keeps the invariant. -/
theorem Sound.foldl_abandon : ∀ (l : List Nat) {p : Progress}, (∀ i ∈ l, i < g.size) →
    p.Sound g → p.ready = [] → p.workers = [] →
    (l.foldl (abandon g) p).Sound g ∧ (l.foldl (abandon g) p).ready = [] ∧
      (l.foldl (abandon g) p).workers = []
  | [], _, _, hs, hr, hw => ⟨hs, hr, hw⟩
  | i :: l, p, hl, hs, hr, hw => by
    have hrest : ∀ j ∈ l, j < g.size := fun j hj => hl j (List.mem_cons_of_mem i hj)
    rw [List.foldl_cons]
    by_cases hp : p.statusOf i = .pending
    · rw [abandon_of_pending g p i hp]
      exact Sound.foldl_abandon l hrest (hs.skip hp (hl i List.mem_cons_self) _)
        (by simpa using hr) (by simpa using hw)
    · have hnr : p.statusOf i ≠ .ready := fun h => by simpa [hr] using (hs.mem_ready i).2 h
      have hnu : p.statusOf i ≠ .running := fun h => by simpa [hw] using (hs.mem_workers i).2 h
      rw [abandon_of_finished g p i hp hnr hnu]
      exact Sound.foldl_abandon l hrest hs hr hw

/-- Closing a run with no task ready or running keeps the invariant. -/
theorem Sound.finish {p : Progress} (hs : p.Sound g) (hr : p.ready = []) (hw : p.workers = []) :
    (p.finish g).Sound g := by
  obtain ⟨hs', -, -⟩ := Sound.foldl_abandon (List.range g.size) (fun i hi => List.mem_range.mp hi)
    hs hr hw
  exact hs'.congr rfl rfl rfl (List.Perm.refl _) rfl rfl

/-! ## Starting and taking the outcome of a worker -/

/-- The statuses after task `i` alone changed to `s`. -/
theorem statusOf_of_status_set {p q : Progress} {i : Nat} {s : TaskStatus} (hlt : i < p.status.size)
    (hstatus : q.status = p.status.set! i s) (j : Nat) :
    q.statusOf j = if j = i then s else p.statusOf j := by
  by_cases h : j = i
  · subst h; simp [statusOf, hstatus, hlt]
  · simp [statusOf, hstatus, h, Ne.symm h]

/-- Starting the first ready task keeps the invariant, once it holds a worker. -/
theorem Sound.start {p q : Progress} (hs : p.Sound g) {i : Nat} {rest : List Nat}
    (hr : p.ready = i :: rest) (hstatus : q.status = p.status.set! i .running)
    (hwaiting : q.waiting = p.waiting) (hready : q.ready = rest)
    (hworkers : q.workers.Perm (i :: p.workers)) (hfailed : q.result.failed = p.result.failed)
    (hskipped : q.result.skipped = p.result.skipped) : q.Sound g := by
  have hi : p.statusOf i = .ready := (hs.mem_ready i).1 (by simp [hr])
  have hlt : i < p.status.size := hs.status_size ▸ hs.lt_of_ne_pending (by simp [hi])
  have hst := statusOf_of_status_set hlt hstatus
  have hsucc : ∀ d, q.statusOf d = .succeeded ↔ p.statusOf d = .succeeded := by
    intro d; rw [hst]; by_cases h : d = i <;> simp [h, hi]
  have hnd : (i :: rest).Nodup := hr ▸ hs.ready_nodup
  have hnw : i ∉ p.workers := fun h => by simp [(hs.mem_workers i).1 h] at hi
  have hwt : ∀ j, q.waitingOf j = p.waitingOf j := by simp [waitingOf, hwaiting]
  exact {
    status_size := by simp [hstatus, hs.status_size]
    waiting_size := hwaiting ▸ hs.waiting_size
    mem_ready := fun j => by
      rw [hst, hready]
      by_cases h : j = i
      · subst h; simpa using (List.nodup_cons.mp hnd).1
      · simp [h, ← hs.mem_ready, hr]
    ready_nodup := hready ▸ (List.nodup_cons.mp hnd).2
    mem_workers := fun j => by
      rw [hworkers.mem_iff, hst]; by_cases h : j = i <;> simp [h, hs.mem_workers]
    workers_nodup := hworkers.nodup_iff.mpr (List.nodup_cons.mpr ⟨hnw, hs.workers_nodup⟩)
    waiting_eq := fun j hj => by
      have h : j ≠ i := fun h => by simp [hst, h] at hj
      rw [hst, if_neg h] at hj
      rw [hwt, unmet_congr hsucc]
      exact hs.waiting_eq j hj
    unmet_pos := fun j hn hj => by
      have h : j ≠ i := fun h => by simp [hst, h] at hj
      rw [hst, if_neg h] at hj
      rw [unmet_congr hsucc]
      exact hs.unmet_pos j hn hj
    prerequisites_succeeded := fun j h1 h2 d hd => by
      rw [hsucc]
      by_cases h : j = i
      · subst h; exact hs.prerequisites_succeeded j (by simp [hi]) (by simp [hi]) d hd
      · rw [hst, if_neg h] at h1 h2
        exact hs.prerequisites_succeeded j h1 h2 d hd
    failed_named := fun x hx => by
      obtain ⟨k, hk, hkf⟩ := hs.failed_named x (hfailed ▸ hx)
      have h : k ≠ i := fun h => by simp [h, hi] at hkf
      exact ⟨k, hk, by rw [hst, if_neg h, hkf]⟩
    skipped_named := fun x hx => by
      obtain ⟨k, hk, hks⟩ := hs.skipped_named x (hskipped ▸ hx)
      have h : k ≠ i := fun h => by simp [h, hi] at hks
      exact ⟨k, hk, by rw [hst, if_neg h, hks]⟩ }

/-- A running task that fails keeps the invariant, once it gave up its worker and the result
names its failure. -/
theorem Sound.fail {p q : Progress} (hs : p.Sound g) {i : Nat} (hi : p.statusOf i = .running)
    (hstatus : q.status = p.status.set! i .failed) (hwaiting : q.waiting = p.waiting)
    (hready : q.ready = p.ready) (hworkers : ∀ j, j ∈ q.workers ↔ j ∈ p.workers ∧ j ≠ i)
    (hnodup : q.workers.Nodup) {e : TaskError}
    (hfailed : q.result.failed = p.result.failed ++ [(idOf g i, e)])
    (hskipped : q.result.skipped = p.result.skipped) : q.Sound g := by
  have hlt : i < p.status.size := hs.status_size ▸ hs.lt_of_ne_pending (by simp [hi])
  have hst := statusOf_of_status_set hlt hstatus
  have hsucc : ∀ d, q.statusOf d = .succeeded ↔ p.statusOf d = .succeeded := by
    intro d; rw [hst]; by_cases h : d = i <;> simp [h, hi]
  -- every task but `i` keeps its status
  have hother : ∀ j, j ≠ i → q.statusOf j = p.statusOf j := by
    intro j h; simp [hst, h]
  have hwt : ∀ j, q.waitingOf j = p.waitingOf j := by simp [waitingOf, hwaiting]
  exact {
    status_size := by simp [hstatus, hs.status_size]
    waiting_size := hwaiting ▸ hs.waiting_size
    mem_ready := fun j => by
      rw [hready, hs.mem_ready, hst]; by_cases h : j = i <;> simp [h, hi]
    ready_nodup := hready ▸ hs.ready_nodup
    mem_workers := fun j => by
      rw [hworkers, hs.mem_workers, hst]; by_cases h : j = i <;> simp [h, hi]
    workers_nodup := hnodup
    waiting_eq := fun j hj => by
      have h : j ≠ i := fun h => by simp [hst, h] at hj
      rw [hother j h] at hj
      rw [hwt, unmet_congr hsucc]
      exact hs.waiting_eq j hj
    unmet_pos := fun j hn hj => by
      have h : j ≠ i := fun h => by simp [hst, h] at hj
      rw [hother j h] at hj
      rw [unmet_congr hsucc]
      exact hs.unmet_pos j hn hj
    prerequisites_succeeded := fun j h1 h2 d hd => by
      rw [hsucc]
      by_cases h : j = i
      · subst h; exact hs.prerequisites_succeeded j (by simp [hi]) (by simp [hi]) d hd
      · rw [hother j h] at h1 h2
        exact hs.prerequisites_succeeded j h1 h2 d hd
    failed_named := fun x hx => by
      rw [hfailed] at hx
      rcases List.mem_append.mp hx with hx | hx
      · obtain ⟨k, hk, hkf⟩ := hs.failed_named x hx
        have h : k ≠ i := fun h => by simp [h, hi] at hkf
        exact ⟨k, hk, by rw [hother k h, hkf]⟩
      · exact ⟨i, by simp_all, by simp [hst]⟩
    skipped_named := fun x hx => by
      obtain ⟨k, hk, hks⟩ := hs.skipped_named x (hskipped ▸ hx)
      have h : k ≠ i := fun h => by simp [h, hi] at hks
      exact ⟨k, hk, by rw [hother k h, hks]⟩ }

/-- A running task that succeeds keeps the invariant once its dependents are released, given it
gave up its worker: the dependents whose last unmet dependency it was become ready. -/
theorem Sound.succeed (ha : TaskGraph.Adjacency g.size g.prerequisites g.dependents)
    {p p1 : Progress} (hs : p.Sound g) {i : Nat} (hi : p.statusOf i = .running)
    (hstatus : p1.status = p.status.set! i .succeeded) (hwaiting : p1.waiting = p.waiting)
    (hready : p1.ready = p.ready) (hworkers : ∀ j, j ∈ p1.workers ↔ j ∈ p.workers ∧ j ≠ i)
    (hnodup : p1.workers.Nodup) (hfailed : p1.result.failed = p.result.failed)
    (hskipped : p1.result.skipped = p.result.skipped) :
    ((g.dependentsOf i).foldl release p1).Sound g := by
  have hlt : i < p.status.size := hs.status_size ▸ hs.lt_of_ne_pending (by simp [hi])
  have hst1 := statusOf_of_status_set hlt hstatus
  have hR : Released p1 (g.dependentsOf i) ((g.dependentsOf i).foldl release p1) :=
    foldl_release _ p1 fun d hd => by
      have := dependentsOf_lt ha i d hd
      simp [hstatus, hwaiting, hs.status_size, hs.waiting_size, this]
  generalize (g.dependentsOf i).foldl release p1 = q at hR
  have hwt1 : ∀ j, p1.waitingOf j = p.waitingOf j := by simp [waitingOf, hwaiting]
  -- a freed task was pending, and is not `i`
  have hfrees : ∀ j, p1.Frees (g.dependentsOf i) j → j ≠ i ∧ p.statusOf j = .pending := by
    intro j hf
    have h := hf.1
    rw [hst1] at h
    by_cases hj : j = i <;> simp_all
  have hkeep : ∀ j, p.statusOf j ≠ .pending → j ≠ i → q.statusOf j = p.statusOf j := by
    intro j hp hj
    have hf : ¬ p1.Frees (g.dependentsOf i) j := fun hf => hp (hfrees j hf).2
    rw [hR.statusOf_eq, if_neg hf, hst1, if_neg hj]
  have hsucc : ∀ d, q.statusOf d = .succeeded ↔ d = i ∨ p.statusOf d = .succeeded := by
    intro d
    rw [hR.statusOf_eq]
    by_cases hf : p1.Frees (g.dependentsOf i) d
    · have := hfrees d hf; simp_all
    · rw [if_neg hf, hst1]; by_cases hd : d = i <;> simp [hd]
  have hunmet : ∀ j, p.unmet g j = q.unmet g j + (g.prerequisitesOf j).count i :=
    unmet_succeed (by simp [hi]) hsucc
  have hcount : ∀ j, (g.dependentsOf i).count j = (g.prerequisitesOf j).count i :=
    fun j => ha.count_eq j i
  obtain ⟨new, hq, hnd, hmem⟩ := hR.ready_eq
  have hqw : q.workers = p1.workers := by rw [hR.frame]; rfl
  have hqr : q.result = p1.result := by rw [hR.frame]
  exact {
    status_size := by rw [hR.status_size, hstatus]; simp [hs.status_size]
    waiting_size := by rw [hR.waiting_size, hwaiting, hs.waiting_size]
    mem_ready := fun j => by
      rw [hq, hready, List.mem_append, hmem, hs.mem_ready, hR.statusOf_eq]
      by_cases hf : p1.Frees (g.dependentsOf i) j
      · simp [hf]
      · rw [if_neg hf, hst1]
        by_cases hj : j = i
        · subst hj; simp [hf, hi]
        · simp [hf, hj]
    ready_nodup := by
      rw [hq, hready]
      refine List.nodup_append.mpr ⟨hs.ready_nodup, hnd, fun a ha b hb hab => ?_⟩
      subst hab
      have h1 := (hs.mem_ready a).1 ha
      have h2 := (hfrees a ((hmem a).1 hb)).2
      simp [h1] at h2
    mem_workers := fun j => by
      rw [hqw, hworkers, hs.mem_workers, hR.statusOf_eq]
      by_cases hf : p1.Frees (g.dependentsOf i) j
      · have := hfrees j hf; simp_all
      · rw [if_neg hf, hst1]; by_cases hj : j = i <;> simp [hj, hi]
    workers_nodup := hqw ▸ hnodup
    waiting_eq := fun j hj => by
      rw [hR.statusOf_eq] at hj
      by_cases hf : p1.Frees (g.dependentsOf i) j
      · simp [hf] at hj
      · rw [if_neg hf, hst1] at hj
        by_cases h : j = i
        · simp [h] at hj
        · rw [if_neg h] at hj
          have := hunmet j
          rw [hR.waitingOf_eq, hwt1, hs.waiting_eq j hj, hcount]
          omega
    unmet_pos := fun j hn hj => by
      rw [hR.statusOf_eq] at hj
      by_cases hf : p1.Frees (g.dependentsOf i) j
      · simp [hf] at hj
      · rw [if_neg hf, hst1] at hj
        by_cases h : j = i
        · simp [h] at hj
        · rw [if_neg h] at hj
          -- not freed: it waits for more than this success brings, or it does not depend on `i`
          have hmore : (g.dependentsOf i).count j < p.waitingOf j := by
            by_cases hm : j ∈ g.dependentsOf i
            · have : ¬ p1.waitingOf j ≤ (g.dependentsOf i).count j := fun hle =>
                hf ⟨by rw [hst1, if_neg h]; exact hj, hm, hle⟩
              rw [hwt1] at this; omega
            · rw [List.count_eq_zero_of_not_mem hm, hs.waiting_eq j hj]
              exact hs.unmet_pos j hn hj
          have := hunmet j
          rw [hs.waiting_eq j hj, hcount] at hmore
          omega
    prerequisites_succeeded := fun j h1 h2 d hd => by
      rw [hsucc]
      by_cases hf : p1.Frees (g.dependentsOf i) j
      · -- freed now: its last unmet dependency was `i`
        obtain ⟨hji, hjp⟩ := hfrees j hf
        have hle := hf.2.2
        rw [hwt1, hs.waiting_eq j hjp, hcount, hunmet j] at hle
        have hzero : q.unmet g j = 0 := by omega
        have := unmet_eq_zero.mp hzero d hd
        exact (hsucc d).1 this
      · rw [hR.statusOf_eq, if_neg hf, hst1] at h1 h2
        by_cases h : j = i
        · subst h
          exact .inr (hs.prerequisites_succeeded j (by simp [hi]) (by simp [hi]) d hd)
        · rw [if_neg h] at h1 h2
          exact .inr (hs.prerequisites_succeeded j h1 h2 d hd)
    failed_named := fun x hx => by
      rw [hqr, hfailed] at hx
      obtain ⟨k, hk, hkf⟩ := hs.failed_named x hx
      have h : k ≠ i := fun h => by simp [h, hi] at hkf
      exact ⟨k, hk, by rw [hkeep k (by simp [hkf]) h, hkf]⟩
    skipped_named := fun x hx => by
      rw [hqr, hskipped] at hx
      obtain ⟨k, hk, hks⟩ := hs.skipped_named x hx
      have h : k ≠ i := fun h => by simp [h, hi] at hks
      exact ⟨k, hk, by rw [hkeep k (by simp [hks]) h, hks]⟩ }

/-- Taking the outcome of a finished worker keeps the invariant. -/
theorem Sound.take {σ : Type} (ha : TaskGraph.Adjacency g.size g.prerequisites g.dependents)
    {p : Progress} (hs : p.Sound g) {pre post : List (Nat × Except TaskError Outcome)} {i : Nat}
    {out : Except TaskError Outcome} (hd : p.done = pre ++ (i, out) :: post)
    (c : Collaborators δ σ) (opts : RunOptions) (outcome : Except TaskError Outcome) (w : σ) :
    (Progress.settle g c opts { p with done := pre ++ post } i outcome w).1.Sound g := by
  have hperm := workers_perm_take p hd
  have hnd := hperm.nodup_iff.mp hs.workers_nodup
  have hi : p.statusOf i = .running := (hs.mem_workers i).1 (hperm.mem_iff.mpr List.mem_cons_self)
  have hwk : ∀ j, j ∈ ({ p with done := pre ++ post } : Progress).workers ↔
      j ∈ p.workers ∧ j ≠ i := by
    intro j
    rw [hperm.mem_iff, List.mem_cons]
    constructor
    · intro h
      exact ⟨.inr h, fun hj => (List.nodup_cons.mp hnd).1 (hj ▸ h)⟩
    · rintro ⟨h | h, hj⟩
      · exact absurd h hj
      · exact h
  obtain ⟨t, ht⟩ : ∃ t, g.tasks[i]? = some t := hs.exists_task (by simp [hi])
  unfold Progress.settle
  rw [ht]
  cases outcome with
  | ok o => exact hs.succeed ha hi rfl rfl rfl hwk (List.nodup_cons.mp hnd).2 rfl rfl
  | error e =>
    have h2 := hs.fail hi (q := ({ p with done := pre ++ post } : Progress).markFailed i t.id e)
      rfl rfl rfl hwk (List.nodup_cons.mp hnd).2 (e := e) (by simp [markFailed, emit, ht]) rfl
    dsimp only
    split
    · exact (h2.skipDependents ha i).halt
    · exact h2.skipDependents ha i

/-! ## The first progress of a run -/

theorem mem_entryPoints {i : Nat} :
    i ∈ g.entryPoints ↔ i < g.size ∧ g.prerequisitesOf i = [] := by
  simp [TaskGraph.entryPoints]

/-- At the start of a run the tasks without dependencies are ready and all others pending. -/
theorem statusOf_launch {σ : Type} (w : σ) (j : Nat) :
    (Flight.launch g w).progress.statusOf j = if j ∈ g.entryPoints then .ready else .pending := by
  unfold statusOf Flight.launch
  rw [Array.getD_eq_getD_getElem?, getD_foldl_set]
  by_cases hj : j ∈ g.entryPoints
  · simp [hj, (mem_entryPoints.mp hj).1]
  · simp only [hj, false_and, ↓reduceIte, Array.getElem?_replicate]
    split <;> rfl

/-- The first progress of a run is sound: each pending task waits for all its dependencies. -/
theorem sound_launch {σ : Type} (ha : TaskGraph.Adjacency g.size g.prerequisites g.dependents)
    (w : σ) : (Flight.launch g w).progress.Sound g := by
  have hst := statusOf_launch (g := g) w
  have hwt : ∀ j, (Flight.launch g w).progress.waitingOf j = (g.prerequisitesOf j).length := by
    intro j
    simp only [Flight.launch, waitingOf, TaskGraph.prerequisitesOf, Array.getD_eq_getD_getElem?,
      Array.getElem?_map]
    cases g.prerequisites[j]? <;> rfl
  have hun : ∀ j, (Flight.launch g w).progress.unmet g j = (g.prerequisitesOf j).length := by
    intro j
    unfold unmet
    rw [List.countP_eq_length]
    intro d _
    rw [hst]; split <;> simp
  exact {
    status_size := by simp only [Flight.launch]; rw [size_foldl_set]; simp
    waiting_size := by simp [Flight.launch, ha.up_size]
    mem_ready := fun j => by
      rw [hst]; simp only [Flight.launch]; split <;> simp_all
    ready_nodup := (List.filter_sublist (l := List.range g.size)).nodup List.nodup_range
    mem_workers := fun j => by
      rw [hst]; simp only [Flight.launch, workers]; split <;> simp
    workers_nodup := by simp [Flight.launch, workers]
    waiting_eq := fun j _ => by rw [hwt, hun]
    unmet_pos := fun j hn hj => by
      rw [hun, List.length_pos_iff]
      intro hnil
      rw [hst, if_pos (mem_entryPoints.mpr ⟨hn, hnil⟩)] at hj
      cases hj
    prerequisites_succeeded := fun j h1 _ d hd => by
      rw [hst] at h1
      split at h1
      · rename_i hj
        rw [(mem_entryPoints.mp hj).2] at hd
        cases hd
      · exact absurd rfl h1
    failed_named := fun x hx => by simp [Flight.launch] at hx
    skipped_named := fun x hx => by simp [Flight.launch] at hx }

end Progress

theorem RunOptions.permits_pos (opts : RunOptions) : 0 < opts.permits :=
  Nat.lt_of_lt_of_le Nat.one_pos (Nat.le_max_left _ _)

namespace Flight

variable {δ σ : Type} {g : TaskGraph δ} {c : Collaborators δ σ} {opts : RunOptions}

/-- The invariant of a run in progress. -/
structure Sound (g : TaskGraph δ) (opts : RunOptions) (f : Flight σ) : Prop where
  progress : f.progress.Sound g
  /-- A coordinator waiting for its workers has nothing left to start, or no free permit. -/
  joining : f.stage = .joining → f.progress.ready = [] ∨ opts.permits ≤ f.progress.workers.length

/-! ## The executable run is a run -/

/-- A run can be extended at its front by one move. -/
theorem Flies.cons {f f' f'' : Flight σ} {m : Move} {ms : List Move} (hstep : Step g c opts f m f')
    (h : Flies g c opts f' ms f'') : Flies g c opts f (m :: ms) f'' := by
  induction h with
  | refl => exact .tail (.refl f) hstep
  | tail _ hlast ih => exact List.cons_append .. ▸ ih.tail hlast

end Flight

namespace Clock

variable {δ σ : Type}

/-- The worker `nextDue` picks is one of those it was asked about. -/
theorem mem_of_nextDue {k : Clock} :
    ∀ {xs : List Nat} {i d : Nat}, k.nextDue xs = some (i, d) → i ∈ xs
  | [], _, _, h => by simp [nextDue] at h
  | j :: rest, i, d, h => by
    unfold nextDue at h
    split at h
    · split at h <;> cases h
      · exact List.mem_cons_of_mem _ (mem_of_nextDue ‹_›)
      · exact List.mem_cons_self
    · cases h; exact List.mem_cons_self
    · exact List.mem_cons_of_mem _ (mem_of_nextDue h)

/-- With no worker to pick, none of those asked about has been run. -/
theorem lookup_eq_none_of_nextDue {k : Clock} :
    ∀ {xs : List Nat}, k.nextDue xs = none → ∀ i ∈ xs, k.due.lookup i = none
  | [], _, _, hi => by simp at hi
  | j :: rest, h, i, hi => by
    unfold nextDue at h
    split at h
    · split at h <;> cases h
    · cases h
    · rename_i hj
      rcases List.mem_cons.mp hi with rfl | hi
      · exact hj
      · exact lookup_eq_none_of_nextDue h i hi

/-- After a poll every worker has been run. -/
theorem lookup_poll_isSome (k : Clock) (g : TaskGraph δ) (c : Collaborators δ σ) (f : Flight σ)
    {i : Nat} (hi : i ∈ f.progress.executing) : ((k.poll g c f).due.lookup i).isSome := by
  rw [poll, List.lookup_append]
  cases hk : k.due.lookup i with
  | some _ => rfl
  | none =>
    simp [List.lookup_isSome_iff]
    exact ⟨hi, by simpa using hk⟩

/-- After a poll, no worker to pick means no worker at all. -/
theorem executing_eq_nil_of_nextDue_poll {k : Clock} {g : TaskGraph δ} {c : Collaborators δ σ}
    {f : Flight σ} (h : (k.poll g c f).nextDue f.progress.executing = none) :
    f.progress.executing = [] := by
  refine List.eq_nil_iff_forall_not_mem.mpr fun i hi => ?_
  have hnone := lookup_eq_none_of_nextDue h i hi
  simpa [hnone] using lookup_poll_isSome k g c f hi

end Clock

namespace Flight

variable {δ σ : Type} {g : TaskGraph δ} {c : Collaborators δ σ} {opts : RunOptions}

/-- Each move that `joinNext` makes is a move of a waiting coordinator. -/
theorem joinNext_step {k k' : Clock} {f f' : Flight σ} {m : Move} (hst : f.stage = .joining)
    (h : joinNext g c opts k f = (m, k', f')) : Step g c opts f m f' := by
  unfold joinNext at h
  split at h
  · rename_i i outcome rest hdone
    have hsplit : f.progress.done = [] ++ (i, outcome) :: rest := by simp [hdone]
    cases h; exact .settle hst hsplit
  · rename_i hdone
    dsimp only at h
    split at h
    · rename_i i d hnext
      cases h; exact .finish (by simp [hst]) (Clock.mem_of_nextDue hnext)
    · rename_i hnext
      cases h; exact .stop hst hdone (Clock.executing_eq_nil_of_nextDue_poll hnext)

/-- Each move that `advance` makes is a move of the run. -/
theorem advance_step {cancelled : Bool} {k k' : Clock} {f f' : Flight σ} {m : Move}
    (h : f.advance g c opts cancelled k = some (m, k', f')) : Step g c opts f m f' := by
  unfold advance at h
  split at h
  · cases h; exact .observe cancelled ‹_›
  · rename_i hst
    split at h
    · rename_i i rest hready
      split at h
      · cases h; exact .start hst hready ‹_›
      · cases h; exact .close hst (.inr (Nat.le_of_not_lt ‹_›))
    · cases h; exact .close hst (.inl ‹_›)
  · rename_i hst
    split at h
    · rename_i i d hnext
      split at h
      · cases h; exact .finish (by simp [hst]) (Clock.mem_of_nextDue hnext)
      · exact joinNext_step hst (Option.some.inj h)
    · exact joinNext_step hst (Option.some.inj h)
  · cases h

/-- The moves `drive` makes form a run. -/
theorem flies_drive (cancelled : Bool) :
    ∀ (fuel : Nat) (k : Clock) (f : Flight σ),
      ∃ ms, Flies g c opts f ms (f.drive g c opts cancelled fuel k)
  | 0, _, f => ⟨[], .refl f⟩
  | fuel + 1, k, f => by
    unfold drive
    split
    · exact ⟨[], .refl f⟩
    · rename_i m k' f' hadv
      obtain ⟨ms, hms⟩ := flies_drive cancelled fuel k' f'
      exact ⟨m :: ms, Flies.cons (advance_step hadv) hms⟩

section Graph

variable (ha : TaskGraph.Adjacency g.size g.prerequisites g.dependents)
include ha

theorem sound_launch (w : σ) : (launch g w).Sound g opts where
  progress := Progress.sound_launch ha w
  joining h := by simp [launch] at h

/-- Every move keeps the invariant. -/
theorem Sound.step {f f' : Flight σ} {m : Move} (hs : f.Sound g opts) (h : Step g c opts f m f') :
    f'.Sound g opts := by
  cases h with
  | observe cancelled h =>
    have hp : (if !f.progress.halted && cancelled then f.progress.halt else f.progress).Sound g := by
      split
      · exact hs.progress.halt
      · exact hs.progress
    unfold observed
    dsimp only
    generalize (if (!f.progress.halted && cancelled) = true then f.progress.halt else f.progress) = q
      at hp ⊢
    split
    · exact ⟨hp.skipReady, fun _ => .inl (Progress.ready_skipReady g q)⟩
    · exact ⟨hp, fun h => by cases h⟩
  | start h hready hfree =>
    rename_i i rest
    have hi : f.progress.statusOf i = .ready := (hs.progress.mem_ready i).1 (by simp [hready])
    obtain ⟨t, ht⟩ : ∃ t, g.tasks[i]? = some t := hs.progress.exists_task (by simp [hi])
    simp only [started, hready, ht]
    refine ⟨hs.progress.start hready rfl rfl rfl ?_ rfl rfl, fun h' => by simp [h] at h'⟩
    simp only [Progress.emit, Progress.workers, List.append_assoc, List.singleton_append]
    exact List.perm_middle
  | close h hend =>
    refine ⟨hs.progress, fun _ => hend.imp id fun hle => Nat.le_trans hle ?_⟩
    simp [Progress.workers]
  | finish h hi =>
    rename_i i
    have hrun : f.progress.statusOf i = .running :=
      (hs.progress.mem_workers i).1 (by simp [Progress.workers, hi])
    obtain ⟨t, ht⟩ : ∃ t, g.tasks[i]? = some t := hs.progress.exists_task (by simp [hrun])
    simp only [finished, ht]
    cases (execute c t).run f.world with
    | mk out w' =>
      have hperm := Progress.workers_perm_finish f.progress hi out
      exact ⟨hs.progress.congr rfl rfl rfl hperm rfl rfl,
        fun hj => by rw [hperm.length_eq]; exact hs.joining hj⟩
  | settle h hdone =>
    exact ⟨hs.progress.take ha hdone c opts _ f.world, fun h' => by simp [settled] at h'⟩
  | stop h hdone hidle =>
    have hw : f.progress.workers = [] := by simp [Progress.workers, hdone, hidle]
    have hr : f.progress.ready = [] := by
      rcases hs.joining h with hr | hle
      · exact hr
      · rw [hw] at hle; exact absurd hle (Nat.not_le.mpr opts.permits_pos)
    exact ⟨hs.progress.finish hr hw, fun h' => by simp [stopped] at h'⟩

/-- Every flight a run reaches is sound. -/
theorem Flies.sound {f f' : Flight σ} {ms : List Move} (h : Flies g c opts f ms f')
    (hs : f.Sound g opts) : f'.Sound g opts := by
  induction h with
  | refl => exact hs
  | tail _ hstep ih => exact ih.step ha hstep

end Graph

/-- What holds at the start of a run, and every move from a sound flight keeps, holds along every
run. -/
theorem Flies.invariant (ha : TaskGraph.Adjacency g.size g.prerequisites g.dependents)
    {P : List Move → Flight σ → Prop} {w : σ} (h0 : P [] (launch g w))
    (hstep : ∀ ms f m f', f.Sound g opts → Step g c opts f m f' → P ms f → P (ms ++ [m]) f')
    {ms : List Move} {f : Flight σ} (h : Flies g c opts (launch g w) ms f) : P ms f := by
  generalize hf : launch g w = f₀ at h
  induction h with
  | refl => subst hf; exact h0
  | tail hflies hs ih =>
    subst hf
    exact hstep _ _ _ _ (Flies.sound ha hflies (sound_launch ha w)) hs ih

end Flight

end OrgDeploy
