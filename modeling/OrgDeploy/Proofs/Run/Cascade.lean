import Mathlib
import OrgDeploy.Proofs.Run.Completion
import OrgDeploy.Proofs.Graph.Cycle

/-!
# Failures cascade to what depends on them

When a task fails, the coordinator skips every pending task that depends on it, directly or
not: `Progress.skipFrom` walks the dependents with a stack, skipping a pending task and pushing
its own dependents. This module says what that walk does and what it leaves behind over a run.

* `skipFrom_clears`: given as many rounds as the stack and the links of pending tasks,
  and `skipDependents` gives it that many, the walk leaves no task of its stack pending, and no
  dependent of a task it skipped;
* `skipFrom_reach`: the walk only changes pending tasks into skipped ones, all reachable from
  the stack, and names the failure as the reason of each skip;
* `Progress.Cascaded`: while a run is not halted, no dependent of a failed or skipped task is
  pending. Every move keeps it (`Flight.Step.cascaded`), and so, at the close of a run that was
  not halted, nothing is left pending (`Progress.Cascaded.nothing_pending`);
* `Progress.Explained`: a skip of the result is a halted run's skip, or names a failed task that
  the skipped task depends on, directly or not (`Flight.Step.explained`).

The moves change the halted flag and the count of failures in one way only, as
`Move.flagsAfter` says (`Flight.Step.flags`): an observed cancellation or a failure beyond the
tolerance halts the run, each failure adds one, and a halted run stays halted
(`Flight.Step.halted_of_halted`).
-/

namespace OrgDeploy

namespace TaskGraph

variable {δ : Type}

/-- The links of a graph are the dependents of its tasks, counted one task at a time. -/
theorem linkCount_eq (g : TaskGraph δ) :
    g.linkCount = ∑ j ∈ Finset.range g.size, (g.dependentsOf j).length := by
  have hsum : g.linkCount = ((List.range g.size).map fun j => (g.dependentsOf j).length).sum := by
    rw [linkCount, List.sum, List.foldr_map]
  rw [hsum]
  induction g.size with
  | zero => simp
  | succ n ih =>
    rw [List.range_succ, List.map_append, List.sum_append, ih, Finset.sum_range_succ]
    simp

/-- A task of a built graph depends on each task it is a dependent of. -/
theorem dependsOn_of_mem_dependentsOf {tasks : List (DeployTask δ)} {g : TaskGraph δ}
    (hg : TaskGraph.build tasks = .ok g) {x d : Nat} (h : d ∈ g.dependentsOf x) :
    g.DependsOn d x :=
  build_dependsOn hg ((build_built hg).adjacency_size.mem_up_of_mem_down h)

end TaskGraph

/-- Whether a task in this status will never succeed, so that its dependents never run. -/
def TaskStatus.blocking : TaskStatus → Bool
  | .failed | .skipped => true
  | _ => false

namespace Move

/-- The task whose failure a move takes. -/
def failed? : Move → Option Nat
  | .settle i (.error _) => some i
  | _ => none

/-- What a move does to the halted flag and the count of failures: a cancellation seen halts the
run, and a failure is counted and halts the run once failures exceed the tolerance. -/
def flagsAfter (opts : RunOptions) (m : Move) (fl : Bool × Nat) : Bool × Nat :=
  match m with
  | .observe cancelled => (fl.1 || cancelled, fl.2)
  | .settle _ (.error _) => (fl.1 || decide (opts.failureTolerance < fl.2 + 1), fl.2 + 1)
  | _ => fl

/-- A halted run stays halted. -/
theorem flagsAfter_halted (opts : RunOptions) (m : Move) {fl : Bool × Nat} (h : fl.1 = true) :
    (m.flagsAfter opts fl).1 = true := by
  unfold flagsAfter
  split <;> simp [h]

end Move

namespace Progress

variable {δ : Type} (g : TaskGraph δ)

/-! ## The walk over the dependents of a failure -/

/-- What each skip of a pending task within `R` keeps, the walk keeps, when `R` holds of the
stack and is closed under taking dependents. -/
theorem skipFrom_within (P : Progress → Prop) (R : Nat → Prop) (dep : TaskId)
    (hR : ∀ i d, R i → d ∈ g.dependentsOf i → R d)
    (hskip : ∀ p i, P p → p.statusOf i = .pending → R i →
      P (p.skip g i (.dependencyFailed dep))) :
    ∀ (fuel : Nat) (stack : List Nat) (p : Progress), (∀ j ∈ stack, R j) → P p →
      P (skipFrom g dep fuel stack p)
  | 0, _, p, _, hp => by simpa [skipFrom] using hp
  | fuel + 1, [], p, _, hp => by simpa [skipFrom] using hp
  | fuel + 1, i :: stack, p, hs, hp => by
    have hi : R i := hs i List.mem_cons_self
    have hrest : ∀ j ∈ stack, R j := fun j hj => hs j (List.mem_cons_of_mem i hj)
    by_cases hpi : p.statusOf i = .pending
    · have hpush : ∀ j ∈ (g.dependentsOf i).reverse ++ stack, R j := by
        intro j hj
        rcases List.mem_append.mp hj with hj | hj
        · exact hR i j hi (List.mem_reverse.mp hj)
        · exact hrest j hj
      simp only [skipFrom, hpi, bne_self_eq_false, Bool.false_eq_true, ↓reduceIte]
      exact skipFrom_within P R dep hR hskip fuel _ _ hpush (hskip p i hp hpi hi)
    · have hne : (p.statusOf i != .pending) = true := by simpa using hpi
      simp only [skipFrom, hne, ↓reduceIte]
      exact skipFrom_within P R dep hR hskip fuel stack p hrest hp

/-- The walk turns pending tasks of `R` into skipped ones and leaves every other status alone;
each skip it adds to the result names `dep` and a task of `R`. -/
theorem skipFrom_reach (R : Nat → Prop) (dep : TaskId) (hR : ∀ i d, R i → d ∈ g.dependentsOf i → R d)
    (fuel : Nat) (stack : List Nat) (p : Progress) (hs : ∀ j ∈ stack, R j) :
    (∀ j, (skipFrom g dep fuel stack p).statusOf j = p.statusOf j ∨
      (p.statusOf j = .pending ∧ (skipFrom g dep fuel stack p).statusOf j = .skipped ∧ R j)) ∧
    ∃ N, (skipFrom g dep fuel stack p).result.skipped = p.result.skipped ++ N ∧
      ∀ x ∈ N, x.2 = .dependencyFailed dep ∧ ∃ j, R j ∧ idOf g j = x.1 := by
  refine skipFrom_within g (fun q => (∀ j, q.statusOf j = p.statusOf j ∨
      (p.statusOf j = .pending ∧ q.statusOf j = .skipped ∧ R j)) ∧
    ∃ N, q.result.skipped = p.result.skipped ++ N ∧
      ∀ x ∈ N, x.2 = .dependencyFailed dep ∧ ∃ j, R j ∧ idOf g j = x.1) R dep hR ?_ fuel stack p
    hs ⟨fun _ => .inl rfl, [], by simp, by simp⟩
  rintro q i ⟨hst, N, hN, hx⟩ hq hi
  refine ⟨fun j => ?_, N ++ [(idOf g i, .dependencyFailed dep)], by simp [hN], ?_⟩
  · rw [statusOf_skip]
    split
    · rename_i hij
      obtain ⟨rfl, -⟩ := hij
      rcases hst i with h | h
      · exact .inr ⟨h ▸ hq, rfl, hi⟩
      · exact .inr ⟨h.1, rfl, hi⟩
    · exact hst j
  · intro x hmem
    rcases List.mem_append.mp hmem with hmem | hmem
    · exact hx x hmem
    · obtain rfl := List.mem_singleton.mp hmem
      exact ⟨rfl, i, hi, rfl⟩

/-- The walk leaves a status alone unless it was pending. -/
theorem statusOf_skipFrom_of_ne (dep : TaskId) (fuel : Nat) (stack : List Nat) (p : Progress)
    {j : Nat} (hj : p.statusOf j ≠ .pending) : (skipFrom g dep fuel stack p).statusOf j = p.statusOf j := by
  rcases (skipFrom_reach g (fun _ => True) dep (fun _ _ _ _ => trivial) fuel stack p
    (fun _ _ => trivial)).1 j with h | h
  · exact h
  · exact absurd h.1 hj

/-- The pending tasks' links still to be walked: each pending task of the graph counts its
dependents. -/
def pendingLinks (p : Progress) : Nat :=
  ∑ j ∈ Finset.range g.size, if p.statusOf j = .pending then (g.dependentsOf j).length else 0

theorem pendingLinks_le (p : Progress) : pendingLinks g p ≤ g.linkCount := by
  rw [TaskGraph.linkCount_eq]
  exact Finset.sum_le_sum fun j _ => by split <;> simp

/-- Skipping a pending task of the graph takes its dependents out of the pending links. -/
theorem pendingLinks_skip (p : Progress) {i : Nat} (hi : i < g.size) (hsize : p.status.size = g.size)
    (hp : p.statusOf i = .pending) (r : SkipReason) :
    pendingLinks g (p.skip g i r) + (g.dependentsOf i).length = pendingLinks g p := by
  have hmem : i ∈ Finset.range g.size := Finset.mem_range.mpr hi
  unfold pendingLinks
  rw [← Finset.add_sum_erase _ _ hmem, ← Finset.add_sum_erase _ _ hmem]
  have hrest : ∀ j ∈ (Finset.range g.size).erase i,
      (if (p.skip g i r).statusOf j = .pending then (g.dependentsOf j).length else 0) =
        if p.statusOf j = .pending then (g.dependentsOf j).length else 0 := by
    intro j hj
    have hj' : (p.skip g i r).statusOf j = p.statusOf j := by
      rw [statusOf_skip, if_neg fun h => Finset.ne_of_mem_erase hj h.1.symm]
    rw [hj']
  have hsk : (p.skip g i r).statusOf i = .skipped := by
    rw [statusOf_skip, if_pos ⟨rfl, hsize ▸ hi⟩]
  rw [Finset.sum_congr rfl hrest, hsk, hp]
  simp only [reduceCtorEq, ↓reduceIte, zero_add]
  omega

/-- Given a round for each task of the stack and each link of a pending task, the walk leaves
no task of its stack pending, and no dependent of a task that it turned from pending. -/
theorem skipFrom_clears (dep : TaskId) (hd : ∀ i d, d ∈ g.dependentsOf i → d < g.size) :
    ∀ (fuel : Nat) (stack : List Nat) (p : Progress), p.status.size = g.size →
      (∀ j ∈ stack, j < g.size) → stack.length + pendingLinks g p ≤ fuel →
      (∀ j ∈ stack, (skipFrom g dep fuel stack p).statusOf j ≠ .pending) ∧
      ∀ j, p.statusOf j = .pending → (skipFrom g dep fuel stack p).statusOf j ≠ .pending →
        ∀ d ∈ g.dependentsOf j, (skipFrom g dep fuel stack p).statusOf d ≠ .pending
  | 0, stack, p, _, _, hfuel => by
    -- no round left: the stack is empty, and nothing changed
    have hnil : stack = [] := List.eq_nil_of_length_eq_zero (by omega)
    subst hnil
    simp only [skipFrom, List.not_mem_nil, IsEmpty.forall_iff, implies_true, true_and]
    exact fun j hj hj' => absurd hj hj'
  | fuel + 1, [], p, _, _, _ => by
    simp only [skipFrom, List.not_mem_nil, IsEmpty.forall_iff, implies_true, true_and]
    exact fun j hj hj' => absurd hj hj'
  | fuel + 1, i :: stack, p, hsize, hs, hfuel => by
    have hi : i < g.size := hs i List.mem_cons_self
    have hrest : ∀ j ∈ stack, j < g.size := fun j hj => hs j (List.mem_cons_of_mem i hj)
    by_cases hpi : p.statusOf i = .pending
    · -- `i` is skipped and its dependents are pushed: the measure drops by one
      have hlinks := pendingLinks_skip g p hi hsize hpi (.dependencyFailed dep)
      set p' := p.skip g i (.dependencyFailed dep) with hp'
      have hsize' : p'.status.size = g.size := by simp [hp', hsize]
      have hpush : ∀ j ∈ (g.dependentsOf i).reverse ++ stack, j < g.size := by
        intro j hj
        rcases List.mem_append.mp hj with hj | hj
        · exact hd i j (List.mem_reverse.mp hj)
        · exact hrest j hj
      have hmeasure : ((g.dependentsOf i).reverse ++ stack).length + pendingLinks g p' ≤ fuel := by
        simp only [List.length_append, List.length_reverse, List.length_cons] at hfuel ⊢
        omega
      have hskipped : p'.statusOf i = .skipped := by
        rw [hp', statusOf_skip, if_pos ⟨rfl, hsize ▸ hi⟩]
      have hother : ∀ j, j ≠ i → p'.statusOf j = p.statusOf j := by
        intro j hj
        rw [hp', statusOf_skip, if_neg fun h => hj h.1.symm]
      obtain ⟨ih₁, ih₂⟩ := skipFrom_clears dep hd fuel _ p' hsize' hpush hmeasure
      simp only [skipFrom, hpi, bne_self_eq_false, Bool.false_eq_true, ↓reduceIte]
      rw [← hp']
      refine ⟨fun j hj => ?_, fun j hj hj' d hd' => ?_⟩
      · rcases List.mem_cons.mp hj with rfl | hj
        · rw [statusOf_skipFrom_of_ne g dep fuel _ p' (by simp [hskipped]), hskipped]
          simp
        · exact ih₁ j (List.mem_append_right _ hj)
      · by_cases hji : j = i
        · subst hji
          exact ih₁ d (List.mem_append_left _ (List.mem_reverse.mpr hd'))
        · exact ih₂ j (by rw [hother j hji]; exact hj) hj' d hd'
    · -- `i` is passed over: the stack shrinks
      have hne : (p.statusOf i != .pending) = true := by simpa using hpi
      have hmeasure : stack.length + pendingLinks g p ≤ fuel := by
        simp only [List.length_cons] at hfuel
        omega
      obtain ⟨ih₁, ih₂⟩ := skipFrom_clears dep hd fuel stack p hsize hrest hmeasure
      simp only [skipFrom, hne, ↓reduceIte]
      refine ⟨fun j hj => ?_, ih₂⟩
      rcases List.mem_cons.mp hj with rfl | hj
      · rw [statusOf_skipFrom_of_ne g dep fuel stack p hpi]
        exact hpi
      · exact ih₁ j hj

/-- Skipping the dependents of a task leaves none of them pending, and no dependent of a task
it skipped. -/
theorem skipDependents_clears (ha : TaskGraph.Adjacency g.size g.prerequisites g.dependents)
    (p : Progress) (hsize : p.status.size = g.size) (i : Nat) :
    (∀ d ∈ g.dependentsOf i, (p.skipDependents g i).statusOf d ≠ .pending) ∧
    ∀ j, p.statusOf j = .pending → (p.skipDependents g i).statusOf j ≠ .pending →
      ∀ d ∈ g.dependentsOf j, (p.skipDependents g i).statusOf d ≠ .pending := by
  have hd : ∀ i d, d ∈ g.dependentsOf i → d < g.size := fun i d h => ha.down_lt i d h
  obtain ⟨h₁, h₂⟩ := skipFrom_clears g (idOf g i) hd ((g.dependentsOf i).length + g.linkCount)
    (g.dependentsOf i).reverse p hsize (fun d hd' => hd i d (List.mem_reverse.mp hd'))
    (by rw [List.length_reverse]; exact Nat.add_le_add_left (pendingLinks_le g p) _)
  exact ⟨fun d hd' => h₁ d (List.mem_reverse.mpr hd'), h₂⟩

/-! ## The halted flag and the count of failures -/

/-- The halted flag and the count of failures. -/
def flags (p : Progress) : Bool × Nat := (p.halted, p.failures)

@[simp] theorem flags_skip (p : Progress) (i : Nat) (r : SkipReason) :
    (p.skip g i r).flags = p.flags := rfl

@[simp] theorem flags_release (p : Progress) (d : Nat) : (p.release d).flags = p.flags := by
  rw [release_spec]
  split <;> rfl

@[simp] theorem flags_skipReady (p : Progress) : (p.skipReady g).flags = p.flags := by
  obtain ⟨ev, hq⟩ := skipReady_spec g p
  rw [hq]
  rfl

@[simp] theorem flags_skipDependents (p : Progress) (i : Nat) :
    (p.skipDependents g i).flags = p.flags :=
  skipFrom_keeps g (fun q => q.flags = p.flags) _ (fun _ _ hq => hq) _ _ p rfl

@[simp] theorem flags_abandon (p : Progress) (i : Nat) : (p.abandon g i).flags = p.flags := by
  unfold abandon
  split <;> rfl

@[simp] theorem flags_finish (p : Progress) : (p.finish g).flags = p.flags :=
  foldl_keeps (fun q : Progress => q.flags = p.flags) (fun _ _ hq => by simpa using hq) _ _ rfl

/-- Taking an outcome changes the flags as `Move.flagsAfter` says. -/
theorem flags_settle {σ : Type} (c : Collaborators δ σ) (opts : RunOptions) (p : Progress)
    {i : Nat} {t : DeployTask δ} (ht : g.tasks[i]? = some t) (outcome : Except TaskError Outcome)
    (w : σ) : (settle g c opts p i outcome w).1.flags = (Move.settle i outcome).flagsAfter opts p.flags := by
  unfold settle
  rw [ht]
  cases outcome with
  | ok o =>
    exact foldl_keeps (fun q : Progress => q.flags = p.flags) (fun _ _ hq => by simpa using hq) _ _ rfl
  | error e =>
    -- the failure is counted before the tolerance is looked at
    have hq : ((p.markFailed i t.id e).skipDependents g i).flags = (p.halted, p.failures + 1) := by
      rw [flags_skipDependents]; rfl
    simp only [flags, Prod.mk.injEq] at hq
    dsimp only
    split
    · rename_i hc
      simp only [hq, Bool.and_eq_true, Bool.not_eq_eq_eq_not, Bool.not_true, decide_eq_true_eq] at hc
      simp [flags, halt, emit, Move.flagsAfter, hq, hc]
    · rename_i hc
      simp only [hq, Bool.and_eq_true, Bool.not_eq_eq_eq_not, Bool.not_true, decide_eq_true_eq,
        not_and] at hc
      cases hh : p.halted <;> simp_all [flags, Move.flagsAfter]

end Progress

namespace Progress

variable {δ : Type} (g : TaskGraph δ)

/-! ## Failures cascade while the run is not halted -/

/-- While a run is not halted, no dependent of a failed or skipped task is pending. -/
def Cascaded (p : Progress) : Prop :=
  p.halted = false → ∀ x, (p.statusOf x).blocking = true →
    ∀ d ∈ g.dependentsOf x, p.statusOf d ≠ .pending

variable {g}

/-- A change keeps the cascade when it halts nothing that was halted, makes no task pending, and
either a task that now blocks blocked before, or none of its dependents is left pending. -/
theorem Cascaded.of_change {p q : Progress} (hp : p.Cascaded g)
    (hhalt : q.halted = false → p.halted = false)
    (hpend : ∀ d, q.statusOf d = .pending → p.statusOf d = .pending)
    (hnew : ∀ x, (q.statusOf x).blocking = true →
      (p.statusOf x).blocking = true ∨ ∀ d ∈ g.dependentsOf x, q.statusOf d ≠ .pending) :
    q.Cascaded g := by
  intro hq x hx d hd hdq
  rcases hnew x hx with hpx | hclear
  · exact hp (hhalt hq) x hpx d hd (hpend d hdq)
  · exact hclear d hd hdq

theorem Cascaded.congr {p q : Progress} (hp : p.Cascaded g) (hstatus : q.status = p.status)
    (hhalt : q.halted = p.halted) : q.Cascaded g := by
  have hst : ∀ j, q.statusOf j = p.statusOf j := by simp [statusOf, hstatus]
  exact hp.of_change (by rw [hhalt]; exact id) (fun d h => hst d ▸ h) fun x hx => .inl (hst x ▸ hx)

/-- A halted run is cascaded: the invariant says nothing of it. -/
theorem cascaded_of_halted {p : Progress} (h : p.halted = true) : p.Cascaded g := by
  intro hf
  rw [h] at hf
  cases hf

/-- With nothing ready or running and the run not halted, a cascaded run has no task of the graph
pending: a pending task waits for a dependency that did not succeed, and the dependency, neither
ready nor running, is pending too, or blocks it. The dependency ranks lower, so this cannot go
on. -/
theorem Cascaded.nothing_pending {tasks : List (DeployTask δ)} (hg : TaskGraph.build tasks = .ok g)
    {p : Progress} (hs : p.Sound g) (hc : p.Cascaded g) (hh : p.halted = false) (hr : p.ready = [])
    (hw : p.workers = []) : ∀ j < g.size, p.statusOf j ≠ .pending := by
  have ha := (TaskGraph.build_built hg).adjacency_size
  obtain ⟨rank, hrank⟩ := (TaskGraph.build_built hg).ranked
  intro j
  induction hn : rank j using Nat.strong_induction_on generalizing j with
  | _ n ih =>
  intro hj hpend
  obtain ⟨d, hd, hdne⟩ : ∃ d ∈ g.prerequisitesOf j, p.statusOf d ≠ .succeeded := by
    simpa [unmet, List.countP_pos_iff] using hs.unmet_pos j hj hpend
  have hdlt : d < g.size := ha.up_lt j d hd
  have hblocks : (p.statusOf d).blocking = true → False := fun hb =>
    hc hh d hb j (ha.mem_down_of_mem_up hd) hpend
  cases hst : p.statusOf d with
  | pending => exact ih (rank d) (hn ▸ hrank j d (TaskGraph.build_dependsOn hg hd)) d rfl hdlt hst
  | ready => simpa [hr] using (hs.mem_ready d).2 hst
  | running => simpa [hw] using (hs.mem_workers d).2 hst
  | succeeded => exact hdne hst
  | failed => exact hblocks (by simp [hst, TaskStatus.blocking])
  | skipped => exact hblocks (by simp [hst, TaskStatus.blocking])

/-! ## Every skip is explained -/

variable (g) in
/-- A skip is explained by a halted run, or names a failed task that the skipped task depends on,
directly or not. -/
def Explains (p : Progress) (x : TaskId × SkipReason) : Prop :=
  (x.2 = .halted ∧ p.halted = true) ∨
    ∃ i k, idOf g i = x.1 ∧ x.2 = .dependencyFailed (idOf g k) ∧ p.statusOf k = .failed ∧
      Relation.TransGen g.DependsOn i k

variable (g) in
/-- Every skip of the result is explained. -/
def Explained (p : Progress) : Prop := ∀ x ∈ p.result.skipped, p.Explains g x

/-- An explanation stays one while halted runs stay halted and failed tasks failed. -/
theorem Explains.of_change {p q : Progress} {x : TaskId × SkipReason} (hx : p.Explains g x)
    (hhalt : p.halted = true → q.halted = true)
    (hfail : ∀ k, p.statusOf k = .failed → q.statusOf k = .failed) : q.Explains g x := by
  rcases hx with ⟨h1, h2⟩ | ⟨i, k, h1, h2, h3, h4⟩
  · exact .inl ⟨h1, hhalt h2⟩
  · exact .inr ⟨i, k, h1, h2, hfail k h3, h4⟩

theorem Explained.of_change {p q : Progress} (hp : p.Explained g)
    (hhalt : p.halted = true → q.halted = true)
    (hfail : ∀ k, p.statusOf k = .failed → q.statusOf k = .failed)
    {N : List (TaskId × SkipReason)} (hsk : q.result.skipped = p.result.skipped ++ N)
    (hN : ∀ x ∈ N, q.Explains g x) : q.Explained g := by
  intro x hx
  rw [hsk] at hx
  rcases List.mem_append.mp hx with hx | hx
  · exact (hp x hx).of_change hhalt hfail
  · exact hN x hx

variable (g) in
/-- Closing a run adds only skips of halted tasks to the result. -/
theorem finish_skipped (p : Progress) :
    ∃ N, (p.finish g).result.skipped = p.result.skipped ++ N ∧ ∀ x ∈ N, x.2 = .halted :=
  foldl_keeps (fun q : Progress => ∃ N, q.result.skipped = p.result.skipped ++ N ∧
      ∀ x ∈ N, x.2 = .halted)
    (fun q j ⟨N, hN, hx⟩ => by
      unfold abandon
      split
      · refine ⟨N ++ [(idOf g j, .halted)], by simp [hN], fun x hx' => ?_⟩
        rcases List.mem_append.mp hx' with h | h
        · exact hx x h
        · rw [List.mem_singleton.mp h]
      · refine ⟨N ++ [(idOf g j, .halted)], by simp [hN], fun x hx' => ?_⟩
        rcases List.mem_append.mp hx' with h | h
        · exact hx x h
        · rw [List.mem_singleton.mp h]
      · exact ⟨N, hN, hx⟩
      · exact ⟨N, hN, hx⟩)
    _ _ ⟨[], by simp, by simp⟩

variable (g) in
/-- Closing a run in which every task of the graph has come to an end skips nothing. -/
theorem finish_skipped_of_final (p : Progress) (h : ∀ j < g.size, (p.statusOf j).final = true) :
    (p.finish g).result.skipped = p.result.skipped := by
  have key : ∀ l : List Nat, (∀ j ∈ l, (p.statusOf j).final = true) →
      l.foldl (abandon g) p = p := by
    intro l
    induction l with
    | nil => exact fun _ => rfl
    | cons j l ih =>
      intro hl
      have hj := hl j List.mem_cons_self
      rw [List.foldl_cons, abandon_of_finished g p j (fun h => by simp [h, TaskStatus.final] at hj)
        (fun h => by simp [h, TaskStatus.final] at hj) (fun h => by simp [h, TaskStatus.final] at hj)]
      exact ih fun k hk => hl k (List.mem_cons_of_mem j hk)
  have hfold := key (List.range g.size) fun j hj => h j (List.mem_range.mp hj)
  unfold finish
  simp only [hfold, emit]

section Settle

variable {σ : Type} (ha : TaskGraph.Adjacency g.size g.prerequisites g.dependents)
  {p : Progress} (hsize : p.status.size = g.size) (hw : p.waiting.size = g.size)
  {i : Nat} (hi : p.statusOf i = .running) {t : DeployTask δ} (ht : g.tasks[i]? = some t)
  (c : Collaborators δ σ) (opts : RunOptions) (outcome : Except TaskError Outcome) (w : σ)
include ha hsize hw hi ht

/-- Taking the outcome of a running task keeps the cascade: a success only frees pending tasks,
and a failure skips every pending task that depends on it, directly or not. -/
theorem cascaded_settle (hp : p.Cascaded g) : (settle g c opts p i outcome w).1.Cascaded g := by
  have hlt : i < p.status.size := Nat.lt_of_not_le fun hn => by simp [statusOf_of_size_le hn] at hi
  unfold settle
  rw [ht]
  cases outcome with
  | ok o =>
    dsimp only
    have hR := foldl_release (g.dependentsOf i) (p.markSucceeded i t.id) fun d hd => by
      have := dependentsOf_lt ha i d hd
      simp [markSucceeded, emit, hsize, hw, this]
    have hms := statusOf_of_status_set (q := p.markSucceeded i t.id) hlt rfl
    have hflags : ((g.dependentsOf i).foldl release (p.markSucceeded i t.id)).flags = p.flags :=
      foldl_keeps (fun q : Progress => q.flags = p.flags) (fun _ _ hq => by simpa using hq) _ _ rfl
    refine hp.of_change (fun h => (congrArg Prod.fst hflags).symm.trans h) (fun d hd => ?_)
      (fun x hx => .inl ?_)
    · rw [hR.statusOf_eq, hms] at hd
      split at hd
      · cases hd
      · split at hd
        · cases hd
        · exact hd
    · rw [hR.statusOf_eq, hms] at hx
      split at hx
      · simp [TaskStatus.blocking] at hx
      · split at hx
        · simp [TaskStatus.blocking] at hx
        · exact hx
  | error e =>
    dsimp only
    have hr := statusOf_of_status_set (q := p.markFailed i t.id e) hlt rfl
    obtain ⟨hA, hB⟩ := skipDependents_clears g ha (p.markFailed i t.id e)
      (by simp [markFailed, emit, hsize]) i
    have hreach : ∀ j, ((p.markFailed i t.id e).skipDependents g i).statusOf j =
        (p.markFailed i t.id e).statusOf j ∨ ((p.markFailed i t.id e).statusOf j = .pending ∧
          ((p.markFailed i t.id e).skipDependents g i).statusOf j = .skipped ∧ True) :=
      (skipFrom_reach g (fun _ => True) _ (fun _ _ _ _ => trivial) _ _ _ fun _ _ => trivial).1
    have hflags := flags_skipDependents g (p.markFailed i t.id e) i
    have hq : ((p.markFailed i t.id e).skipDependents g i).Cascaded g := by
      refine hp.of_change (fun h => (congrArg Prod.fst hflags).symm.trans h) (fun d hd => ?_)
        (fun x hx => ?_)
      · rcases hreach d with h | ⟨-, h, -⟩
        · rw [h, hr] at hd
          split at hd
          · cases hd
          · exact hd
        · rw [h] at hd
          cases hd
      · by_cases hxi : x = i
        · subst hxi
          exact .inr hA
        · rcases hreach x with h | ⟨h1, -, -⟩
          · rw [h, hr, if_neg hxi] at hx
            exact .inl hx
          · exact .inr (hB x h1 fun h => by simp [h, TaskStatus.blocking] at hx)
    split
    · exact cascaded_of_halted rfl
    · exact hq

omit ha hsize hw hi in
/-- Taking an outcome adds to the skips of the result only for a failure, and then only skips that
name the failure, of tasks that depend on it, directly or not. -/
theorem skipped_settle {tasks : List (DeployTask δ)} (hg : TaskGraph.build tasks = .ok g) :
    ∃ N, (settle g c opts p i outcome w).1.result.skipped = p.result.skipped ++ N ∧
      ∀ x ∈ N, TaskStatus.ofOutcome outcome = .failed ∧ x.2 = .dependencyFailed (idOf g i) ∧
        ∃ j, idOf g j = x.1 ∧ Relation.TransGen g.DependsOn j i := by
  unfold settle
  rw [ht]
  cases outcome with
  | ok o =>
    refine ⟨[], ?_, by simp⟩
    dsimp only
    rw [result_foldl_release]
    simp [markSucceeded, emit]
  | error e =>
    -- the walk skips only tasks from which the failure can be reached
    have hR : ∀ a d, Relation.TransGen g.DependsOn a i → d ∈ g.dependentsOf a →
        Relation.TransGen g.DependsOn d i := fun a d ha hd =>
      .head (TaskGraph.dependsOn_of_mem_dependentsOf hg hd) ha
    obtain ⟨N, hN, hx⟩ := (skipFrom_reach g (fun j => Relation.TransGen g.DependsOn j i) (idOf g i)
      hR ((g.dependentsOf i).length + g.linkCount) (g.dependentsOf i).reverse
      (p.markFailed i t.id e) fun d hd =>
        .single (TaskGraph.dependsOn_of_mem_dependentsOf hg (List.mem_reverse.mp hd))).2
    have hmf : (p.markFailed i t.id e).result.skipped = p.result.skipped := rfl
    refine ⟨N, ?_, fun x hxN => ?_⟩
    · dsimp only
      split
      · exact (hN.trans (by rw [hmf]))
      · exact (hN.trans (by rw [hmf]))
    · obtain ⟨h1, j, hj, hid⟩ := hx x hxN
      exact ⟨rfl, h1, j, hid, hj⟩

end Settle

end Progress

namespace Flight

variable {δ σ : Type} {g : TaskGraph δ} {c : Collaborators δ σ} {opts : RunOptions}

/-! ## What each move does to the flags -/

/-- Every move changes the halted flag and the count of failures as `Move.flagsAfter` says. -/
theorem Step.flags {f f' : Flight σ} {m : Move} (hs : f.Sound g opts) (h : Step g c opts f m f') :
    f'.progress.flags = m.flagsAfter opts f.progress.flags := by
  cases h with
  | observe cancelled h =>
    unfold observed
    dsimp only
    generalize hq : (if (!f.progress.halted && cancelled) = true then f.progress.halt
      else f.progress) = q
    have hqf : q.flags = (f.progress.halted || cancelled, f.progress.failures) := by
      subst hq
      cases hh : f.progress.halted <;> cases cancelled <;>
        simp [hh, Progress.flags, Progress.halt, Progress.emit]
    split
    · rw [Progress.flags_skipReady, hqf]; rfl
    · rw [hqf]; rfl
  | start h hready hfree =>
    simp only [started, hready]
    split <;> rfl
  | close h hend => rfl
  | finish h hi =>
    simp only [finished]
    split <;> rfl
  | settle h hdone =>
    rename_i pre post i outcome
    have hi : f.progress.statusOf i = .running := hs.progress.running_of_done hdone
    obtain ⟨t, ht⟩ : ∃ t, g.tasks[i]? = some t := hs.progress.exists_task (by simp [hi])
    rw [settled_progress, Progress.flags_settle g c opts _ ht]
    rfl
  | stop h hdone hidle => exact Progress.flags_finish g f.progress

/-- Looking at the cancellation halts the run or changes nothing of its progress. -/
theorem observed_cases (f : Flight σ) (cancelled : Bool) :
    (f.observed g cancelled).progress.halted = true ∨ (f.observed g cancelled).progress = f.progress := by
  unfold observed
  dsimp only
  by_cases hc : (!f.progress.halted && cancelled) = true
  · rw [if_pos hc]
    exact .inl ((congrArg Prod.fst (Progress.flags_skipReady g f.progress.halt)).trans rfl)
  · rw [if_neg hc]
    split
    · exact .inl ((congrArg Prod.fst (Progress.flags_skipReady g f.progress)).trans ‹_›)
    · exact .inr rfl

/-- Starting the first ready task changes the status of no other task. -/
theorem started_statusOf_of_ne {f : Flight σ} {i j : Nat} {rest : List Nat}
    (hready : f.progress.ready = i :: rest) (hj : j ≠ i) :
    (f.started g).progress.statusOf j = f.progress.statusOf j := by
  simp only [started, hready]
  split
  · rfl
  · simp [Progress.statusOf, Progress.emit, Ne.symm hj]

/-- A halted run stays halted. -/
theorem Step.halted_of_halted {f f' : Flight σ} {m : Move} (hs : f.Sound g opts)
    (h : Step g c opts f m f') (hh : f.progress.halted = true) : f'.progress.halted = true :=
  (congrArg Prod.fst (Step.flags hs h)).trans (Move.flagsAfter_halted opts m hh)

section Graph

variable (ha : TaskGraph.Adjacency g.size g.prerequisites g.dependents)
include ha

/-- Every move keeps the cascade. -/
theorem Step.cascaded {f f' : Flight σ} {m : Move} (hs : f.Sound g opts) (h : Step g c opts f m f')
    (hc : f.progress.Cascaded g) : f'.progress.Cascaded g := by
  cases h with
  | observe cancelled h =>
    rcases observed_cases f cancelled with hh | heq
    · exact Progress.cascaded_of_halted hh
    · rw [heq]; exact hc
  | start h hready hfree =>
    rename_i i rest
    have hstep : Step g c opts f (.start i) (f.started g) := .start h hready hfree
    obtain ⟨-, hi'⟩ := Step.statusOf_started hs hstep
    have hhalt : (f.started g).progress.halted = f.progress.halted :=
      congrArg Prod.fst (Step.flags hs hstep)
    refine hc.of_change (by rw [hhalt]; exact id) (fun d hd => ?_) (fun x hx => .inl ?_)
    · by_cases hdi : d = i
      · subst hdi; rw [hi'] at hd; cases hd
      · rwa [started_statusOf_of_ne hready hdi] at hd
    · by_cases hxi : x = i
      · subst hxi; simp [hi', TaskStatus.blocking] at hx
      · rwa [started_statusOf_of_ne hready hxi] at hx
  | close h hend => exact hc
  | finish h hi =>
    simp only [finished]
    split
    · exact hc.congr rfl rfl
    · exact hc.congr rfl rfl
  | settle h hdone =>
    rename_i pre post i outcome
    have hi : f.progress.statusOf i = .running := hs.progress.running_of_done hdone
    obtain ⟨t, ht⟩ : ∃ t, g.tasks[i]? = some t := hs.progress.exists_task (by simp [hi])
    rw [settled_progress]
    exact Progress.cascaded_settle ha (p := { f.progress with done := pre ++ post })
      hs.progress.status_size hs.progress.waiting_size hi ht c opts outcome f.world (hc.congr rfl rfl)
  | stop h hdone hidle =>
    -- every task of the graph has come to an end
    intro _ x _ d hd hpend
    have hfin : ((f.stopped g).progress.statusOf d).final = true :=
      Progress.final_finish f.progress hs.progress.status_size (ha.down_lt x d hd)
    rw [hpend] at hfin
    cases hfin

/-- A failed task stays failed. -/
theorem Step.failed_of_failed {f f' : Flight σ} {m : Move} (hs : f.Sound g opts)
    (h : Step g c opts f m f') {k : Nat} (hk : f.progress.statusOf k = .failed) :
    f'.progress.statusOf k = .failed := by
  by_cases hm : m.task? = some k
  · -- the task a move starts was ready, the one whose outcome it takes was running
    exfalso
    cases m with
    | start i =>
      obtain rfl : i = k := by simpa [Move.task?] using hm
      simp [(Step.statusOf_started hs h).1] at hk
    | settle i o =>
      obtain rfl : i = k := by simpa [Move.task?] using hm
      simp [(Step.statusOf_settled ha hs h).1] at hk
    | _ => simp [Move.task?] at hm
  · exact ((Step.unstartedAt ha hs h hm).eq_of_started (by simp [hk, TaskStatus.started])).trans hk

end Graph

/-- Looking at the cancellation adds only skips of halted tasks to the result. -/
theorem observed_skipped (f : Flight σ) (cancelled : Bool) :
    ∃ N, (f.observed g cancelled).progress.result.skipped = f.progress.result.skipped ++ N ∧
      ∀ x ∈ N, x.2 = .halted := by
  unfold observed
  dsimp only
  generalize hq : (if (!f.progress.halted && cancelled) = true then f.progress.halt
    else f.progress) = q
  have hres : q.result = f.progress.result := by
    subst hq
    split <;> rfl
  split
  · refine ⟨q.ready.map fun i => (Progress.idOf g i, .halted), by simp [hres], ?_⟩
    intro x hx
    obtain ⟨i, -, rfl⟩ := List.mem_map.mp hx
    rfl
  · exact ⟨[], by simp [hres], by simp⟩

/-- Every move keeps each skip explained: a halted run skips as halted, and a failure skips what
depends on it; at the close of a run that was not halted nothing is left to skip. -/
theorem Step.explained {tasks : List (DeployTask δ)} (hg : TaskGraph.build tasks = .ok g)
    {f f' : Flight σ} {m : Move} (hs : f.Sound g opts) (h : Step g c opts f m f')
    (hc : f.progress.Cascaded g) (he : f.progress.Explained g) : f'.progress.Explained g := by
  have ha := (TaskGraph.build_built hg).adjacency_size
  have hhalt := Step.halted_of_halted hs h
  have hfail := fun k => Step.failed_of_failed ha hs h (k := k)
  cases h with
  | observe cancelled h =>
    obtain ⟨N, hN, hx⟩ := observed_skipped f cancelled
    refine he.of_change hhalt hfail hN fun x hxN => ?_
    rcases observed_cases f cancelled with hh | heq
    · exact .inl ⟨hx x hxN, hh⟩
    · -- nothing changed, so nothing was added
      rw [heq] at hN
      simp at hN
      simp [hN] at hxN
  | start h hready hfree =>
    refine he.of_change hhalt hfail (N := []) ?_ (by simp)
    simp only [started, hready]
    split <;> simp [Progress.emit]
  | close h hend => exact he
  | finish h hi =>
    refine he.of_change hhalt hfail (N := []) ?_ (by simp)
    simp only [finished]
    split
    · simp
    · split
      simp
  | settle h hdone =>
    rename_i pre post i outcome
    have hstep : Step g c opts f (.settle i outcome) (f.settled g c opts (pre ++ post) i outcome) :=
      .settle h hdone
    obtain ⟨-, hi'⟩ := Step.statusOf_settled ha hs hstep
    have hi : f.progress.statusOf i = .running := hs.progress.running_of_done hdone
    obtain ⟨t, ht⟩ : ∃ t, g.tasks[i]? = some t := hs.progress.exists_task (by simp [hi])
    obtain ⟨N, hN, hx⟩ := Progress.skipped_settle (p := { f.progress with done := pre ++ post })
      ht c opts outcome f.world hg
    refine he.of_change hhalt hfail hN fun x hxN => ?_
    obtain ⟨hfailed, hreason, j, hj, hdep⟩ := hx x hxN
    exact .inr ⟨j, i, hj, hreason, hi'.trans hfailed, hdep⟩
  | stop h hdone hidle =>
    obtain ⟨N, hN, hx⟩ := Progress.finish_skipped g f.progress
    refine he.of_change hhalt hfail hN fun x hxN => ?_
    cases hh : f.progress.halted
    · -- not halted: every task of the graph has come to an end, so the close skips nothing
      have hw : f.progress.workers = [] := by simp [Progress.workers, hdone, hidle]
      have hr : f.progress.ready = [] := by
        rcases hs.joining h with hr | hle
        · exact hr
        · rw [hw] at hle; exact absurd hle (Nat.not_le.mpr opts.permits_pos)
      have hpend := hc.nothing_pending hg hs.progress hh hr hw
      have hfinal : ∀ j < g.size, (f.progress.statusOf j).final = true := by
        intro j hj
        have hnr : f.progress.statusOf j ≠ .ready := fun e => by
          simpa [hr] using (hs.progress.mem_ready j).2 e
        have hnu : f.progress.statusOf j ≠ .running := fun e => by
          simpa [hw] using (hs.progress.mem_workers j).2 e
        cases hst : f.progress.statusOf j <;> simp_all [TaskStatus.final]
      rw [Progress.finish_skipped_of_final g f.progress hfinal] at hN
      simp at hN
      simp [hN] at hxN
    · exact .inl ⟨hx x hxN, (congrArg Prod.fst (Progress.flags_finish g f.progress)).trans hh⟩

/-! ## Over a whole run -/

theorem cascaded_launch (w : σ) : (launch g w).progress.Cascaded g := by
  intro _ x hx
  rw [Progress.statusOf_launch] at hx
  split at hx <;> simp [TaskStatus.blocking] at hx

theorem explained_launch (w : σ) : (launch g w).progress.Explained g := by
  intro x hx
  simp [launch] at hx

/-- Along every run of a built graph, failures cascade while the run is not halted, and every skip
is explained. -/
theorem Flies.cascaded {tasks : List (DeployTask δ)} (hg : TaskGraph.build tasks = .ok g) {w : σ}
    {ms : List Move} {f : Flight σ} (h : Flies g c opts (launch g w) ms f) :
    f.progress.Cascaded g ∧ f.progress.Explained g := by
  have ha := (TaskGraph.build_built hg).adjacency_size
  -- the two invariants go together: a move keeps the explanations only where the cascade held
  refine Flies.invariant ha (P := fun _ f => f.progress.Cascaded g ∧ f.progress.Explained g)
    ⟨cascaded_launch w, explained_launch w⟩ (fun _ _ _ _ hs hstep ⟨hc, he⟩ => ?_) h
  exact ⟨Step.cascaded ha hs hstep hc, Step.explained hg hs hstep hc he⟩

end Flight

end OrgDeploy
