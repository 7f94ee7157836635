import Mathlib
import OrgDeploy.Workflow.Run

/-!
# What the coordinator's operations do

The coordinator changes its `Progress` through a few operations: skipping a task, skipping what
depends on a failure, releasing the dependents of a success, skipping the ready tasks of a
halted run, and abandoning what is left at the close. This module says what each of them does to
the statuses, to the counts of dependencies still waited for and to the ready queue, so that the
invariant of runs never opens them.

The main statements are `foldl_release` (the release of a success's dependents frees exactly the
pending tasks it was the last unmet dependency of, each once, in order) and `skipFrom_preserves`
(what each skip of a pending task keeps, skipping a failure's dependents keeps).
-/

namespace OrgDeploy

theorem getElem?_setIfInBounds_getD {α : Type} (a : Array α) (i j : Nat) (s d : α) :
    (a.setIfInBounds i s)[j]?.getD d = if i = j ∧ i < a.size then s else a[j]?.getD d := by
  rw [Array.getElem?_setIfInBounds]
  by_cases h : i = j
  · subst h; by_cases h' : i < a.size <;> simp [h']
  · simp [h]

attribute [local simp] getElem?_setIfInBounds_getD

namespace Progress

variable {δ : Type} (g : TaskGraph δ)

/-! ## Views -/

/-- The number of dependencies task `j` still waits for. -/
def waitingOf (p : Progress) (j : Nat) : Nat := p.waiting.getD j 0

/-- The tasks that hold a worker: started and not finished, or finished with an outcome not yet
taken. -/
def workers (p : Progress) : List Nat := p.executing ++ p.done.map Prod.fst

@[simp] theorem idOf_of_getElem? {i : Nat} {t : DeployTask δ} (h : g.tasks[i]? = some t) :
    idOf g i = t.id := by
  simp [idOf, h]

/-- Taking an outcome gives up the worker of its task. -/
theorem workers_perm_take (p : Progress) {pre post : List (Nat × Except TaskError Outcome)}
    {i : Nat} {out : Except TaskError Outcome} (hd : p.done = pre ++ (i, out) :: post) :
    p.workers.Perm (i :: ({ p with done := pre ++ post } : Progress).workers) := by
  simp only [workers, hd, List.map_append, List.map_cons]
  rw [← List.append_assoc, ← List.append_assoc]
  exact List.perm_middle

/-- A finished worker's outcome waits in its place. -/
theorem workers_perm_finish (p : Progress) {i : Nat} (hi : i ∈ p.executing)
    (out : Except TaskError Outcome) :
    ({ p with executing := p.executing.erase i, done := p.done ++ [(i, out)] } : Progress).workers.Perm
      p.workers := by
  simp only [workers, List.map_append, List.map_cons, List.map_nil]
  -- the task moves from the started workers to the end of the finished ones
  have h1 : (p.executing.erase i ++ (p.done.map Prod.fst ++ [i])).Perm
      (i :: (p.executing.erase i ++ p.done.map Prod.fst)) := by
    rw [← List.append_assoc]; exact List.perm_append_singleton _ _
  have h2 : (i :: (p.executing.erase i ++ p.done.map Prod.fst)).Perm
      (p.executing ++ p.done.map Prod.fst) := by
    rw [← List.cons_append]
    exact List.Perm.append_right _ (List.perm_cons_erase hi).symm
  exact h1.trans h2

/-! ## Skipping -/

theorem statusOf_skip (p : Progress) (i j : Nat) (r : SkipReason) :
    (p.skip g i r).statusOf j = if i = j ∧ i < p.status.size then .skipped else p.statusOf j := by
  simp [skip, emit, statusOf]

@[simp] theorem size_status_skip (p : Progress) (i : Nat) (r : SkipReason) :
    (p.skip g i r).status.size = p.status.size := by
  simp [skip, emit]

@[simp] theorem waiting_skip (p : Progress) (i : Nat) (r : SkipReason) :
    (p.skip g i r).waiting = p.waiting := rfl

@[simp] theorem ready_skip (p : Progress) (i : Nat) (r : SkipReason) :
    (p.skip g i r).ready = p.ready := rfl

@[simp] theorem workers_skip (p : Progress) (i : Nat) (r : SkipReason) :
    (p.skip g i r).workers = p.workers := rfl

@[simp] theorem result_skip (p : Progress) (i : Nat) (r : SkipReason) :
    (p.skip g i r).result = { p.result with skipped := p.result.skipped ++ [(idOf g i, r)] } := rfl

/-- Skipping tasks one after the other, for one reason: each listed task is skipped, and the
result names them in order; nothing else but the events changes. -/
theorem foldl_skip (r : SkipReason) :
    ∀ (l : List Nat) (p : Progress), ∃ ev,
      l.foldl (fun p i => p.skip g i r) p =
        { p with status := l.foldl (fun s i => s.set! i .skipped) p.status,
                 result := { p.result with
                   skipped := p.result.skipped ++ l.map (fun i => (idOf g i, r)) },
                 events := ev }
  | [], p => ⟨p.events, by simp⟩
  | i :: l, p => by
    obtain ⟨ev, h⟩ := foldl_skip r l (p.skip g i r)
    refine ⟨ev, ?_⟩
    rw [List.foldl_cons, h]
    simp [skip, emit]

theorem size_foldl_set {α : Type} (v : α) :
    ∀ (l : List Nat) (a : Array α), (l.foldl (fun s i => s.set! i v) a).size = a.size
  | [], _ => rfl
  | i :: l, a => by rw [List.foldl_cons, size_foldl_set v l]; simp

theorem getD_foldl_set {α : Type} (v d : α) (j : Nat) :
    ∀ (l : List Nat) (a : Array α),
      (l.foldl (fun s i => s.set! i v) a)[j]?.getD d = if j ∈ l ∧ j < a.size then v else a[j]?.getD d
  | [], _ => by simp
  | i :: l, a => by
    rw [List.foldl_cons, getD_foldl_set v d j l]
    by_cases hj : j ∈ l <;> by_cases hi : i = j
    · simp_all
    · simp_all
    · subst hi; simp_all
    · have : j ≠ i := Ne.symm hi
      simp_all

/-- Skipping the dependents of a failure keeps whatever each skip of a pending task within the
graph keeps. -/
theorem skipFrom_preserves (P : Progress → Prop) (dep : TaskId)
    (hd : ∀ i d, d ∈ g.dependentsOf i → d < g.size)
    (hskip : ∀ p i, P p → p.statusOf i = .pending → i < g.size →
      P (p.skip g i (.dependencyFailed dep))) :
    ∀ (fuel : Nat) (stack : List Nat) (p : Progress), (∀ j ∈ stack, j < g.size) → P p →
      P (skipFrom g dep fuel stack p)
  | 0, _, p, _, hp => by simpa [skipFrom] using hp
  | fuel + 1, [], p, _, hp => by simpa [skipFrom] using hp
  | fuel + 1, i :: stack, p, hs, hp => by
    have hi : i < g.size := hs i List.mem_cons_self
    have hrest : ∀ j ∈ stack, j < g.size := fun j hj => hs j (List.mem_cons_of_mem i hj)
    by_cases hpi : p.statusOf i = .pending
    · -- the task is skipped and its own dependents go on the stack
      have hpush : ∀ j ∈ (g.dependentsOf i).reverse ++ stack, j < g.size := by
        intro j hj
        rcases List.mem_append.mp hj with hj | hj
        · exact hd i j (List.mem_reverse.mp hj)
        · exact hrest j hj
      simp only [skipFrom, hpi, bne_self_eq_false, Bool.false_eq_true, ↓reduceIte]
      exact skipFrom_preserves P dep hd hskip fuel _ _ hpush (hskip p i hp hpi hi)
    · have hne : (p.statusOf i != .pending) = true := by simpa using hpi
      simp only [skipFrom, hne, ↓reduceIte]
      exact skipFrom_preserves P dep hd hskip fuel stack p hrest hp

/-- A halted run skips its ready tasks, in queue order, and empties the queue. -/
theorem skipReady_spec (p : Progress) :
    ∃ ev, p.skipReady g =
      { p with ready := [], status := p.ready.foldl (fun s i => s.set! i .skipped) p.status,
               result := { p.result with
                 skipped := p.result.skipped ++ p.ready.map (fun i => (idOf g i, .halted)) },
               events := ev } := by
  obtain ⟨ev, h⟩ := foldl_skip g .halted p.ready { p with ready := [] }
  exact ⟨ev, h⟩

theorem statusOf_skipReady (p : Progress) (j : Nat) :
    (p.skipReady g).statusOf j = if j ∈ p.ready ∧ j < p.status.size then .skipped else p.statusOf j := by
  obtain ⟨ev, hq⟩ := skipReady_spec g p
  rw [hq]
  unfold statusOf
  rw [Array.getD_eq_getD_getElem?, Array.getD_eq_getD_getElem?]
  exact getD_foldl_set _ _ _ _ _

@[simp] theorem size_status_skipReady (p : Progress) :
    (p.skipReady g).status.size = p.status.size := by
  obtain ⟨ev, hq⟩ := skipReady_spec g p
  rw [hq]
  exact size_foldl_set _ _ _

@[simp] theorem waiting_skipReady (p : Progress) : (p.skipReady g).waiting = p.waiting := by
  obtain ⟨ev, hq⟩ := skipReady_spec g p
  rw [hq]

@[simp] theorem ready_skipReady (p : Progress) : (p.skipReady g).ready = [] := by
  obtain ⟨ev, hq⟩ := skipReady_spec g p
  rw [hq]

@[simp] theorem workers_skipReady (p : Progress) : (p.skipReady g).workers = p.workers := by
  obtain ⟨ev, hq⟩ := skipReady_spec g p
  rw [hq]; rfl

@[simp] theorem result_skipReady (p : Progress) :
    (p.skipReady g).result = { p.result with
      skipped := p.result.skipped ++ p.ready.map (fun i => (idOf g i, .halted)) } := by
  obtain ⟨ev, hq⟩ := skipReady_spec g p
  rw [hq]

/-- At the close, a pending task is skipped as halted. -/
theorem abandon_of_pending (p : Progress) (i : Nat) (h : p.statusOf i = .pending) :
    p.abandon g i = p.skip g i .halted := by
  simp [abandon, h]

/-- At the close, a task that succeeded, failed or was skipped is left as it is. -/
theorem abandon_of_finished (p : Progress) (i : Nat) (hp : p.statusOf i ≠ .pending)
    (hr : p.statusOf i ≠ .ready) (hu : p.statusOf i ≠ .running) : p.abandon g i = p := by
  unfold abandon
  split <;> simp_all

/-! ## Releasing the dependents of a success -/

/-- A dependent is released by a success: it becomes ready when its count of dependencies
still to succeed drops to zero. -/
theorem release_spec (p : Progress) (d : Nat) :
    p.release d =
      if p.waitingOf d ≤ 1 ∧ p.statusOf d = .pending then
        { p with waiting := p.waiting.set! d (p.waitingOf d - 1),
                 status := p.status.set! d .ready, ready := p.ready ++ [d] }
      else { p with waiting := p.waiting.set! d (p.waitingOf d - 1) } := by
  simp [release, statusOf, waitingOf, Nat.sub_eq_zero_iff_le]

/-- A task is freed by the successes of `L` when it is pending and `L` names it at least as
often as it still waits. -/
def Frees (p : Progress) (L : List Nat) (j : Nat) : Prop :=
  p.statusOf j = .pending ∧ j ∈ L ∧ p.waitingOf j ≤ L.count j

instance (p : Progress) (L : List Nat) (j : Nat) : Decidable (p.Frees L j) :=
  inferInstanceAs (Decidable (_ ∧ _ ∧ _))

theorem release_status_size (p : Progress) (d : Nat) : (p.release d).status.size = p.status.size := by
  rw [release_spec]; split <;> simp

theorem release_waiting_size (p : Progress) (d : Nat) :
    (p.release d).waiting.size = p.waiting.size := by
  rw [release_spec]; split <;> simp

theorem statusOf_release (p : Progress) (d j : Nat) (hd : d < p.status.size) :
    (p.release d).statusOf j =
      if j = d ∧ p.waitingOf d ≤ 1 ∧ p.statusOf d = .pending then .ready else p.statusOf j := by
  rw [release_spec]
  by_cases hj : j = d
  · subst hj; split <;> simp_all [statusOf]
  · split <;> simp_all [statusOf, Ne.symm hj]

theorem waitingOf_release (p : Progress) (d j : Nat) :
    (p.release d).waitingOf j = if j = d then p.waitingOf d - 1 else p.waitingOf j := by
  -- both branches of a release write the same count
  have h : (p.waiting.set! d (p.waitingOf d - 1)).getD j 0 =
      if j = d then p.waitingOf d - 1 else p.waitingOf j := by
    by_cases hj : j = d
    · subst hj; by_cases hw : j < p.waiting.size <;> simp [hw, waitingOf]
    · simp [Ne.symm hj, hj, waitingOf]
  rw [release_spec]
  split <;> exact h

theorem ready_release (p : Progress) (d : Nat) :
    (p.release d).ready =
      if p.waitingOf d ≤ 1 ∧ p.statusOf d = .pending then p.ready ++ [d] else p.ready := by
  rw [release_spec]; split <;> simp_all

/-- What releasing the dependents `L` of a success does to a progress `p`, giving `q`. -/
structure Released (p : Progress) (L : List Nat) (q : Progress) : Prop where
  status_size : q.status.size = p.status.size
  waiting_size : q.waiting.size = p.waiting.size
  statusOf_eq : ∀ j, q.statusOf j = if Frees p L j then .ready else p.statusOf j
  waitingOf_eq : ∀ j, q.waitingOf j = p.waitingOf j - L.count j
  ready_eq : ∃ new, q.ready = p.ready ++ new ∧ new.Nodup ∧ ∀ j, j ∈ new ↔ Frees p L j
  frame : q = { p with status := q.status, waiting := q.waiting, ready := q.ready }

theorem released_nil (p : Progress) : Released p [] p where
  status_size := rfl
  waiting_size := rfl
  statusOf_eq j := by simp [Frees]
  waitingOf_eq j := by simp
  ready_eq := ⟨[], by simp, by simp, by simp [Frees]⟩
  frame := rfl

/-- Freed by `d :: L`: freed by the release of `d` at once, or by the rest afterwards. -/
theorem frees_cons_iff (p : Progress) (d j : Nat) (L : List Nat) (hd : d < p.status.size) :
    p.Frees (d :: L) j ↔
      (j = d ∧ p.waitingOf d ≤ 1 ∧ p.statusOf d = .pending) ∨ (p.release d).Frees L j := by
  by_cases hj : j = d
  · subst hj
    by_cases hc : p.waitingOf j ≤ 1 ∧ p.statusOf j = .pending
    · have hr : (p.release j).statusOf j = .ready := by
        rw [statusOf_release p j j hd]; simp [hc]
      simp only [Frees, hr, hc]
      simp; omega
    · have hs : (p.release j).statusOf j = p.statusOf j := by
        rw [statusOf_release p j j hd]; simp [hc]
      simp only [Frees, hs, waitingOf_release, List.count_cons_self, List.mem_cons]
      grind [List.count_pos_iff]
  · have hs : (p.release d).statusOf j = p.statusOf j := by
      rw [statusOf_release p d j hd]; simp [hj]
    simp [Frees, hs, waitingOf_release, hj, Ne.symm hj]

theorem Released.cons {p q : Progress} {d : Nat} {L : List Nat} (hd : d < p.status.size)
    (h : Released (p.release d) L q) : Released p (d :: L) q where
  status_size := h.status_size.trans (release_status_size p d)
  waiting_size := h.waiting_size.trans (release_waiting_size p d)
  statusOf_eq j := by
    rw [h.statusOf_eq, statusOf_release p d j hd]
    have hf := frees_cons_iff p d j L hd
    by_cases h1 : (p.release d).Frees L j
    · rw [if_pos h1, if_pos (hf.2 (.inr h1))]
    · rw [if_neg h1]
      by_cases h2 : j = d ∧ p.waitingOf d ≤ 1 ∧ p.statusOf d = .pending
      · rw [if_pos h2, if_pos (hf.2 (.inl h2))]
      · rw [if_neg h2, if_neg fun h3 => (hf.1 h3).elim h2 h1]
  waitingOf_eq j := by
    rw [h.waitingOf_eq, waitingOf_release]
    by_cases hj : j = d
    · subst hj; simp; omega
    · simp [hj, Ne.symm hj]
  ready_eq := by
    obtain ⟨new, hq, hnd, hmem⟩ := h.ready_eq
    rw [hq, ready_release]
    by_cases hc : p.waitingOf d ≤ 1 ∧ p.statusOf d = .pending
    · -- `d` joins the ready tasks first
      have hr : (p.release d).statusOf d = .ready := by
        rw [statusOf_release p d d hd]; simp [hc]
      have hnot : d ∉ new := fun hm => by simp [(hmem d).1 hm |>.1] at hr
      refine ⟨d :: new, by simp [hc], List.nodup_cons.mpr ⟨hnot, hnd⟩, fun j => ?_⟩
      rw [frees_cons_iff p d j L hd, List.mem_cons, hmem]
      simp [hc]
    · refine ⟨new, by simp [hc], hnd, fun j => ?_⟩
      rw [frees_cons_iff p d j L hd, hmem]
      simp [hc]
  frame := by
    have hf := h.frame
    rw [release_spec] at hf
    split at hf <;> exact hf

theorem foldl_release (L : List Nat) (p : Progress)
    (hL : ∀ d ∈ L, d < p.status.size ∧ d < p.waiting.size) : Released p L (L.foldl release p) := by
  induction L generalizing p with
  | nil => exact released_nil p
  | cons d L ih =>
    have hd := hL d List.mem_cons_self
    rw [List.foldl_cons]
    refine Released.cons hd.1 (ih (p.release d) fun e he => ?_)
    rw [release_status_size, release_waiting_size]
    exact hL e (List.mem_cons_of_mem d he)

/-- Releasing dependents leaves the result alone. -/
@[simp] theorem result_release (p : Progress) (d : Nat) : (p.release d).result = p.result := by
  unfold release
  dsimp only
  split <;> rfl

theorem result_foldl_release (L : List Nat) (p : Progress) :
    (L.foldl release p).result = p.result := by
  induction L generalizing p with
  | nil => rfl
  | cons d L ih => rw [List.foldl_cons, ih, result_release]

/-- Skipping the dependents of a failure adds no success to the result. -/
theorem result_succeeded_skipFrom (dep : TaskId) :
    ∀ (fuel : Nat) (stack : List Nat) (p : Progress),
      (skipFrom g dep fuel stack p).result.succeeded = p.result.succeeded
  | 0, _, p => by simp [skipFrom]
  | fuel + 1, [], p => by simp [skipFrom]
  | fuel + 1, i :: stack, p => by
    unfold skipFrom
    split
    · exact result_succeeded_skipFrom dep fuel stack p
    · rw [result_succeeded_skipFrom dep fuel]
      simp

end Progress

end OrgDeploy
