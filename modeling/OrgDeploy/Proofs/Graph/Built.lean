import OrgDeploy.Workflow.Graph

/-!
# What a built graph is

`TaskGraph.build` checks a task list three times over (repeated ids, unknown dependencies, a
cycle) and links it on the way. This file reads its success back as facts about the graph it
returns (`Built`):

* the tasks are the given ones, in order, and their ids are distinct;
* the adjacency lists are `Adjacency`: every position in range, and each dependency edge
  recorded as often in the dependent's `prerequisites` as in the dependency's `dependents`;
* every id a task depends on names a task, whose position is among the task's prerequisites.

The folds of `links` run in `Except`; `foldlM_ok_invariant` and `foldlM_ok_each` read a
successful fold step by step.

Headline: **`build_built`**.
-/

namespace OrgDeploy

/-! ## Monadic folds that succeed -/

section Folds

variable {α β ε : Type} {f : β → α → Except ε β}

/-- What every step of a successful fold keeps holds at its end. -/
theorem foldlM_ok_invariant (P : β → Prop) :
    ∀ {xs : List α} {a b : β}, xs.foldlM f a = .ok b → P a →
      (∀ acc x b, x ∈ xs → P acc → f acc x = .ok b → P b) → P b
  | [], a, b, h, ha, _ => by cases h; exact ha
  | x :: xs, a, b, h, ha, hstep => by
    simp only [List.foldlM_cons, bind, Except.bind] at h
    split at h
    · cases h
    · rename_i a' ha'
      exact foldlM_ok_invariant P h (hstep a x a' List.mem_cons_self ha ha')
        fun acc y b hy => hstep acc y b (List.mem_cons_of_mem x hy)

/-- What the step for an element establishes, and every later step keeps, holds at the end;
the steps may use an invariant `P` of the accumulator. -/
theorem foldlM_ok_each (P : β → Prop) (Q : α → β → Prop) :
    ∀ {xs : List α} {a b : β}, xs.foldlM f a = .ok b → P a →
      (∀ acc x b, x ∈ xs → P acc → f acc x = .ok b → P b) →
      (∀ acc x b, x ∈ xs → P acc → f acc x = .ok b → Q x b) →
      (∀ acc x y b, x ∈ xs → P acc → Q y acc → f acc x = .ok b → Q y b) → ∀ y ∈ xs, Q y b
  | [], _, _, _, _, _, _, _, y, hy => absurd hy List.not_mem_nil
  | x :: xs, a, b, h, ha, hstep, hdone, hkeep, y, hy => by
    simp only [List.foldlM_cons, bind, Except.bind] at h
    split at h
    · cases h
    · rename_i a' ha'
      have hx : x ∈ x :: xs := List.mem_cons_self
      have hstep' := fun acc z b (hz : z ∈ xs) => hstep acc z b (List.mem_cons_of_mem x hz)
      rcases List.mem_cons.mp hy with rfl | hy
      · refine (foldlM_ok_invariant (fun acc => P acc ∧ Q y acc) h
          ⟨hstep a y a' hx ha ha', hdone a y a' hx ha ha'⟩ ?_).2
        rintro acc z b hz ⟨hp, hq⟩ hf
        exact ⟨hstep' acc z b hz hp hf, hkeep acc z y b (List.mem_cons_of_mem y hz) hp hq hf⟩
      · exact foldlM_ok_each P Q h (hstep a x a' hx ha ha') hstep'
          (fun acc z b hz => hdone acc z b (List.mem_cons_of_mem x hz))
          (fun acc z w b hz => hkeep acc z w b (List.mem_cons_of_mem x hz)) y hy

end Folds

namespace TaskGraph

variable {δ : Type}

/-- Adjacency lists over `n` tasks: positions in range, and each dependency edge recorded as
often on the dependent's side as on the dependency's. -/
structure Adjacency (n : Nat) (up down : Array (List Nat)) : Prop where
  up_size : up.size = n
  down_size : down.size = n
  up_lt : ∀ i d, d ∈ up.getD i [] → d < n
  down_lt : ∀ d i, i ∈ down.getD d [] → i < n
  count_eq : ∀ i d, (down.getD d []).count i = (up.getD i []).count d

theorem getD_modify_append (xs : Array (List Nat)) (i j d : Nat) (h : i < xs.size) :
    (xs.modify i (· ++ [d])).getD j [] = if i = j then xs.getD j [] ++ [d] else xs.getD j [] := by
  simp only [Array.getD_eq_getD_getElem?, Array.getElem?_modify]
  split
  · subst_vars; simp [Array.getElem?_eq_getElem h]
  · rfl

theorem Adjacency.link {n : Nat} {up down : Array (List Nat)} (a : Adjacency n up down)
    {i d : Nat} (hi : i < n) (hd : d < n) :
    Adjacency n (up.modify i (· ++ [d])) (down.modify d (· ++ [i])) := by
  have hu : i < up.size := a.up_size ▸ hi
  have hw : d < down.size := a.down_size ▸ hd
  refine ⟨by simp [a.up_size], by simp [a.down_size], ?_, ?_, ?_⟩
  · intro j e he
    rw [getD_modify_append _ _ _ _ hu] at he
    split at he
    · rcases List.mem_append.mp he with he | he
      · exact a.up_lt j e he
      · simp at he; omega
    · exact a.up_lt j e he
  · intro e j he
    rw [getD_modify_append _ _ _ _ hw] at he
    split at he
    · rcases List.mem_append.mp he with he | he
      · exact a.down_lt e j he
      · simp at he; omega
    · exact a.down_lt e j he
  · intro j e
    rw [getD_modify_append _ _ _ _ hu, getD_modify_append _ _ _ _ hw]
    have := a.count_eq j e
    by_cases h1 : d = e <;> by_cases h2 : i = j <;> simp_all [List.count_append]

@[simp] theorem getElem?_replicate_nil_getD (n i : Nat) :
    (Array.replicate n ([] : List Nat))[i]?.getD [] = [] := by
  simp only [Array.getElem?_replicate]
  split <;> rfl

theorem adjacency_replicate (n : Nat) :
    Adjacency n (Array.replicate n []) (Array.replicate n []) :=
  ⟨by simp, by simp, by simp, by simp, by simp⟩

theorem links_adjacency {tasks : List (DeployTask δ)} {up down : Array (List Nat)}
    (h : links tasks = .ok (up, down)) : Adjacency tasks.length up down := by
  unfold links at h
  refine foldlM_ok_invariant (fun acc => Adjacency tasks.length acc.1 acc.2) h
    (adjacency_replicate _) ?_
  rintro ⟨up, down⟩ ⟨t, i⟩ b hx ha hb
  have hi : i < tasks.length := by simpa using (List.mem_zipIdx hx).2.1
  refine foldlM_ok_invariant (fun acc => Adjacency tasks.length acc.1 acc.2) hb ha ?_
  rintro ⟨up, down⟩ dep b' - ha' hb'
  dsimp only at ha' hb'
  split at hb'
  · cases hb'
  · rename_i d hd
    cases hb'
    have hdn : d < tasks.length := by
      simpa using (List.idxOf?_eq_some_iff.mp hd).1
    exact ha'.link hi hdn

theorem mem_getD_modify_append {xs : Array (List Nat)} {i j e x : Nat}
    (h : e ∈ xs.getD j []) : e ∈ (xs.modify i (· ++ [x])).getD j [] := by
  simp only [Array.getD_eq_getD_getElem?, Array.getElem?_modify] at h ⊢
  split
  · cases hj : xs[j]? <;> simp_all
  · exact h

/-- The inner fold of `links` for task `i` only appends. -/
theorem links_inner_keeps {ids : List TaskId} {t : DeployTask δ} {i j e : Nat}
    {acc b : Array (List Nat) × Array (List Nat)}
    (h : t.dependsOn.foldlM (m := Except WorkflowError) (fun (up, down) dep =>
      match ids.idxOf? dep with
      | none => throw (WorkflowError.unknownDependency t.id dep)
      | some d => pure (up.modify i (· ++ [d]), down.modify d (· ++ [i]))) acc = .ok b)
    (he : e ∈ acc.1.getD j []) : e ∈ b.1.getD j [] := by
  refine foldlM_ok_invariant (fun acc => e ∈ acc.1.getD j []) h he ?_
  rintro ⟨up, down⟩ dep b' - hm hb'
  dsimp only at hm hb'
  split at hb'
  · cases hb'
  · cases hb'; exact mem_getD_modify_append hm

/-- Every dependency of a task is found, and its position is among the task's prerequisites. -/
theorem links_complete {tasks : List (DeployTask δ)} {up down : Array (List Nat)}
    (h : links tasks = .ok (up, down)) {i : Nat} {t : DeployTask δ} (ht : tasks[i]? = some t) :
    ∀ dep ∈ t.dependsOn, ∃ d, (tasks.map (·.id)).idxOf? dep = some d ∧ d ∈ up.getD i [] := by
  have hmem : (t, i) ∈ tasks.zipIdx := List.mk_mem_zipIdx_iff_getElem?.mpr ht
  unfold links at h
  refine foldlM_ok_each (fun acc => acc.1.size = tasks.length)
    (fun (x : DeployTask δ × Nat) (acc : Array (List Nat) × Array (List Nat)) =>
      ∀ dep ∈ x.1.dependsOn, ∃ d, (tasks.map (·.id)).idxOf? dep = some d ∧
        d ∈ acc.1.getD x.2 []) h (by simp) ?_ ?_ ?_ (t, i) hmem
  · rintro ⟨up, down⟩ ⟨t', i'⟩ b - hs hb
    refine foldlM_ok_invariant (fun acc => acc.1.size = tasks.length) hb hs ?_
    rintro ⟨up, down⟩ dep b' - hs' hb'
    dsimp only at hs' hb'
    split at hb'
    · cases hb'
    · cases hb'; simpa using hs'
  · rintro ⟨up, down⟩ ⟨t', i'⟩ b hx hs hb
    have hi' : i' < tasks.length := by simpa using (List.mem_zipIdx hx).2.1
    refine foldlM_ok_each (fun acc => acc.1.size = tasks.length)
      (fun dep (acc : Array (List Nat) × Array (List Nat)) =>
        ∃ d, (tasks.map (·.id)).idxOf? dep = some d ∧ d ∈ acc.1.getD i' []) hb hs ?_ ?_ ?_
    · rintro ⟨up, down⟩ dep b' - hs' hb'
      dsimp only at hs' hb'
      split at hb'
      · cases hb'
      · cases hb'; simpa using hs'
    · rintro ⟨up, down⟩ dep b' - hs' hb'
      dsimp only at hs' hb'
      split at hb'
      · cases hb'
      · rename_i d hd
        cases hb'
        refine ⟨d, hd, ?_⟩
        rw [getD_modify_append _ _ _ _ (by simp_all)]
        simp
    · rintro ⟨up, down⟩ dep dep' b' - - ⟨d, hd, hm⟩ hb'
      dsimp only at hb'
      split at hb'
      · cases hb'
      · cases hb'; exact ⟨d, hd, mem_getD_modify_append hm⟩
  · rintro acc ⟨t', i'⟩ ⟨t'', i''⟩ b - - hq hb dep hdep
    obtain ⟨d, hd, hm⟩ := hq dep hdep
    exact ⟨d, hd, links_inner_keeps hb hm⟩

/-- An entry after one append at `i` was there before, or is the appended one at `i`. -/
theorem mem_getD_modify_append_cases {xs : Array (List Nat)} {i j e x : Nat}
    (h : e ∈ (xs.modify i (· ++ [x])).getD j []) : e ∈ xs.getD j [] ∨ (j = i ∧ e = x) := by
  simp only [Array.getD_eq_getD_getElem?, Array.getElem?_modify] at h ⊢
  split at h
  · subst_vars
    cases hj : xs[j]? <;> simp_all
  · exact .inl h

/-- Every prerequisite `links` records is the position of one of the task's dependencies. -/
theorem links_sound {tasks : List (DeployTask δ)} {up down : Array (List Nat)}
    (h : links tasks = .ok (up, down)) {i d : Nat} (hd : d ∈ up.getD i []) :
    ∃ t dep, tasks[i]? = some t ∧ dep ∈ t.dependsOn ∧ (tasks.map (·.id)).idxOf? dep = some d := by
  unfold links at h
  refine foldlM_ok_invariant (fun acc : Array (List Nat) × Array (List Nat) => ∀ j e,
      e ∈ acc.1.getD j [] → ∃ t dep, tasks[j]? = some t ∧ dep ∈ t.dependsOn ∧
        (tasks.map (·.id)).idxOf? dep = some e) h (by simp) ?_ i d hd
  rintro ⟨up, down⟩ ⟨t, k⟩ b hx hacc hb
  have ht : tasks[k]? = some t := List.mk_mem_zipIdx_iff_getElem?.mp hx
  -- the inner fold appends to `k`'s prerequisites only positions of `t`'s dependencies
  refine foldlM_ok_invariant (fun acc : Array (List Nat) × Array (List Nat) => ∀ j e,
      e ∈ acc.1.getD j [] → ∃ t dep, tasks[j]? = some t ∧ dep ∈ t.dependsOn ∧
        (tasks.map (·.id)).idxOf? dep = some e) hb hacc ?_
  rintro ⟨up', down'⟩ dep b' hdep hacc' hb'
  dsimp only at hacc' hb'
  split at hb'
  · cases hb'
  · rename_i d' hd'
    cases hb'
    intro j e he
    rcases mem_getD_modify_append_cases he with he | ⟨rfl, rfl⟩
    · exact hacc' j e he
    · exact ⟨t, dep, ht, hdep, hd'⟩

theorem nodup_of_firstRepeatedId : ∀ {ids seen : List TaskId},
    firstRepeatedId ids seen = none → ids.Nodup ∧ ∀ x ∈ ids, x ∉ seen
  | [], _, _ => ⟨List.nodup_nil, by simp⟩
  | i :: rest, seen, h => by
    simp only [firstRepeatedId] at h
    split at h
    · cases h
    · rename_i hi
      obtain ⟨hnd, hout⟩ := nodup_of_firstRepeatedId h
      refine ⟨List.nodup_cons.mpr ⟨fun hm => hout i hm (by simp), hnd⟩, ?_⟩
      intro x hx
      rcases List.mem_cons.mp hx with rfl | hx
      · simpa using hi
      · exact fun hs => hout x hx (List.mem_cons_of_mem _ hs)

/-- What `build` guarantees of the graph it returns. -/
structure Built (g : TaskGraph δ) (tasks : List (DeployTask δ)) : Prop where
  tasks_eq : g.tasks = tasks.toArray
  ids_nodup : (tasks.map (·.id)).Nodup
  adjacency : Adjacency tasks.length g.prerequisites g.dependents
  /-- Every dependency names a task, and that task is among the prerequisites. -/
  linked : ∀ i t, tasks[i]? = some t → ∀ dep ∈ t.dependsOn,
    ∃ d, (tasks.map (·.id)).idxOf? dep = some d ∧ d ∈ g.prerequisitesOf i
  no_cycle : findCycle tasks = none

theorem build_built {tasks : List (DeployTask δ)} {g : TaskGraph δ}
    (h : TaskGraph.build tasks = .ok g) : Built g tasks := by
  simp only [build, bind, Except.bind] at h
  split at h
  · cases h
  · rename_i hrep
    split at h
    · cases h
    · rename_i links hl
      obtain ⟨up, down⟩ := links
      simp only at h
      split at h
      · cases h
      · rename_i hcyc
        cases h
        have hnone : firstRepeatedId (tasks.map (·.id)) [] = none := by
          cases hf : firstRepeatedId (tasks.map (·.id)) [] with
          | none => rfl
          | some id => exact absurd hf (hrep id)
        exact ⟨rfl, (nodup_of_firstRepeatedId hnone).1, links_adjacency hl,
          fun i t ht => links_complete hl ht, by
            cases hc : findCycle tasks with
            | none => rfl
            | some c => exact absurd hc (hcyc c)⟩

/-- Task `i` depends on task `d`: one of its dependencies is `d`'s id. -/
def DependsOn (g : TaskGraph δ) (i d : Nat) : Prop :=
  ∃ t u, g.tasks[i]? = some t ∧ g.tasks[d]? = some u ∧ u.id ∈ t.dependsOn

namespace Built

variable {g : TaskGraph δ} {tasks : List (DeployTask δ)}

theorem size_eq (hb : Built g tasks) : g.size = tasks.length := by
  simp [size, hb.tasks_eq]

theorem adjacency_size (hb : Built g tasks) :
    Adjacency g.size g.prerequisites g.dependents :=
  hb.size_eq ▸ hb.adjacency

/-- Tasks of a built graph have distinct ids. -/
theorem eq_of_id_eq (hb : Built g tasks) {i k : Nat} {t u : DeployTask δ}
    (ht : g.tasks[i]? = some t) (hu : g.tasks[k]? = some u) (h : t.id = u.id) : i = k := by
  rw [hb.tasks_eq, List.getElem?_toArray] at ht hu
  have hi : i < (tasks.map (·.id)).length := by
    simpa using (List.getElem?_eq_some_iff.mp ht).1
  refine (List.getElem?_inj hi hb.ids_nodup).mp ?_
  simp [ht, hu, h]

/-- Each dependency of a task of a built graph is a task of the graph among its prerequisites. -/
theorem exists_prerequisite (hb : Built g tasks) {i : Nat} {t : DeployTask δ}
    (ht : g.tasks[i]? = some t) {dep : TaskId} (hdep : dep ∈ t.dependsOn) :
    ∃ d u, g.tasks[d]? = some u ∧ u.id = dep ∧ d ∈ g.prerequisitesOf i := by
  have ht' : tasks[i]? = some t := by rwa [hb.tasks_eq, List.getElem?_toArray] at ht
  obtain ⟨d, hd, hpre⟩ := hb.linked i t ht' dep hdep
  obtain ⟨hlt, hid, -⟩ := List.idxOf?_eq_some_iff.mp hd
  have hlt' : d < tasks.length := by simpa using hlt
  refine ⟨d, tasks[d], by simp [hb.tasks_eq, hlt'], by simpa using hid, hpre⟩

/-- Depending on a task makes it a prerequisite. -/
theorem mem_prerequisitesOf (hb : Built g tasks) {i d : Nat} (h : g.DependsOn i d) :
    d ∈ g.prerequisitesOf i := by
  obtain ⟨t, u, ht, hu, hmem⟩ := h
  obtain ⟨d', u', hu', hid, hpre⟩ := hb.exists_prerequisite ht hmem
  rwa [hb.eq_of_id_eq hu hu' hid.symm]

end Built

/-- A dependent recorded on one side of the adjacency is a prerequisite on the other. -/
theorem Adjacency.mem_up_of_mem_down {n : Nat} {up down : Array (List Nat)}
    (a : Adjacency n up down) {d i : Nat} (h : i ∈ down.getD d []) : d ∈ up.getD i [] := by
  have hc := a.count_eq i d
  rw [← List.count_pos_iff] at h ⊢
  omega

/-- A prerequisite recorded on one side of the adjacency is a dependent on the other. -/
theorem Adjacency.mem_down_of_mem_up {n : Nat} {up down : Array (List Nat)}
    (a : Adjacency n up down) {d i : Nat} (h : d ∈ up.getD i []) : i ∈ down.getD d [] := by
  have hc := a.count_eq i d
  rw [← List.count_pos_iff] at h ⊢
  omega

/-- In a graph that `build` returned, each prerequisite of a task is one of its dependencies. -/
theorem build_dependsOn {tasks : List (DeployTask δ)} {g : TaskGraph δ}
    (h : TaskGraph.build tasks = .ok g) {i d : Nat} (hd : d ∈ g.prerequisitesOf i) :
    g.DependsOn i d := by
  simp only [build, bind, Except.bind] at h
  split at h
  · cases h
  · split at h
    · cases h
    · rename_i links hl
      obtain ⟨up, down⟩ := links
      simp only at h
      split at h
      · cases h
      · cases h
        obtain ⟨t, dep, ht, hdep, hidx⟩ := links_sound hl hd
        obtain ⟨hlt, hid, -⟩ := List.idxOf?_eq_some_iff.mp hidx
        have hlt' : d < tasks.length := by simpa using hlt
        have hu : tasks[d].id = dep := by simpa using hid
        exact ⟨t, tasks[d], by simpa using ht, by simp [hlt'], hu ▸ hdep⟩

end TaskGraph

end OrgDeploy
