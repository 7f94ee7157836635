import Mathlib
import OrgDeploy.Proofs.Plan.Assemble

/-!
# The links of an assembled graph

Every dependency of an assembled graph is derived from the imports of its tasks, forwards for
creates and backwards for deletes (`TaskGraph.ImportLinks`):

* a create-or-update task depends on exactly the create-or-update tasks of the graph that
  produce one of its imports, itself apart;
* a delete task depends on exactly the other delete tasks of the graph that import from it, so
  producers are deleted after their former consumers;
* so no dependency crosses from one action to the other.

Linking sees the plans of the last round of assembly, and those are the plans the graph holds:
`assembleWithin_graph` finds them, and an empty graph has no links to describe. The first pass
of linking fills a table from each planned delete task to its consumers
(`lookup_foldl_linkFirst`); the second gives each delete task what the table holds for its id
(`linkSecond_deps`), which is all of it because ids in a graph are distinct.

Headline: `assemble_importLinks`, for plans whose tasks carry no dependencies yet, as planning
makes them.
-/

namespace OrgDeploy

variable {δ : Type}

/-! ## Association lists -/

theorem lookup_cons_eq_ite {α β : Type} [DecidableEq α] (a k : α) (b : β) (rest : List (α × β)) :
    ((k, b) :: rest).lookup a = if a = k then some b else rest.lookup a := by
  rw [List.lookup_cons]
  by_cases h : a = k
  · subst h
    simp
  · simp [h, beq_false_of_ne h]

theorem lookup_insertById {α : Type} (id j : TaskId) (v : α) :
    ∀ l : List (TaskId × α), (insertById id v l).lookup j = if j = id then some v else l.lookup j
  | [] => by simp [insertById, lookup_cons_eq_ite]
  | (k, w) :: rest => by
    unfold insertById
    split
    · simp only [lookup_cons_eq_ite]
    · -- the entry of `id` is replaced
      rename_i hcmp
      obtain rfl := TaskId.compare_eq_eq.mp hcmp
      by_cases h : j = id <;> simp [lookup_cons_eq_ite, h]
    · rename_i hcmp
      have hne : id ≠ k := fun h => by simp [h, TaskId.compare_eq_eq.mpr rfl] at hcmp
      rw [lookup_cons_eq_ite, lookup_cons_eq_ite, lookup_insertById id j v rest]
      by_cases hk : j = k
      · subst hk
        simp [Ne.symm hne]
      · simp [hk]

theorem lookup_filter_fst_ne {α β : Type} [DecidableEq α] (x s : α) :
    ∀ l : List (α × β), (l.filter (·.1 != x)).lookup s = if s = x then none else l.lookup s
  | [] => by simp
  | (k, v) :: rest => by
    have ih := lookup_filter_fst_ne x s rest
    by_cases hk : k = x
    · -- the entry of `x` is filtered out
      subst hk
      rw [List.filter_cons_of_neg (by simp), ih, lookup_cons_eq_ite]
      by_cases hs : s = k <;> simp [hs]
    · rw [List.filter_cons_of_pos (by simpa using hk), lookup_cons_eq_ite, lookup_cons_eq_ite, ih]
      by_cases hs : s = k
      · subst hs
        simp [hk]
      · simp [hs]

namespace DeployTask

variable (t : DeployTask δ)

@[simp] theorem withoutLinks_id : t.withoutLinks.id = t.id := rfl

@[simp] theorem withoutLinks_imports : t.withoutLinks.imports = t.imports := rfl

@[simp] theorem withoutLinks_action : t.withoutLinks.action = t.action := rfl

end DeployTask

/-! ## The consumers of delete tasks -/

/-- `c` is a delete task among `tasks` that imports from the planned delete task `s`, and is
not `s` itself: the delete of `s` must wait for it. -/
def ConsumerOf (deletes : List TaskId) (tasks : List (DeployTask δ)) (s c : TaskId) : Prop :=
  ∃ u ∈ tasks, u.action = .delete ∧ u.id = c ∧ c ≠ s ∧ s ∈ deletes ∧
    ∃ i ∈ u.imports, TaskId.sourceOf i = s

/-- Recording one delete task's imports adds it as a consumer of each planned delete task it
imports from. -/
theorem mem_lookup_addConsumers {deletes : List TaskId} {t : DeployTask δ} {s c : TaskId} :
    ∀ (imports : List ImportRef) (cs : List (TaskId × List TaskId)),
      c ∈ ((imports.foldl (fun consumers i =>
        if TaskId.sourceOf i != t.id && deletes.contains (TaskId.sourceOf i) then
          insertById (TaskId.sourceOf i)
            (TaskId.insertSorted t.id ((consumers.lookup (TaskId.sourceOf i)).getD [])) consumers
        else consumers) cs).lookup s).getD [] ↔
      c ∈ (cs.lookup s).getD [] ∨
        (c = t.id ∧ t.id ≠ s ∧ s ∈ deletes ∧ ∃ i ∈ imports, TaskId.sourceOf i = s)
  | [], cs => by simp
  | i :: imports, cs => by
    rw [List.foldl_cons, mem_lookup_addConsumers imports]
    split
    · -- `t` imports from the planned delete task `sourceOf i`
      rename_i hcond
      simp only [Bool.and_eq_true, bne_iff_ne, ne_eq, List.contains_iff_mem] at hcond
      rw [lookup_insertById]
      by_cases hs : s = TaskId.sourceOf i
      · subst hs
        simp only [if_true, Option.getD_some, TaskId.mem_insertSorted, List.mem_cons]
        constructor
        · rintro ((rfl | h) | ⟨rfl, hne, hd, j, hj, hjs⟩)
          · exact .inr ⟨rfl, Ne.symm hcond.1, hcond.2, i, .inl rfl, rfl⟩
          · exact .inl h
          · exact .inr ⟨rfl, hne, hd, j, .inr hj, hjs⟩
        · rintro (h | ⟨rfl, -, -, -⟩)
          · exact .inl (.inr h)
          · exact .inl (.inl rfl)
      · simp only [hs, if_false, List.mem_cons]
        constructor
        · rintro (h | ⟨rfl, hne, hd, j, hj, hjs⟩)
          · exact .inl h
          · exact .inr ⟨rfl, hne, hd, j, .inr hj, hjs⟩
        · rintro (h | ⟨rfl, hne, hd, j, rfl | hj, hjs⟩)
          · exact .inl h
          · exact absurd hjs.symm hs
          · exact .inr ⟨rfl, hne, hd, j, hj, hjs⟩
    · rename_i hcond
      simp only [Bool.and_eq_true, bne_iff_ne, ne_eq, List.contains_iff_mem, not_and] at hcond
      simp only [List.mem_cons]
      constructor
      · rintro (h | ⟨rfl, hne, hd, j, hj, hjs⟩)
        · exact .inl h
        · exact .inr ⟨rfl, hne, hd, j, .inr hj, hjs⟩
      · rintro (h | ⟨rfl, hne, hd, j, rfl | hj, hjs⟩)
        · exact .inl h
        · have hsrc : TaskId.sourceOf j ≠ t.id := by rw [hjs]; exact Ne.symm hne
          exact absurd (hjs ▸ hd) (hcond hsrc)
        · exact .inr ⟨rfl, hne, hd, j, hj, hjs⟩

/-- After the first pass the table holds, for each planned delete task, its consumers among the
tasks read. -/
theorem lookup_foldl_linkFirst {deletes creates : List TaskId} {s c : TaskId} :
    ∀ (tasks : List (DeployTask δ)) (acc : List (DeployTask δ) × List (TaskId × List TaskId)),
      c ∈ (((tasks.foldl (linkFirst deletes creates) acc).2.lookup s).getD []) ↔
        c ∈ (acc.2.lookup s).getD [] ∨ ConsumerOf deletes tasks s c
  | [], acc => by simp [ConsumerOf]
  | t :: tasks, acc => by
    rw [List.foldl_cons, lookup_foldl_linkFirst tasks]
    unfold linkFirst
    split
    · -- a create-or-update task consumes nothing
      rename_i hact
      constructor
      · rintro (h | ⟨u, hu, rest⟩)
        · exact .inl h
        · exact .inr ⟨u, List.mem_cons_of_mem _ hu, rest⟩
      · rintro (h | ⟨u, hu, hdel, rest⟩)
        · exact .inl h
        · rcases List.mem_cons.mp hu with rfl | hu
          · rw [hact] at hdel; cases hdel
          · exact .inr ⟨u, hu, hdel, rest⟩
    · rename_i hact
      unfold addConsumers
      rw [mem_lookup_addConsumers]
      constructor
      · rintro ((h | ⟨rfl, hne, hd, hi⟩) | ⟨u, hu, rest⟩)
        · exact .inl h
        · exact .inr ⟨t, List.mem_cons_self, hact, rfl, hne, hd, hi⟩
        · exact .inr ⟨u, List.mem_cons_of_mem _ hu, rest⟩
      · rintro (h | ⟨u, hu, hdel, hid, hne, hd, hi⟩)
        · exact .inl (.inl h)
        · rcases List.mem_cons.mp hu with rfl | hu
          · exact .inl (.inr ⟨hid.symm, hid ▸ hne, hd, hi⟩)
          · exact .inr ⟨u, hu, hdel, hid, hne, hd, hi⟩

/-- The first pass keeps every delete task as it is, and every task's id, action and imports. -/
theorem mem_foldl_linkFirst {deletes creates : List TaskId} :
    ∀ (tasks : List (DeployTask δ)) (acc : List (DeployTask δ) × List (TaskId × List TaskId)),
      ∀ t ∈ (tasks.foldl (linkFirst deletes creates) acc).1, t ∈ acc.1 ∨
        ∃ u ∈ tasks, t.withoutLinks = u.withoutLinks ∧ (t.action = .delete → t = u)
  | [], acc, t, ht => .inl ht
  | u :: tasks, acc, t, ht => by
    rw [List.foldl_cons] at ht
    rcases mem_foldl_linkFirst tasks _ t ht with ht | ⟨v, hv, rest⟩
    · unfold linkFirst at ht
      split at ht
      · rename_i hact
        rcases List.mem_append.mp ht with ht | ht
        · exact .inl ht
        · -- the create-or-update task `u` with its dependencies
          rw [List.mem_singleton.mp ht]
          refine .inr ⟨u, List.mem_cons_self, rfl, fun h => ?_⟩
          have h' : u.action = .delete := h
          rw [hact] at h'
          cases h'
      · rcases List.mem_append.mp ht with ht | ht
        · exact .inl ht
        · exact .inr ⟨u, List.mem_cons_self, by rw [List.mem_singleton.mp ht], fun _ => List.mem_singleton.mp ht⟩
    · exact .inr ⟨v, List.mem_cons_of_mem _ hv, rest⟩

/-- One step of the second pass appends the task it reads: a delete task gains what the table
holds for its id, any other task is kept. The table loses at most the entry of that id. -/
theorem linkSecond_step (acc : List (DeployTask δ) × List (TaskId × List TaskId))
    (t : DeployTask δ) :
    ∃ t', (linkSecond acc t).1 = acc.1 ++ [t'] ∧ t'.withoutLinks = t.withoutLinks ∧
      (t.action = .delete →
        ∀ d, d ∈ t'.dependsOn ↔ d ∈ t.dependsOn ∨ d ∈ (acc.2.lookup t.id).getD []) ∧
      (t.action = .createOrUpdate → t' = t) ∧
      ∀ s, s ≠ t.id → (linkSecond acc t).2.lookup s = acc.2.lookup s := by
  unfold linkSecond
  split
  · rename_i hdel
    have hact : t.action = .delete := by simpa using hdel
    split
    · rename_i cs hcs
      refine ⟨_, rfl, rfl, fun _ d => ?_, fun h => absurd (hact ▸ h) (by simp), fun s hs => ?_⟩
      · rw [hcs, Option.getD_some]
        exact TaskId.mem_foldl_insertSorted cs t.dependsOn
      · rw [lookup_filter_fst_ne, if_neg hs]
    · rename_i hcs
      exact ⟨t, rfl, rfl, fun _ d => by simp [hcs], fun _ => rfl, fun _ _ => rfl⟩
  · rename_i hdel
    exact ⟨t, rfl, rfl, fun h => by simp [h] at hdel, fun _ => rfl, fun _ _ => rfl⟩

/-- The second pass gives each delete task what the table it starts from holds for the task's id,
and keeps the other tasks, as long as the ids it reads are distinct. -/
theorem linkSecond_deps (C : List (TaskId × List TaskId)) :
    ∀ (xs : List (DeployTask δ)) (acc : List (DeployTask δ) × List (TaskId × List TaskId)),
      (xs.map (·.id)).Nodup → (∀ s ∈ xs.map (·.id), acc.2.lookup s = C.lookup s) →
      ∀ t' ∈ (xs.foldl linkSecond acc).1, t' ∈ acc.1 ∨ ∃ t ∈ xs,
        t'.withoutLinks = t.withoutLinks ∧
        (t.action = .delete → ∀ d, d ∈ t'.dependsOn ↔ d ∈ t.dependsOn ∨ d ∈ (C.lookup t.id).getD []) ∧
        (t.action = .createOrUpdate → t' = t)
  | [], acc, _, _, t', ht' => .inl ht'
  | t :: xs, acc, hnd, hagree, t', ht' => by
    obtain ⟨hnotin, hnd⟩ := List.nodup_cons.mp hnd
    obtain ⟨u, hfst, hwl, hdel, hcreate, hsnd⟩ := linkSecond_step acc t
    -- the table the rest of the pass reads still agrees with `C` on the ids to come
    have hrest : ∀ s ∈ xs.map (·.id), (linkSecond acc t).2.lookup s = C.lookup s := by
      intro s hs
      rw [hsnd s (fun h => hnotin (by subst h; exact hs))]
      exact hagree s (List.mem_cons_of_mem _ hs)
    rw [List.foldl_cons] at ht'
    rcases linkSecond_deps C xs _ hnd hrest t' ht' with ht' | ⟨v, hv, rest⟩
    · rw [hfst] at ht'
      rcases List.mem_append.mp ht' with ht' | ht'
      · exact .inl ht'
      · -- `t'` is `t` as this step links it, from the table's entry for `t`
        rw [List.mem_singleton.mp ht']
        refine .inr ⟨t, List.mem_cons_self, hwl, fun h d => ?_, hcreate⟩
        rw [hdel h d, hagree t.id List.mem_cons_self]
    · exact .inr ⟨v, List.mem_cons_of_mem _ hv, rest⟩

/-- Linked tasks whose ids are distinct: a delete task depends on exactly its consumers among
the planned tasks. -/
theorem linkTasks_delete_deps {plans : List (UnitPlan δ)} {creates : List TaskId}
    (hun : ∀ t ∈ plans.flatMap (·.tasks), t.dependsOn = [])
    (hnd : ((linkTasks plans creates).map (·.id)).Nodup) :
    ∀ t ∈ linkTasks plans creates, t.action = .delete → ∀ d, d ∈ t.dependsOn ↔
      ConsumerOf (taskIds plans .delete) (plans.flatMap (·.tasks)) t.id d := by
  set tasks := plans.flatMap (·.tasks)
  set first := tasks.foldl (linkFirst (taskIds plans .delete) creates) ([], [])
  have hfirst_ids : first.1.map (·.id) = (linkTasks plans creates).map (·.id) := by
    rw [linkTasks_eq]
    have := foldl_snoc_map linkSecond (·.id) (·.id) (fun acc t => by
      obtain ⟨u, hfst, hwl, -⟩ := linkSecond_step acc t
      exact ⟨u, hfst, by rw [← DeployTask.withoutLinks_id, hwl, DeployTask.withoutLinks_id]⟩)
      first.1 ([], first.2)
    simpa using this.symm
  intro t' ht' hact d
  rw [linkTasks_eq] at ht'
  rcases linkSecond_deps first.2 first.1 ([], first.2) (hfirst_ids ▸ hnd) (fun _ _ => rfl) t' ht'
    with ht' | ⟨t, ht, heq, hdel, -⟩
  · cases ht'
  -- `t` is the planned delete task itself, still without dependencies
  have htact : t.action = .delete := by
    rw [← DeployTask.withoutLinks_action, ← heq, DeployTask.withoutLinks_action, hact]
  rcases mem_foldl_linkFirst tasks ([], []) t ht with ht | ⟨u, hu, -, hut⟩
  · cases ht
  have htu : t = u := hut htact
  have hid : t'.id = t.id := by rw [← DeployTask.withoutLinks_id, heq, DeployTask.withoutLinks_id]
  rw [hdel htact d, htu, hun u hu, hid, htu, lookup_foldl_linkFirst]
  simp

/-! ## The graph assembly returns -/

/-- The graph of assembly is empty, or built from the linked tasks of some of the plans. -/
theorem assembleWithin_graph :
    ∀ (fuel : Nat) (plans : List (UnitPlan δ)) (errors : List PlanError),
      (assembleWithin fuel plans errors).graph.tasks = #[] ∨
        ∃ ps : List (UnitPlan δ), (∀ p ∈ ps, p ∈ plans) ∧
          TaskGraph.build (linkTasks ps (taskIds ps .createOrUpdate)) =
            .ok (assembleWithin fuel plans errors).graph
  | 0, _, _ => .inl rfl
  | fuel + 1, plans, errors => by
    -- a round that drops units goes on with some of the plans
    have hsub : ∀ (f : UnitPlan δ → Bool) (errors' : List PlanError),
        (assembleWithin fuel (plans.filter f) errors').graph.tasks = #[] ∨
          ∃ ps : List (UnitPlan δ), (∀ p ∈ ps, p ∈ plans) ∧
            TaskGraph.build (linkTasks ps (taskIds ps .createOrUpdate)) =
              .ok (assembleWithin fuel (plans.filter f) errors').graph := by
      intro f errors'
      rcases assembleWithin_graph fuel (plans.filter f) errors' with h | ⟨ps, hps, hb⟩
      · exact .inl h
      · exact .inr ⟨ps, fun p hp => List.mem_of_mem_filter (hps p hp), hb⟩
    rw [assembleWithin]
    split
    · split
      · rename_i g hb
        exact .inr ⟨plans, fun _ hp => hp, hb⟩
      · exact hsub _ _
      · exact .inl rfl
    · exact hsub _ _

/-- The links of a graph, derived from the imports of its tasks: forwards to the producers of a
create-or-update task, backwards from a delete task to the delete tasks of its former
consumers. -/
structure TaskGraph.ImportLinks (g : TaskGraph δ) : Prop where
  /-- A create-or-update task depends on exactly the other create-or-update tasks producing one
  of its imports. -/
  create_deps : ∀ t ∈ g.tasks, t.action = .createOrUpdate → ∀ d, d ∈ t.dependsOn ↔
    ∃ i ∈ t.imports, TaskId.sourceOf i = d ∧ d ≠ t.id ∧
      ∃ u ∈ g.tasks, u.id = d ∧ u.action = .createOrUpdate
  /-- A delete task depends on exactly the other delete tasks importing from it. -/
  delete_deps : ∀ t ∈ g.tasks, t.action = .delete → ∀ d, d ∈ t.dependsOn ↔
    ∃ u ∈ g.tasks, u.id = d ∧ u.action = .delete ∧ d ≠ t.id ∧
      ∃ i ∈ u.imports, TaskId.sourceOf i = t.id
  /-- No dependency crosses from one action to the other. -/
  same_action : ∀ t ∈ g.tasks, ∀ d ∈ t.dependsOn, ∀ u ∈ g.tasks, u.id = d → u.action = t.action

/-- A graph built from the linked tasks of plans without links has the links the imports give. -/
theorem importLinks_of_build {ps : List (UnitPlan δ)} {g : TaskGraph δ}
    (hun : ∀ t ∈ ps.flatMap (·.tasks), t.dependsOn = [])
    (hb : TaskGraph.build (linkTasks ps (taskIds ps .createOrUpdate)) = .ok g) :
    g.ImportLinks := by
  have hbuilt := TaskGraph.build_built hb
  have hl := linkTasks_linked ps (taskIds ps .createOrUpdate) hun
  have hmem : ∀ {t}, t ∈ g.tasks ↔ t ∈ linkTasks ps (taskIds ps .createOrUpdate) := by
    intro t
    rw [hbuilt.tasks_eq, List.mem_toArray]
  -- a planned task is a task of the graph with its links taken off
  have hplanned : ∀ {u}, u ∈ ps.flatMap (·.tasks) → ∃ u' ∈ g.tasks, u'.withoutLinks = u :=
    fun hu => by
      obtain ⟨u', hu', heq⟩ := hl.exists_linked hu
      exact ⟨u', hmem.mpr hu', heq⟩
  have hgraph : ∀ {u'}, u' ∈ g.tasks → u'.withoutLinks ∈ ps.flatMap (·.tasks) := fun hu' => by
    rw [← hl.withoutLinks_eq]
    exact List.mem_map_of_mem (hmem.mp hu')
  have hcreate : ∀ d, d ∈ taskIds ps .createOrUpdate ↔
      ∃ u ∈ g.tasks, u.id = d ∧ u.action = .createOrUpdate := by
    intro d
    rw [mem_taskIds]
    constructor
    · rintro ⟨u, hu, hact, rfl⟩
      obtain ⟨u', hu', rfl⟩ := hplanned hu
      exact ⟨u', hu', rfl, hact⟩
    · rintro ⟨u', hu', rfl, hact⟩
      exact ⟨_, hgraph hu', hact, rfl⟩
  have hcreates : ∀ t ∈ g.tasks, t.action = .createOrUpdate → ∀ d, d ∈ t.dependsOn ↔
      ∃ i ∈ t.imports, TaskId.sourceOf i = d ∧ d ≠ t.id ∧
        ∃ u ∈ g.tasks, u.id = d ∧ u.action = .createOrUpdate := by
    intro t ht hact d
    rw [hl.create_deps t (hmem.mp ht) hact d]
    simp only [hcreate]
  have hdeletes : ∀ t ∈ g.tasks, t.action = .delete → ∀ d, d ∈ t.dependsOn ↔
      ∃ u ∈ g.tasks, u.id = d ∧ u.action = .delete ∧ d ≠ t.id ∧
        ∃ i ∈ u.imports, TaskId.sourceOf i = t.id := by
    intro t ht hact d
    have hnd : ((linkTasks ps (taskIds ps .createOrUpdate)).map (·.id)).Nodup := hbuilt.ids_nodup
    rw [linkTasks_delete_deps hun hnd t (hmem.mp ht) hact d]
    have hself : t.id ∈ taskIds ps .delete :=
      mem_taskIds.mpr ⟨_, hgraph ht, hact, rfl⟩
    constructor
    · rintro ⟨u, hu, hdel, rfl, hne, -, hi⟩
      obtain ⟨u', hu', rfl⟩ := hplanned hu
      exact ⟨u', hu', rfl, hdel, hne, hi⟩
    · rintro ⟨u', hu', rfl, hdel, hne, hi⟩
      exact ⟨_, hgraph hu', hdel, rfl, hne, hself, hi⟩
  refine ⟨hcreates, hdeletes, fun t ht d hd u hu hud => ?_⟩
  -- ids of the graph are distinct, so the task named by a dependency is the one the links name
  have hinj : ∀ {a b}, a ∈ g.tasks → b ∈ g.tasks → a.id = b.id → a = b := fun ha hb hab =>
    List.inj_on_of_nodup_map hbuilt.ids_nodup (hmem.mp ha) (hmem.mp hb) hab
  cases hact : t.action with
  | createOrUpdate =>
    obtain ⟨-, -, -, -, v, hv, hvd, hvact⟩ := (hcreates t ht hact d).mp hd
    rw [hinj hu hv (hud.trans hvd.symm), hvact]
  | delete =>
    obtain ⟨v, hv, hvd, hvact, -⟩ := (hdeletes t ht hact d).mp hd
    rw [hinj hu hv (hud.trans hvd.symm), hvact]

/-- Every graph assembly returns for plans whose tasks carry no dependencies yet (as planning
makes them) has the links its tasks' imports give. -/
theorem assemble_importLinks {plans : List (UnitPlan δ)}
    (hun : ∀ p ∈ plans, ∀ t ∈ p.tasks, t.dependsOn = []) :
    (assemble plans).graph.ImportLinks := by
  rcases assembleWithin_graph (plans.length + 1) plans [] with hnil | ⟨ps, hps, hb⟩
  · -- an empty graph has no links
    have hno : ∀ t, t ∉ (assemble plans).graph.tasks := fun t ht => by
      simp [assemble, hnil] at ht
    exact ⟨fun t ht => absurd ht (hno t), fun t ht => absurd ht (hno t),
      fun t ht => absurd ht (hno t)⟩
  · refine importLinks_of_build (fun t ht => ?_) hb
    obtain ⟨p, hp, ht⟩ := List.mem_flatMap.mp ht
    exact hun p (hps p hp) t ht

/-- A producer and a consumer, each created at one target and deleted at another: the
consumer's create waits for the producer's, and the producer's delete for the consumer's. -/
theorem producer_consumer_importLinks :
    let plans : List (UnitPlan Unit) :=
      [⟨"p", [{ id := ⟨"p", "1", "eu"⟩, target := ⟨"1", "eu", "A"⟩, kind := .createOrUpdate none none,
                deployable := () },
              { id := ⟨"p", "1", "us"⟩, target := ⟨"1", "us", "A"⟩, kind := .delete,
                deployable := () }], []⟩,
       ⟨"q", [{ id := ⟨"q", "1", "eu"⟩, target := ⟨"1", "eu", "A"⟩, kind := .createOrUpdate none none,
                imports := [⟨"p", "1", "eu", "Out"⟩], deployable := () },
              { id := ⟨"q", "1", "us"⟩, target := ⟨"1", "us", "A"⟩, kind := .delete,
                imports := [⟨"p", "1", "us", "Out"⟩], deployable := () }], []⟩]
    (∀ p ∈ plans, ∀ t ∈ p.tasks, t.dependsOn = []) ∧ (assemble plans).graph.ImportLinks :=
  ⟨by decide, assemble_importLinks (by decide)⟩

end OrgDeploy
