import Mathlib
import OrgDeploy.Proofs.Graph.Cycle
import OrgDeploy.Plan.Basic

/-!
# Assembling unit plans into one graph

`assemble` links the tasks of all unit plans and builds the graph. Before linking it drops the
units whose deferred tasks miss an output that no planned create-or-update task produces; when
the graph has a dependency cycle it drops the units on it; both repeat until the graph builds.

For plans as planning makes them (`PlansWellFormed`: distinct units, each task of its own unit
and with its own id, no links yet, and each deferred entry a create-or-update task that
imports what it misses) this file proves:

* linking keeps every task, in order, and only adds dependencies (`Linked`): a create-or-update
  task depends exactly on the planned create-or-update tasks producing its imports, and a
  delete task only on planned delete tasks;
* every round that does not finish drops at least one plan, so the fuel of `assemble` (one
  round per plan, and one more) never runs out;
* the graph is the built graph of the linked tasks of the units that no new error names, among
  which no deferred import is left unresolved; no error is `graph`; and each unit an error names
  is a planned unit with tasks (`Assembled`).

Headline: `assemble_assembled`.
-/

namespace OrgDeploy

variable {δ : Type}

/-! ## Sorted insertions -/

theorem TaskId.compare_eq_eq {a b : TaskId} : TaskId.compare a b = .eq ↔ a = b := by
  obtain ⟨u, c, r⟩ := a
  obtain ⟨u', c', r'⟩ := b
  simp [TaskId.compare]

@[simp] theorem TaskId.mem_insertSorted {i x : TaskId} :
    ∀ {l : List TaskId}, x ∈ TaskId.insertSorted i l ↔ x = i ∨ x ∈ l
  | [] => by simp [TaskId.insertSorted]
  | j :: rest => by
    unfold TaskId.insertSorted
    split
    · simp
    · rename_i h
      obtain rfl := TaskId.compare_eq_eq.mp h
      simp
    · simp only [List.mem_cons, TaskId.mem_insertSorted (l := rest)]
      tauto

theorem TaskId.mem_foldl_insertSorted {d : TaskId} :
    ∀ (cs init : List TaskId), d ∈ cs.foldl (fun ds c => TaskId.insertSorted c ds) init ↔
      d ∈ init ∨ d ∈ cs
  | [], init => by simp
  | c :: cs, init => by
    rw [List.foldl_cons, TaskId.mem_foldl_insertSorted cs, TaskId.mem_insertSorted]
    simp only [List.mem_cons]
    tauto

/-- Inserting the sources of the imports that pass a test. -/
theorem TaskId.mem_foldl_insertSource {d : TaskId} (test : ImportRef → Bool) :
    ∀ (imports : List ImportRef) (init : List TaskId),
      d ∈ imports.foldl (fun deps i =>
        if test i = true then TaskId.insertSorted (TaskId.sourceOf i) deps else deps) init ↔
      d ∈ init ∨ ∃ i ∈ imports, test i = true ∧ TaskId.sourceOf i = d
  | [], init => by simp
  | i :: imports, init => by
    rw [List.foldl_cons, TaskId.mem_foldl_insertSource test imports]
    by_cases h : test i = true
    · simp only [h, if_true, TaskId.mem_insertSorted, List.mem_cons]
      constructor
      · rintro ((rfl | hd) | ⟨j, hj, hjt, rfl⟩)
        · exact .inr ⟨i, .inl rfl, h, rfl⟩
        · exact .inl hd
        · exact .inr ⟨j, .inr hj, hjt, rfl⟩
      · rintro (hd | ⟨j, rfl | hj, hjt, rfl⟩)
        · exact .inl (.inr hd)
        · exact .inl (.inl rfl)
        · exact .inr ⟨j, hj, hjt, rfl⟩
    · simp only [h, Bool.false_eq_true, if_false, List.mem_cons]
      constructor
      · rintro (hd | ⟨j, hj, hjt, rfl⟩)
        · exact .inl hd
        · exact .inr ⟨j, .inr hj, hjt, rfl⟩
      · rintro (hd | ⟨j, rfl | hj, hjt, rfl⟩)
        · exact .inl hd
        · exact absurd hjt h
        · exact .inr ⟨j, hj, hjt, rfl⟩

theorem mem_insertById {α : Type} {id : TaskId} {v : α} {x : TaskId × α} :
    ∀ {l : List (TaskId × α)}, x ∈ insertById id v l → x = (id, v) ∨ x ∈ l
  | [], h => by simpa [insertById] using h
  | (j, w) :: rest, h => by
    unfold insertById at h
    split at h
    · simpa using h
    · rcases List.mem_cons.mp h with h | h
      · exact .inl h
      · exact .inr (List.mem_cons_of_mem _ h)
    · rcases List.mem_cons.mp h with h | h
      · exact .inr (h ▸ List.mem_cons_self)
      · rcases mem_insertById h with h | h
        · exact .inl h
        · exact .inr (List.mem_cons_of_mem _ h)

@[simp] theorem mem_insertSortedStr {s x : String} :
    ∀ {l : List String}, x ∈ insertSortedStr s l ↔ x = s ∨ x ∈ l
  | [] => by simp [insertSortedStr]
  | t :: rest => by
    unfold insertSortedStr
    split
    · simp
    · split
      · rename_i h; subst h; simp
      · simp only [List.mem_cons, mem_insertSortedStr (l := rest)]
        tauto

theorem mem_unitsOf {ids : List TaskId} {u : String} : u ∈ unitsOf ids ↔ ∃ i ∈ ids, i.unit = u := by
  suffices ∀ (ids : List TaskId) (acc : List String),
      u ∈ ids.foldl (fun acc i => insertSortedStr i.unit acc) acc ↔ u ∈ acc ∨ ∃ i ∈ ids, i.unit = u by
    simpa [unitsOf] using this ids []
  intro ids
  induction ids with
  | nil => simp
  | cons i ids ih =>
    intro acc
    rw [List.foldl_cons, ih, mem_insertSortedStr]
    simp only [List.mem_cons, exists_eq_or_imp]
    tauto

theorem mem_taskIds {plans : List (UnitPlan δ)} {a : TaskAction} {id : TaskId} :
    id ∈ taskIds plans a ↔ ∃ t ∈ plans.flatMap (·.tasks), t.action = a ∧ t.id = id := by
  simp [taskIds, and_assoc]

/-! ## Linking -/

/-- A task without the dependencies that linking adds. -/
def DeployTask.withoutLinks (t : DeployTask δ) : DeployTask δ := { t with dependsOn := [] }

theorem DeployTask.withoutLinks_of_unlinked {t : DeployTask δ} (h : t.dependsOn = []) :
    t.withoutLinks = t := by
  cases t; cases h; rfl

/-- What linking does to tasks without links: it keeps them, in order, and gives each
create-or-update task exactly the planned create-or-update tasks producing its imports (itself
apart), and each delete task only planned delete tasks. -/
structure Linked (plans : List (UnitPlan δ)) (creates : List TaskId)
    (linked : List (DeployTask δ)) : Prop where
  withoutLinks_eq : linked.map DeployTask.withoutLinks = plans.flatMap (·.tasks)
  create_deps : ∀ t ∈ linked, t.action = .createOrUpdate →
    ∀ d, d ∈ t.dependsOn ↔ ∃ i ∈ t.imports, TaskId.sourceOf i = d ∧ d ≠ t.id ∧ d ∈ creates
  delete_deps : ∀ t ∈ linked, t.action = .delete → ∀ d ∈ t.dependsOn, d ∈ taskIds plans .delete

/-- A fold that appends one element for each element it reads maps, element by element, to
what it reads. -/
theorem foldl_snoc_map {α β γ ε : Type} (F : List α × β → γ → List α × β) (f : α → ε) (g : γ → ε)
    (hF : ∀ acc x, ∃ y, (F acc x).1 = acc.1 ++ [y] ∧ f y = g x) :
    ∀ (xs : List γ) (acc : List α × β), (xs.foldl F acc).1.map f = acc.1.map f ++ xs.map g
  | [], acc => by simp
  | x :: xs, acc => by
    obtain ⟨y, hy, hfy⟩ := hF acc x
    rw [List.foldl_cons, foldl_snoc_map F f g hF xs, hy]
    simp [hfy]

/-! Linking is two passes over the tasks. The first gives each create-or-update task its
dependencies and records, for each planned delete task, the delete tasks that import from it
(its consumers); the second makes each delete task depend on its consumers. The definitions
below name the steps of the two passes. -/

/-- The dependencies the first pass gives a create-or-update task. -/
def createDeps (creates : List TaskId) (t : DeployTask δ) : List TaskId :=
  t.imports.foldl (fun deps i =>
    if TaskId.sourceOf i != t.id && creates.contains (TaskId.sourceOf i) then
      TaskId.insertSorted (TaskId.sourceOf i) deps
    else deps) t.dependsOn

/-- Records a delete task as a consumer of each planned delete task it imports from. -/
def addConsumers (deletes : List TaskId) (t : DeployTask δ)
    (consumers : List (TaskId × List TaskId)) : List (TaskId × List TaskId) :=
  t.imports.foldl (fun consumers i =>
    if TaskId.sourceOf i != t.id && deletes.contains (TaskId.sourceOf i) then
      insertById (TaskId.sourceOf i)
        (TaskId.insertSorted t.id ((consumers.lookup (TaskId.sourceOf i)).getD [])) consumers
    else consumers) consumers

/-- One step of the first pass. -/
def linkFirst (deletes creates : List TaskId)
    (acc : List (DeployTask δ) × List (TaskId × List TaskId)) (t : DeployTask δ) :
    List (DeployTask δ) × List (TaskId × List TaskId) :=
  match t.action with
  | .createOrUpdate => (acc.1 ++ [{ t with dependsOn := createDeps creates t }], acc.2)
  | .delete => (acc.1 ++ [t], addConsumers deletes t acc.2)

/-- One step of the second pass. -/
def linkSecond (acc : List (DeployTask δ) × List (TaskId × List TaskId)) (t : DeployTask δ) :
    List (DeployTask δ) × List (TaskId × List TaskId) :=
  if t.action == .delete then
    match acc.2.lookup t.id with
    | some cs =>
      (acc.1 ++ [{ t with dependsOn := cs.foldl (fun ds c => TaskId.insertSorted c ds) t.dependsOn }],
       acc.2.filter (·.1 != t.id))
    | none => (acc.1 ++ [t], acc.2)
  else (acc.1 ++ [t], acc.2)

theorem linkTasks_eq (plans : List (UnitPlan δ)) (creates : List TaskId) :
    linkTasks plans creates =
      (((plans.flatMap (·.tasks)).foldl (linkFirst (taskIds plans .delete) creates) ([], [])).1.foldl
        linkSecond ([], ((plans.flatMap (·.tasks)).foldl
          (linkFirst (taskIds plans .delete) creates) ([], [])).2)).1 := rfl

theorem mem_createDeps {creates : List TaskId} {t : DeployTask δ} (ht : t.dependsOn = [])
    {d : TaskId} :
    d ∈ createDeps creates t ↔ ∃ i ∈ t.imports, TaskId.sourceOf i = d ∧ d ≠ t.id ∧ d ∈ creates := by
  rw [createDeps, TaskId.mem_foldl_insertSource, ht]
  simp only [List.not_mem_nil, false_or, Bool.and_eq_true, bne_iff_ne, ne_eq,
    List.contains_iff_mem]
  constructor
  · rintro ⟨i, hi, ⟨hne, hc⟩, rfl⟩
    exact ⟨i, hi, rfl, hne, hc⟩
  · rintro ⟨i, hi, rfl, hne, hc⟩
    exact ⟨i, hi, ⟨hne, hc⟩, rfl⟩

/-- Every consumer recorded is a planned delete task, when the task recorded is one. -/
theorem addConsumers_planned {deletes : List TaskId} {t : DeployTask δ} (ht : t.id ∈ deletes)
    {consumers : List (TaskId × List TaskId)} (hc : ∀ e ∈ consumers, ∀ c ∈ e.2, c ∈ deletes) :
    ∀ e ∈ addConsumers deletes t consumers, ∀ c ∈ e.2, c ∈ deletes := by
  unfold addConsumers
  refine List.foldlRecOn (motive := fun cs : List (TaskId × List TaskId) => ∀ e ∈ cs, ∀ c ∈ e.2, c ∈ deletes)
    _ _ hc ?_
  intro cs hcs i _ e he c hce
  split at he
  · rcases mem_insertById he with rfl | he
    · rcases TaskId.mem_insertSorted.mp hce with rfl | hce
      · exact ht
      · cases hl : cs.lookup (TaskId.sourceOf i) with
        | none => simp [hl] at hce
        | some l =>
          rw [hl, Option.getD_some] at hce
          obtain ⟨l₁, l₂, hsplit, -⟩ := List.lookup_eq_some_iff.mp hl
          exact hcs (TaskId.sourceOf i, l) (by simp [hsplit]) c hce
    · exact hcs e he c hce
  · exact hcs e he c hce

/-- What the first pass gives each task, and what the second keeps: a create-or-update task has
exactly the dependencies of `createDeps`, a delete task only planned delete tasks. -/
def LinkedTask (plans : List (UnitPlan δ)) (creates : List TaskId) (t : DeployTask δ) : Prop :=
  (t.action = .createOrUpdate →
    ∀ d, d ∈ t.dependsOn ↔ ∃ i ∈ t.imports, TaskId.sourceOf i = d ∧ d ≠ t.id ∧ d ∈ creates) ∧
  (t.action = .delete → ∀ d ∈ t.dependsOn, d ∈ taskIds plans .delete)

/-- What the passes keep: linked tasks, and consumers that are planned delete tasks. -/
def LinkInvariant (plans : List (UnitPlan δ)) (creates : List TaskId)
    (acc : List (DeployTask δ) × List (TaskId × List TaskId)) : Prop :=
  (∀ t ∈ acc.1, LinkedTask plans creates t) ∧ ∀ e ∈ acc.2, ∀ c ∈ e.2, c ∈ taskIds plans .delete

theorem linkFirst_invariant {plans : List (UnitPlan δ)} {creates : List TaskId}
    {acc : List (DeployTask δ) × List (TaskId × List TaskId)} (hacc : LinkInvariant plans creates acc)
    {t : DeployTask δ} (ht : t ∈ plans.flatMap (·.tasks)) (hun : t.dependsOn = []) :
    LinkInvariant plans creates (linkFirst (taskIds plans .delete) creates acc t) := by
  obtain ⟨hdone, hcons⟩ := hacc
  unfold linkFirst
  split
  · rename_i hact
    refine ⟨fun u hu => ?_, hcons⟩
    rcases List.mem_append.mp hu with hu | hu
    · exact hdone u hu
    · rw [List.mem_singleton.mp hu]
      refine ⟨fun _ d => mem_createDeps hun, fun h => ?_⟩
      have h' : t.action = .delete := h
      rw [hact] at h'
      cases h'
  · rename_i hact
    refine ⟨fun u hu => ?_, addConsumers_planned (mem_taskIds.mpr ⟨t, ht, hact, rfl⟩) hcons⟩
    rcases List.mem_append.mp hu with hu | hu
    · exact hdone u hu
    · rw [List.mem_singleton.mp hu]
      refine ⟨fun h => ?_, fun _ d hd => ?_⟩
      · rw [hact] at h; cases h
      · rw [hun] at hd; cases hd

theorem linkSecond_invariant {plans : List (UnitPlan δ)} {creates : List TaskId}
    {acc : List (DeployTask δ) × List (TaskId × List TaskId)} (hacc : LinkInvariant plans creates acc)
    {t : DeployTask δ} (ht : LinkedTask plans creates t) :
    LinkInvariant plans creates (linkSecond acc t) := by
  obtain ⟨hdone, hcons⟩ := hacc
  have keep : ∀ u ∈ acc.1 ++ [t], LinkedTask plans creates u := fun u hu => by
    rcases List.mem_append.mp hu with hu | hu
    · exact hdone u hu
    · rw [List.mem_singleton.mp hu]; exact ht
  unfold linkSecond
  split
  · rename_i hdel
    split
    · rename_i cs hcs
      refine ⟨fun u hu => ?_, fun e he => hcons e (List.mem_filter.mp he).1⟩
      rcases List.mem_append.mp hu with hu | hu
      · exact hdone u hu
      · -- a delete task gains its consumers, which are planned delete tasks
        rw [List.mem_singleton.mp hu]
        have hact : t.action = .delete := by simpa using hdel
        refine ⟨fun h => ?_, fun _ d hd => ?_⟩
        · have h' : t.action = .createOrUpdate := h
          rw [hact] at h'
          cases h'
        rcases (TaskId.mem_foldl_insertSorted cs t.dependsOn).mp hd with hd | hd
        · exact ht.2 hact d hd
        · obtain ⟨l₁, l₂, hsplit, -⟩ := List.lookup_eq_some_iff.mp hcs
          exact hcons (t.id, cs) (by simp [hsplit]) d hd
    · exact ⟨keep, hcons⟩
  · exact ⟨keep, hcons⟩

/-- Linking keeps every task, in order, and changes only dependencies. -/
theorem linkTasks_withoutLinks (plans : List (UnitPlan δ)) (creates : List TaskId) :
    (linkTasks plans creates).map DeployTask.withoutLinks =
      (plans.flatMap (·.tasks)).map DeployTask.withoutLinks := by
  rw [linkTasks_eq]
  -- both passes append one task for each task they read, with the same task without links
  rw [foldl_snoc_map _ _ DeployTask.withoutLinks ?second,
    foldl_snoc_map _ _ DeployTask.withoutLinks ?first]
  · simp
  case first =>
    intro acc t
    unfold linkFirst
    split
    · exact ⟨_, rfl, rfl⟩
    · exact ⟨_, rfl, rfl⟩
  case second =>
    intro acc t
    unfold linkSecond
    split
    · split
      · exact ⟨_, rfl, rfl⟩
      · exact ⟨_, rfl, rfl⟩
    · exact ⟨_, rfl, rfl⟩

theorem linkTasks_linked (plans : List (UnitPlan δ)) (creates : List TaskId)
    (hun : ∀ t ∈ plans.flatMap (·.tasks), t.dependsOn = []) :
    Linked plans creates (linkTasks plans creates) := by
  have hfirst : LinkInvariant plans creates
      ((plans.flatMap (·.tasks)).foldl (linkFirst (taskIds plans .delete) creates) ([], [])) :=
    List.foldlRecOn (motive := LinkInvariant plans creates) _ _ ⟨by simp, by simp⟩
      fun acc hacc t ht => linkFirst_invariant hacc ht (hun t ht)
  have hsecond := List.foldlRecOn (motive := LinkInvariant plans creates) _ linkSecond
    (b := ([], _)) ⟨by simp, hfirst.2⟩ fun acc hacc t ht => linkSecond_invariant hacc (hfirst.1 t ht)
  refine ⟨?_, fun t ht => (hsecond.1 t ht).1, fun t ht => (hsecond.1 t ht).2⟩
  rw [linkTasks_withoutLinks]
  exact (List.map_congr_left fun t ht => DeployTask.withoutLinks_of_unlinked (hun t ht)).trans
    (List.map_id' _)

/-! ## Plans as planning makes them -/

/-- What planning guarantees of a unit's plan: its tasks are its own, with distinct ids and no
links yet, and each deferred entry is one of its create-or-update tasks, which imports every
output the entry misses. -/
structure UnitPlan.WellFormed (p : UnitPlan δ) : Prop where
  unit_eq : ∀ t ∈ p.tasks, t.id.unit = p.unit
  ids_nodup : (p.tasks.map (·.id)).Nodup
  unlinked : ∀ t ∈ p.tasks, t.dependsOn = []
  deferred : ∀ d ∈ p.deferred, ∃ t ∈ p.tasks, t.id = d.1 ∧ t.action = .createOrUpdate ∧
    ∀ i ∈ d.2.missingImports, i ∈ t.imports

/-- Plans of distinct units, each well formed. -/
structure PlansWellFormed (plans : List (UnitPlan δ)) : Prop where
  units_nodup : (plans.map (·.unit)).Nodup
  each : ∀ p ∈ plans, p.WellFormed

namespace PlansWellFormed

variable {plans : List (UnitPlan δ)}

theorem filter (hw : PlansWellFormed plans) (f : UnitPlan δ → Bool) :
    PlansWellFormed (plans.filter f) :=
  ⟨(List.filter_sublist.map _).nodup hw.units_nodup,
    fun p hp => hw.each p (List.mem_of_mem_filter hp)⟩

theorem unlinked (hw : PlansWellFormed plans) : ∀ t ∈ plans.flatMap (·.tasks), t.dependsOn = [] := by
  intro t ht
  obtain ⟨p, hp, ht⟩ := List.mem_flatMap.mp ht
  exact (hw.each p hp).unlinked t ht

/-- A planned task belongs to the plan of its own unit. -/
theorem exists_plan (hw : PlansWellFormed plans) {t : DeployTask δ}
    (ht : t ∈ plans.flatMap (·.tasks)) : ∃ p ∈ plans, t ∈ p.tasks ∧ p.unit = t.id.unit := by
  obtain ⟨p, hp, ht⟩ := List.mem_flatMap.mp ht
  exact ⟨p, hp, ht, ((hw.each p hp).unit_eq t ht).symm⟩

/-- Tasks of distinct units differ, so all planned tasks have distinct ids. -/
theorem ids_nodup (hw : PlansWellFormed plans) : ((plans.flatMap (·.tasks)).map (·.id)).Nodup := by
  rw [List.map_flatMap, List.nodup_flatMap]
  refine ⟨fun p hp => (hw.each p hp).ids_nodup, ?_⟩
  have hpair := List.pairwise_map.mp (List.nodup_iff_pairwise_ne.mp hw.units_nodup)
  refine List.Pairwise.imp_of_mem (fun {p q} hp hq hne => ?_) hpair
  intro id hidp hidq
  obtain ⟨t, ht, rfl⟩ := List.mem_map.mp hidp
  obtain ⟨u, hu, hid⟩ := List.mem_map.mp hidq
  apply hne
  rw [← (hw.each p hp).unit_eq t ht, ← (hw.each q hq).unit_eq u hu, hid]

end PlansWellFormed

/-! ## Dropped units -/

/-- Each unit `unresolvable` drops is planned with a deferred task, and its error is an
`unresolvedExport` of that unit. -/
theorem mem_unresolvable {plans : List (UnitPlan δ)} {creates : List TaskId}
    {x : String × PlanError} (h : x ∈ unresolvable plans creates) :
    ∃ p ∈ plans, p.deferred ≠ [] ∧ x.1 = p.unit ∧ ∃ task i, x.2 = .unresolvedExport p.unit task i := by
  obtain ⟨p, hp, hx⟩ := List.mem_filterMap.mp h
  obtain ⟨⟨task, i⟩, habs, rfl⟩ := Option.map_eq_some_iff.mp hx
  refine ⟨p, hp, fun hnil => ?_, rfl, task, i, rfl⟩
  rw [hnil] at habs
  simp at habs

/-- When `unresolvable` drops nothing, every output a deferred task misses has a planned
create-or-update task producing it, other than the task itself. -/
theorem unresolvable_eq_nil {plans : List (UnitPlan δ)} {creates : List TaskId}
    (h : unresolvable plans creates = []) :
    ∀ p ∈ plans, ∀ d ∈ p.deferred, ∀ i ∈ d.2.missingImports,
      TaskId.sourceOf i ≠ d.1 ∧ TaskId.sourceOf i ∈ creates := by
  intro p hp d hd i hi
  have hnone := List.filterMap_eq_nil_iff.mp h p hp
  simp only [Option.map_eq_none_iff] at hnone
  have hfind := List.findSome?_eq_none_iff.mp hnone d hd
  simp only [Option.map_eq_none_iff, List.find?_eq_none] at hfind
  simpa using hfind i hi

/-- Whether one of some errors names a unit. -/
def namedBy (errors : List PlanError) (unit : String) : Bool :=
  errors.any fun e => e.units.contains unit

/-- The plans of the units that no error names. -/
def keptBy (errors : List PlanError) (plans : List (UnitPlan δ)) : List (UnitPlan δ) :=
  plans.filter fun p => !namedBy errors p.unit

@[simp] theorem namedBy_nil (u : String) : namedBy [] u = false := rfl

theorem namedBy_append (e₁ e₂ : List PlanError) (u : String) :
    namedBy (e₁ ++ e₂) u = (namedBy e₁ u || namedBy e₂ u) := by
  simp [namedBy, List.any_append]

theorem namedBy_eq_true {errors : List PlanError} {u : String} :
    namedBy errors u = true ↔ ∃ e ∈ errors, u ∈ e.units := by
  simp [namedBy]

@[simp] theorem keptBy_nil (plans : List (UnitPlan δ)) : keptBy [] plans = plans := by
  simp [keptBy]

theorem keptBy_append (e₁ e₂ : List PlanError) (plans : List (UnitPlan δ)) :
    keptBy (e₁ ++ e₂) plans = keptBy e₂ (keptBy e₁ plans) := by
  simp only [keptBy, List.filter_filter, namedBy_append, Bool.not_or]
  exact List.filter_congr fun p _ => Bool.and_comm _ _

/-- The errors of the units `unresolvable` drops name exactly those units. -/
theorem namedBy_unresolvable {plans : List (UnitPlan δ)} {creates : List TaskId} (u : String) :
    namedBy ((unresolvable plans creates).map (·.2)) u =
      ((unresolvable plans creates).map (·.1)).contains u := by
  rw [Bool.eq_iff_iff, namedBy_eq_true]
  simp only [List.mem_map, List.contains_iff_mem]
  constructor
  · rintro ⟨_, ⟨x, hx, rfl⟩, hu⟩
    obtain ⟨p, -, -, h1, task, i, h2⟩ := mem_unresolvable hx
    rw [h2] at hu
    simp only [PlanError.units, List.mem_singleton] at hu
    exact ⟨x, hx, by rw [h1, hu]⟩
  · rintro ⟨x, hx, rfl⟩
    obtain ⟨p, -, -, h1, task, i, h2⟩ := mem_unresolvable hx
    exact ⟨x.2, ⟨x, hx, rfl⟩, by rw [h2, h1]; simp [PlanError.units]⟩

/-! ## Assembly -/

/-- What assembly makes of plans, with `new` the errors it adds and `g` its graph: the graph is
built from the linked tasks of the units no new error names, none of which misses an output
that no kept task produces; no new error is `graph`; and every unit a new error names is a
planned unit with tasks. -/
structure Assembled (plans : List (UnitPlan δ)) (new : List PlanError) (g : TaskGraph δ) :
    Prop where
  built : TaskGraph.build (linkTasks (keptBy new plans)
    (taskIds (keptBy new plans) .createOrUpdate)) = .ok g
  resolved : unresolvable (keptBy new plans) (taskIds (keptBy new plans) .createOrUpdate) = []
  no_graph_error : ∀ e ∈ new, ∀ m, e ≠ .graph m
  names_planned : ∀ e ∈ new, ∀ u ∈ e.units, ∃ p ∈ plans, p.unit = u ∧ p.tasks ≠ []

/-- The tasks linking produces have the planned ids. -/
theorem Linked.ids_eq {plans : List (UnitPlan δ)} {creates : List TaskId}
    {linked : List (DeployTask δ)} (hl : Linked plans creates linked) :
    linked.map (·.id) = (plans.flatMap (·.tasks)).map (·.id) := by
  rw [← hl.withoutLinks_eq, List.map_map]
  rfl

/-- Every dependency linking adds names a planned task. -/
theorem Linked.deps_listed {plans : List (UnitPlan δ)} {linked : List (DeployTask δ)}
    (hl : Linked plans (taskIds plans .createOrUpdate) linked) :
    ∀ t ∈ linked, ∀ d ∈ t.dependsOn, d ∈ linked.map (·.id) := by
  intro t ht d hd
  have hplanned : d ∈ taskIds plans .createOrUpdate ∨ d ∈ taskIds plans .delete := by
    cases hact : t.action with
    | createOrUpdate =>
      obtain ⟨-, -, -, -, hc⟩ := (hl.create_deps t ht hact d).mp hd
      exact .inl hc
    | delete => exact .inr (hl.delete_deps t ht hact d hd)
  rw [hl.ids_eq]
  rcases hplanned with h | h <;>
  · obtain ⟨u, hu, -, rfl⟩ := mem_taskIds.mp h
    exact List.mem_map_of_mem hu

/-- A cycle the graph reports names a planned unit with tasks, and drops at least its plan. -/
theorem cycle_units {plans : List (UnitPlan δ)} (hw : PlansWellFormed plans) {ts : List TaskId}
    (hb : TaskGraph.build (linkTasks plans (taskIds plans .createOrUpdate)) =
      .error (.dependencyCycle ts)) :
    (∀ u ∈ unitsOf ts, ∃ p ∈ plans, p.unit = u ∧ p.tasks ≠ []) ∧
      ∃ p ∈ plans, (unitsOf ts).contains p.unit := by
  have hl := linkTasks_linked plans (taskIds plans .createOrUpdate) hw.unlinked
  obtain ⟨c, hc, hne, hmem⟩ := build_error_cycle hb (hl.ids_eq ▸ hw.ids_nodup) hl.deps_listed
  cases hc
  have hplan : ∀ i ∈ ts, ∃ p ∈ plans, p.unit = i.unit ∧ p.tasks ≠ [] := by
    intro i hi
    obtain ⟨t, ht, rfl⟩ := List.mem_map.mp (hl.ids_eq ▸ hmem i hi)
    obtain ⟨p, hp, htp, hu⟩ := hw.exists_plan ht
    exact ⟨p, hp, hu, List.ne_nil_of_mem htp⟩
  refine ⟨fun u hu => ?_, ?_⟩
  · obtain ⟨i, hi, rfl⟩ := mem_unitsOf.mp hu
    exact hplan i hi
  · obtain ⟨i, hi⟩ := List.exists_mem_of_ne_nil ts hne
    obtain ⟨p, hp, hu, -⟩ := hplan i hi
    exact ⟨p, hp, List.contains_iff_mem.mpr (mem_unitsOf.mpr ⟨i, hi, hu.symm⟩)⟩

/-- Every round of assembly that does not finish drops at least one plan, so fuel above the
number of plans is enough, and what it finishes with is `Assembled`. -/
theorem assembleWithin_assembled :
    ∀ (fuel : Nat) (plans : List (UnitPlan δ)) (errors : List PlanError),
      plans.length < fuel → PlansWellFormed plans →
      ∃ new g, assembleWithin fuel plans errors = ⟨g, errors ++ new⟩ ∧ Assembled plans new g
  | 0, _, _, hlen, _ => absurd hlen (Nat.not_lt_zero _)
  | fuel + 1, plans, errors, hlen, hw => by
    rw [assembleWithin]
    split
    · rename_i hres
      split
      · rename_i g hb
        exact ⟨[], g, by simp, ⟨by simpa using hb, by simpa using hres, by simp, by simp⟩⟩
      · -- a cycle: its units are dropped and assembly goes on with the others
        rename_i ts hb
        obtain ⟨hunits, p, hp, hdrop⟩ := cycle_units hw hb
        have hshort : (plans.filter fun q => !(unitsOf ts).contains q.unit).length < fuel := by
          have := (List.length_filter_lt_length_iff_exists
            (p := fun q => !(unitsOf ts).contains q.unit)).mpr ⟨p, hp, by simpa using hdrop⟩
          omega
        obtain ⟨new, g, hrun, hasm⟩ := assembleWithin_assembled fuel _
          (errors ++ [.dependencyCycle (unitsOf ts) (.dependencyCycle ts)]) hshort (hw.filter _)
        have hkept : keptBy [.dependencyCycle (unitsOf ts) (.dependencyCycle ts)] plans =
            plans.filter fun q => !(unitsOf ts).contains q.unit := by
          simp [keptBy, namedBy, PlanError.units]
        refine ⟨.dependencyCycle (unitsOf ts) (.dependencyCycle ts) :: new, g, ?_, ?_⟩
        · dsimp only
          rw [hrun]
          simp
        rw [show PlanError.dependencyCycle (unitsOf ts) (.dependencyCycle ts) :: new =
          [.dependencyCycle (unitsOf ts) (.dependencyCycle ts)] ++ new from rfl]
        refine ⟨by rw [keptBy_append, hkept]; exact hasm.built,
          by rw [keptBy_append, hkept]; exact hasm.resolved, ?_, ?_⟩
        · intro e he m
          rcases List.mem_append.mp he with he | he
          · simp at he; subst he; simp
          · exact hasm.no_graph_error e he m
        · intro e he u hu
          rcases List.mem_append.mp he with he | he
          · simp at he; subst he
            exact hunits u hu
          · obtain ⟨q, hq, rest⟩ := hasm.names_planned e he u hu
            exact ⟨q, List.mem_of_mem_filter hq, rest⟩
      · -- any other failure is impossible: the planned ids are distinct and every
        -- dependency names a planned task
        rename_i e hnot hb
        have hl := linkTasks_linked plans (taskIds plans .createOrUpdate) hw.unlinked
        obtain ⟨c, rfl, -⟩ := build_error_cycle hb (hl.ids_eq ▸ hw.ids_nodup) hl.deps_listed
        exact absurd rfl (hnot c)
    · -- units with unresolved deferrals are dropped and assembly goes on with the others
      rename_i hres
      set dropped := unresolvable plans (taskIds plans .createOrUpdate) with hdropped
      obtain ⟨x, hx⟩ := List.exists_mem_of_ne_nil dropped hres
      obtain ⟨p, hp, hdef, hxp, -⟩ := mem_unresolvable hx
      have hin : (dropped.map (·.1)).contains p.unit = true :=
        List.contains_iff_mem.mpr (List.mem_map.mpr ⟨x, hx, hxp⟩)
      have hshort : (plans.filter fun q => !(dropped.map (·.1)).contains q.unit).length < fuel := by
        have := (List.length_filter_lt_length_iff_exists
          (p := fun q => !(dropped.map (·.1)).contains q.unit)).mpr ⟨p, hp, by rw [hin]; decide⟩
        omega
      obtain ⟨new, g, hrun, hasm⟩ := assembleWithin_assembled fuel _ (errors ++ dropped.map (·.2))
        hshort (hw.filter _)
      have hkept : keptBy (dropped.map (·.2)) plans =
          plans.filter fun q => !(dropped.map (·.1)).contains q.unit := by
        unfold keptBy
        exact List.filter_congr fun q _ => by rw [namedBy_unresolvable]
      refine ⟨dropped.map (·.2) ++ new, g, ?_, ?_⟩
      · dsimp only
        rw [hrun]
        simp
      refine ⟨by rw [keptBy_append, hkept]; exact hasm.built,
        by rw [keptBy_append, hkept]; exact hasm.resolved, ?_, ?_⟩
      · intro e he m
        rcases List.mem_append.mp he with he | he
        · obtain ⟨y, hy, rfl⟩ := List.mem_map.mp he
          obtain ⟨q, -, -, -, task, i, h⟩ := mem_unresolvable hy
          rw [h]
          simp
        · exact hasm.no_graph_error e he m
      · intro e he u hu
        rcases List.mem_append.mp he with he | he
        · obtain ⟨y, hy, rfl⟩ := List.mem_map.mp he
          obtain ⟨q, hq, hdef, -, task, i, h⟩ := mem_unresolvable hy
          rw [h] at hu
          simp only [PlanError.units, List.mem_singleton] at hu
          obtain ⟨d, hd⟩ := List.exists_mem_of_ne_nil _ hdef
          obtain ⟨t, ht, -⟩ := (hw.each q hq).deferred d hd
          exact ⟨q, hq, hu.symm, List.ne_nil_of_mem ht⟩
        · obtain ⟨q, hq, rest⟩ := hasm.names_planned e he u hu
          exact ⟨q, List.mem_of_mem_filter hq, rest⟩

/-- Assembly of well-formed plans is `Assembled`. -/
theorem assemble_assembled {plans : List (UnitPlan δ)} (hw : PlansWellFormed plans) :
    ∃ new g, assemble plans = ⟨g, new⟩ ∧ Assembled plans new g := by
  obtain ⟨new, g, h, hasm⟩ := assembleWithin_assembled (plans.length + 1) plans [] (by omega) hw
  exact ⟨new, g, by simpa [assemble] using h, hasm⟩

/-- Every task of an assembled graph is a planned task, with the links assembly gave it. -/
theorem assembleWithin_tasks :
    ∀ (fuel : Nat) (plans : List (UnitPlan δ)) (errors : List PlanError),
      ∀ t ∈ (assembleWithin fuel plans errors).graph.tasks,
        ∃ t' ∈ plans.flatMap (·.tasks), t'.withoutLinks = t.withoutLinks
  | 0, _, _, t, ht => by simp [assembleWithin] at ht
  | fuel + 1, plans, errors, t, ht => by
    -- a round that drops units goes on with some of the plans
    have hsub : ∀ (f : UnitPlan δ → Bool) (errors' : List PlanError),
        t ∈ (assembleWithin fuel (plans.filter f) errors').graph.tasks →
          ∃ t' ∈ plans.flatMap (·.tasks), t'.withoutLinks = t.withoutLinks := by
      intro f errors' ht'
      obtain ⟨t', ht'm, heq⟩ := assembleWithin_tasks fuel _ errors' t ht'
      obtain ⟨p, hp, htp⟩ := List.mem_flatMap.mp ht'm
      exact ⟨t', List.mem_flatMap.mpr ⟨p, List.mem_of_mem_filter hp, htp⟩, heq⟩
    rw [assembleWithin] at ht
    split at ht
    · split at ht
      · rename_i g hb
        rw [(TaskGraph.build_built hb).tasks_eq, List.mem_toArray] at ht
        have hmem := List.mem_map_of_mem (f := DeployTask.withoutLinks) ht
        rw [linkTasks_withoutLinks] at hmem
        exact List.mem_map.mp hmem
      · exact hsub _ _ ht
      · simp at ht
    · exact hsub _ _ ht

theorem assemble_tasks {plans : List (UnitPlan δ)} :
    ∀ t ∈ (assemble plans).graph.tasks, ∃ t' ∈ plans.flatMap (·.tasks),
      t'.withoutLinks = t.withoutLinks :=
  assembleWithin_tasks _ plans []

/-! ## The assembled graph -/

/-- Each planned task is a linked task with its links taken off. -/
theorem Linked.exists_linked {plans : List (UnitPlan δ)} {creates : List TaskId}
    {linked : List (DeployTask δ)} (hl : Linked plans creates linked) {t : DeployTask δ}
    (ht : t ∈ plans.flatMap (·.tasks)) : ∃ t' ∈ linked, t'.withoutLinks = t := by
  rw [← hl.withoutLinks_eq] at ht
  exact List.mem_map.mp ht

namespace Assembled

variable {plans : List (UnitPlan δ)} {new : List PlanError} {g : TaskGraph δ}

/-- The linked tasks of the kept units. -/
abbrev linkedTasks (plans : List (UnitPlan δ)) (new : List PlanError) : List (DeployTask δ) :=
  linkTasks (keptBy new plans) (taskIds (keptBy new plans) .createOrUpdate)

theorem graph_built (h : Assembled plans new g) : g.Built (linkedTasks plans new) :=
  TaskGraph.build_built h.built

theorem kept_linked (hw : PlansWellFormed plans) :
    Linked (keptBy new plans) (taskIds (keptBy new plans) .createOrUpdate)
      (linkedTasks plans new) :=
  linkTasks_linked _ _ (hw.filter _).unlinked

theorem mem_tasks (h : Assembled plans new g) {t : DeployTask δ} :
    t ∈ g.tasks ↔ t ∈ linkedTasks plans new := by
  rw [h.graph_built.tasks_eq, List.mem_toArray]

/-- The graph holds exactly the tasks of the units no new error names, in order, each with the
links assembly gave it. -/
theorem tasks_withoutLinks (hw : PlansWellFormed plans) (h : Assembled plans new g) :
    g.tasks.toList.map DeployTask.withoutLinks = (keptBy new plans).flatMap (·.tasks) := by
  rw [h.graph_built.tasks_eq]
  exact (kept_linked hw).withoutLinks_eq

/-- Every dependency of a task of the graph is a task of the graph. -/
theorem deps_present (hw : PlansWellFormed plans) (h : Assembled plans new g) :
    ∀ t ∈ g.tasks, ∀ d ∈ t.dependsOn, ∃ u ∈ g.tasks, u.id = d := by
  intro t ht d hd
  obtain ⟨u, hu, rfl⟩ := List.mem_map.mp ((kept_linked hw).deps_listed t (h.mem_tasks.mp ht) d hd)
  exact ⟨u, h.mem_tasks.mpr hu, rfl⟩

/-- Each deferred task of a kept unit is in the graph and depends on a create-or-update task of
the graph for the source of every output it misses, which is never the task itself. -/
theorem deferred_linked (hw : PlansWellFormed plans) (h : Assembled plans new g) :
    ∀ p ∈ keptBy new plans, ∀ d ∈ p.deferred, ∀ i ∈ d.2.missingImports,
      TaskId.sourceOf i ≠ d.1 ∧ ∃ t ∈ g.tasks, t.id = d.1 ∧ TaskId.sourceOf i ∈ t.dependsOn ∧
        ∃ s ∈ g.tasks, s.id = TaskId.sourceOf i ∧ s.action = .createOrUpdate := by
  intro p hp d hd i hi
  have hl : Linked (keptBy new plans) _ (linkedTasks plans new) := kept_linked hw
  obtain ⟨hself, hcreate⟩ := unresolvable_eq_nil h.resolved p hp d hd i hi
  -- the deferred task, as planned and as linked
  obtain ⟨t, htp, hid, hact, himp⟩ := ((hw.filter _).each p hp).deferred d hd
  obtain ⟨t', ht', rfl⟩ := hl.exists_linked (List.mem_flatMap.mpr ⟨p, hp, htp⟩)
  have hdep : TaskId.sourceOf i ∈ t'.dependsOn :=
    (hl.create_deps t' ht' hact _).mpr ⟨i, himp i hi, rfl, hid ▸ hself, hcreate⟩
  -- the task producing the missing output
  obtain ⟨s, hs, hsact, hsid⟩ := mem_taskIds.mp hcreate
  obtain ⟨s', hs', rfl⟩ := hl.exists_linked hs
  exact ⟨hself, t', h.mem_tasks.mpr ht', hid, hdep, s', h.mem_tasks.mpr hs', hsid, hsact⟩

end Assembled

end OrgDeploy
