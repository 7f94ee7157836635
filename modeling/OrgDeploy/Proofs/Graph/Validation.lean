import Mathlib
import OrgDeploy.Proofs.Graph.Reported

/-!
# Building a graph checks exactly

`TaskGraph.build` checks, in this order, that the task ids are distinct, that every dependency
names a task, and that no task depends on itself through other tasks. The checks are exact, and
the graph they let through is the dependency relation:

* `build_ok_iff`: a list builds exactly when its ids are distinct, its dependencies name tasks
  of the list (`DependenciesListed`), and the dependency relation between its tasks
  (`DependsAmong`) has no cycle;
* `build_error_duplicate`, `build_error_unknown`, `build_error_cycle_of`: otherwise the error
  is the first check that fails, and names what failed it: the first id that repeats an earlier
  one (`FirstRepeat`), the first dependency, by task and then in the task's list, that names no
  task (`FirstUnknown`), or a cycle of the dependency relation;
* `Built.mem_prerequisitesOf_iff`, `Built.prerequisitesOf_eq`, `Built.entryPoints_eq`: on
  success a task's prerequisites are the positions of its dependencies, in their order, and so
  exactly the tasks it depends on; the entry points are the tasks without dependencies;
* `findCycle_isCycle`, `findCycle_isSome_iff`: among tasks with distinct ids the cycle search
  reports cycles of the dependency relation, and reports one exactly when the relation has one.
-/

namespace OrgDeploy

open CycleSearch

variable {δ : Type}

/-- Within a task list, the task with id `a` depends on the task with id `b`: a task of the
list with id `a` names `b` among its dependencies, and `b` is the id of a task of the list. -/
def DependsAmong (tasks : List (DeployTask δ)) (a b : TaskId) : Prop :=
  ∃ t ∈ tasks, t.id = a ∧ b ∈ t.dependsOn ∧ b ∈ tasks.map (·.id)

instance (tasks : List (DeployTask δ)) (a b : TaskId) : Decidable (DependsAmong tasks a b) :=
  inferInstanceAs (Decidable (∃ t ∈ tasks, t.id = a ∧ b ∈ t.dependsOn ∧ b ∈ tasks.map (·.id)))

/-- Every dependency of every task names a task of the list. -/
def DependenciesListed (tasks : List (DeployTask δ)) : Prop :=
  ∀ t ∈ tasks, ∀ dep ∈ t.dependsOn, dep ∈ tasks.map (·.id)

instance (tasks : List (DeployTask δ)) : Decidable (DependenciesListed tasks) :=
  inferInstanceAs (Decidable (∀ t ∈ tasks, ∀ dep ∈ t.dependsOn, dep ∈ tasks.map (·.id)))

/-- No task depends on itself, directly or through other tasks. -/
def DependsAcyclic (tasks : List (DeployTask δ)) : Prop :=
  ∀ a, ¬ Relation.TransGen (DependsAmong tasks) a a

/-- `id` is the first id of the list that repeats an earlier one: the ids before it are
distinct, and it is among them. -/
def FirstRepeat (ids : List TaskId) (id : TaskId) : Prop :=
  ∃ pre post, ids = pre ++ id :: post ∧ pre.Nodup ∧ id ∈ pre

/-- `dep`, a dependency of `t`, is the first dependency that names no task of the list: the
dependencies of the tasks before `t`, and those of `t` before `dep`, all name tasks. -/
def FirstUnknown (tasks : List (DeployTask δ)) (t : DeployTask δ) (dep : TaskId) : Prop :=
  ∃ pre post before after, tasks = pre ++ t :: post ∧
    (∀ u ∈ pre, ∀ d ∈ u.dependsOn, d ∈ tasks.map (·.id)) ∧
    t.dependsOn = before ++ dep :: after ∧ (∀ d ∈ before, d ∈ tasks.map (·.id)) ∧
    dep ∉ tasks.map (·.id)

/-! ## Monadic folds, step by step -/

section Folds

variable {α β ε : Type} {f : β → α → Except ε β}

/-- A fold whose every step can go through goes through. -/
theorem foldlM_ok_of_steps :
    ∀ {xs : List α} (a : β), (∀ x ∈ xs, ∀ acc, ∃ b, f acc x = .ok b) → ∃ b, xs.foldlM f a = .ok b
  | [], a, _ => ⟨a, rfl⟩
  | x :: xs, a, h => by
    obtain ⟨b, hb⟩ := h x List.mem_cons_self a
    obtain ⟨c, hc⟩ := foldlM_ok_of_steps b fun y hy => h y (List.mem_cons_of_mem x hy)
    refine ⟨c, ?_⟩
    simp only [List.foldlM_cons, bind, Except.bind, hb]
    exact hc

/-- Every step of a fold that went through went through. -/
theorem foldlM_ok_steps :
    ∀ {xs : List α} {a b : β}, xs.foldlM f a = .ok b → ∀ x ∈ xs, ∃ acc c, f acc x = .ok c
  | [], _, _, _, x, hx => absurd hx List.not_mem_nil
  | y :: xs, a, b, h, x, hx => by
    simp only [List.foldlM_cons, bind, Except.bind] at h
    split at h
    · cases h
    · rename_i c hc
      rcases List.mem_cons.mp hx with rfl | hx
      · exact ⟨a, c, hc⟩
      · exact foldlM_ok_steps h x hx

/-- A fold that fails went through a prefix and failed at the next step. -/
theorem foldlM_eq_error :
    ∀ {xs : List α} {a : β} {e : ε}, xs.foldlM f a = .error e →
      ∃ pre x post acc, xs = pre ++ x :: post ∧ pre.foldlM f a = .ok acc ∧ f acc x = .error e
  | [], _, _, h => by cases h
  | y :: xs, a, e, h => by
    simp only [List.foldlM_cons, bind, Except.bind] at h
    split at h
    · rename_i e' hy
      cases h
      exact ⟨[], y, xs, a, rfl, rfl, hy⟩
    · rename_i b hy
      obtain ⟨pre, x, post, acc, rfl, hpre, hx⟩ := foldlM_eq_error h
      refine ⟨y :: pre, x, post, acc, rfl, ?_, hx⟩
      simp only [List.foldlM_cons, bind, Except.bind, hy]
      exact hpre

end Folds

/-! ## The dependency relation and the cycle search -/

theorem getElem?_of_lastIndexOf {ids : List TaskId} {id : TaskId} {k : Nat}
    (h : lastIndexOf ids id = some k) : ids[k]? = some id := by
  obtain ⟨⟨id', k'⟩, hx, hk⟩ := Option.map_eq_some_iff.mp h
  obtain ⟨hmem, hid⟩ := List.mem_filter.mp (List.mem_of_getLast? hx)
  have hid' : id' = id := by simpa using hid
  simp only at hk
  subst hk hid'
  exact List.mk_mem_zipIdx_iff_getElem?.mp hmem

/-- An edge of the cycle search among tasks goes from a task to one of its dependencies. -/
theorem edge_dependencyEdges {tasks : List (DeployTask δ)} {a b : Nat}
    (h : Edge (dependencyEdges tasks) a b) :
    ∃ t u, tasks[a]? = some t ∧ tasks[b]? = some u ∧ u.id ∈ t.dependsOn := by
  simp only [Edge, dependencyEdges, Array.getD_eq_getD_getElem?, Array.getElem?_map,
    List.getElem?_toArray] at h
  cases ha : tasks[a]? with
  | none => simp [ha] at h
  | some t =>
    simp only [ha, Option.map_some, Option.getD_some, List.mem_filterMap] at h
    obtain ⟨dep, hdep, hb⟩ := h
    have hb' := getElem?_of_lastIndexOf hb
    rw [List.getElem?_map] at hb'
    obtain ⟨u, hu, hid⟩ := Option.map_eq_some_iff.mp hb'
    exact ⟨t, u, rfl, hu, hid ▸ hdep⟩

theorem lt_of_edge {edges : Array (List Nat)} {a b : Nat} (h : Edge edges a b) :
    a < edges.size := by
  by_contra ha
  simp [Edge, Array.getD, ha] at h

/-- Positions that are all in range pick the same ids with `getD` as with `getElem?`. -/
theorem filterMap_getElem?_eq_map {ids : List TaskId} :
    ∀ {l : List Nat}, (∀ i ∈ l, i < ids.length) →
      l.filterMap (ids[·]?) = l.map (ids.getD · default)
  | [], _ => rfl
  | i :: l, h => by
    have hi := h i List.mem_cons_self
    rw [List.filterMap_cons, List.getElem?_eq_getElem hi, List.map_cons,
      List.getD_eq_getElem _ _ hi, filterMap_getElem?_eq_map fun j hj => h j (List.mem_cons_of_mem i hj)]

/-- Among tasks with distinct ids, a cycle the search reports goes round a cycle of the
dependency relation: each task depends on the next, and the last on the first. -/
theorem findCycle_isCycle {tasks : List (DeployTask δ)} (hnd : (tasks.map (·.id)).Nodup)
    {c : List TaskId} (h : findCycle tasks = some c) : IsCycleOf (DependsAmong tasks) c := by
  rw [findCycle_eq] at h
  obtain ⟨positions, hpos, rfl⟩ := Option.map_eq_some_iff.mp h
  have hcyc := cycleOf_some_isCycle (dependencyEdges_lt tasks) hpos
  -- every task of the cycle has an edge out, so it is a position of the list
  have hlt : ∀ i ∈ positions, i < (tasks.map (·.id)).length := by
    intro i hi
    obtain ⟨j, hij⟩ := hcyc.exists_rel hi
    simpa [dependencyEdges] using lt_of_edge hij
  rw [filterMap_getElem?_eq_map hlt]
  refine hcyc.map (fun a ha b hb hab => ?_) (fun a b hab => ?_)
  · rw [List.getD_eq_getElem _ _ (hlt a ha), List.getD_eq_getElem _ _ (hlt b hb)] at hab
    exact (hnd.getElem_inj_iff).mp hab
  · obtain ⟨t, u, ht, hu, hdep⟩ := edge_dependencyEdges hab
    have hta : (tasks.map (·.id)).getD a default = t.id := by
      simp [List.getD_eq_getElem?_getD, ht]
    have hub : (tasks.map (·.id)).getD b default = u.id := by
      simp [List.getD_eq_getElem?_getD, hu]
    rw [hta, hub]
    exact ⟨t, List.mem_of_getElem? ht, rfl, hdep, List.mem_map_of_mem (List.mem_of_getElem? hu)⟩

/-- Among tasks with distinct ids, a dependency is an edge of the cycle search between the
tasks' positions. -/
theorem edge_of_dependsAmong {tasks : List (DeployTask δ)} (hnd : (tasks.map (·.id)).Nodup)
    {a b : TaskId} (h : DependsAmong tasks a b) :
    Edge (dependencyEdges tasks) ((lastIndexOf (tasks.map (·.id)) a).getD 0)
      ((lastIndexOf (tasks.map (·.id)) b).getD 0) := by
  obtain ⟨t, ht, rfl, hdep, hb⟩ := h
  obtain ⟨i, hi⟩ := List.mem_iff_getElem?.mp ht
  obtain ⟨j, hj⟩ := List.mem_iff_getElem?.mp hb
  have hia : lastIndexOf (tasks.map (·.id)) t.id = some i :=
    lastIndexOf_of_getElem? hnd (by simp [hi])
  rw [hia, lastIndexOf_of_getElem? hnd hj]
  simp only [Edge, dependencyEdges, Array.getD_eq_getD_getElem?, Array.getElem?_map,
    List.getElem?_toArray, hi, Option.map_some, Option.getD_some, List.mem_filterMap]
  exact ⟨b, hdep, lastIndexOf_of_getElem? hnd hj⟩

/-- Among tasks with distinct ids, the cycle search reports a cycle exactly when some task
depends on itself through other tasks. -/
theorem findCycle_isSome_iff {tasks : List (DeployTask δ)} (hnd : (tasks.map (·.id)).Nodup) :
    (∃ c, findCycle tasks = some c) ↔ ∃ a, Relation.TransGen (DependsAmong tasks) a a := by
  constructor
  · rintro ⟨c, hc⟩
    exact (findCycle_isCycle hnd hc).transGen
  · rintro ⟨a, ha⟩
    let pos := fun x => (lastIndexOf (tasks.map (·.id)) x).getD 0
    have hedges : Relation.TransGen (Edge (dependencyEdges tasks)) (pos a) (pos a) :=
      Relation.TransGen.lift pos (fun _ _ h => edge_of_dependsAmong hnd h) a a ha
    obtain ⟨c, hc⟩ := Option.isSome_iff_exists.mp
      ((cycleOf_isSome_iff (dependencyEdges_lt tasks)).mpr ⟨_, hedges⟩)
    exact ⟨_, by rw [findCycle_eq, hc]; rfl⟩

theorem findCycle_eq_none {tasks : List (DeployTask δ)} (hnd : (tasks.map (·.id)).Nodup)
    (hacyc : DependsAcyclic tasks) : findCycle tasks = none := by
  cases hc : findCycle tasks with
  | none => rfl
  | some c =>
    obtain ⟨a, ha⟩ := (findCycle_isSome_iff hnd).mp ⟨c, hc⟩
    exact absurd ha (hacyc a)

/-! ## Linking -/

namespace TaskGraph

/-- Linking goes through when every dependency names a task. -/
theorem links_ok {tasks : List (DeployTask δ)} (h : DependenciesListed tasks) :
    ∃ r, links tasks = .ok r := by
  unfold links
  refine foldlM_ok_of_steps _ ?_
  rintro ⟨t, i⟩ hti ⟨up, down⟩
  have ht : t ∈ tasks := List.mem_of_getElem? (List.mk_mem_zipIdx_iff_getElem?.mp hti)
  refine foldlM_ok_of_steps _ ?_
  rintro dep hdep ⟨up', down'⟩
  dsimp only
  cases hd : (tasks.map (·.id)).idxOf? dep with
  | none => exact absurd (h t ht dep hdep) (List.idxOf?_eq_none_iff.mp hd)
  | some d => exact ⟨_, rfl⟩

/-- A step of linking that goes through found the dependency it links. -/
theorem link_step_listed {tasks : List (DeployTask δ)} {t : DeployTask δ} {i : Nat}
    {acc b : Array (List Nat) × Array (List Nat)} {dep : TaskId}
    (h : (match (tasks.map (·.id)).idxOf? dep with
      | none => (throw (WorkflowError.unknownDependency t.id dep) :
          Except WorkflowError (Array (List Nat) × Array (List Nat)))
      | some d => pure (acc.1.modify i (· ++ [d]), acc.2.modify d (· ++ [i]))) = .ok b) :
    dep ∈ tasks.map (·.id) := by
  cases hd : (tasks.map (·.id)).idxOf? dep with
  | none => rw [hd] at h; cases h
  | some d => exact List.mem_of_getElem? (by
      obtain ⟨hlt, hid, -⟩ := List.idxOf?_eq_some_iff.mp hd
      rw [List.getElem?_eq_getElem hlt, hid])

/-- Linking that fails stops at the first dependency that names no task. -/
theorem links_error_first {tasks : List (DeployTask δ)} {e : WorkflowError}
    (h : links tasks = .error e) :
    ∃ t dep, e = .unknownDependency t.id dep ∧ FirstUnknown tasks t dep := by
  unfold links at h
  obtain ⟨pre, ⟨t, i⟩, post, acc, hsplit, hpre, hstep⟩ := foldlM_eq_error h
  obtain ⟨before, dep, after, acc', hdeps, hbefore, hdep⟩ := foldlM_eq_error hstep
  -- the failing step is the lookup of `dep`; the steps before it went through
  dsimp only at hdep
  cases hd : (tasks.map (·.id)).idxOf? dep with
  | some d => rw [hd] at hdep; cases hdep
  | none =>
    rw [hd] at hdep
    cases hdep
    have htasks : tasks = pre.map Prod.fst ++ t :: post.map Prod.fst := by
      rw [← List.zipIdx_map_fst 0 tasks, hsplit]
      simp
    refine ⟨t, dep, rfl, pre.map Prod.fst, post.map Prod.fst, before, after, htasks, ?_, hdeps,
      ?_, List.idxOf?_eq_none_iff.mp hd⟩
    · intro u hu d hdu
      obtain ⟨⟨u', j⟩, hp, rfl⟩ := List.mem_map.mp hu
      obtain ⟨acc₁, b₁, hinner⟩ := foldlM_ok_steps hpre (u', j) hp
      obtain ⟨acc₂, b₂, hlink⟩ := foldlM_ok_steps hinner d hdu
      exact link_step_listed hlink
    · intro d hdb
      obtain ⟨acc₂, b₂, hlink⟩ := foldlM_ok_steps hbefore d hdb
      exact link_step_listed hlink

/-- A fold whose every step appends a list `app x` to the entry `slot x` of the first array, and
touches no other entry of it: each entry ends with what the steps for it appended, in order. -/
theorem foldlM_append_at {α : Type} (slot : α → Nat) (app : α → List Nat)
    {F : Array (List Nat) × Array (List Nat) → α →
      Except WorkflowError (Array (List Nat) × Array (List Nat))}
    (hF : ∀ acc x b, F acc x = .ok b → slot x < acc.1.size →
      b.1.size = acc.1.size ∧
        ∀ j, b.1.getD j [] = acc.1.getD j [] ++ if j = slot x then app x else []) :
    ∀ {xs : List α} {acc b}, xs.foldlM F acc = .ok b → (∀ x ∈ xs, slot x < acc.1.size) →
      b.1.size = acc.1.size ∧
        ∀ j, b.1.getD j [] = acc.1.getD j [] ++ (xs.filter (slot · == j)).flatMap app
  | [], acc, b, h, _ => by cases h; simp
  | x :: xs, acc, b, h, hslot => by
    simp only [List.foldlM_cons, bind, Except.bind] at h
    split at h
    · cases h
    · rename_i acc' hx
      obtain ⟨hsize, hstep⟩ := hF acc x acc' hx (hslot x List.mem_cons_self)
      obtain ⟨hsize', hrest⟩ := foldlM_append_at slot app hF h fun y hy =>
        hsize ▸ hslot y (List.mem_cons_of_mem x hy)
      refine ⟨hsize'.trans hsize, fun j => ?_⟩
      rw [hrest j, hstep j, List.filter_cons]
      by_cases hj : j = slot x
      · subst hj; simp
      · simp [hj, Ne.symm hj]

/-- The positions of a list, filtered for one of them, give that position's element. -/
theorem filter_zipIdx_eq {α : Type} :
    ∀ {l : List α} (k : Nat) {i : Nat} {x : α}, l[i]? = some x →
      (l.zipIdx k).filter (·.2 == i + k) = [(x, i + k)]
  | y :: ys, k, 0, x, h => by
    simp only [List.getElem?_cons_zero, Option.some.injEq] at h
    subst h
    simp only [List.zipIdx_cons, Nat.zero_add, List.filter_cons, beq_self_eq_true, if_true,
      List.cons.injEq, true_and]
    -- the later positions are all past `k`
    rw [List.filter_eq_nil_iff]
    rintro ⟨z, j⟩ hz
    have := (List.mem_zipIdx hz).1
    simp only [beq_iff_eq]
    omega
  | y :: ys, k, i + 1, x, h => by
    simp only [List.getElem?_cons_succ] at h
    have hne : (k == i + 1 + k) = false := by simp
    rw [List.zipIdx_cons, List.filter_cons, if_neg (by simp [hne]),
      show i + 1 + k = i + (k + 1) by omega]
    exact filter_zipIdx_eq (k + 1) h

/-- The prerequisites `links` records for a task are the positions of its dependencies, in the
order of its list. -/
theorem links_prerequisites {tasks : List (DeployTask δ)} {up down : Array (List Nat)}
    (h : links tasks = .ok (up, down)) {i : Nat} {t : DeployTask δ} (ht : tasks[i]? = some t) :
    up.getD i [] = t.dependsOn.filterMap ((tasks.map (·.id)).idxOf? ·) := by
  unfold links at h
  have hup := foldlM_append_at (·.2)
    (fun p => p.1.dependsOn.filterMap ((tasks.map (·.id)).idxOf? ·)) ?step h fun p hp => by
      simpa using (List.mem_zipIdx hp).2.1
  case step =>
    -- the step for `(t, i)` appends to `i` the positions of `t`'s dependencies, one by one
    rintro acc ⟨t, i⟩ b hb hi
    have hinner := foldlM_append_at (fun _ => i)
      (fun dep => ((tasks.map (·.id)).idxOf? dep).toList) ?link hb fun _ _ => hi
    case link =>
      rintro ⟨up, down⟩ dep b hstep hi
      dsimp only at hstep
      cases hd : (tasks.map (·.id)).idxOf? dep with
      | none => rw [hd] at hstep; cases hstep
      | some d =>
        rw [hd] at hstep
        cases hstep
        refine ⟨by simp, fun j => ?_⟩
        rw [getD_modify_append _ _ _ _ hi]
        by_cases hj : j = i
        · subst hj; simp
        · simp [hj, Ne.symm hj]
    refine ⟨hinner.1, fun j => ?_⟩
    rw [hinner.2 j]
    by_cases hj : j = i
    · subst hj; simp [List.filterMap_eq_flatMap_toList]
    · simp [hj, Ne.symm hj]
  have hfilter := filter_zipIdx_eq 0 ht
  simp only [Nat.add_zero] at hfilter
  simpa [hfilter] using hup.2 i

/-- A task list whose linking went through has every dependency naming a task. -/
theorem links_listed {tasks : List (DeployTask δ)} {up down : Array (List Nat)}
    (h : links tasks = .ok (up, down)) : DependenciesListed tasks := by
  intro t ht dep hdep
  obtain ⟨i, hi⟩ := List.mem_iff_getElem?.mp ht
  obtain ⟨d, hd, -⟩ := links_complete h hi dep hdep
  obtain ⟨hlt, hid, -⟩ := List.idxOf?_eq_some_iff.mp hd
  exact hid ▸ List.getElem_mem hlt

/-- The first repeated id, searched with `seen` ids before the list: the ids before it,
together with `seen`, are distinct and hold it. -/
theorem firstRepeatedId_eq_some : ∀ {ids seen : List TaskId} {id : TaskId}, seen.Nodup →
    firstRepeatedId ids seen = some id →
      ∃ pre post, ids = pre ++ id :: post ∧ (pre.reverse ++ seen).Nodup ∧
        id ∈ pre.reverse ++ seen
  | [], _, _, _, h => by cases h
  | i :: rest, seen, id, hseen, h => by
    simp only [firstRepeatedId] at h
    split at h
    · rename_i hi
      cases h
      exact ⟨[], rest, rfl, by simpa using hseen, by simpa using hi⟩
    · rename_i hi
      have hi' : i ∉ seen := by simpa using hi
      obtain ⟨pre, post, rfl, hnd, hmem⟩ :=
        firstRepeatedId_eq_some (List.nodup_cons.mpr ⟨hi', hseen⟩) h
      exact ⟨i :: pre, post, rfl, by simpa using hnd, by simpa using hmem⟩

/-- Distinct ids have no first repeated one. -/
theorem firstRepeatedId_nil_of_nodup {ids : List TaskId} (hnd : ids.Nodup) :
    firstRepeatedId ids [] = none :=
  firstRepeatedId_of_nodup hnd fun _ _ h => List.not_mem_nil h

/-- What a successful build went through: no repeated id, linking, and no cycle. -/
theorem build_eq_ok {tasks : List (DeployTask δ)} {g : TaskGraph δ} (h : build tasks = .ok g) :
    ∃ up down, links tasks = .ok (up, down) ∧ g = ⟨tasks.toArray, up, down⟩ := by
  simp only [build, bind, Except.bind] at h
  split at h
  · cases h
  · split at h
    · cases h
    · rename_i links hl
      obtain ⟨up, down⟩ := links
      simp only at h
      split at h
      · cases h
      · cases h
        exact ⟨up, down, hl, rfl⟩

/-- A list builds exactly when its ids are distinct, its dependencies name tasks of it, and no
task depends on itself through other tasks. -/
theorem build_ok_iff (tasks : List (DeployTask δ)) :
    (∃ g, build tasks = .ok g) ↔
      (tasks.map (·.id)).Nodup ∧ DependenciesListed tasks ∧ DependsAcyclic tasks := by
  constructor
  · rintro ⟨g, hg⟩
    have hb := build_built hg
    obtain ⟨up, down, hl, -⟩ := build_eq_ok hg
    refine ⟨hb.ids_nodup, links_listed hl, fun a ha => ?_⟩
    obtain ⟨c, hc⟩ := (findCycle_isSome_iff hb.ids_nodup).mpr ⟨a, ha⟩
    rw [hb.no_cycle] at hc
    cases hc
  · rintro ⟨hnd, hlisted, hacyc⟩
    obtain ⟨⟨up, down⟩, hl⟩ := links_ok hlisted
    refine ⟨⟨tasks.toArray, up, down⟩, ?_⟩
    simp only [build, firstRepeatedId_nil_of_nodup hnd, hl, findCycle_eq_none hnd hacyc,
      bind, Except.bind]
    rfl

/-- A list with a repeated id is refused for the first id that repeats an earlier one. -/
theorem build_error_duplicate {tasks : List (DeployTask δ)} (h : ¬ (tasks.map (·.id)).Nodup) :
    ∃ id, build tasks = .error (.duplicateTask id) ∧ FirstRepeat (tasks.map (·.id)) id := by
  cases hrep : firstRepeatedId (tasks.map (·.id)) [] with
  | none => exact absurd (nodup_of_firstRepeatedId hrep).1 h
  | some id =>
    obtain ⟨pre, post, hsplit, hnd, hmem⟩ := firstRepeatedId_eq_some List.nodup_nil hrep
    refine ⟨id, ?_, pre, post, hsplit, by simpa using hnd, by simpa using hmem⟩
    simp only [build, hrep, bind, Except.bind]
    rfl

/-- A list with distinct ids and a dependency that names no task is refused for the first such
dependency, by task and then in the task's list. -/
theorem build_error_unknown {tasks : List (DeployTask δ)} (hnd : (tasks.map (·.id)).Nodup)
    (h : ¬ DependenciesListed tasks) :
    ∃ t dep, build tasks = .error (.unknownDependency t.id dep) ∧ FirstUnknown tasks t dep := by
  cases hl : links tasks with
  | ok r => exact absurd (links_listed hl) h
  | error e =>
    obtain ⟨t, dep, rfl, hfirst⟩ := links_error_first hl
    refine ⟨t, dep, ?_, hfirst⟩
    simp only [build, firstRepeatedId_nil_of_nodup hnd, hl, bind, Except.bind]

/-- A list with distinct ids and listed dependencies that has a dependency cycle is refused
with a cycle of its dependency relation. -/
theorem build_error_cycle_of {tasks : List (DeployTask δ)} (hnd : (tasks.map (·.id)).Nodup)
    (hlisted : DependenciesListed tasks) (hcyc : ¬ DependsAcyclic tasks) :
    ∃ c, build tasks = .error (.dependencyCycle c) ∧ IsCycleOf (DependsAmong tasks) c := by
  obtain ⟨⟨up, down⟩, hl⟩ := links_ok hlisted
  have hloop : ∃ a, Relation.TransGen (DependsAmong tasks) a a := by
    simpa [DependsAcyclic] using hcyc
  obtain ⟨c, hc⟩ := (findCycle_isSome_iff hnd).mpr hloop
  refine ⟨c, ?_, findCycle_isCycle hnd hc⟩
  simp only [build, firstRepeatedId_nil_of_nodup hnd, hl, hc, bind, Except.bind]
  rfl

/-! ## The graph a build returns -/

namespace Built

variable {g : TaskGraph δ} {tasks : List (DeployTask δ)}

/-- The prerequisites of a task are the positions of its dependencies, in their order. -/
theorem prerequisitesOf_eq (hg : build tasks = .ok g) {i : Nat} {t : DeployTask δ}
    (ht : tasks[i]? = some t) :
    g.prerequisitesOf i = t.dependsOn.filterMap ((tasks.map (·.id)).idxOf? ·) := by
  obtain ⟨up, down, hl, rfl⟩ := build_eq_ok hg
  exact links_prerequisites hl ht

/-- A task's prerequisites are exactly the tasks it depends on. -/
theorem mem_prerequisitesOf_iff (hg : build tasks = .ok g) {i d : Nat} :
    d ∈ g.prerequisitesOf i ↔ g.DependsOn i d :=
  ⟨build_dependsOn hg, (build_built hg).mem_prerequisitesOf⟩

/-- A task is among the dependents of another exactly when that one is among its
prerequisites. -/
theorem mem_dependentsOf_iff (hg : build tasks = .ok g) {i d : Nat} :
    i ∈ g.dependentsOf d ↔ d ∈ g.prerequisitesOf i :=
  ⟨(build_built hg).adjacency.mem_up_of_mem_down, (build_built hg).adjacency.mem_down_of_mem_up⟩

/-- When no task lists a dependency twice, no task is listed twice among the prerequisites or
the dependents of a task. -/
theorem nodup_adjacent (hg : build tasks = .ok g) (hdeps : ∀ t ∈ tasks, t.dependsOn.Nodup)
    (i : Nat) : (g.prerequisitesOf i).Nodup ∧ (g.dependentsOf i).Nodup := by
  have hb := build_built hg
  -- the prerequisites are the positions of distinct dependencies, at distinct ids
  have hpre : ∀ j, (g.prerequisitesOf j).Nodup := by
    intro j
    cases ht : tasks[j]? with
    | none =>
      have hj : tasks.length ≤ j := List.getElem?_eq_none_iff.mp ht
      have : g.prerequisitesOf j = [] := by
        simp [prerequisitesOf, Array.getD, hb.adjacency.up_size, Nat.not_lt.mpr hj]
      rw [this]
      exact List.nodup_nil
    | some t =>
      rw [prerequisitesOf_eq hg ht]
      refine (hdeps t (List.mem_of_getElem? ht)).filterMap fun a a' d ha ha' => ?_
      obtain ⟨_, hid, -⟩ := List.idxOf?_eq_some_iff.mp ha
      obtain ⟨_, hid', -⟩ := List.idxOf?_eq_some_iff.mp ha'
      exact hid.symm.trans hid'
  refine ⟨hpre i, List.nodup_iff_count_le_one.mpr fun x => ?_⟩
  show (g.dependents.getD i []).count x ≤ 1
  rw [hb.adjacency.count_eq x i]
  exact List.nodup_iff_count_le_one.mp (hpre x) i

/-- The entry points are the tasks without dependencies, in the order of the list. -/
theorem entryPoints_eq (hg : build tasks = .ok g) :
    g.entryPoints = (List.range tasks.length).filter fun i => tasks[i]?.any (·.dependsOn.isEmpty) := by
  have hlisted := ((build_ok_iff tasks).mp ⟨g, hg⟩).2.1
  unfold entryPoints
  rw [(build_built hg).size_eq]
  refine List.filter_congr fun i hi => ?_
  have hlt : i < tasks.length := List.mem_range.mp hi
  rw [List.getElem?_eq_getElem hlt, prerequisitesOf_eq hg (List.getElem?_eq_getElem hlt)]
  -- every dependency names a task, so every one of them has a position
  have hsome : ∀ dep ∈ tasks[i].dependsOn, ((tasks.map (·.id)).idxOf? dep).isSome := by
    intro dep hdep
    cases hd : (tasks.map (·.id)).idxOf? dep with
    | none => exact absurd (hlisted _ (List.getElem_mem hlt) dep hdep) (List.idxOf?_eq_none_iff.mp hd)
    | some _ => rfl
  cases hdeps : tasks[i].dependsOn with
  | nil => simp [hdeps]
  | cons dep rest =>
    obtain ⟨d, hd⟩ := Option.isSome_iff_exists.mp (hsome dep (by simp [hdeps]))
    simp [hd, hdeps]

end Built

/-- Building a graph checks exactly. It succeeds exactly for task lists with distinct ids,
dependencies that name tasks of the list, and no dependency cycle; otherwise it reports the
first of these checks to fail, with the first repeated id, the first dependency that names no
task, or a cycle of dependencies. In a graph it builds, the prerequisites of a task are exactly
the tasks it depends on and its dependents exactly the tasks depending on it, none listed twice
when no task lists a dependency twice, and the entry points are the tasks without dependencies,
in order. Among tasks with distinct ids the cycle search reports a cycle exactly when there is
one, and what it reports goes round one. -/
theorem build_checks_exact (tasks : List (DeployTask δ)) :
    ((∃ g, build tasks = .ok g) ↔
      (tasks.map (·.id)).Nodup ∧ DependenciesListed tasks ∧ DependsAcyclic tasks) ∧
    (¬ (tasks.map (·.id)).Nodup → ∃ id,
      build tasks = .error (.duplicateTask id) ∧ FirstRepeat (tasks.map (·.id)) id) ∧
    ((tasks.map (·.id)).Nodup → ¬ DependenciesListed tasks → ∃ t dep,
      build tasks = .error (.unknownDependency t.id dep) ∧ FirstUnknown tasks t dep) ∧
    ((tasks.map (·.id)).Nodup → DependenciesListed tasks → ¬ DependsAcyclic tasks → ∃ c,
      build tasks = .error (.dependencyCycle c) ∧ IsCycleOf (DependsAmong tasks) c) ∧
    (∀ g, build tasks = .ok g →
      (∀ i d, (d ∈ g.prerequisitesOf i ↔ g.DependsOn i d) ∧
        (i ∈ g.dependentsOf d ↔ d ∈ g.prerequisitesOf i)) ∧
      ((∀ t ∈ tasks, t.dependsOn.Nodup) →
        ∀ i, (g.prerequisitesOf i).Nodup ∧ (g.dependentsOf i).Nodup) ∧
      g.entryPoints =
        (List.range tasks.length).filter fun i => tasks[i]?.any (·.dependsOn.isEmpty)) ∧
    ((tasks.map (·.id)).Nodup →
      ((∃ c, findCycle tasks = some c) ↔ ∃ a, Relation.TransGen (DependsAmong tasks) a a) ∧
      ∀ c, findCycle tasks = some c → IsCycleOf (DependsAmong tasks) c) :=
  ⟨build_ok_iff tasks, build_error_duplicate, build_error_unknown, build_error_cycle_of,
    fun _ hg => ⟨fun _ _ => ⟨Built.mem_prerequisitesOf_iff hg, Built.mem_dependentsOf_iff hg⟩,
      Built.nodup_adjacent hg, Built.entryPoints_eq hg⟩,
    fun hnd => ⟨findCycle_isSome_iff hnd, fun _ => findCycle_isCycle hnd⟩⟩

end TaskGraph

/-- The list of the cycle test: `a` depends on `entry` and `c`, `b` on `a`, `c` on `b`. Its ids
are distinct and its dependencies listed, so it is refused with a cycle of its dependencies. -/
theorem cycle_list_refused_with_cycle :
    let tasks : List (DeployTask Unit) :=
      [{ id := ⟨"entry", "1", "eu"⟩, target := ⟨"1", "eu", "1"⟩, kind := .delete, deployable := () },
       { id := ⟨"a", "1", "eu"⟩, target := ⟨"1", "eu", "1"⟩, kind := .delete,
         dependsOn := [⟨"c", "1", "eu"⟩, ⟨"entry", "1", "eu"⟩], deployable := () },
       { id := ⟨"b", "1", "eu"⟩, target := ⟨"1", "eu", "1"⟩, kind := .delete,
         dependsOn := [⟨"a", "1", "eu"⟩], deployable := () },
       { id := ⟨"c", "1", "eu"⟩, target := ⟨"1", "eu", "1"⟩, kind := .delete,
         dependsOn := [⟨"b", "1", "eu"⟩], deployable := () }]
    (tasks.map (·.id)).Nodup ∧ DependenciesListed tasks ∧ ¬ DependsAcyclic tasks ∧
      ∃ c, TaskGraph.build tasks = .error (.dependencyCycle c) ∧ IsCycleOf (DependsAmong tasks) c := by
  intro tasks
  have hnd : (tasks.map (·.id)).Nodup := by decide
  have hlisted : DependenciesListed tasks := by decide
  have hcyc : ¬ DependsAcyclic tasks := by
    intro h
    -- `a` depends on `c`, `c` on `b` and `b` on `a`
    have hac : DependsAmong tasks ⟨"a", "1", "eu"⟩ ⟨"c", "1", "eu"⟩ := by decide
    have hcb : DependsAmong tasks ⟨"c", "1", "eu"⟩ ⟨"b", "1", "eu"⟩ := by decide
    have hba : DependsAmong tasks ⟨"b", "1", "eu"⟩ ⟨"a", "1", "eu"⟩ := by decide
    exact h _ (.tail (.tail (.single hac) hcb) hba)
  exact ⟨hnd, hlisted, hcyc, (TaskGraph.build_checks_exact tasks).2.2.2.1 hnd hlisted hcyc⟩

end OrgDeploy
