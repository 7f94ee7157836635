import Mathlib
import OrgDeploy.Proofs.Graph.Built

/-!
# The cycle search misses no cycle

`cycleOf` is a depth-first search that marks a task `onPath` while it is on the current path
and `finished` once every task it depends on is. A search that meets no cycle leaves a
*ranking* behind: each finished task depends only on finished tasks of smaller rank
(`Ranked`). Every task is finished when the top-level loop ends without a cycle, so every
dependency edge goes down in rank and no chain of edges comes back to where it started.

The invariant of a search in progress is `Searching`: the marks have the graph's size, the
tasks marked `onPath` are exactly those on the path, the path has no repeats, and the finished
tasks are ranked. The path is therefore shorter than the graph, which is why the fuel `n + 1` of
a top-level search never runs out. `search_answers` proves the search and its edge loop
together, by the functional induction of the two definitions.

On the graph side a reported cycle names at least one task (`findCycle_some`), a built graph has
no cycle (`TaskGraph.Built.acyclic`), and `build` of tasks with distinct ids whose dependencies
are all listed can only fail on a cycle (`build_error_cycle`).
-/

namespace OrgDeploy

namespace CycleSearch

/-! ## Marks -/

/-- The mark of a task; positions past the end read as unseen. -/
def markOf (marks : Array Mark) (x : Nat) : Mark := marks.getD x .unseen

@[simp] theorem markOf_set (marks : Array Mark) (i x : Nat) (m : Mark) :
    markOf (marks.setIfInBounds i m) x = if i = x ∧ i < marks.size then m else markOf marks x := by
  simp only [markOf, Array.getD_eq_getD_getElem?, Array.getElem?_setIfInBounds]
  by_cases h : i = x
  · subst h; by_cases h' : i < marks.size <;> simp [h']
  · simp [h]

theorem lt_size_of_markOf_ne {marks : Array Mark} {x : Nat} (h : markOf marks x ≠ .unseen) :
    x < marks.size := by
  by_cases hx : x < marks.size
  · exact hx
  · simp [markOf, Array.getD, hx] at h

variable (edges : Array (List Nat))

/-- Every finished task depends only on finished tasks, and those have a smaller rank. -/
def Ranked (marks : Array Mark) (r : Nat → Nat) : Prop :=
  ∀ u, markOf marks u = .finished →
    ∀ v ∈ edges.getD u [], markOf marks v = .finished ∧ r v < r u

/-- A search in progress along `path`, newest task first. -/
structure Searching (marks : Array Mark) (path : List Nat) : Prop where
  size_eq : marks.size = edges.size
  onPath_iff : ∀ x, markOf marks x = .onPath ↔ x ∈ path
  path_nodup : path.Nodup
  ranked : ∃ r, Ranked edges marks r

/-- What a search from `node` that met no cycle leaves: the path as it was, the finished tasks
still finished, and `node` finished. -/
structure Settled (marks marks' : Array Mark) (path : List Nat) (node : Nat) : Prop where
  searching : Searching edges marks' path
  finished_mono : ∀ x, markOf marks x = .finished → markOf marks' x = .finished
  node_finished : markOf marks' node = .finished

/-- What a search answers: a cycle that starts at a task of the graph, or no cycle and
`Settled`. -/
def Answers (marks : Array Mark) (path : List Nat) (node : Nat) :
    Array Mark × Option (List Nat) → Prop
  | (marks', none) => Settled edges marks marks' path node
  | (_, some c) => ∃ x rest, c = x :: rest ∧ x < edges.size

variable {edges}

/-! ## One step of the search -/

namespace Searching

variable {marks : Array Mark} {path : List Nat}

theorem lt_of_mem (hs : Searching edges marks path) {x : Nat} (hx : x ∈ path) :
    x < edges.size := by
  have h := (hs.onPath_iff x).mpr hx
  exact hs.size_eq ▸ lt_size_of_markOf_ne (by rw [h]; decide)

/-- The path and an unseen task are distinct tasks of the graph, so the path is shorter than
the graph. -/
theorem length_lt (hs : Searching edges marks path) {node : Nat} (hn : node < edges.size)
    (hu : markOf marks node = .unseen) : path.length < edges.size := by
  have hnot : node ∉ path := fun hm => by
    have := (hs.onPath_iff node).mpr hm
    rw [hu] at this
    cases this
  have hnd : (node :: path).Nodup := List.nodup_cons.mpr ⟨hnot, hs.path_nodup⟩
  have hsub : node :: path ⊆ List.range edges.size := by
    intro x hx
    rcases List.mem_cons.mp hx with rfl | hx
    · exact List.mem_range.mpr hn
    · exact List.mem_range.mpr (hs.lt_of_mem hx)
  have := (hnd.subperm hsub).length_le
  simp only [List.length_cons, List.length_range] at this
  omega

/-- Entering an unseen task puts it on the path. -/
theorem push (hs : Searching edges marks path) {node : Nat} (hn : node < edges.size)
    (hu : markOf marks node = .unseen) : Searching edges (marks.set! node .onPath) (node :: path) := by
  have hsize : node < marks.size := hs.size_eq ▸ hn
  obtain ⟨r, hr⟩ := hs.ranked
  refine ⟨by simp [hs.size_eq], ?_, ?_, ⟨r, ?_⟩⟩
  · intro x
    by_cases hx : node = x
    · subst hx; simp [hsize]
    · simp [hx, hs.onPath_iff x, Ne.symm hx]
  · refine List.nodup_cons.mpr ⟨fun hm => ?_, hs.path_nodup⟩
    have := (hs.onPath_iff node).mpr hm
    rw [hu] at this
    cases this
  · -- `node` was unseen, so the finished tasks and their marks are those of before
    intro u hfu v hv
    have hne : ∀ y, markOf marks y = .finished → node ≠ y := fun y hy h => by
      subst h; rw [hu] at hy; cases hy
    have hfu' : markOf marks u = .finished := by
      by_cases h : node = u
      · subst h; simp [hsize] at hfu
      · simpa [h] using hfu
    obtain ⟨hfv, hlt⟩ := hr u hfu' v hv
    exact ⟨by simp [hne v hfv, hfv], hlt⟩

/-- Leaving a task whose dependencies are all finished takes it off the path, finished. Its
rank is one more than the sum of theirs. -/
theorem pop (hs : Searching edges marks (node :: path))
    (hdone : ∀ v ∈ edges.getD node [], markOf marks v = .finished) :
    Searching edges (marks.set! node .finished) path := by
  have hon : markOf marks node = .onPath := (hs.onPath_iff node).mpr List.mem_cons_self
  have hsize : node < marks.size := lt_size_of_markOf_ne (by rw [hon]; decide)
  have hnot : node ∉ path := (List.nodup_cons.mp hs.path_nodup).1
  have hne : ∀ y, markOf marks y = .finished → node ≠ y := fun y hy h => by
    subst h; rw [hon] at hy; cases hy
  obtain ⟨r, hr⟩ := hs.ranked
  let r' := fun x => if x = node then ((edges.getD node []).map r).sum + 1 else r x
  refine ⟨by simp [hs.size_eq], ?_, (List.nodup_cons.mp hs.path_nodup).2, ⟨r', ?_⟩⟩
  · intro x
    by_cases hx : node = x
    · subst hx; simp [hsize, hnot]
    · simp [hx, hs.onPath_iff x, Ne.symm hx]
  · intro u hfu v hv
    by_cases hu : node = u
    · subst hu
      have hfv := hdone v hv
      have hvr : r v ≤ ((edges.getD node []).map r).sum :=
        List.le_sum_of_mem (List.mem_map_of_mem hv)
      refine ⟨by simp [hne v hfv, hfv], ?_⟩
      simp only [r', if_neg (hne v hfv).symm, if_pos rfl]
      omega
    · have hfu' : markOf marks u = .finished := by simpa [hu] using hfu
      obtain ⟨hfv, hlt⟩ := hr u hfu' v hv
      refine ⟨by simp [hne v hfv, hfv], ?_⟩
      simp only [r', if_neg (hne v hfv).symm, if_neg (Ne.symm hu)]
      exact hlt

end Searching

/-- An answer about later marks is one about earlier marks, when the later ones keep every
task the earlier ones finished. -/
theorem Answers.mono {m₀ m₁ : Array Mark} {path : List Nat} {node : Nat}
    {res : Array Mark × Option (List Nat)}
    (hm : ∀ x, markOf m₀ x = .finished → markOf m₁ x = .finished)
    (h : Answers edges m₁ path node res) : Answers edges m₀ path node res := by
  match res, h with
  | (_, none), ⟨hs, hmono, hfin⟩ => exact ⟨hs, fun x hx => hmono x (hm x hx), hfin⟩
  | (_, some _), h => exact h

/-! ## The search and its edge loop -/

section Search

variable (hE : ∀ u, ∀ v ∈ edges.getD u [], v < edges.size)
include hE

/-- A search from an unseen task, with fuel to spare for every task off the path, answers:
a cycle starting at a task of the graph, or `Settled`. The edge loop of a task on top of the
path answers the same, as long as the edges it has passed lead to finished tasks. -/
theorem search_answers :
    ∀ fuel node marks path, Searching edges marks path → node < edges.size →
      markOf marks node = .unseen → edges.size + 1 ≤ fuel + path.length →
      Answers edges marks path node (searchFrom edges fuel node marks path) := by
  intro fuel node marks path
  refine searchFrom.induct edges
    (fun fuel node marks path => Searching edges marks path → node < edges.size →
      markOf marks node = .unseen → edges.size + 1 ≤ fuel + path.length →
      Answers edges marks path node (searchFrom edges fuel node marks path))
    (fun fuel node path nexts marks => ∀ old, path = node :: old →
      Searching edges marks path → edges.size + 1 ≤ fuel + path.length →
      (∃ done, edges.getD node [] = done ++ nexts ∧ ∀ v ∈ done, markOf marks v = .finished) →
      Answers edges marks old node (visitEdges edges fuel node path nexts marks))
    ?zero ?enter ?leave ?back ?found ?settled ?finished fuel node marks path
  case zero =>
    intro node marks path hs hn hu hfuel
    have := hs.length_lt hn hu
    omega
  case enter =>
    intro node marks path fuel ih hs hn hu hfuel
    rw [searchFrom.eq_2]
    have hsize : node < marks.size := hs.size_eq ▸ hn
    refine Answers.mono (fun x hx => ?_) (ih path rfl (hs.push hn hu) (by simp; omega)
      ⟨[], rfl, by simp⟩)
    have hne : node ≠ x := fun h => by subst h; rw [hu] at hx; cases hx
    simp [hne, hx]
  case leave =>
    intro fuel node path marks old hpath hs _ ⟨done, hdone, hfin⟩
    subst hpath
    rw [visitEdges.eq_1]
    have hon : markOf marks node = .onPath := (hs.onPath_iff node).mpr List.mem_cons_self
    have hsize : node < marks.size := lt_size_of_markOf_ne (by rw [hon]; decide)
    refine ⟨hs.pop (by simpa [hdone] using hfin), fun x hx => ?_, by simp [hsize]⟩
    by_cases h : node = x
    · subst h; rw [hon] at hx; cases hx
    · simp [h, hx]
  case back =>
    intro fuel node path marks next rest hmark old hpath hs _ ⟨done, hdone, _⟩
    rw [visitEdges.eq_2]
    simp only [show marks.getD next .unseen = .onPath from hmark]
    refine ⟨next, _, rfl, hE node next ?_⟩
    simp [hdone]
  case found =>
    intro fuel node path marks next rest hmark marks₁ c hsearch ih old hpath hs hfuel
      ⟨done, hdone, _⟩
    rw [visitEdges.eq_2]
    simp only [show marks.getD next .unseen = .unseen from hmark, hsearch]
    have hn : next < edges.size := hE node next (by simp [hdone])
    have := ih hs hn hmark hfuel
    rwa [hsearch] at this
  case settled =>
    intro fuel node path marks next rest hmark marks₁ hsearch ih ihrest old hpath hs hfuel
      ⟨done, hdone, hfin⟩
    rw [visitEdges.eq_2]
    simp only [show marks.getD next .unseen = .unseen from hmark, hsearch]
    have hn : next < edges.size := hE node next (by simp [hdone])
    have hset : Settled edges marks marks₁ path next := by
      have := ih hs hn hmark hfuel
      rwa [hsearch] at this
    refine Answers.mono hset.finished_mono (ihrest old hpath hset.searching hfuel
      ⟨done ++ [next], by simp [hdone], fun v hv => ?_⟩)
    rcases List.mem_append.mp hv with hv | hv
    · exact hset.finished_mono v (hfin v hv)
    · rw [List.mem_singleton.mp hv]; exact hset.node_finished
  case finished =>
    intro fuel node path marks next rest hmark ihrest old hpath hs hfuel ⟨done, hdone, hfin⟩
    rw [visitEdges.eq_2]
    simp only [show marks.getD next .unseen = .finished from hmark]
    refine ihrest old hpath hs hfuel ⟨done ++ [next], by simp [hdone], fun v hv => ?_⟩
    rcases List.mem_append.mp hv with hv | hv
    · exact hfin v hv
    · rw [List.mem_singleton.mp hv]; exact hmark

variable (edges) in
/-- What the top-level loop has established after trying the first `k` tasks as starts. -/
def Scanned (k : Nat) : Array Mark × Option (List Nat) → Prop
  | (marks, none) => Searching edges marks [] ∧ ∀ s < k, markOf marks s = .finished
  | (_, some c) => ∃ x rest, c = x :: rest ∧ x < edges.size

omit hE in
theorem scanned_zero : Scanned edges 0 (Array.replicate edges.size Mark.unseen, none) := by
  refine ⟨⟨by simp, fun x => ?_, List.nodup_nil, ⟨fun _ => 0, fun u hu => ?_⟩⟩, by simp⟩
  · simp [markOf, Array.getD_eq_getD_getElem?, Array.getElem?_replicate]
    split <;> simp
  · simp [markOf, Array.getD_eq_getD_getElem?, Array.getElem?_replicate] at hu
    split at hu <;> simp at hu

omit hE in
/-- An invariant of the steps of a fold over the first `n` numbers, indexed by the steps taken,
holds after every number of steps up to `n`. -/
theorem foldl_range_induction {β : Type} (P : Nat → β → Prop) (f : β → Nat → β) (init : β)
    (n : Nat) (h0 : P 0 init) (hf : ∀ acc k, k < n → P k acc → P (k + 1) (f acc k)) :
    ∀ k ≤ n, P k ((List.range k).foldl f init)
  | 0, _ => h0
  | k + 1, hk => by
    rw [List.range_succ, List.foldl_append, List.foldl_cons, List.foldl_nil]
    exact hf _ k (by omega) (foldl_range_induction P f init n h0 hf k (by omega))

/-- Trying one more start keeps `Scanned`: a search from an unseen start answers, and a start
seen before is finished. -/
theorem scanned_start {marks : Array Mark} {k : Nat} (hk : k < edges.size)
    (h : Scanned edges k (marks, none)) :
    Scanned edges (k + 1) (if marks.getD k .unseen == .unseen then
      searchFrom edges (edges.size + 1) k marks [] else (marks, none)) := by
  obtain ⟨hs, hfin⟩ := h
  by_cases hu : markOf marks k = .unseen
  · rw [if_pos (by simpa [markOf] using hu)]
    have hans := search_answers hE (edges.size + 1) k marks [] hs hk hu (by simp)
    generalize searchFrom edges (edges.size + 1) k marks [] = res at hans ⊢
    match res, hans with
    | (_, some c), h => exact h
    | (_, none), ⟨hs', hmono, hk'⟩ =>
      refine ⟨hs', fun s hs => ?_⟩
      rcases Nat.lt_succ_iff_lt_or_eq.mp hs with hs | rfl
      · exact hmono s (hfin s hs)
      · exact hk'
  · rw [if_neg (by simpa [markOf] using hu)]
    refine ⟨hs, fun s hs' => ?_⟩
    rcases Nat.lt_succ_iff_lt_or_eq.mp hs' with hs' | rfl
    · exact hfin s hs'
    · -- nothing is on the path between two starts, so a start seen before is finished
      have hno : markOf marks s ≠ .onPath := fun h => by simpa using (hs.onPath_iff s).mp h
      cases h : markOf marks s <;> simp_all

theorem cycleOf_scanned : ∃ marks, Scanned edges edges.size (marks, cycleOf edges) := by
  unfold cycleOf
  -- the top-level loop keeps `Scanned` from one start to the next
  refine ⟨_, foldl_range_induction (Scanned edges) _ _ edges.size scanned_zero ?_ edges.size
    le_rfl⟩
  rintro ⟨marks, found⟩ k hk h
  cases found with
  | some c => exact h
  | none => exact scanned_start hE hk h

/-- A cycle search that finds nothing leaves a ranking under which every edge goes down. -/
theorem cycleOf_none_ranked (h : cycleOf edges = none) :
    ∃ r : Nat → Nat, ∀ u, ∀ v ∈ edges.getD u [], r v < r u := by
  obtain ⟨marks, hs, hfin⟩ := h ▸ cycleOf_scanned hE
  obtain ⟨r, hr⟩ := hs.ranked
  refine ⟨r, fun u v hv => (hr u (hfin u ?_) v hv).2⟩
  by_cases hu : u < edges.size
  · exact hu
  · simp [Array.getD, hu] at hv

/-- A cycle the search reports starts at a task of the graph. -/
theorem cycleOf_some {c : List Nat} (h : cycleOf edges = some c) :
    ∃ x rest, c = x :: rest ∧ x < edges.size := by
  obtain ⟨marks, hscan⟩ := h ▸ cycleOf_scanned hE
  exact hscan

end Search

end CycleSearch

open CycleSearch

/-! ## Cycles among tasks -/

section Tasks

variable {δ : Type}

theorem lastIndexOf_lt {ids : List TaskId} {id : TaskId} {k : Nat}
    (h : lastIndexOf ids id = some k) : k < ids.length := by
  obtain ⟨x, hx, rfl⟩ := Option.map_eq_some_iff.mp h
  have hmem := (List.mem_filter.mp (List.mem_of_getLast? hx)).1
  simpa using (List.mem_zipIdx hmem).2.1

/-- Among distinct ids, the last position of an id is its only one. -/
theorem lastIndexOf_of_getElem? {ids : List TaskId} (hn : ids.Nodup) {id : TaskId} {k : Nat}
    (h : ids[k]? = some id) : lastIndexOf ids id = some k := by
  have hk : (id, k) ∈ ids.zipIdx.filter (·.1 == id) :=
    List.mem_filter.mpr ⟨List.mk_mem_zipIdx_iff_getElem?.mpr h, by simp⟩
  unfold lastIndexOf
  cases hl : (ids.zipIdx.filter (·.1 == id)).getLast? with
  | none => rw [List.getLast?_eq_none_iff] at hl; rw [hl] at hk; cases hk
  | some x =>
    obtain ⟨hx, hid⟩ := List.mem_filter.mp (List.mem_of_getLast? hl)
    have hx' : ids[x.2]? = some x.1 := List.mk_mem_zipIdx_iff_getElem?.mp hx
    have hlt : x.2 < ids.length := (List.getElem?_eq_some_iff.mp hx').1
    have : x.2 = k := (List.getElem?_inj hlt hn).mp (by simp_all)
    simp [this]

/-- The positions each task depends on, as the cycle search follows them. -/
def dependencyEdges (tasks : List (DeployTask δ)) : Array (List Nat) :=
  tasks.toArray.map fun t => t.dependsOn.filterMap (lastIndexOf (tasks.map (·.id)))

theorem findCycle_eq (tasks : List (DeployTask δ)) :
    findCycle tasks = (cycleOf (dependencyEdges tasks)).map
      fun c => c.filterMap ((tasks.map (·.id))[·]?) := rfl

theorem dependencyEdges_lt (tasks : List (DeployTask δ)) :
    ∀ u, ∀ v ∈ (dependencyEdges tasks).getD u [], v < (dependencyEdges tasks).size := by
  intro u v hv
  simp only [dependencyEdges, Array.getD_eq_getD_getElem?, Array.getElem?_map,
    List.getElem?_toArray] at hv
  cases hu : tasks[u]? with
  | none => simp [hu] at hv
  | some t =>
    simp only [hu, Option.map_some, Option.getD_some, List.mem_filterMap] at hv
    obtain ⟨_, -, hk⟩ := hv
    simpa [dependencyEdges] using lastIndexOf_lt hk

/-- A cycle `findCycle` reports names at least one task, and only tasks of the list. -/
theorem findCycle_some {tasks : List (DeployTask δ)} {c : List TaskId}
    (h : findCycle tasks = some c) : c ≠ [] ∧ ∀ id ∈ c, id ∈ tasks.map (·.id) := by
  rw [findCycle_eq] at h
  obtain ⟨positions, hcyc, rfl⟩ := Option.map_eq_some_iff.mp h
  obtain ⟨x, rest, rfl, hx⟩ := cycleOf_some (dependencyEdges_lt tasks) hcyc
  have hx' : x < tasks.length := by simpa [dependencyEdges] using hx
  refine ⟨by simp [List.getElem?_eq_getElem hx'], fun id hid => ?_⟩
  obtain ⟨k, -, hk⟩ := List.mem_filterMap.mp hid
  exact List.mem_of_getElem? hk

/-- A dependency of a built graph is an edge the cycle search follows. -/
theorem TaskGraph.Built.mem_dependencyEdges {g : TaskGraph δ} {tasks : List (DeployTask δ)}
    (hb : g.Built tasks) {i d : Nat} (h : g.DependsOn i d) :
    d ∈ (dependencyEdges tasks).getD i [] := by
  obtain ⟨t, u, ht, hu, hmem⟩ := h
  rw [hb.tasks_eq, List.getElem?_toArray] at ht hu
  have hd : (tasks.map (·.id))[d]? = some u.id := by simp [hu]
  simp only [dependencyEdges, Array.getD_eq_getD_getElem?, Array.getElem?_map,
    List.getElem?_toArray, ht, Option.map_some, Option.getD_some, List.mem_filterMap]
  exact ⟨u.id, hmem, lastIndexOf_of_getElem? hb.ids_nodup hd⟩

/-- A built graph ranks its tasks so that every dependency of a task ranks strictly lower. -/
theorem TaskGraph.Built.ranked {g : TaskGraph δ} {tasks : List (DeployTask δ)}
    (hb : g.Built tasks) : ∃ r : Nat → Nat, ∀ i d, g.DependsOn i d → r d < r i := by
  have hnone : cycleOf (dependencyEdges tasks) = none := by
    have := hb.no_cycle
    rw [findCycle_eq] at this
    exact Option.map_eq_none_iff.mp this
  obtain ⟨r, hr⟩ := cycleOf_none_ranked (dependencyEdges_lt tasks) hnone
  exact ⟨r, fun i d h => hr _ _ (hb.mem_dependencyEdges h)⟩

/-- The ranking of a built graph also lowers along every chain of dependencies. -/
theorem TaskGraph.Built.ranked_transGen {g : TaskGraph δ} {tasks : List (DeployTask δ)}
    (hb : g.Built tasks) : ∃ r : Nat → Nat, ∀ i d, Relation.TransGen g.DependsOn i d → r d < r i := by
  obtain ⟨r, hr⟩ := hb.ranked
  refine ⟨r, fun i d hid => ?_⟩
  induction hid with
  | single h => exact hr _ _ h
  | tail _ h ih => exact Nat.lt_trans (hr _ _ h) ih

/-- A built graph has no dependency cycle: no task depends on itself, directly or through
other tasks. -/
theorem TaskGraph.Built.acyclic {g : TaskGraph δ} {tasks : List (DeployTask δ)}
    (hb : g.Built tasks) (i : Nat) : ¬ Relation.TransGen g.DependsOn i i := by
  obtain ⟨r, hr⟩ := hb.ranked_transGen
  exact fun hc => Nat.lt_irrefl _ (hr i i hc)

/-! ## Why `build` fails -/

/-- A fold that fails, fails at one of its steps. -/
theorem foldlM_error {α β ε : Type} {f : β → α → Except ε β} :
    ∀ {xs : List α} {a : β} {e : ε}, xs.foldlM f a = .error e → ∃ x ∈ xs, ∃ acc, f acc x = .error e
  | [], _, _, h => by cases h
  | x :: xs, a, e, h => by
    simp only [List.foldlM_cons, bind, Except.bind] at h
    split at h
    · rename_i e' hx
      cases h
      exact ⟨x, List.mem_cons_self, a, hx⟩
    · obtain ⟨y, hy, acc, hacc⟩ := foldlM_error h
      exact ⟨y, List.mem_cons_of_mem x hy, acc, hacc⟩

/-- Linking fails only on a dependency that names no task. -/
theorem links_error {tasks : List (DeployTask δ)} {e : WorkflowError}
    (h : TaskGraph.links tasks = .error e) :
    ∃ t ∈ tasks, ∃ dep ∈ t.dependsOn, dep ∉ tasks.map (·.id) := by
  unfold TaskGraph.links at h
  obtain ⟨⟨t, i⟩, hti, ⟨up, down⟩, hinner⟩ := foldlM_error h
  obtain ⟨dep, hdep, ⟨up', down'⟩, hstep⟩ := foldlM_error hinner
  refine ⟨t, List.mem_of_getElem? (List.mk_mem_zipIdx_iff_getElem?.mp hti), dep, hdep,
    fun hmem => ?_⟩
  dsimp only at hstep
  split at hstep
  · rename_i hnone
    exact (List.idxOf?_eq_none_iff.mp hnone) hmem
  · cases hstep

theorem firstRepeatedId_of_nodup : ∀ {ids seen : List TaskId}, ids.Nodup →
    (∀ x ∈ ids, x ∉ seen) → firstRepeatedId ids seen = none
  | [], _, _, _ => rfl
  | i :: rest, seen, hnd, hout => by
    have hi : seen.contains i = false := by simpa using hout i List.mem_cons_self
    simp only [firstRepeatedId, hi]
    refine firstRepeatedId_of_nodup (List.nodup_cons.mp hnd).2 fun x hx hs => ?_
    rcases List.mem_cons.mp hs with rfl | hs
    · exact (List.nodup_cons.mp hnd).1 hx
    · exact hout x (List.mem_cons_of_mem i hx) hs

/-- Tasks with distinct ids whose dependencies all name tasks fail to build only on a cycle,
which names at least one of them. -/
theorem build_error_cycle {tasks : List (DeployTask δ)} {e : WorkflowError}
    (h : TaskGraph.build tasks = .error e) (hnd : (tasks.map (·.id)).Nodup)
    (hdeps : ∀ t ∈ tasks, ∀ dep ∈ t.dependsOn, dep ∈ tasks.map (·.id)) :
    ∃ c, e = .dependencyCycle c ∧ c ≠ [] ∧ ∀ id ∈ c, id ∈ tasks.map (·.id) := by
  have hfirst : firstRepeatedId (tasks.map (·.id)) [] = none :=
    firstRepeatedId_of_nodup hnd (by simp)
  simp only [TaskGraph.build, hfirst, bind, Except.bind] at h
  split at h
  · rename_i hl
    obtain ⟨t, ht, dep, hdep, hout⟩ := links_error hl
    exact absurd (hdeps t ht dep hdep) hout
  · split at h
    · rename_i c hc
      cases h
      exact ⟨c, rfl, findCycle_some hc⟩
    · cases h

end Tasks

end OrgDeploy
