import Mathlib
import OrgDeploy.Proofs.Graph.Cycle

/-!
# A reported cycle is a cycle

The cycle search answers with the part of its path that an edge back onto the path closes. While
the search runs, its path is a chain of edges: every task on it was entered through an edge from
the task entered before it. So the answer `cycleFrom next path` lists distinct tasks, each with
an edge to the next and the last with an edge back to the first: it goes once round a cycle
(`IsCycleOf`).

* `cycleFrom_isCycle`: an edge from the newest task of a chained path back onto the path closes
  a cycle;
* `search_reports_cycle`: a search and its edge loop report only cycles, by the functional
  induction of the two definitions, with `search_answers` for the searches that settle;
* `cycleOf_some_isCycle`, and with `cycleOf_none_ranked` the exactness of the search:
  `cycleOf_isSome_iff`, the search reports a cycle exactly when the edges have one.
-/

namespace OrgDeploy

/-- `c` goes once round a cycle of `r`: its members are distinct, each is related to the next,
and the last to the first. -/
structure IsCycleOf {α : Type} (r : α → α → Prop) (c : List α) : Prop where
  nodup : c.Nodup
  chain : c.IsChain r
  closes : ∃ first last, c.head? = some first ∧ c.getLast? = some last ∧ r last first

namespace IsCycleOf

variable {α β : Type} {r : α → α → Prop} {c : List α}

theorem ne_nil (h : IsCycleOf r c) : c ≠ [] := by
  obtain ⟨first, -, hfirst, -⟩ := h.closes
  rintro rfl
  cases hfirst

/-- Going round a cycle leads from its first member back to it. -/
theorem transGen (h : IsCycleOf r c) : ∃ a, Relation.TransGen r a a := by
  obtain ⟨first, last, hfirst, hlast, hclose⟩ := h.closes
  have hne := h.ne_nil
  have hpath := List.relationReflTransGen_of_exists_isChain c h.chain hne
  have hf : c.head hne = first := by
    rw [List.head?_eq_some_head hne] at hfirst
    exact Option.some.inj hfirst
  have hl : c.getLast hne = last := by
    rw [List.getLast?_eq_some_getLast hne] at hlast
    exact Option.some.inj hlast
  rw [hf, hl] at hpath
  exact ⟨first, Relation.TransGen.tail' hpath hclose⟩

/-- Every member of a cycle is related to another one: to the next, or the last to the
first. -/
theorem exists_rel (h : IsCycleOf r c) {a : α} (ha : a ∈ c) : ∃ b, r a b := by
  obtain ⟨l₁, l₂, rfl⟩ := List.append_of_mem ha
  cases l₂ with
  | nil =>
    obtain ⟨first, last, -, hlast, hclose⟩ := h.closes
    have : last = a := by simpa using hlast.symm
    exact ⟨first, this ▸ hclose⟩
  | cons b l₂ =>
    have hpair : [a, b].IsChain r := List.IsChain.infix h.chain ⟨l₁, l₂, by simp⟩
    exact ⟨b, List.isChain_pair.mp hpair⟩

/-- A map that keeps the members of a cycle apart and carries the relation takes the cycle to
a cycle. -/
theorem map {r' : β → β → Prop} {f : α → β} (h : IsCycleOf r c)
    (hinj : ∀ a ∈ c, ∀ b ∈ c, f a = f b → a = b) (hr : ∀ a b, r a b → r' (f a) (f b)) :
    IsCycleOf r' (c.map f) := by
  obtain ⟨first, last, hfirst, hlast, hclose⟩ := h.closes
  refine ⟨h.nodup.map_on hinj, (List.isChain_map f).mpr (h.chain.imp hr),
    f first, f last, ?_, ?_, hr _ _ hclose⟩
  · simp [List.head?_map, hfirst]
  · simp [List.getLast?_map, hlast]

end IsCycleOf

namespace CycleSearch

variable {edges : Array (List Nat)}

/-- An edge the search follows: `b` is among the dependencies of `a`. -/
def Edge (edges : Array (List Nat)) (a b : Nat) : Prop := b ∈ edges.getD a []

/-- A list holding `x` is what comes before the first `x`, then `x`, then the rest. -/
theorem eq_takeWhile_append {x : Nat} :
    ∀ {l : List Nat}, x ∈ l → ∃ rest, l = l.takeWhile (· != x) ++ x :: rest
  | y :: ys, h => by
    by_cases hy : y = x
    · subst hy
      exact ⟨ys, by simp⟩
    · have hx : x ∈ ys := (List.mem_cons.mp h).resolve_left (Ne.symm hy)
      obtain ⟨rest, hrest⟩ := eq_takeWhile_append hx
      refine ⟨rest, ?_⟩
      simp only [List.takeWhile_cons, bne_iff_ne, ne_eq, hy, not_false_eq_true]
      exact congrArg (y :: ·) hrest

theorem cycleFrom_eq (next : Nat) (path : List Nat) :
    cycleFrom next path = (path.takeWhile (· != next) ++ [next]).reverse := by
  simp [cycleFrom]

/-- A path, newest task first, whose every task was entered by an edge from the task after it:
an edge from its newest task back onto it closes a cycle, which `cycleFrom` lists from the
task the edge returns to. -/
theorem cycleFrom_isCycle {node next : Nat} {path : List Nat} (hnd : path.Nodup)
    (hchain : path.IsChain (fun a b => Edge edges b a)) (hhead : path.head? = some node)
    (hmem : next ∈ path) (hedge : Edge edges node next) :
    IsCycleOf (Edge edges) (cycleFrom next path) := by
  obtain ⟨rest, hsplit⟩ := eq_takeWhile_append hmem
  rw [cycleFrom_eq]
  generalize path.takeWhile (· != next) = newer at hsplit
  subst hsplit
  -- the cycle is the part of the path up to `next`, read from `next` on
  have hinit : newer ++ [next] <+: newer ++ next :: rest := ⟨rest, by simp⟩
  have hsub := List.IsChain.infix hchain hinit.isInfix
  refine ⟨List.nodup_reverse.mpr (hnd.sublist hinit.sublist), List.isChain_reverse.mpr hsub,
    next, node, ?_, ?_, hedge⟩
  · simp
  · rw [List.getLast?_reverse]
    cases newer with
    | nil => simpa using hhead
    | cons a l => simpa using hhead

/-! ## The search reports cycles -/

section Search

variable (hE : ∀ u, ∀ v ∈ edges.getD u [], v < edges.size)
include hE

/-- A search from an unseen task, entered by an edge from the newest task of a chained path,
reports only cycles; so does the edge loop of the newest task, over edges of that task. -/
theorem search_reports_cycle :
    ∀ fuel node marks path, Searching edges marks path → node < edges.size →
      markOf marks node = .unseen → edges.size + 1 ≤ fuel + path.length →
      (node :: path).IsChain (fun a b => Edge edges b a) →
      ∀ c, (searchFrom edges fuel node marks path).2 = some c → IsCycleOf (Edge edges) c := by
  intro fuel node marks path
  refine searchFrom.induct edges
    (fun fuel node marks path => Searching edges marks path → node < edges.size →
      markOf marks node = .unseen → edges.size + 1 ≤ fuel + path.length →
      (node :: path).IsChain (fun a b => Edge edges b a) →
      ∀ c, (searchFrom edges fuel node marks path).2 = some c → IsCycleOf (Edge edges) c)
    (fun fuel node path nexts marks => ∀ old, path = node :: old →
      Searching edges marks path → edges.size + 1 ≤ fuel + path.length →
      path.IsChain (fun a b => Edge edges b a) → (∀ v ∈ nexts, Edge edges node v) →
      ∀ c, (visitEdges edges fuel node path nexts marks).2 = some c → IsCycleOf (Edge edges) c)
    ?zero ?enter ?leave ?back ?found ?settled ?finished fuel node marks path
  case zero =>
    intro node marks path _ _ _ _ _ c hc
    rw [searchFrom.eq_1] at hc
    cases hc
  case enter =>
    intro node marks path fuel ih hs hn hu hfuel hchain c hc
    rw [searchFrom.eq_2] at hc
    exact ih path rfl (hs.push hn hu) (by simp; omega) hchain (fun v hv => hv) c hc
  case leave =>
    intro fuel node path marks old _ _ _ _ _ c hc
    rw [visitEdges.eq_1] at hc
    cases hc
  case back =>
    intro fuel node path marks next rest hmark old hpath hs _ hchain hnexts c hc
    rw [visitEdges.eq_2] at hc
    simp only [show marks.getD next .unseen = .onPath from hmark, Option.some.injEq] at hc
    subst hc hpath
    -- the edge leads back to a task on the path, since only those are marked `onPath`
    exact cycleFrom_isCycle hs.path_nodup hchain rfl ((hs.onPath_iff next).mp hmark)
      (hnexts next List.mem_cons_self)
  case found =>
    intro fuel node path marks next rest hmark marks₁ c' hsearch ih old hpath hs hfuel hchain
      hnexts c hc
    rw [visitEdges.eq_2] at hc
    simp only [show marks.getD next .unseen = .unseen from hmark, hsearch] at hc
    have hedge := hnexts next List.mem_cons_self
    have hn : next < edges.size := hE node next hedge
    subst hpath
    exact ih hs hn hmark hfuel (hchain.cons_cons hedge) c (by rw [hsearch]; exact hc)
  case settled =>
    intro fuel node path marks next rest hmark marks₁ hsearch _ ihrest old hpath hs hfuel hchain
      hnexts c hc
    rw [visitEdges.eq_2] at hc
    simp only [show marks.getD next .unseen = .unseen from hmark, hsearch] at hc
    have hn : next < edges.size := hE node next (hnexts next List.mem_cons_self)
    -- the search from `next` settled, so the path is searched as before with the new marks
    have hset : Settled edges marks marks₁ path next := by
      have := search_answers hE fuel next marks path hs hn hmark hfuel
      rwa [hsearch] at this
    exact ihrest old hpath hset.searching hfuel hchain
      (fun v hv => hnexts v (List.mem_cons_of_mem next hv)) c hc
  case finished =>
    intro fuel node path marks next rest hmark ihrest old hpath hs hfuel hchain hnexts c hc
    rw [visitEdges.eq_2] at hc
    simp only [show marks.getD next .unseen = .finished from hmark] at hc
    exact ihrest old hpath hs hfuel hchain
      (fun v hv => hnexts v (List.mem_cons_of_mem next hv)) c hc

/-- A cycle the whole search reports goes round a cycle of the edges. -/
theorem cycleOf_some_isCycle {c : List Nat} (h : cycleOf edges = some c) :
    IsCycleOf (Edge edges) c := by
  unfold cycleOf at h
  -- besides `Scanned`, the top-level loop keeps: a cycle it holds is one
  refine (foldl_range_induction
    (fun k acc => Scanned edges k acc ∧ ∀ c, acc.2 = some c → IsCycleOf (Edge edges) c) _ _
    edges.size ⟨scanned_zero, fun _ h => by cases h⟩ ?_ edges.size le_rfl).2 c h
  rintro ⟨marks, found⟩ k hk ⟨hscan, hfound⟩
  cases found with
  | some c' => exact ⟨hscan, hfound⟩
  | none =>
    refine ⟨scanned_start hE hk hscan, fun c hc => ?_⟩
    dsimp only at hc
    split at hc
    · rename_i hu
      exact search_reports_cycle hE (edges.size + 1) k marks [] hscan.1 hk (by simpa [markOf] using hu)
        (by simp) (List.IsChain.singleton k) c hc
    · cases hc

/-- The search is exact: it reports a cycle exactly when following edges can lead from a task
back to itself. -/
theorem cycleOf_isSome_iff :
    (cycleOf edges).isSome ↔ ∃ a, Relation.TransGen (Edge edges) a a := by
  constructor
  · intro h
    obtain ⟨c, hc⟩ := Option.isSome_iff_exists.mp h
    exact (cycleOf_some_isCycle hE hc).transGen
  · rintro ⟨a, ha⟩
    cases hc : cycleOf edges with
    | some c => rfl
    | none =>
      obtain ⟨r, hr⟩ := cycleOf_none_ranked hE hc
      -- every edge lowers the rank, so no chain of edges returns to where it started
      have hdown : ∀ x y, Relation.TransGen (Edge edges) x y → r y < r x := by
        intro x y hxy
        induction hxy with
        | single h => exact hr _ _ h
        | tail _ h ih => exact Nat.lt_trans (hr _ _ h) ih
      exact absurd (hdown a a ha) (Nat.lt_irrefl _)

end Search

end CycleSearch

end OrgDeploy
