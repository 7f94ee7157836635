import Mathlib
import OrgDeploy.Resolve

/-!
# The targets of a binding

`Binding.resolve` makes its targets with `addTarget` alone, starting from none, and `addTarget`
keeps a list strictly increasing by account id, then region: it inserts a new target in its
place and drops one whose account id and region are there already. So the targets a binding
resolves to are sorted (`resolve_sorted`), and no two of them share an account id and a region
(`resolve_targets_nodup`); the planner relies on the latter to give each target one task.
-/

namespace OrgDeploy

open Std

/-- Targets compared by account id, then region: the order `addTarget` keeps. -/
def Target.compareKey : Target → Target → Ordering :=
  compareLex (compareOn Target.accountId) (compareOn Target.region)

instance : TransCmp Target.compareKey :=
  inferInstanceAs (TransCmp (compareLex (compareOn Target.accountId) (compareOn Target.region)))

/-- Strictly increasing by account id, then region. -/
def TargetsSorted (ts : List Target) : Prop :=
  ts.Pairwise fun a b => Target.compareKey a b = .lt

namespace Binding

theorem addTarget_cons (t u : Target) (rest : List Target) :
    addTarget t (u :: rest) =
      match Target.compareKey t u with
      | .lt => t :: u :: rest
      | .eq => u :: rest
      | .gt => u :: addTarget t rest := rfl

theorem mem_addTarget {t x : Target} : ∀ {ts : List Target}, x ∈ addTarget t ts → x = t ∨ x ∈ ts
  | [], h => by simpa [addTarget] using h
  | u :: rest, h => by
    rw [addTarget_cons] at h
    split at h
    · simpa using h
    · exact .inr h
    · rcases List.mem_cons.mp h with rfl | h
      · exact .inr List.mem_cons_self
      · rcases mem_addTarget h with rfl | h
        · exact .inl rfl
        · exact .inr (List.mem_cons_of_mem _ h)

/-- Adding a target keeps the targets sorted. -/
theorem addTarget_sorted (t : Target) : ∀ {ts : List Target}, TargetsSorted ts →
    TargetsSorted (addTarget t ts)
  | [], _ => List.pairwise_singleton _ _
  | u :: rest, hs => by
    obtain ⟨hu, hrest⟩ := List.pairwise_cons.mp hs
    rw [addTarget_cons]
    split
    · -- `t` goes first: below `u`, so below everything after `u`
      rename_i htu
      refine List.Pairwise.cons (fun b hb => ?_) hs
      rcases List.mem_cons.mp hb with rfl | hb
      · exact htu
      · exact TransCmp.lt_trans htu (hu b hb)
    · exact hs
    · -- `t` goes after `u`, into the rest
      rename_i htu
      refine List.Pairwise.cons (fun b hb => ?_) (addTarget_sorted t hrest)
      rcases mem_addTarget hb with rfl | hb
      · exact OrientedCmp.gt_iff_lt.mp htu
      · exact hu b hb

end Binding

/-- Sorted targets have distinct account ids and regions. -/
theorem TargetsSorted.nodup {ts : List Target} (hs : TargetsSorted ts) :
    (ts.map fun t => (t.accountId, t.region)).Nodup := by
  rw [List.nodup_iff_pairwise_ne, List.pairwise_map]
  refine hs.imp fun {a b} hab heq => ?_
  have hsame : Target.compareKey a b = Target.compareKey b b := by
    simp only [Prod.mk.injEq] at heq
    simp [Target.compareKey, compareLex, compareOn, heq.1, heq.2]
  rw [hsame, @ReflCmp.compare_self _ Target.compareKey _ b] at hab
  cases hab

namespace Binding

/-- A binding resolves to targets sorted by account id, then region. -/
theorem resolve_sorted {o : Organization} {override : Option (List String)} {b : Binding}
    {ts : List Target} (h : b.resolve o override = .ok ts) : TargetsSorted ts := by
  simp only [Binding.resolve, bind, Except.bind, throw, throwThe, MonadExceptOf.throw, pure,
    Except.pure] at h
  split at h
  · cases h
  repeat' split at h
  all_goals try cases h
  -- each account adds its targets one region at a time, from no target at all
  refine List.foldlRecOn _ _ (motive := TargetsSorted) List.Pairwise.nil fun acc hacc ⟨_, e⟩ _ => ?_
  dsimp only
  split
  · exact List.foldlRecOn _ _ (motive := TargetsSorted) hacc fun acc' hacc' _ _ =>
      addTarget_sorted _ hacc'
  · exact hacc

/-- No two targets of a binding share an account id and a region. -/
theorem resolve_targets_nodup {o : Organization} {override : Option (List String)} {b : Binding}
    {ts : List Target} (h : b.resolve o override = .ok ts) :
    (ts.map fun t => (t.accountId, t.region)).Nodup :=
  (resolve_sorted h).nodup

end Binding

end OrgDeploy
