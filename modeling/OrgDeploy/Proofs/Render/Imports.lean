import Mathlib
import OrgDeploy.Plan.Basic

/-!
# What a render imports

A walk over a unit records every import it meets in `used` and, when the import's output is not
recorded, in `missing` too; the only way it fails is an invalid expression. Both facts are kept
by every step of a walk (`Walk.Keeps`), so:

* a walk that starts with no imports ends with its missing imports among its used ones;
* when `render` fails with `unresolvedExport`, the walk itself succeeded, `collectImports` gives
  its used imports, and those include every missing one (`render_missing_collected`).

The planner relies on the last point: a deferred task imports every output it misses, so it is
linked to the tasks producing them.
-/

namespace OrgDeploy

open OrgDeploy.Json

/-- The imports a walk missed are among the ones it used. -/
def Imports.Consistent (w : Imports) : Prop := ∀ i ∈ w.missing, i ∈ w.used

theorem ImportRef.compare_eq_eq {a b : ImportRef} : ImportRef.compare a b = .eq ↔ a = b := by
  obtain ⟨u, c, r, o⟩ := a
  obtain ⟨u', c', r', o'⟩ := b
  simp [ImportRef.compare]

@[simp] theorem ImportRef.mem_insertSorted {i x : ImportRef} :
    ∀ {l : List ImportRef}, x ∈ i.insertSorted l ↔ x = i ∨ x ∈ l
  | [] => by simp [ImportRef.insertSorted]
  | j :: rest => by
    unfold ImportRef.insertSorted
    split
    · simp
    · rename_i h
      obtain rfl := ImportRef.compare_eq_eq.mp h
      simp
    · simp only [List.mem_cons, ImportRef.mem_insertSorted (l := rest)]
      tauto

namespace Walk

/-- A walk computation keeps the imports consistent and fails only on an invalid expression. -/
def Keeps {α : Type} (x : Walk α) : Prop :=
  ∀ w, w.Consistent →
    (∀ a w', x.run w = .ok (a, w') → w'.Consistent) ∧
    (∀ e, x.run w = .error e → ∃ u f m, e = .invalidExpression u f m)

variable {α β : Type}

theorem Keeps.pure (a : α) : Keeps (Pure.pure a : Walk α) := by
  intro w hw
  refine ⟨fun b w' h => ?_, fun e h => ?_⟩
  · cases h
    exact hw
  · cases h

theorem Keeps.bind {x : Walk α} {k : α → Walk β} (hx : Keeps x) (hk : ∀ a, Keeps (k a)) :
    Keeps (x >>= k) := by
  intro w hw
  rw [StateT.run_bind]
  cases hr : x.run w with
  | error e =>
    refine ⟨fun b w' h => (by cases h), fun e' h => ?_⟩
    cases h
    exact (hx w hw).2 e hr
  | ok p => exact hk p.1 p.2 ((hx w hw).1 p.1 p.2 hr)

theorem Keeps.throw_invalid (u f m : String) :
    Keeps (throw (.invalidExpression u f m) : Walk α) := by
  intro w _
  have hrun : (throw (.invalidExpression u f m) : Walk α).run w = .error (.invalidExpression u f m) :=
    rfl
  rw [hrun]
  refine ⟨fun b w' h => (by cases h), fun e h => ?_⟩
  cases h
  exact ⟨u, f, m, rfl⟩

/-- Lifting a computation that fails only on an invalid expression. -/
theorem Keeps.lift {x : Except RenderError α}
    (hx : ∀ e, x = .error e → ∃ u f m, e = .invalidExpression u f m) :
    Keeps (StateT.lift x : Walk α) := by
  intro w hw
  rw [StateT.run_lift]
  cases hr : x with
  | error e =>
    refine ⟨fun b w' h => (by cases h), fun e' h => ?_⟩
    cases h
    exact hx e hr
  | ok a =>
    refine ⟨fun b w' h => ?_, fun e h => (by cases h)⟩
    cases h
    exact hw

end Walk

namespace Scope

open Walk

variable (sc : Scope)

/-- The arguments of a copy are checked, and every complaint is an invalid expression. -/
theorem copyArgs_error {v : Value} {e : RenderError} (h : sc.copyArgs v = .error e) :
    ∃ u f m, e = .invalidExpression u f m := by
  simp only [copyArgs, bind, Except.bind, pure, Except.pure, throw, throwThe,
    MonadExceptOf.throw] at h
  repeat' split at h
  all_goals first
    | exact ⟨_, _, _, (Except.error.inj h).symm⟩
    | cases h

/-- A copy records its import as used before, possibly, as missing. -/
theorem copyValue_keeps (v : Value) : Keeps (sc.copyValue v) := by
  unfold copyValue
  refine Keeps.bind (Keeps.lift fun e h => sc.copyArgs_error h) fun args => ?_
  obtain ⟨unit, output, account, region⟩ := args
  intro w hw
  set i : ImportRef := ⟨unit, (account.map sc.accountId).getD sc.target.accountId,
    region.getD sc.target.region, output⟩
  have hused : ({ w with used := i.insertSorted w.used } : Imports).Consistent := by
    intro j hj
    exact ImportRef.mem_insertSorted.mpr (.inr (hw j hj))
  have hmissing :
      ({ w with used := i.insertSorted w.used, missing := i.insertSorted w.missing } :
        Imports).Consistent := by
    intro j hj
    rcases ImportRef.mem_insertSorted.mp hj with rfl | hj
    · exact ImportRef.mem_insertSorted.mpr (.inl rfl)
    · exact ImportRef.mem_insertSorted.mpr (.inr (hw j hj))
  simp only [StateT.run_bind, StateT.run_modify]
  split
  · exact ⟨fun a w' h => (by cases h; exact hused), fun e h => (by cases h)⟩
  · exact ⟨fun a w' h => (by cases h; exact hmissing), fun e h => (by cases h)⟩

/-- Every walk over a value, the items of an array or the fields of an object keeps the
imports consistent and fails only on an invalid expression. -/
theorem walk_keeps (v : Value) : Keeps (sc.walk v) := by
  -- one case per equation of `walk`; the three motives follow its mutual recursion
  refine Scope.walk.induct (fun v => Keeps (sc.walk v)) (fun fs => Keeps (sc.walkFields fs))
    (fun vs => Keeps (sc.walkItems vs)) ?arr ?ref ?refInvalid ?getAtt ?getAttWalked ?subText
    ?subList ?subVars ?subInvalid ?copy ?obj ?other ?itemsNil ?itemsCons ?fieldsNil ?fieldsCons v
  case arr =>
    intro items ih
    rw [Scope.walk.eq_1]
    exact ih.bind fun _ => Keeps.pure _
  case ref => intro name; rw [Scope.walk.eq_2]; exact Keeps.pure _
  case refInvalid => intro arg hne; rw [Scope.walk.eq_3 _ _ hne]; exact Keeps.throw_invalid _ _ _
  case getAtt => intro arg id name h; rw [Scope.walk.eq_4, h]; exact Keeps.pure _
  case getAttWalked =>
    intro arg h ih
    rw [Scope.walk.eq_4, h]
    exact ih.bind fun _ => Keeps.pure _
  case subText => intro text; rw [Scope.walk.eq_5]; exact Keeps.pure _
  case subList => intro text; rw [Scope.walk.eq_6]; exact Keeps.pure _
  case subVars =>
    intro text vars ih
    rw [Scope.walk.eq_7]
    exact ih.bind fun _ => Keeps.pure _
  case subInvalid =>
    intro arg h₁ h₂ h₃
    rw [Scope.walk.eq_8 _ _ h₁ h₂ h₃]
    exact Keeps.throw_invalid _ _ _
  case copy =>
    intro arg ih
    rw [Scope.walk.eq_9]
    exact ih.bind fun v => sc.copyValue_keeps v
  case obj =>
    intro fs h₁ h₂ h₃ h₄ ih
    rw [Scope.walk.eq_10 _ _ h₁ h₂ h₃ h₄]
    exact ih.bind fun _ => Keeps.pure _
  case other =>
    intro v h₁ h₂ h₃ h₄ h₅ h₆
    rw [Scope.walk.eq_11 _ _ h₁ h₂ h₃ h₄ h₅ h₆]
    exact Keeps.pure _
  case itemsNil => rw [Scope.walkItems.eq_1]; exact Keeps.pure _
  case itemsCons =>
    intro v vs ihv ihvs
    rw [Scope.walkItems.eq_2]
    exact ihv.bind fun _ => ihvs.bind fun _ => Keeps.pure _
  case fieldsNil => rw [Scope.walkFields.eq_1]; exact Keeps.pure _
  case fieldsCons =>
    intro k v rest ihv ihrest
    rw [Scope.walkFields.eq_2]
    exact ihv.bind fun _ => ihrest.bind fun _ => Keeps.pure _

theorem walkFields_keeps (fs : Fields) : Keeps (sc.walkFields fs) := by
  induction fs with
  | nil => rw [Scope.walkFields.eq_1]; exact Keeps.pure _
  | cons kv rest ih =>
    rw [Scope.walkFields.eq_2]
    exact (sc.walk_keeps kv.2).bind fun _ => ih.bind fun _ => Keeps.pure _

theorem walkUnit_keeps (k : UnitKind) : Keeps (sc.walkUnit k) := by
  cases k with
  | stack template parameters =>
    exact (sc.walk_keeps template).bind fun _ =>
      (sc.walkFields_keeps parameters).bind fun _ => Keeps.pure _
  | plugin _ config => exact (sc.walk_keeps config).bind fun _ => Keeps.pure _

end Scope

/-- The walk of a render starts from no imports, which are consistent. -/
theorem Imports.consistent_empty : ({} : Imports).Consistent := fun _ h => by cases h

/-- When a render misses imported outputs, the walk succeeded and every missing import is among
the imports `collectImports` gives for the same unit and target. -/
theorem render_missing_collected {o : Organization} {s : State} {u : UnitDef} {t : Target}
    {unit key : String} {missing : List ImportRef}
    (h : render o s u t = .error (.unresolvedExport unit key missing)) :
    ∃ used, collectImports o s u t = .ok used ∧ ∀ i ∈ missing, i ∈ used := by
  have hk := (Scope.walkUnit_keeps ⟨o, s, u.name, t⟩ u.kind) {} Imports.consistent_empty
  simp only [render, collectImports, bind, Except.bind, throw, throwThe, MonadExceptOf.throw,
    pure, Except.pure] at h ⊢
  split at h
  · -- the walk itself fails only on an invalid expression, never with missing imports
    rename_i e hrun
    obtain ⟨_, _, _, rfl⟩ := hk.2 e hrun
    cases h
  · rename_i r hrun
    have hw : r.2.Consistent := hk.1 _ _ hrun
    split at h
    · cases h
      exact ⟨r.2.used, rfl, hw⟩
    · cases h

end OrgDeploy
