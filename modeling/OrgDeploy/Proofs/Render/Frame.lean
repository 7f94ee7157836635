import Mathlib
import OrgDeploy.Proofs.Render.Imports
import OrgDeploy.Proofs.Render.Static

/-!
# A render reads recorded outputs only through its imports

A walk over a unit touches the imports it has met in one way only: an import joins the used
ones and, when the state records no output for it, the missing ones (`Imports.Records`). Every
walk is a sequence of such steps (`Scope.walk_leads`), and each step keeps the imports sorted and
the missing ones exactly the used ones without a recorded output (`Imports.Tracks`).

The outputs themselves are read at those steps alone. So a walk that went through from some
imports gives the same value and the same imports in any state with the same identifier
bindings that records the same outputs for every import it used (`Scope.walk_follows`).

For a render (`render_reads_outputs_through_imports`) this means:

* an artifact's imports are the ones `collectImports` gives, and each has a recorded output;
* a render missing outputs fails after a walk that went through: `collectImports` gives its
  imports, and the missing ones are those without a recorded output, sorted and not none;
* an artifact is rendered again, the same, in every state with the same bindings and the same
  outputs for its imports.
-/

namespace OrgDeploy

open Std OrgDeploy.Json

/-- The output an import reads. -/
def State.importOutput? (s : State) (i : ImportRef) : Option String :=
  s.output? i.unit i.accountId i.region i.output

/-! ## Sorted imports -/

instance : TransCmp ImportRef.compare :=
  inferInstanceAs (TransCmp (compareLex (compareOn ImportRef.unit)
    (compareLex (compareOn ImportRef.accountId)
      (compareLex (compareOn ImportRef.region) (compareOn ImportRef.output)))))

/-- Strictly increasing imports, as a walk keeps them. -/
def ImportsSorted (l : List ImportRef) : Prop := l.Pairwise fun a b => ImportRef.compare a b = .lt

theorem ImportRef.insertSorted_cons (i j : ImportRef) (rest : List ImportRef) :
    i.insertSorted (j :: rest) =
      match ImportRef.compare i j with
      | .lt => i :: j :: rest
      | .eq => j :: rest
      | .gt => j :: i.insertSorted rest := rfl

/-- Inserting an import keeps the imports sorted. -/
theorem ImportsSorted.insertSorted (i : ImportRef) :
    ∀ {l : List ImportRef}, ImportsSorted l → ImportsSorted (i.insertSorted l)
  | [], _ => List.pairwise_singleton _ _
  | j :: rest, hs => by
    obtain ⟨hj, hrest⟩ := List.pairwise_cons.mp hs
    rw [ImportRef.insertSorted_cons]
    split
    · -- `i` goes first: below `j`, so below everything after `j`
      rename_i hij
      refine List.Pairwise.cons (fun b hb => ?_) hs
      rcases List.mem_cons.mp hb with rfl | hb
      · exact hij
      · exact TransCmp.lt_trans hij (hj b hb)
    · exact hs
    · -- `i` goes after `j`, into the rest
      rename_i hij
      refine List.Pairwise.cons (fun b hb => ?_) (ImportsSorted.insertSorted i hrest)
      rcases ImportRef.mem_insertSorted.mp hb with rfl | hb
      · exact OrientedCmp.gt_iff_lt.mp hij
      · exact hj b hb

/-! ## What a walk does to its imports -/

/-- What meeting one import does to the imports met so far, in state `s`: the import joins the
used ones and, when `s` records no output for it, the missing ones. -/
inductive Imports.Records (s : State) : Imports → Imports → Prop
  | found {w : Imports} {i : ImportRef} (h : (s.importOutput? i).isSome) :
      Records s w { w with used := i.insertSorted w.used }
  | missed {w : Imports} {i : ImportRef} (h : s.importOutput? i = none) :
      Records s w { used := i.insertSorted w.used, missing := i.insertSorted w.missing }

/-- The imports a walk has met in state `s`: both lists sorted, and the missing ones exactly
the used ones without a recorded output. -/
structure Imports.Tracks (s : State) (w : Imports) : Prop where
  used : ImportsSorted w.used
  missing : ImportsSorted w.missing
  mem_missing : ∀ i, i ∈ w.missing ↔ i ∈ w.used ∧ s.importOutput? i = none

namespace Imports

variable {s : State}

theorem tracks_empty (s : State) : ({} : Imports).Tracks s :=
  ⟨List.Pairwise.nil, List.Pairwise.nil, fun i => by simp⟩

/-- Meeting an import keeps track of the imports. -/
theorem Records.tracks {w w' : Imports} (h : Records s w w') (hw : w.Tracks s) : w'.Tracks s := by
  cases h with
  | found hout =>
    refine ⟨hw.used.insertSorted _, hw.missing, fun j => ?_⟩
    rw [hw.mem_missing, ImportRef.mem_insertSorted]
    constructor
    · rintro ⟨hj, hnone⟩
      exact ⟨.inr hj, hnone⟩
    · rintro ⟨rfl | hj, hnone⟩
      · simp [hnone] at hout
      · exact ⟨hj, hnone⟩
  | missed hout =>
    refine ⟨hw.used.insertSorted _, hw.missing.insertSorted _, fun j => ?_⟩
    simp only [ImportRef.mem_insertSorted, hw.mem_missing]
    constructor
    · rintro (rfl | ⟨hj, hnone⟩)
      · exact ⟨.inl rfl, hout⟩
      · exact ⟨.inr hj, hnone⟩
    · rintro ⟨rfl | hj, hnone⟩
      · exact .inl rfl
      · exact .inr ⟨hj, hnone⟩

/-- Meeting an import keeps every import used before. -/
theorem Records.used_subset {w w' : Imports} (h : Records s w w') : w.used ⊆ w'.used := by
  cases h <;> exact fun j hj => ImportRef.mem_insertSorted.mpr (.inr hj)

/-- Meeting imports one after another keeps track of them. -/
theorem tracks_of_reflTransGen {w w' : Imports} (h : Relation.ReflTransGen (Records s) w w')
    (hw : w.Tracks s) : w'.Tracks s := by
  induction h with
  | refl => exact hw
  | tail _ hstep ih => exact hstep.tracks ih

/-- Meeting imports one after another keeps every import used before. -/
theorem used_subset_of_reflTransGen {w w' : Imports}
    (h : Relation.ReflTransGen (Records s) w w') : w.used ⊆ w'.used := by
  induction h with
  | refl => exact fun _ hj => hj
  | tail _ hstep ih => exact fun j hj => hstep.used_subset (ih hj)

end Imports

namespace Walk

variable {α β : Type} {s : State}

/-- Every run of `x` that goes through does nothing to the imports but meet some, in state `s`. -/
def Leads (s : State) (x : Walk α) : Prop :=
  ∀ w a w', x.run w = .ok (a, w') → Relation.ReflTransGen (Imports.Records s) w w'

theorem Leads.pure (s : State) (a : α) : Leads s (Pure.pure a : Walk α) := by
  intro w b w' h
  cases h
  exact .refl

theorem Leads.bind {x : Walk α} {k : α → Walk β} (hx : Leads s x) (hk : ∀ a, Leads s (k a)) :
    Leads s (x >>= k) := by
  intro w b w' h
  rw [StateT.run_bind] at h
  cases hr : x.run w with
  | error e => rw [hr] at h; cases h
  | ok p =>
    rw [hr] at h
    exact (hx w p.1 p.2 hr).trans (hk p.1 p.2 b w' h)

theorem Leads.throw (e : RenderError) : Leads s (throw e : Walk α) := by
  intro w b w' h
  cases h

theorem Leads.lift (E : Except RenderError α) : Leads s (StateT.lift E : Walk α) := by
  intro w b w' h
  rw [StateT.run_lift] at h
  cases E with
  | error e => cases h
  | ok a =>
    cases h
    exact .refl

end Walk

namespace Scope

open Walk

variable (sc : Scope)

/-- A copy meets one import and nothing else. -/
theorem copyValue_leads (v : Value) : Leads sc.state (sc.copyValue v) := by
  unfold copyValue
  refine (Leads.lift _).bind fun args => ?_
  obtain ⟨unit, output, account, region⟩ := args
  intro w a w' h
  simp only [StateT.run_bind, StateT.run_modify] at h
  split at h
  · rename_i val hval
    cases h
    exact .single (.found (by simp [State.importOutput?, hval]))
  · rename_i hval
    cases h
    exact .single (.missed hval)

/-- Every walk over a value, the fields of an object or the items of an array only meets
imports. -/
theorem walk_leads :
    (∀ v, Leads sc.state (sc.walk v)) ∧ (∀ fs, Leads sc.state (sc.walkFields fs)) ∧
      (∀ vs, Leads sc.state (sc.walkItems vs)) := by
  -- one case per equation of `walk`; the three motives follow its mutual recursion
  refine Scope.walk.mutual_induct _ _ _ ?arr ?ref ?refInvalid ?getAtt ?getAttWalked ?subText
    ?subList ?subVars ?subInvalid ?copy ?obj ?other ?itemsNil ?itemsCons ?fieldsNil ?fieldsCons
  case arr =>
    intro items ih
    rw [Scope.walk.eq_1]
    exact ih.bind fun _ => Leads.pure _ _
  case ref => intro name; rw [Scope.walk.eq_2]; exact Leads.pure _ _
  case refInvalid => intro arg hne; rw [Scope.walk.eq_3 _ _ hne]; exact Leads.throw _
  case getAtt => intro arg id name h; rw [Scope.walk.eq_4, h]; exact Leads.pure _ _
  case getAttWalked =>
    intro arg h ih
    rw [Scope.walk.eq_4, h]
    exact ih.bind fun _ => Leads.pure _ _
  case subText => intro text; rw [Scope.walk.eq_5]; exact Leads.pure _ _
  case subList => intro text; rw [Scope.walk.eq_6]; exact Leads.pure _ _
  case subVars =>
    intro text vars ih
    rw [Scope.walk.eq_7]
    exact ih.bind fun _ => Leads.pure _ _
  case subInvalid =>
    intro arg h₁ h₂ h₃
    rw [Scope.walk.eq_8 _ _ h₁ h₂ h₃]
    exact Leads.throw _
  case copy =>
    intro arg ih
    rw [Scope.walk.eq_9]
    exact ih.bind fun v => sc.copyValue_leads v
  case obj =>
    intro fs h₁ h₂ h₃ h₄ ih
    rw [Scope.walk.eq_10 _ _ h₁ h₂ h₃ h₄]
    exact ih.bind fun _ => Leads.pure _ _
  case other =>
    intro v h₁ h₂ h₃ h₄ h₅ h₆
    rw [Scope.walk.eq_11 _ _ h₁ h₂ h₃ h₄ h₅ h₆]
    exact Leads.pure _ _
  case itemsNil => rw [Scope.walkItems.eq_1]; exact Leads.pure _ _
  case itemsCons =>
    intro v vs ihv ihvs
    rw [Scope.walkItems.eq_2]
    exact ihv.bind fun _ => ihvs.bind fun _ => Leads.pure _ _
  case fieldsNil => rw [Scope.walkFields.eq_1]; exact Leads.pure _ _
  case fieldsCons =>
    intro k v rest ihv ihrest
    rw [Scope.walkFields.eq_2]
    exact ihv.bind fun _ => ihrest.bind fun _ => Leads.pure _ _

theorem walkUnit_leads (k : UnitKind) : Leads sc.state (sc.walkUnit k) := by
  cases k with
  | stack template parameters =>
    exact (sc.walk_leads.1 template).bind fun _ =>
      (sc.walk_leads.2.1 parameters).bind fun _ => Leads.pure _ _
  | plugin _ config => exact (sc.walk_leads.1 config).bind fun _ => Leads.pure _ _

end Scope

/-! ## Walking again in another state -/

namespace Walk

variable {α β : Type} {s : State}

/-- `y` gives what `x` gives, from the same imports, whenever `P` holds of every import `x`
ends up having used. -/
def Follows (P : ImportRef → Prop) (x y : Walk α) : Prop :=
  ∀ w a w', x.run w = .ok (a, w') → (∀ i ∈ w'.used, P i) → y.run w = .ok (a, w')

variable {P : ImportRef → Prop}

theorem Follows.pure (a : α) : Follows P (Pure.pure a : Walk α) (Pure.pure a) :=
  fun _ _ _ h _ => h

theorem Follows.throw (e : RenderError) : Follows P (throw e : Walk α) (throw e) :=
  fun _ _ _ h _ => h

/-- The imports used after the first computation are among those used at the end, so what holds
of the latter holds of the former. -/
theorem Follows.bind {x y : Walk α} {k k' : α → Walk β} (hxy : Follows P x y)
    (hk : ∀ a, Follows P (k a) (k' a)) (hlead : ∀ a, Leads s (k a)) :
    Follows P (x >>= k) (y >>= k') := by
  intro w b w' h hP
  rw [StateT.run_bind] at h ⊢
  cases hr : x.run w with
  | error e => rw [hr] at h; cases h
  | ok p =>
    rw [hr] at h
    have hsub := Imports.used_subset_of_reflTransGen (hlead p.1 p.2 b w' h)
    rw [hxy w p.1 p.2 hr fun i hi => hP i (hsub hi)]
    exact hk p.1 p.2 b w' h hP

/-- Binding the same plain computation on both sides. -/
theorem Follows.lift_bind (E : Except RenderError α) {k k' : α → Walk β}
    (hk : ∀ a, Follows P (k a) (k' a)) :
    Follows P (StateT.lift E >>= k) (StateT.lift E >>= k') := by
  intro w b w' h hP
  cases E with
  | error e => cases h
  | ok a => exact hk a w b w' h hP

end Walk

namespace Scope.Rebound

open Walk

variable {sc₁ sc₂ : Scope} (h : sc₁.Rebound sc₂)
include h

/-- A copy in a scope that records the same output for the import it meets copies the same. -/
theorem copyValue_follows (v : Value) :
    Follows (fun i => sc₂.state.importOutput? i = sc₁.state.importOutput? i)
      (sc₁.copyValue v) (sc₂.copyValue v) := by
  unfold Scope.copyValue
  rw [← h.copyArgs]
  refine Follows.lift_bind _ fun args => ?_
  obtain ⟨unit, output, account, region⟩ := args
  intro w a w' hrun hP
  rw [← h.accountId, ← h.target]
  simp only [StateT.run_bind, StateT.run_modify] at hrun ⊢
  -- the import is among the used ones at the end, so both scopes read the same output for it
  set i : ImportRef := ⟨unit, (account.map sc₁.accountId).getD sc₁.target.accountId,
    region.getD sc₁.target.region, output⟩
  have hi : sc₂.state.importOutput? i = sc₁.state.importOutput? i := by
    refine hP i ?_
    split at hrun <;> (cases hrun; exact ImportRef.mem_insertSorted.mpr (.inl rfl))
  have hout : sc₂.state.output? i.unit i.accountId i.region i.output =
      sc₁.state.output? i.unit i.accountId i.region i.output := hi
  rw [hout]
  exact hrun

/-- A walk that went through gives the same value and imports in a scope with the same bindings
that records the same outputs for every import it used. -/
theorem walk_follows :
    (∀ v, Follows (fun i => sc₂.state.importOutput? i = sc₁.state.importOutput? i)
      (sc₁.walk v) (sc₂.walk v)) ∧
    (∀ fs, Follows (fun i => sc₂.state.importOutput? i = sc₁.state.importOutput? i)
      (sc₁.walkFields fs) (sc₂.walkFields fs)) ∧
    (∀ vs, Follows (fun i => sc₂.state.importOutput? i = sc₁.state.importOutput? i)
      (sc₁.walkItems vs) (sc₂.walkItems vs)) := by
  have hlead := sc₁.walk_leads
  refine Scope.walk.mutual_induct _ _ _ ?arr ?ref ?refInvalid ?getAtt ?getAttWalked ?subText
    ?subList ?subVars ?subInvalid ?copy ?obj ?other ?itemsNil ?itemsCons ?fieldsNil ?fieldsCons
  case arr =>
    intro items ih
    rw [Scope.walk.eq_1, Scope.walk.eq_1]
    exact ih.bind (fun _ => Follows.pure _) fun _ => Leads.pure sc₁.state _
  case ref =>
    intro name
    rw [Scope.walk.eq_2, Scope.walk.eq_2, h.reference]
    exact Follows.pure _
  case refInvalid =>
    intro arg hne
    rw [Scope.walk.eq_3 _ _ hne, Scope.walk.eq_3 _ _ hne, h.invalid]
    exact Follows.throw _
  case getAtt =>
    intro arg id name hpair
    rw [Scope.walk.eq_4, Scope.walk.eq_4, hpair, h.attributeOf]
    exact Follows.pure _
  case getAttWalked =>
    intro arg hpair ih
    rw [Scope.walk.eq_4, Scope.walk.eq_4, hpair]
    exact ih.bind (fun _ => Follows.pure _) fun _ => Leads.pure sc₁.state _
  case subText =>
    intro text
    rw [Scope.walk.eq_5, Scope.walk.eq_5, h.sub]
    exact Follows.pure _
  case subList =>
    intro text
    rw [Scope.walk.eq_6, Scope.walk.eq_6, h.sub]
    exact Follows.pure _
  case subVars =>
    intro text vars ih
    rw [Scope.walk.eq_7, Scope.walk.eq_7, h.sub]
    exact ih.bind (fun _ => Follows.pure _) fun _ => Leads.pure sc₁.state _
  case subInvalid =>
    intro arg h₁ h₂ h₃
    rw [Scope.walk.eq_8 _ _ h₁ h₂ h₃, Scope.walk.eq_8 _ _ h₁ h₂ h₃, h.invalid]
    exact Follows.throw _
  case copy =>
    intro arg ih
    rw [Scope.walk.eq_9, Scope.walk.eq_9]
    exact ih.bind h.copyValue_follows fun v => sc₁.copyValue_leads v
  case obj =>
    intro fs h₁ h₂ h₃ h₄ ih
    rw [Scope.walk.eq_10 _ _ h₁ h₂ h₃ h₄, Scope.walk.eq_10 _ _ h₁ h₂ h₃ h₄]
    exact ih.bind (fun _ => Follows.pure _) fun _ => Leads.pure sc₁.state _
  case other =>
    intro v h₁ h₂ h₃ h₄ h₅ h₆
    rw [Scope.walk.eq_11 _ _ h₁ h₂ h₃ h₄ h₅ h₆, Scope.walk.eq_11 _ _ h₁ h₂ h₃ h₄ h₅ h₆]
    exact Follows.pure _
  case itemsNil =>
    rw [Scope.walkItems.eq_1, Scope.walkItems.eq_1]
    exact Follows.pure _
  case itemsCons =>
    intro v vs ihv ihvs
    rw [Scope.walkItems.eq_2, Scope.walkItems.eq_2]
    exact ihv.bind (fun _ => ihvs.bind (fun _ => Follows.pure _) fun _ => Leads.pure sc₁.state _)
      fun _ => (hlead.2.2 vs).bind fun _ => Leads.pure sc₁.state _
  case fieldsNil =>
    rw [Scope.walkFields.eq_1, Scope.walkFields.eq_1]
    exact Follows.pure _
  case fieldsCons =>
    intro k v rest ihv ihrest
    rw [Scope.walkFields.eq_2, Scope.walkFields.eq_2]
    exact ihv.bind (fun _ => ihrest.bind (fun _ => Follows.pure _) fun _ => Leads.pure sc₁.state _)
      fun _ => (hlead.2.1 rest).bind fun _ => Leads.pure sc₁.state _

theorem walkUnit_follows (k : UnitKind) :
    Follows (fun i => sc₂.state.importOutput? i = sc₁.state.importOutput? i)
      (sc₁.walkUnit k) (sc₂.walkUnit k) := by
  cases k with
  | stack template parameters =>
    exact (h.walk_follows.1 template).bind
      (fun _ => (h.walk_follows.2.1 parameters).bind (fun _ => Follows.pure _)
        fun _ => Leads.pure sc₁.state _)
      fun _ => (sc₁.walk_leads.2.1 parameters).bind fun _ => Leads.pure sc₁.state _
  | plugin _ config =>
    exact (h.walk_follows.1 config).bind (fun _ => Follows.pure _) fun _ => Leads.pure sc₁.state _

end Scope.Rebound

/-! ## Renders -/

section Render

variable (o : Organization) (s : State) (u : UnitDef) (t : Target)

theorem render_eq : render o s u t =
    match (Scope.walkUnit ⟨o, s, u.name, t⟩ u.kind).run {} with
    | .error e => .error e
    | .ok ((body, params), w) =>
      if !w.missing.isEmpty then .error (.unresolvedExport u.name t.key w.missing)
      else .ok { body, parameters := params.map fun (k, v) => (k, coerceParameter v),
                 imports := w.used } := by
  simp only [render, bind, Except.bind, throw, throwThe, MonadExceptOf.throw, pure, Except.pure]
  cases (Scope.walkUnit ⟨o, s, u.name, t⟩ u.kind).run {} with
  | error e => rfl
  | ok r => rfl

theorem collectImports_eq : collectImports o s u t =
    ((Scope.walkUnit ⟨o, s, u.name, t⟩ u.kind).run {}).map (·.2.used) := by
  simp only [collectImports, bind, Except.bind, pure, Except.pure, Except.map]

/-- A unit that reads no recorded outputs renders alike from every state with the same
identifier bindings: an artifact that imports nothing, or an invalid expression. -/
theorem render_plain (hu : u.kind.readsOutputs = false) {s' : State}
    (hb : s'.bindings = s.bindings) :
    render o s' u t = render o s u t ∧
      ((∃ a, render o s u t = .ok a ∧ a.imports = []) ∨
        ∃ unit field msg, render o s u t = .error (.invalidExpression unit field msg)) := by
  have hre : Scope.Rebound ⟨o, s', u.name, t⟩ ⟨o, s, u.name, t⟩ := ⟨rfl, rfl, rfl, hb⟩
  -- both walks are the same lifted result, which leaves the imports as they started
  obtain ⟨E, h₁, h₂⟩ := hre.walkUnit_plain u.kind hu
  have hinvalid := (Scope.walkUnit_keeps ⟨o, s, u.name, t⟩ u.kind {} Imports.consistent_empty).2
  rw [h₂] at hinvalid
  rw [render_eq, render_eq, h₁, h₂]
  cases E with
  | error e =>
    obtain ⟨unit, field, msg, rfl⟩ := hinvalid e rfl
    exact ⟨rfl, .inr ⟨unit, field, msg, rfl⟩⟩
  | ok v => exact ⟨rfl, .inl ⟨_, rfl, rfl⟩⟩

/-- A unit that reads no recorded outputs collects no imports. -/
theorem collectImports_plain (hu : u.kind.readsOutputs = false) {imports : List ImportRef}
    (h : collectImports o s u t = .ok imports) : imports = [] := by
  have hre : Scope.Rebound ⟨o, s, u.name, t⟩ ⟨o, s, u.name, t⟩ := ⟨rfl, rfl, rfl, rfl⟩
  obtain ⟨E, h₁, -⟩ := hre.walkUnit_plain u.kind hu
  rw [collectImports_eq, h₁] at h
  cases E with
  | error e => cases h
  | ok v =>
    cases h
    rfl

end Render

/-- A render depends on the recorded outputs only through its imports.

* An artifact's imports are the ones `collectImports` gives, each with a recorded output, and
  every state with the same identifier bindings and the same outputs for those imports renders
  the same artifact.
* A render that misses outputs names the unit and the target's key, and `collectImports` gives
  imports of which the missing ones are exactly those without a recorded output: a sorted list,
  never empty. -/
theorem render_reads_outputs_through_imports (o : Organization) (s : State) (u : UnitDef)
    (t : Target) :
    (∀ a, render o s u t = .ok a →
      collectImports o s u t = .ok a.imports ∧
      (∀ i ∈ a.imports, (s.importOutput? i).isSome) ∧
      ∀ s' : State, s'.bindings = s.bindings →
        (∀ i ∈ a.imports, s'.importOutput? i = s.importOutput? i) → render o s' u t = .ok a) ∧
    (∀ unit key missing, render o s u t = .error (.unresolvedExport unit key missing) →
      ∃ imports, collectImports o s u t = .ok imports ∧ unit = u.name ∧ key = t.key ∧
        missing ≠ [] ∧ ImportsSorted missing ∧
        ∀ i, i ∈ missing ↔ i ∈ imports ∧ s.importOutput? i = none) := by
  set sc : Scope := ⟨o, s, u.name, t⟩
  -- the walk meets imports and nothing else, and fails only on an invalid expression
  have htracks : ∀ r w, (sc.walkUnit u.kind).run {} = .ok (r, w) → w.Tracks s :=
    fun r w hrun => Imports.tracks_of_reflTransGen (sc.walkUnit_leads u.kind {} r w hrun)
      (Imports.tracks_empty s)
  have hinvalid := ((Scope.walkUnit_keeps sc u.kind) {} Imports.consistent_empty).2
  refine ⟨fun a h => ?_, fun unit key missing h => ?_⟩
  · rw [render_eq] at h
    split at h
    · cases h
    · rename_i body params w hrun
      split at h
      · cases h
      · rename_i hmissing
        cases h
        have hw := htracks _ _ hrun
        have hnil : w.missing = [] := by simpa using hmissing
        refine ⟨by rw [collectImports_eq, hrun]; rfl, fun i hi => ?_, fun s' hb hout => ?_⟩
        · -- an import without output would be missing
          cases hout : s.importOutput? i with
          | none => simpa [hnil] using (hw.mem_missing i).mpr ⟨hi, hout⟩
          | some v => rfl
        · have hre : sc.Rebound ⟨o, s', u.name, t⟩ := ⟨rfl, rfl, rfl, hb.symm⟩
          rw [render_eq, hre.walkUnit_follows u.kind {} _ _ hrun hout]
          simp [hnil]
  · rw [render_eq] at h
    split at h
    · rename_i e hrun
      obtain ⟨_, _, _, rfl⟩ := hinvalid e hrun
      cases h
    · rename_i body params w hrun
      split at h
      · rename_i hmissing
        cases h
        have hw := htracks _ _ hrun
        exact ⟨w.used, by rw [collectImports_eq, hrun]; rfl, rfl, rfl,
          by simpa using hmissing, hw.missing, hw.mem_missing⟩
      · cases h

end OrgDeploy
