import Mathlib
import OrgDeploy.Render.Basic

/-!
# Imports do not depend on recorded outputs

A render reads the state twice: the identifier bindings, for `Ref`, `Fn::GetAtt`, `Fn::Sub` and
the account of an import, and the recorded outputs, for `Fn::CopyValue`. The planner uses
`collectImports` to link a task to the tasks producing its imports, and counts an invalid
expression as an error of the input, so both should be fixed by the unit and the bindings alone.

They are, as long as no `Fn::CopyValue` stands inside the arguments of another
(`Value.nestedCopy`). Two scopes that differ only in their recorded outputs (`Scope.Rebound`)
then walk a unit alike (`Walk.Agree`): they fail with the same invalid expression or both go
through having used the same imports. Only the values and the missing imports differ, and only
where an import is read. A walk of a value without any import does not even look at the outputs
(`Walk.Plain`), which is what the argument of an import must be.

A nested import breaks this: its argument renders to the inner import's output once that is
recorded, and stays an expression otherwise, so the outer import is an invalid expression before
the producing unit is deployed and a valid import afterwards (`nested_copy_reads_outputs`).
-/

namespace OrgDeploy

open OrgDeploy.Json

namespace Json

mutual

/-- Whether a `Fn::CopyValue` key stands in a value inside the argument of another one, or,
when `inside` holds, anywhere in it. -/
def Value.nestedCopy (inside : Bool) : Value → Bool
  | .arr items => nestedCopyItems inside items
  | .obj fs => nestedCopyFields inside fs
  | _ => false

/-- `Value.nestedCopy` over the items of an array. -/
def nestedCopyItems (inside : Bool) : List Value → Bool
  | [] => false
  | v :: vs => v.nestedCopy inside || nestedCopyItems inside vs

/-- `Value.nestedCopy` over the fields of an object: the value of a `Fn::CopyValue` key is
inside. -/
def nestedCopyFields (inside : Bool) : Fields → Bool
  | [] => false
  | (k, v) :: rest =>
    (inside && k == "Fn::CopyValue") || v.nestedCopy (inside || k == "Fn::CopyValue") ||
      nestedCopyFields inside rest

end

end Json

/-- Whether a unit nests an import inside the arguments of another: in a stack's template or
parameters, or in a plugin's configuration. -/
def UnitKind.nestedCopy : UnitKind → Bool
  | .stack template parameters => template.nestedCopy false || nestedCopyFields false parameters
  | .plugin _ config => config.nestedCopy false

/-- Whether a unit imports recorded outputs at all: a `Fn::CopyValue` key anywhere in a stack's
template or parameters, or in a plugin's configuration. -/
def UnitKind.readsOutputs : UnitKind → Bool
  | .stack template parameters => template.nestedCopy true || nestedCopyFields true parameters
  | .plugin _ config => config.nestedCopy true

namespace Walk

variable {α β γ δ : Type}

/-- Two walks that give one value, or fail with one error, without touching the imports. -/
def Plain (x y : Walk α) : Prop :=
  ∃ E : Except RenderError α, x = StateT.lift E ∧ y = StateT.lift E

/-- Two results that fail with one error, or both succeed having used the same imports; the
values and the missing imports may differ. -/
def SameUse : Except RenderError (α × Imports) → Except RenderError (β × Imports) → Prop
  | .error e₁, .error e₂ => e₁ = e₂
  | .ok (_, w₁), .ok (_, w₂) => w₁.used = w₂.used
  | _, _ => False

/-- Two walks whose results have the same use from imports with the same used ones. -/
def Agree (x : Walk α) (y : Walk β) : Prop :=
  ∀ w₁ w₂, w₁.used = w₂.used → SameUse (x.run w₁) (y.run w₂)

theorem Plain.pure (a : α) : Plain (Pure.pure a : Walk α) (Pure.pure a) :=
  ⟨.ok a, rfl, rfl⟩

theorem Plain.throw (e : RenderError) : Plain (throw e : Walk α) (throw e) :=
  ⟨.error e, rfl, rfl⟩

theorem Plain.bind {x y : Walk α} {k k' : α → Walk β} (hxy : Plain x y)
    (hk : ∀ a, Plain (k a) (k' a)) : Plain (x >>= k) (y >>= k') := by
  obtain ⟨E, rfl, rfl⟩ := hxy
  choose F hF using hk
  have hrun : ∀ k : α → Walk β, (∀ a, k a = StateT.lift (F a)) →
      (StateT.lift E >>= k : Walk β) = StateT.lift (E >>= F) := by
    intro k hk
    funext w
    cases E with
    | error e => rfl
    | ok a => exact congrFun (hk a) w
  exact ⟨E >>= F, hrun k fun a => (hF a).1, hrun k' fun a => (hF a).2⟩

theorem Plain.agree {x y : Walk α} (h : Plain x y) : Agree x y := by
  obtain ⟨E, rfl, rfl⟩ := h
  intro w₁ w₂ hw
  cases E with
  | error e => exact rfl
  | ok a => exact hw

theorem Agree.pure (a : α) (b : β) : Agree (Pure.pure a : Walk α) (Pure.pure b : Walk β) :=
  fun _ _ hw => hw

theorem Agree.bind {x : Walk α} {y : Walk β} {k : α → Walk γ} {k' : β → Walk δ}
    (hxy : Agree x y) (hk : ∀ a b, Agree (k a) (k' b)) : Agree (x >>= k) (y >>= k') := by
  intro w₁ w₂ hw
  have hr := hxy w₁ w₂ hw
  rw [StateT.run_bind, StateT.run_bind]
  cases h₁ : x.run w₁ with
  | error e₁ =>
    cases h₂ : y.run w₂ with
    | error e₂ => rw [h₁, h₂] at hr; exact hr
    | ok p₂ => rw [h₁, h₂] at hr; exact hr.elim
  | ok p₁ =>
    cases h₂ : y.run w₂ with
    | error e₂ => rw [h₁, h₂] at hr; exact hr.elim
    | ok p₂ =>
      rw [h₁, h₂] at hr
      exact hk p₁.1 p₂.1 p₁.2 p₂.2 hr

/-- Binding the same plain computation on both sides. -/
theorem Agree.lift_bind (E : Except RenderError α) {k : α → Walk β} {k' : α → Walk γ}
    (hk : ∀ a, Agree (k a) (k' a)) : Agree (StateT.lift E >>= k) (StateT.lift E >>= k') := by
  intro w₁ w₂ hw
  cases E with
  | error e => exact rfl
  | ok a => exact hk a w₁ w₂ hw

end Walk

namespace Scope

/-- Two scopes that differ at most in the outputs their states record: the same organization,
unit, target and identifier bindings. -/
structure Rebound (sc₁ sc₂ : Scope) : Prop where
  organization : sc₁.organization = sc₂.organization
  unit : sc₁.unit = sc₂.unit
  target : sc₁.target = sc₂.target
  bindings : sc₁.state.bindings = sc₂.state.bindings

namespace Rebound

variable {sc₁ sc₂ : Scope} (h : sc₁.Rebound sc₂)
include h

theorem physicalId : sc₁.physicalId = sc₂.physicalId := by
  funext e
  simp [Scope.physicalId, State.physicalId?, h.bindings]

theorem reference : sc₁.reference = sc₂.reference := by
  funext name
  simp [Scope.reference, h.organization, h.target, h.physicalId]

theorem attributeOf : sc₁.attributeOf = sc₂.attributeOf := by
  funext id name
  simp [Scope.attributeOf, Scope.currentAccount, h.organization, h.target, h.physicalId]

theorem sub : sc₁.sub = sc₂.sub := by
  funext text vars
  simp [Scope.sub, Scope.placeholder, h.attributeOf, h.reference]

theorem accountId : sc₁.accountId = sc₂.accountId := by
  funext account
  simp [Scope.accountId, h.organization, h.target, h.physicalId]

theorem invalid : sc₁.invalid = sc₂.invalid := by
  funext f m
  simp [Scope.invalid, h.unit]

theorem copyArgs : sc₁.copyArgs = sc₂.copyArgs := by
  funext v
  simp [Scope.copyArgs, h.invalid]

/-- A copy with the same arguments records the same import in both scopes; only whether it is
missing may differ. -/
theorem copyValue_agree (v : Value) : Walk.Agree (sc₁.copyValue v) (sc₂.copyValue v) := by
  unfold Scope.copyValue
  rw [h.copyArgs]
  refine Walk.Agree.lift_bind _ fun args => ?_
  obtain ⟨unit, output, account, region⟩ := args
  intro w₁ w₂ hw
  rw [h.accountId, h.target]
  simp only [StateT.run_bind, StateT.run_modify]
  split <;> split <;> exact congrArg (ImportRef.insertSorted _) hw

/-- A walk of a value, of the fields of an object or of the items of an array without imports
reads no output and leaves the imports alone: it is one plain computation in both scopes. -/
theorem walk_plain_all :
    (∀ v, v.nestedCopy true = false → Walk.Plain (sc₁.walk v) (sc₂.walk v)) ∧
    (∀ fs, nestedCopyFields true fs = false →
      Walk.Plain (sc₁.walkFields fs) (sc₂.walkFields fs)) ∧
    (∀ vs, nestedCopyItems true vs = false →
      Walk.Plain (sc₁.walkItems vs) (sc₂.walkItems vs)) := by
  -- one case per equation of `walk`; the three motives follow its mutual recursion
  refine Scope.walk.mutual_induct _ _ _ ?arr ?ref ?refInvalid ?getAtt ?getAttWalked ?subText
    ?subList ?subVars ?subInvalid ?copy ?obj ?other ?itemsNil ?itemsCons ?fieldsNil ?fieldsCons
  case arr =>
    intro items ih hv
    rw [Scope.walk.eq_1, Scope.walk.eq_1]
    exact (ih (by simpa [Value.nestedCopy] using hv)).bind fun _ => Walk.Plain.pure _
  case ref =>
    intro name _
    rw [Scope.walk.eq_2, Scope.walk.eq_2, h.reference]
    exact Walk.Plain.pure _
  case refInvalid =>
    intro arg hne _
    rw [Scope.walk.eq_3 _ _ hne, Scope.walk.eq_3 _ _ hne, h.invalid]
    exact Walk.Plain.throw _
  case getAtt =>
    intro arg id name hpair _
    rw [Scope.walk.eq_4, Scope.walk.eq_4, hpair, h.attributeOf]
    exact Walk.Plain.pure _
  case getAttWalked =>
    intro arg hpair ih hv
    rw [Scope.walk.eq_4, Scope.walk.eq_4, hpair]
    exact (ih (by simpa [Value.nestedCopy, nestedCopyFields] using hv)).bind fun _ =>
      Walk.Plain.pure _
  case subText =>
    intro text _
    rw [Scope.walk.eq_5, Scope.walk.eq_5, h.sub]
    exact Walk.Plain.pure _
  case subList =>
    intro text _
    rw [Scope.walk.eq_6, Scope.walk.eq_6, h.sub]
    exact Walk.Plain.pure _
  case subVars =>
    intro text vars ih hv
    rw [Scope.walk.eq_7, Scope.walk.eq_7, h.sub]
    exact (ih (by simpa [Value.nestedCopy, nestedCopyFields, nestedCopyItems] using hv)).bind
      fun _ => Walk.Plain.pure _
  case subInvalid =>
    intro arg h₁ h₂ h₃ _
    rw [Scope.walk.eq_8 _ _ h₁ h₂ h₃, Scope.walk.eq_8 _ _ h₁ h₂ h₃, h.invalid]
    exact Walk.Plain.throw _
  case copy =>
    -- an import is just what this walk may not meet
    intro arg _ hv
    simp [Value.nestedCopy, nestedCopyFields] at hv
  case obj =>
    intro fs h₁ h₂ h₃ h₄ ih hv
    rw [Scope.walk.eq_10 _ _ h₁ h₂ h₃ h₄, Scope.walk.eq_10 _ _ h₁ h₂ h₃ h₄]
    exact (ih (by simpa [Value.nestedCopy] using hv)).bind fun _ => Walk.Plain.pure _
  case other =>
    intro v h₁ h₂ h₃ h₄ h₅ h₆ _
    rw [Scope.walk.eq_11 _ _ h₁ h₂ h₃ h₄ h₅ h₆, Scope.walk.eq_11 _ _ h₁ h₂ h₃ h₄ h₅ h₆]
    exact Walk.Plain.pure _
  case itemsNil =>
    intro _
    rw [Scope.walkItems.eq_1, Scope.walkItems.eq_1]
    exact Walk.Plain.pure _
  case itemsCons =>
    intro v vs ihv ihvs hv
    simp only [nestedCopyItems, Bool.or_eq_false_iff] at hv
    rw [Scope.walkItems.eq_2, Scope.walkItems.eq_2]
    exact (ihv hv.1).bind fun _ => (ihvs hv.2).bind fun _ => Walk.Plain.pure _
  case fieldsNil =>
    intro _
    rw [Scope.walkFields.eq_1, Scope.walkFields.eq_1]
    exact Walk.Plain.pure _
  case fieldsCons =>
    intro k v rest ihv ihrest hv
    simp only [nestedCopyFields, Bool.true_or, Bool.true_and, Bool.or_eq_false_iff] at hv
    rw [Scope.walkFields.eq_2, Scope.walkFields.eq_2]
    exact (ihv hv.1.2).bind fun _ => (ihrest hv.2).bind fun _ => Walk.Plain.pure _

theorem walk_plain (v : Value) (hv : v.nestedCopy true = false) :
    Walk.Plain (sc₁.walk v) (sc₂.walk v) :=
  h.walk_plain_all.1 v hv

/-- Two scopes that differ only in recorded outputs walk a value, the fields of an object and the
items of an array alike, when no import in them is nested in another. -/
theorem walk_agree_all :
    (∀ v, v.nestedCopy false = false → Walk.Agree (sc₁.walk v) (sc₂.walk v)) ∧
    (∀ fs, nestedCopyFields false fs = false →
      Walk.Agree (sc₁.walkFields fs) (sc₂.walkFields fs)) ∧
    (∀ vs, nestedCopyItems false vs = false →
      Walk.Agree (sc₁.walkItems vs) (sc₂.walkItems vs)) := by
  refine Scope.walk.mutual_induct _ _ _ ?arr ?ref ?refInvalid ?getAtt ?getAttWalked ?subText
    ?subList ?subVars ?subInvalid ?copy ?obj ?other ?itemsNil ?itemsCons ?fieldsNil ?fieldsCons
  case arr =>
    intro items ih hv
    rw [Scope.walk.eq_1, Scope.walk.eq_1]
    exact (ih (by simpa [Value.nestedCopy] using hv)).bind fun _ _ => Walk.Agree.pure _ _
  case ref =>
    intro name _
    rw [Scope.walk.eq_2, Scope.walk.eq_2]
    exact Walk.Agree.pure _ _
  case refInvalid =>
    intro arg hne _
    rw [Scope.walk.eq_3 _ _ hne, Scope.walk.eq_3 _ _ hne, h.invalid]
    exact (Walk.Plain.throw _).agree
  case getAtt =>
    intro arg id name hpair _
    rw [Scope.walk.eq_4, Scope.walk.eq_4, hpair]
    exact Walk.Agree.pure _ _
  case getAttWalked =>
    intro arg hpair ih hv
    rw [Scope.walk.eq_4, Scope.walk.eq_4, hpair]
    exact (ih (by simpa [Value.nestedCopy, nestedCopyFields] using hv)).bind fun _ _ =>
      Walk.Agree.pure _ _
  case subText =>
    intro text _
    rw [Scope.walk.eq_5, Scope.walk.eq_5]
    exact Walk.Agree.pure _ _
  case subList =>
    intro text _
    rw [Scope.walk.eq_6, Scope.walk.eq_6]
    exact Walk.Agree.pure _ _
  case subVars =>
    intro text vars ih hv
    rw [Scope.walk.eq_7, Scope.walk.eq_7]
    exact (ih (by simpa [Value.nestedCopy, nestedCopyFields, nestedCopyItems] using hv)).bind
      fun _ _ => Walk.Agree.pure _ _
  case subInvalid =>
    intro arg h₁ h₂ h₃ _
    rw [Scope.walk.eq_8 _ _ h₁ h₂ h₃, Scope.walk.eq_8 _ _ h₁ h₂ h₃, h.invalid]
    exact (Walk.Plain.throw _).agree
  case copy =>
    -- the argument holds no import, so both scopes copy from the same walked arguments
    intro arg _ hv
    have harg : arg.nestedCopy true = false := by
      simpa [Value.nestedCopy, nestedCopyFields] using hv
    obtain ⟨E, h₁, h₂⟩ := h.walk_plain arg harg
    rw [Scope.walk.eq_9, Scope.walk.eq_9, h₁, h₂]
    exact Walk.Agree.lift_bind E h.copyValue_agree
  case obj =>
    intro fs h₁ h₂ h₃ h₄ ih hv
    rw [Scope.walk.eq_10 _ _ h₁ h₂ h₃ h₄, Scope.walk.eq_10 _ _ h₁ h₂ h₃ h₄]
    exact (ih (by simpa [Value.nestedCopy] using hv)).bind fun _ _ => Walk.Agree.pure _ _
  case other =>
    intro v h₁ h₂ h₃ h₄ h₅ h₆ _
    rw [Scope.walk.eq_11 _ _ h₁ h₂ h₃ h₄ h₅ h₆, Scope.walk.eq_11 _ _ h₁ h₂ h₃ h₄ h₅ h₆]
    exact Walk.Agree.pure _ _
  case itemsNil =>
    intro _
    rw [Scope.walkItems.eq_1, Scope.walkItems.eq_1]
    exact Walk.Agree.pure _ _
  case itemsCons =>
    intro v vs ihv ihvs hv
    simp only [nestedCopyItems, Bool.or_eq_false_iff] at hv
    rw [Scope.walkItems.eq_2, Scope.walkItems.eq_2]
    exact (ihv hv.1).bind fun _ _ => (ihvs hv.2).bind fun _ _ => Walk.Agree.pure _ _
  case fieldsNil =>
    intro _
    rw [Scope.walkFields.eq_1, Scope.walkFields.eq_1]
    exact Walk.Agree.pure _ _
  case fieldsCons =>
    intro k v rest ihv ihrest hv
    simp only [nestedCopyFields, Bool.false_and, Bool.false_or, Bool.or_eq_false_iff] at hv
    -- a `Fn::CopyValue` key among others is no import, but its value must hold none either
    have hvalue : Walk.Agree (sc₁.walk v) (sc₂.walk v) := by
      cases hk : k == "Fn::CopyValue"
      · rw [hk] at hv
        exact ihv hv.1
      · rw [hk] at hv
        exact (h.walk_plain v hv.1).agree
    rw [Scope.walkFields.eq_2, Scope.walkFields.eq_2]
    exact hvalue.bind fun _ _ => (ihrest hv.2).bind fun _ _ => Walk.Agree.pure _ _

theorem walkUnit_agree (k : UnitKind) (hk : k.nestedCopy = false) :
    Walk.Agree (sc₁.walkUnit k) (sc₂.walkUnit k) := by
  cases k with
  | stack template parameters =>
    simp only [UnitKind.nestedCopy, Bool.or_eq_false_iff] at hk
    exact (h.walk_agree_all.1 template hk.1).bind fun _ _ =>
      (h.walk_agree_all.2.1 parameters hk.2).bind fun _ _ => Walk.Agree.pure _ _
  | plugin _ config =>
    exact (h.walk_agree_all.1 config hk).bind fun _ _ => Walk.Agree.pure _ _

/-- A unit that imports no output walks as one plain computation in both scopes. -/
theorem walkUnit_plain (k : UnitKind) (hk : k.readsOutputs = false) :
    Walk.Plain (sc₁.walkUnit k) (sc₂.walkUnit k) := by
  cases k with
  | stack template parameters =>
    simp only [UnitKind.readsOutputs, Bool.or_eq_false_iff] at hk
    exact (h.walk_plain template hk.1).bind fun _ =>
      (h.walk_plain_all.2.1 parameters hk.2).bind fun _ => Walk.Plain.pure _
  | plugin _ config =>
    exact (h.walk_plain config hk).bind fun _ => Walk.Plain.pure _

end Rebound

end Scope

/-- The imports of a render, and whether it fails with an invalid expression, do not depend on
the outputs the state records: two states with the same identifier bindings give the same
`collectImports`, and a render fails with an invalid expression under one exactly when it does
under the other, as long as the unit nests no import inside the arguments of another. -/
theorem imports_independent_of_outputs {o : Organization} {s₁ s₂ : State}
    (hb : s₁.bindings = s₂.bindings) {u : UnitDef} (hu : u.kind.nestedCopy = false) (t : Target) :
    collectImports o s₁ u t = collectImports o s₂ u t ∧
    ∀ unit f m, render o s₁ u t = .error (.invalidExpression unit f m) ↔
      render o s₂ u t = .error (.invalidExpression unit f m) := by
  have hre : Scope.Rebound ⟨o, s₁, u.name, t⟩ ⟨o, s₂, u.name, t⟩ := ⟨rfl, rfl, rfl, hb⟩
  have hr := hre.walkUnit_agree u.kind hu {} {} rfl
  unfold collectImports render
  dsimp only
  revert hr
  generalize (Scope.walkUnit ⟨o, s₁, u.name, t⟩ u.kind).run {} = r₁
  generalize (Scope.walkUnit ⟨o, s₂, u.name, t⟩ u.kind).run {} = r₂
  intro hr
  cases r₁ with
  | error e₁ =>
    cases r₂ with
    | error e₂ =>
      -- both walks stop at the same invalid expression
      obtain rfl : e₁ = e₂ := hr
      exact ⟨rfl, fun _ _ _ => Iff.rfl⟩
    | ok p₂ => exact hr.elim
  | ok p₁ =>
    cases r₂ with
    | error e₂ => exact hr.elim
    | ok p₂ =>
      -- both walks go through: the used imports agree, and a render can then only miss some
      have hused : p₁.2.used = p₂.2.used := hr
      refine ⟨congrArg Except.ok hused, fun unit f m => ?_⟩
      constructor <;> intro hinv <;>
        simp only [bind, Except.bind, throw, throwThe, MonadExceptOf.throw, pure, Except.pure] at hinv <;>
        split at hinv <;> cases hinv

/-- Two states with the same (no) bindings, one recording the outputs `Name = p` and `Out = v` of
a unit `p`: a unit importing `p.Out` imports the same in both, and renders in neither with an
invalid expression. -/
theorem flat_copy_imports_independent :
    let t : Target := ⟨"111111111111", "eu-west-1", "Dev"⟩
    let r : Record :=
      { lastCommittedHash := "", accountId := t.accountId, region := t.region,
        accountLogicalId := t.accountLogicalId, outputs := [("Name", "p"), ("Out", "v")],
        deployedAt := Timestamp.epoch }
    let recorded : State := { deployments := [("p", [(t.key, r)])] }
    let u : UnitDef :=
      ⟨"q", {}, .stack (.obj [("A", .obj [("Fn::CopyValue", .arr [.str "p", .str "Out"])])]) []⟩
    ({} : State).bindings = recorded.bindings ∧ u.kind.nestedCopy = false ∧
      (collectImports {} {} u t = collectImports {} recorded u t ∧
        ∀ unit f m, render {} {} u t = .error (.invalidExpression unit f m) ↔
          render {} recorded u t = .error (.invalidExpression unit f m)) := by
  intro t r recorded u
  have hb : ({} : State).bindings = recorded.bindings := rfl
  have hu : u.kind.nestedCopy = false := rfl
  exact ⟨hb, hu, imports_independent_of_outputs hb hu t⟩

/-- An import nested in the arguments of another reads the recorded outputs: before unit `p`
records `Name = p` the outer import is an invalid expression, afterwards it imports `p.Out` and
the unit renders. -/
theorem nested_copy_reads_outputs :
    let t : Target := ⟨"111111111111", "eu-west-1", "Dev"⟩
    let r : Record :=
      { lastCommittedHash := "", accountId := t.accountId, region := t.region,
        accountLogicalId := t.accountLogicalId, outputs := [("Name", "p"), ("Out", "v")],
        deployedAt := Timestamp.epoch }
    let recorded : State := { deployments := [("p", [(t.key, r)])] }
    let u : UnitDef :=
      ⟨"q", {}, .stack (.obj [("A", .obj [("Fn::CopyValue",
        .arr [.obj [("Fn::CopyValue", .arr [.str "p", .str "Name"])], .str "Out"])])]) []⟩
    ({} : State).bindings = recorded.bindings ∧
      collectImports {} {} u t =
        .error (.invalidExpression "q" "Fn::CopyValue" "expected a list of strings") ∧
      collectImports {} recorded u t =
        .ok [⟨"p", "111111111111", "eu-west-1", "Name"⟩, ⟨"p", "111111111111", "eu-west-1", "Out"⟩] ∧
      render {} {} u t =
        .error (.invalidExpression "q" "Fn::CopyValue" "expected a list of strings") ∧
      (render {} recorded u t).map Artifact.body = .ok (.obj [("A", .str "v")]) := by
  refine ⟨rfl, rfl, rfl, rfl, rfl⟩

end OrgDeploy
