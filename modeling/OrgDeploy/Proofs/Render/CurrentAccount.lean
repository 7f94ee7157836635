import Mathlib
import OrgDeploy.Proofs.Resolve.Accounts

/-!
# The current account of a target

A render for a target knows the target's account twice: as the pseudo id `CurrentAccount` (or
`AWSAccount`), and by the logical id the target carries. The two are treated alike when the
organization and the state know that account as the target does (`Scope.TargetAccount`): the
logical id names it, the state binds it to the target's account id, and the target's account
id finds it among the accounts. Then a `Ref` to the logical id is the account id, every attribute
of it is the current account's, and a `Fn::CopyValue` naming it imports from the target's
account id, as one naming no account does.

Binding resolves every target from an account of the organization, so after the state and the
organization are bound the target's account is known so, provided that binding could make them
agree: the state bound no entity to a physical id other than the entity's own, and no two
accounts share a physical id (`current_account_alike`). Without either, the two readings part:
a `Ref` follows the state's binding while the target follows the organization, and the current
account is the first account with the target's account id.
-/

namespace OrgDeploy

open OrgDeploy.Json

namespace Entity

/-- The attribute names an entity answers: `AccountName`, `AccountId`, `RootEmail`, `Alias`, the
two role names and `Tags.<key>`. -/
def IsAttributeName (name : String) : Prop :=
  name ∈ ["AccountName", "AccountId", "RootEmail", "Alias", "OrganizationAccessRoleName",
    "BuildAccessRoleName"] ∨ name.startsWith "Tags." = true

instance : DecidablePred IsAttributeName := fun _ => inferInstanceAs (Decidable (_ ∨ _))

/-- An attribute name is known to every entity, with a value or without one. -/
theorem attr_ne_unknown (e : Entity) {name : String} (h : IsAttributeName name) :
    e.attr name ≠ .unknown := by
  unfold attr
  dsimp only
  split
  · -- only a name that none of the tests accepts is unknown
    rename_i hnone
    split_ifs at hnone
    simp_all [IsAttributeName]
  all_goals simp

end Entity

namespace Scope

variable (sc : Scope)

/-- The target's account `e` as the scope's organization and state know it: the target's
logical id names it, the state binds that id to the target's account id, and that account id
finds it among the accounts. -/
structure TargetAccount (e : Entity) : Prop where
  named : sc.organization.get? sc.target.accountLogicalId = some e
  logicalId : e.logicalId = sc.target.accountLogicalId
  account : e.isAccount = true
  bound : sc.state.physicalId? sc.target.accountLogicalId = some sc.target.accountId
  found : sc.organization.findAccountByPhysicalId? sc.target.accountId = some e

namespace TargetAccount

variable {sc} {e : Entity} (ht : sc.TargetAccount e)
include ht

theorem physicalId : sc.physicalId e = some sc.target.accountId := by
  simp [Scope.physicalId, ht.logicalId, ht.bound]

theorem currentAccount : sc.currentAccount = e := by
  simp [Scope.currentAccount, ht.found]

/-- A reference to the target's account is its account id. -/
theorem reference : sc.reference sc.target.accountLogicalId = some sc.target.accountId := by
  unfold Scope.reference
  split
  · rfl
  · simp [ht.named, ht.physicalId]

/-- Every attribute of the target's account is that of the current account. -/
theorem attributeOf (name : String) :
    sc.attributeOf sc.target.accountLogicalId name = sc.attributeOf "CurrentAccount" name := by
  have hcur : isCurrentAccountId "CurrentAccount" = true := rfl
  by_cases hc : isCurrentAccountId sc.target.accountLogicalId
  · simp [Scope.attributeOf, hc, hcur]
  · simp [Scope.attributeOf, hc, hcur, ht.named, ht.currentAccount, ht.physicalId]

/-- The current account answers every attribute name its entity knows. -/
theorem attributeOf_isSome {name : String} (h : e.attr name ≠ .unknown) :
    (sc.attributeOf "CurrentAccount" name).isSome := by
  have hcur : isCurrentAccountId "CurrentAccount" = true := rfl
  simp only [Scope.attributeOf, hcur, ht.currentAccount, if_true, Option.bind_some]
  split
  · rfl
  · cases hA : e.attr name <;> simp_all

/-- An import naming the target's account is from the target's account id. -/
theorem accountId : sc.accountId sc.target.accountLogicalId = sc.target.accountId := by
  unfold Scope.accountId
  split
  · rfl
  · simp [ht.named, Option.filter_some, ht.account, ht.physicalId]

end TargetAccount

/-! ## Walking the three expressions -/

theorem walk_str (s : String) : sc.walk (.str s) = pure (.str s) := by
  -- a string is none of the shapes the earlier equations of `walk` take apart
  refine Scope.walk.eq_11 sc (.str s) ?_ ?_ ?_ ?_ ?_ ?_ <;> simp

/-- An array of strings walks to itself. -/
theorem walk_strs (xs : List String) :
    sc.walk (.arr (xs.map .str)) = pure (.arr (xs.map .str)) := by
  have hitems : sc.walkItems (xs.map .str) = pure (xs.map .str) := by
    induction xs with
    | nil => rw [List.map_nil, Scope.walkItems.eq_1]
    | cons x xs ih => rw [List.map_cons, Scope.walkItems.eq_2, walk_str, ih]; rfl
  rw [Scope.walk.eq_1, hitems]
  rfl

theorem walk_getAtt (id name : String) :
    sc.walk (.obj [("Fn::GetAtt", .arr [.str id, .str name])]) =
      pure ((sc.attributeOf id name).elim (.obj [("Fn::GetAtt", .arr [.str id, .str name])])
        Value.str) := by
  rw [Scope.walk.eq_4]
  rfl

theorem walk_copyValue (xs : List String) :
    sc.walk (.obj [("Fn::CopyValue", .arr (xs.map .str))]) = sc.copyValue (.arr (xs.map .str)) := by
  rw [Scope.walk.eq_9, walk_strs, pure_bind]

theorem copyArgs_pair (u out : String) :
    sc.copyArgs (.arr [.str u, .str out]) =
      if u.isEmpty || out.isEmpty then
        .error (sc.invalid "Fn::CopyValue" "unit and output must not be empty")
      else .ok (u, out, none, none) := by
  simp [copyArgs, Value.getStr?]
  split <;> rfl

theorem copyArgs_triple (u out a : String) :
    sc.copyArgs (.arr [.str u, .str out, .str a]) =
      if u.isEmpty || out.isEmpty then
        .error (sc.invalid "Fn::CopyValue" "unit and output must not be empty")
      else .ok (u, out, some a, none) := by
  simp [copyArgs, Value.getStr?]
  split <;> rfl

theorem run_lift_ok_bind {α β : Type} (a : α) (k : α → Walk β) (w : Imports) :
    (StateT.lift (.ok a) >>= k : Walk β).run w = (k a).run w := rfl

/-- What a copy records depends on its arguments only through the import they name. -/
theorem copyValue_imports {v v' : Value} {u out : String} {a a' r : Option String}
    (h : sc.copyArgs v = .ok (u, out, a, r)) (h' : sc.copyArgs v' = .ok (u, out, a', r))
    (ha : (a.map sc.accountId).getD sc.target.accountId =
      (a'.map sc.accountId).getD sc.target.accountId) (w : Imports) :
    Prod.snd <$> (sc.copyValue v).run w = Prod.snd <$> (sc.copyValue v').run w := by
  unfold copyValue
  rw [h, h', run_lift_ok_bind, run_lift_ok_bind]
  dsimp only
  rw [ha]
  simp only [StateT.run_bind, StateT.run_modify]
  split <;> rfl

end Scope

/-- Among entities with distinct physical ids, an entity is the one its physical id finds. -/
theorem find?_physicalId :
    ∀ {es : List Entity}, (es.filterMap (·.physicalId)).Nodup → ∀ {e : Entity}, e ∈ es →
      ∀ {pid : String}, e.physicalId = some pid → es.find? (·.physicalId == some pid) = some e
  | [], _, _, he, _, _ => absurd he List.not_mem_nil
  | x :: rest, hnd, e, he, pid, hpid => by
    by_cases hx : x.physicalId = some pid
    · -- `x` is found; it is `e`, since `pid` occurs once
      rw [List.filterMap_cons, hx, List.nodup_cons] at hnd
      rcases List.mem_cons.mp he with rfl | he
      · simp [hx]
      · exact absurd (List.mem_filterMap.mpr ⟨e, he, hpid⟩) hnd.1
    · have hne : e ≠ x := fun h => hx (h ▸ hpid)
      have hrest : (rest.filterMap (·.physicalId)).Nodup := by
        cases hxp : x.physicalId with
        | none => simpa [List.filterMap_cons, hxp] using hnd
        | some q => exact (List.nodup_cons.mp (by simpa [List.filterMap_cons, hxp] using hnd)).2
      rw [List.find?_cons_of_neg (by simpa using hx)]
      exact find?_physicalId hrest ((List.mem_cons.mp he).resolve_left hne) hpid

/-- After the state and a built organization are bound, a target a binding resolves to has its
account in the render's scope, when the state agreed with the organization and the bound
accounts have distinct physical ids. -/
theorem targetAccount_of_resolve {master : Option Entity} {accounts units : List Entity}
    {o₀ o : Organization} {s₀ s : State} (ho : Organization.build master accounts units = .ok o₀)
    (hagree : s₀.Agrees o₀) (hbind : s₀.bindOrganization o₀ = (s, o))
    (hdistinct : (o.allAccounts.filterMap (·.physicalId)).Nodup) {b : Binding}
    {override : Option (List String)} {ts : List Target} (hres : b.resolve o override = .ok ts)
    {t : Target} (ht : t ∈ ts) (unit : String) :
    ∃ e, Scope.TargetAccount ⟨o, s, unit, t⟩ e := by
  have hw₀ := Organization.build_wellFormed ho
  have ho' : o = o₀.bindPhysicalIds s₀.physicalId? := (congrArg Prod.snd hbind).symm
  have hw : o.WellFormed := ho' ▸ hw₀.bindPhysicalIds _
  obtain ⟨e, he, hL, hpid⟩ := Binding.resolve_account hw hres ht
  have hent : e ∈ o.entities := List.mem_append_left _ he
  refine ⟨e, ⟨?named, hL, hw.accounts e he, ?bound, ?found⟩⟩
  case named => simpa [hL] using hw.get?_of_mem hent
  case bound => simpa [hL] using State.bound_of_agrees hw₀ hagree hbind hent hpid
  case found => exact find?_physicalId hdistinct he hpid

/-- Rendering for a target that a binding resolves to, after the state and a built organization
are bound, treats the target's logical id as the current account: a `Ref` to it renders to the
target's account id, every attribute of it renders to the current account's, and a
`Fn::CopyValue` naming it records the imports of one naming no account. This holds when binding
could make state and organization agree: the state bound no entity to a physical id other than
its own, and no two bound accounts share a physical id. -/
theorem current_account_alike {master : Option Entity} {accounts units : List Entity}
    {o₀ o : Organization} {s₀ s : State} (ho : Organization.build master accounts units = .ok o₀)
    (hagree : s₀.Agrees o₀) (hbind : s₀.bindOrganization o₀ = (s, o))
    (hdistinct : (o.allAccounts.filterMap (·.physicalId)).Nodup) {b : Binding}
    {override : Option (List String)} {ts : List Target} (hres : b.resolve o override = .ok ts)
    {t : Target} (ht : t ∈ ts) (unit : String) (w : Imports) :
    let sc : Scope := ⟨o, s, unit, t⟩
    (sc.walk (.obj [("Ref", .str t.accountLogicalId)])).run w = .ok (.str t.accountId, w) ∧
    (∀ name, Entity.IsAttributeName name → ∃ v,
      (sc.walk (.obj [("Fn::GetAtt", .arr [.str t.accountLogicalId, .str name])])).run w =
        .ok (.str v, w) ∧
      (sc.walk (.obj [("Fn::GetAtt", .arr [.str "CurrentAccount", .str name])])).run w =
        .ok (.str v, w)) ∧
    (∀ u out,
      Prod.snd <$> (sc.walk (.obj [("Fn::CopyValue",
        .arr [.str u, .str out, .str t.accountLogicalId])])).run w =
      Prod.snd <$> (sc.walk (.obj [("Fn::CopyValue", .arr [.str u, .str out])])).run w) := by
  intro sc
  obtain ⟨e, hacc⟩ : ∃ e, sc.TargetAccount e :=
    targetAccount_of_resolve ho hagree hbind hdistinct hres ht unit
  -- from here on only the scope matters, and the target is the scope's
  have htarget : sc.target = t := rfl
  clear_value sc
  subst htarget
  refine ⟨?ref, ?getAtt, ?copy⟩
  case ref =>
    rw [Scope.walk.eq_2, hacc.reference]
    rfl
  case getAtt =>
    intro name hname
    obtain ⟨v, hv⟩ := Option.isSome_iff_exists.mp (hacc.attributeOf_isSome (e.attr_ne_unknown hname))
    refine ⟨v, ?_, ?_⟩
    · rw [Scope.walk_getAtt, hacc.attributeOf, hv]
      rfl
    · rw [Scope.walk_getAtt, hv]
      rfl
  case copy =>
    intro u out
    have hL := Scope.walk_copyValue sc [u, out, sc.target.accountLogicalId]
    have hC := Scope.walk_copyValue sc [u, out]
    simp only [List.map_cons, List.map_nil] at hL hC
    rw [hL, hC]
    by_cases hempty : (u.isEmpty || out.isEmpty) = true
    · -- both copies refuse their empty unit or output alike
      have hstop : ∀ v, sc.copyArgs v = .error (sc.invalid "Fn::CopyValue"
          "unit and output must not be empty") → Prod.snd <$> (sc.copyValue v).run w =
            .error (sc.invalid "Fn::CopyValue" "unit and output must not be empty") :=
        fun v hv => by unfold Scope.copyValue; rw [hv]; rfl
      rw [hstop _ (by rw [Scope.copyArgs_triple, if_pos hempty]),
        hstop _ (by rw [Scope.copyArgs_pair, if_pos hempty])]
    · exact sc.copyValue_imports (by rw [Scope.copyArgs_triple, if_neg hempty])
        (by rw [Scope.copyArgs_pair, if_neg hempty]) (by simp [hacc.accountId]) w

/-- Two accounts with their own ids, the first already bound to its id in the state, and a
binding to both in one region: at the second account's target its logical id renders as the
current account. -/
theorem two_bound_accounts_alike :
    let o : Organization :=
      { accounts := [{ logicalId := "Dev", physicalId := some "111111111111" },
          { logicalId := "Prod", physicalId := some "222222222222", accountName := "prod" }] }
    let s₀ : State := { bindings := [("Dev", ⟨.account, "111111111111"⟩)] }
    let bound := s₀.bindOrganization o
    let b : Binding := { accounts := some (.list [.logicalId "Dev", .logicalId "Prod"]),
                         regions := some ["eu-west-1"] }
    let t : Target := ⟨"222222222222", "eu-west-1", "Prod"⟩
    let sc : Scope := ⟨bound.2, bound.1, "probe", t⟩
    Binding.resolve bound.2 none b = .ok [⟨"111111111111", "eu-west-1", "Dev"⟩, t] ∧
    (sc.walk (.obj [("Ref", .str "Prod")])).run {} = .ok (.str "222222222222", {}) ∧
    (∀ name, Entity.IsAttributeName name → ∃ v,
      (sc.walk (.obj [("Fn::GetAtt", .arr [.str "Prod", .str name])])).run {} = .ok (.str v, {}) ∧
      (sc.walk (.obj [("Fn::GetAtt", .arr [.str "CurrentAccount", .str name])])).run {} =
        .ok (.str v, {})) ∧
    (∀ u out,
      Prod.snd <$> (sc.walk (.obj [("Fn::CopyValue", .arr [.str u, .str out, .str "Prod"])])).run {} =
      Prod.snd <$> (sc.walk (.obj [("Fn::CopyValue", .arr [.str u, .str out])])).run {}) := by
  intro o s₀ bound b t sc
  have ho : Organization.build none o.accounts [] = .ok o := by decide
  have hres : Binding.resolve bound.2 none b = .ok [⟨"111111111111", "eu-west-1", "Dev"⟩, t] := by
    decide
  have hagree : s₀.Agrees o := by
    intro e he pid pid' h h'
    simp [Organization.entities, o] at he
    -- Dev is bound to its own id, Prod not at all
    rcases he with rfl | rfl <;> simp_all [State.physicalId?, Table.get?, s₀, List.lookup]
  exact ⟨hres, current_account_alike ho hagree rfl (by decide) hres (by simp) "probe" {}⟩
/-- Neither condition can be dropped. A state that bound an account to another physical id
keeps that binding, so a `Ref` to the account renders the state's id, not the target's; and of
two accounts sharing a physical id the target is named after the smaller logical id while the
current account is the first account with that id. -/
theorem current_account_parts :
    (let o : Organization := { accounts := [{ logicalId := "Dev", physicalId := some "111111111111" }] }
     let s : State := { bindings := [("Dev", ⟨.account, "999999999999"⟩)] }
     let bound := s.bindOrganization o
     let t : Target := ⟨"111111111111", "eu-west-1", "Dev"⟩
     let sc : Scope := ⟨bound.2, bound.1, "probe", t⟩
     Binding.resolve bound.2 none
        { accounts := some (.list [.logicalId "Dev"]), regions := some ["eu-west-1"] } = .ok [t] ∧
     (sc.walk (.obj [("Ref", .str "Dev")])).run {} = .ok (.str "999999999999", {})) ∧
    (let o : Organization :=
       { accounts := [{ logicalId := "Zed", physicalId := some "111111111111", accountName := "zed" },
          { logicalId := "Alpha", physicalId := some "111111111111", accountName := "alpha" }] }
     let t : Target := ⟨"111111111111", "eu-west-1", "Alpha"⟩
     let sc : Scope := ⟨o, (({} : State).bindOrganization o).1, "probe", t⟩
     let b : Binding :=
       { accounts := some (.list [.logicalId "Zed", .logicalId "Alpha"]), regions := some ["eu-west-1"] }
     Binding.resolve o none b = .ok [t] ∧
     (sc.walk (.obj [("Fn::GetAtt", .arr [.str "Alpha", .str "AccountName"])])).run {} =
        .ok (.str "alpha", {}) ∧
     (sc.walk (.obj [("Fn::GetAtt", .arr [.str "CurrentAccount", .str "AccountName"])])).run {} =
        .ok (.str "zed", {})) := by
  refine ⟨⟨by decide, rfl⟩, ⟨by decide, rfl, rfl⟩⟩

end OrgDeploy
