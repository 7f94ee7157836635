import Mathlib
import OrgDeploy.Proofs.Resolve.Semantics

/-!
# The organization invariant

`Organization.build` fixes each entity's kind by its position and makes two checks, in this
order. The checks are exact:

* `build_eq_ok_iff`: the master, the accounts and the organizational units build exactly when
  their logical ids are distinct and every member a unit lists is the logical id of the master
  or of an account (`MembersKnown`). What is built is the entities as given, each with the kind
  its position gives;
* `build_error_duplicate`, `build_error_unknownMember`: otherwise the error names the first
  entity, in master, accounts, units order, whose logical id an earlier entity has
  (`FirstDuplicate`), or else the first unit that lists an unknown member, at its first unknown
  member (`FirstUnknownMember`).

What `build` returns is `Normalized`: well formed, with the kinds fixed by position. Binding
physical ids keeps it so (`Normalized.bindPhysicalIds`), and so does any sequence of bindings
(`Normalized.foldl_bindPhysicalIds`). In such an organization a logical id names exactly the
entity that has it (`WellFormed.get?_eq_some_iff`), and an organizational unit expands to the
accounts its members name, in order (`WellFormed.expand_unit`).

Headline: `build_invariant`.
-/

namespace OrgDeploy

namespace Organization

/-- Every member an organizational unit lists is one of `known`. -/
def MembersKnown (units : List Entity) (known : List String) : Prop :=
  ∀ u ∈ units, ∀ m ∈ u.members, m ∈ known

instance (units : List Entity) (known : List String) : Decidable (MembersKnown units known) :=
  inferInstanceAs (Decidable (∀ u ∈ units, ∀ m ∈ u.members, m ∈ known))

/-- `e` is the first entity whose logical id an earlier entity has: the entities before it have
distinct logical ids, and `e`'s is one of them. -/
def FirstDuplicate (es : List Entity) (e : Entity) : Prop :=
  ∃ pre post, es = pre ++ e :: post ∧ (pre.map (·.logicalId)).Nodup ∧
    e.logicalId ∈ pre.map (·.logicalId)

/-- `u` is the first organizational unit that lists a member outside `known`, and `m` its first
such member: the units before `u` list known members only, and so do `u`'s members before `m`. -/
def FirstUnknownMember (units : List Entity) (known : List String) (u : Entity) (m : String) :
    Prop :=
  ∃ pre post before after, units = pre ++ u :: post ∧ MembersKnown pre known ∧
    u.members = before ++ m :: after ∧ (∀ x ∈ before, x ∈ known) ∧ m ∉ known

/-! ## The duplicate check -/

/-- The first repeated id, searched with `seen` ids before the list: the ids before it,
together with `seen`, are distinct and hold it. -/
theorem firstRepeat_eq_some : ∀ {xs seen : List String} {id : String}, seen.Nodup →
    firstRepeat xs seen = some id →
      ∃ pre post, xs = pre ++ id :: post ∧ (pre.reverse ++ seen).Nodup ∧
        id ∈ pre.reverse ++ seen
  | [], _, _, _, h => by cases h
  | x :: rest, seen, id, hseen, h => by
    unfold firstRepeat at h
    split at h
    · rename_i hx
      cases h
      exact ⟨[], rest, rfl, hseen, by simpa using hx⟩
    · rename_i hx
      have hx' : x ∉ seen := by simpa using hx
      obtain ⟨pre, post, rfl, hnd, hmem⟩ :=
        firstRepeat_eq_some (List.nodup_cons.mpr ⟨hx', hseen⟩) h
      exact ⟨x :: pre, post, rfl, by simpa using hnd, by simpa using hmem⟩

/-- Distinct ids, none of them seen, have no repeated one. -/
theorem firstRepeat_of_nodup : ∀ {xs seen : List String}, xs.Nodup → (∀ x ∈ xs, x ∉ seen) →
    firstRepeat xs seen = none
  | [], _, _, _ => rfl
  | x :: rest, seen, hnd, hfresh => by
    unfold firstRepeat
    rw [if_neg (by simpa using hfresh x List.mem_cons_self)]
    refine firstRepeat_of_nodup (List.nodup_cons.mp hnd).2 fun y hy hs => ?_
    rcases List.mem_cons.mp hs with rfl | hs
    · exact (List.nodup_cons.mp hnd).1 hy
    · exact hfresh y (List.mem_cons_of_mem _ hy) hs

/-- The first repeated logical id is that of the first entity whose logical id an earlier
entity has. -/
theorem firstDuplicate_of_firstRepeat {es : List Entity} {id : String}
    (h : firstRepeat (es.map (·.logicalId)) [] = some id) :
    ∃ e, e.logicalId = id ∧ FirstDuplicate es e := by
  obtain ⟨pre, post, hsplit, hnd, hmem⟩ := firstRepeat_eq_some List.nodup_nil h
  obtain ⟨l₁, l₂, rfl, rfl, hl₂⟩ := List.map_eq_append_iff.mp hsplit
  obtain ⟨e, l₃, rfl, rfl, -⟩ := List.map_eq_cons_iff.mp hl₂
  exact ⟨e, rfl, l₁, l₃, rfl, by simpa using hnd, by simpa using hmem⟩

/-! ## The member check -/

/-- The first organizational unit that lists a member outside `known`, with that member. -/
def unknownMember? (known : List String) (units : List Entity) : Option (String × String) :=
  units.findSome? fun u =>
    (u.members.find? fun a => !known.contains a).map fun a => (u.logicalId, a)

theorem unknownMember?_eq_none_iff {known : List String} {units : List Entity} :
    unknownMember? known units = none ↔ MembersKnown units known := by
  simp [unknownMember?, MembersKnown, List.findSome?_eq_none_iff, List.find?_eq_none]

/-- The member search finds the first unit that lists an unknown member, at its first unknown
member. -/
theorem unknownMember?_eq_some {known : List String} {units : List Entity} {n m : String}
    (h : unknownMember? known units = some (n, m)) :
    ∃ u, u.logicalId = n ∧ FirstUnknownMember units known u m := by
  obtain ⟨pre, u, post, rfl, hu, hpre⟩ := List.findSome?_eq_some_iff.mp h
  obtain ⟨a, ha, hau⟩ := Option.map_eq_some_iff.mp hu
  obtain ⟨rfl, rfl⟩ := Prod.mk.inj hau
  obtain ⟨hm, before, after, hsplit, hbefore⟩ := List.find?_eq_some_iff_append.mp ha
  -- a unit before `u` found no unknown member, so all of its members are known
  have hknown : MembersKnown pre known := by
    intro v hv
    simpa [List.find?_eq_none] using hpre v hv
  exact ⟨u, rfl, pre, post, before, after, rfl, hknown, hsplit, by simpa using hbefore,
    by simpa using hm⟩

/-! ## What `build` returns -/

section Build

variable {master : Option Entity} {accounts units : List Entity}

/-- A repeated logical id is refused. Fixing kinds changes no logical id or member, so the
checks of `build` read them as given. -/
theorem build_of_firstRepeat {id : String}
    (h : firstRepeat ((master.toList ++ accounts ++ units).map (·.logicalId)) [] = some id) :
    build master accounts units = .error (.duplicateLogicalId id) := by
  unfold build
  simp only [List.map_append, Option.toList_map, List.map_map, Function.comp_def] at h ⊢
  rw [h]

theorem build_of_unknownMember? {n m : String}
    (hrep : firstRepeat ((master.toList ++ accounts ++ units).map (·.logicalId)) [] = none)
    (h : unknownMember? ((master.toList ++ accounts).map (·.logicalId)) units = some (n, m)) :
    build master accounts units = .error (.unknownMember n m) := by
  unfold build
  simp only [unknownMember?, List.map_append, Option.toList_map, List.map_map,
    Function.comp_def, List.findSome?_map] at hrep h ⊢
  rw [hrep]
  dsimp only
  rw [h]

theorem build_of_checks
    (hrep : firstRepeat ((master.toList ++ accounts ++ units).map (·.logicalId)) [] = none)
    (h : unknownMember? ((master.toList ++ accounts).map (·.logicalId)) units = none) :
    build master accounts units = .ok ⟨master.map fun m => { m with kind := .masterAccount },
      accounts.map fun a => { a with kind := .account },
      units.map fun u => { u with kind := .organizationalUnit }⟩ := by
  unfold build
  simp only [unknownMember?, List.map_append, Option.toList_map, List.map_map,
    Function.comp_def, List.findSome?_map] at hrep h ⊢
  rw [hrep]
  dsimp only
  rw [h]

/-- `build` succeeds exactly when the logical ids are distinct and every member is known, and
then returns the entities as given, each with the kind its position gives. -/
theorem build_eq_ok_iff {o : Organization} :
    build master accounts units = .ok o ↔
      (((master.toList ++ accounts ++ units).map (·.logicalId)).Nodup ∧
        MembersKnown units ((master.toList ++ accounts).map (·.logicalId))) ∧
      o = ⟨master.map fun m => { m with kind := .masterAccount },
        accounts.map fun a => { a with kind := .account },
        units.map fun u => { u with kind := .organizationalUnit }⟩ := by
  constructor
  · intro h
    cases hrep : firstRepeat ((master.toList ++ accounts ++ units).map (·.logicalId)) [] with
    | some id => rw [build_of_firstRepeat hrep] at h; cases h
    | none =>
      cases hu : unknownMember? ((master.toList ++ accounts).map (·.logicalId)) units with
      | some p =>
        rw [build_of_unknownMember? hrep hu] at h
        cases h
      | none =>
        rw [build_of_checks hrep hu] at h
        exact ⟨⟨(firstRepeat_eq_none hrep).1, unknownMember?_eq_none_iff.mp hu⟩,
          (Except.ok.inj h).symm⟩
  · rintro ⟨⟨hnd, hknown⟩, rfl⟩
    exact build_of_checks (firstRepeat_of_nodup hnd fun _ _ h => List.not_mem_nil h)
      (unknownMember?_eq_none_iff.mpr hknown)

/-- Repeated logical ids are refused for the first entity whose logical id an earlier one
has. -/
theorem build_error_duplicate
    (h : ¬ ((master.toList ++ accounts ++ units).map (·.logicalId)).Nodup) :
    ∃ e, build master accounts units = .error (.duplicateLogicalId e.logicalId) ∧
      FirstDuplicate (master.toList ++ accounts ++ units) e := by
  cases hrep : firstRepeat ((master.toList ++ accounts ++ units).map (·.logicalId)) [] with
  | none => exact absurd (firstRepeat_eq_none hrep).1 h
  | some id =>
    obtain ⟨e, rfl, hfirst⟩ := firstDuplicate_of_firstRepeat hrep
    exact ⟨e, build_of_firstRepeat hrep, hfirst⟩

example : build none [{ logicalId := "Dev" }, { logicalId := "Dev" }] [] =
    .error (.duplicateLogicalId "Dev") := by decide

/-- Distinct logical ids with an unknown member are refused for the first unit that lists one,
at its first unknown member. -/
theorem build_error_unknownMember
    (hnd : ((master.toList ++ accounts ++ units).map (·.logicalId)).Nodup)
    (h : ¬ MembersKnown units ((master.toList ++ accounts).map (·.logicalId))) :
    ∃ u m, build master accounts units = .error (.unknownMember u.logicalId m) ∧
      FirstUnknownMember units ((master.toList ++ accounts).map (·.logicalId)) u m := by
  have hrep := firstRepeat_of_nodup hnd fun _ _ h => List.not_mem_nil h
  cases hu : unknownMember? ((master.toList ++ accounts).map (·.logicalId)) units with
  | none => exact absurd (unknownMember?_eq_none_iff.mp hu) h
  | some p =>
    obtain ⟨n, m⟩ := p
    obtain ⟨u, rfl, hfirst⟩ := unknownMember?_eq_some hu
    exact ⟨u, m, build_of_unknownMember? hrep hu, hfirst⟩

example : build none [] [{ logicalId := "Workloads", members := ["Ghost"] }] =
    .error (.unknownMember "Workloads" "Ghost") := by decide

end Build

/-! ## The invariant and binding -/

/-- What `build` establishes: a well-formed organization whose master is the master account and
whose member accounts are plain accounts. -/
structure Normalized (o : Organization) : Prop extends WellFormed o where
  /-- The master is the master account. -/
  master_kind : ∀ m ∈ o.master, m.kind = .masterAccount
  /-- The member accounts are plain accounts. -/
  accounts_kind : ∀ a ∈ o.accounts, a.kind = .account

theorem build_normalized {master : Option Entity} {accounts units : List Entity}
    {o : Organization} (h : build master accounts units = .ok o) : o.Normalized := by
  obtain ⟨-, rfl⟩ := build_eq_ok_iff.mp h
  exact ⟨build_wellFormed h, by simp, by simp⟩

namespace Normalized

variable {o : Organization}

/-- Binding physical ids changes no logical id, kind or member. -/
theorem bindPhysicalIds (hn : o.Normalized) (lookup : String → Option String) :
    (o.bindPhysicalIds lookup).Normalized where
  toWellFormed := hn.toWellFormed.bindPhysicalIds lookup
  master_kind := by simpa [bindPhysicalIds_eq] using hn.master_kind
  accounts_kind := by simpa [bindPhysicalIds_eq] using hn.accounts_kind

/-- Any sequence of bindings keeps the invariant. -/
theorem foldl_bindPhysicalIds :
    ∀ (lookups : List (String → Option String)) {o : Organization}, o.Normalized →
      (lookups.foldl Organization.bindPhysicalIds o).Normalized
  | [], _, hn => hn
  | lookup :: lookups, _, hn => foldl_bindPhysicalIds lookups (hn.bindPhysicalIds lookup)

end Normalized

namespace WellFormed

variable {o : Organization} (hw : o.WellFormed)
include hw

/-- A logical id names exactly the entity that has it. -/
theorem get?_eq_some_iff {l : String} {e : Entity} :
    o.get? l = some e ↔ e ∈ o.entities ∧ e.logicalId = l :=
  ⟨get?_eq_some, fun ⟨he, hl⟩ => hl ▸ hw.get?_of_mem he⟩

/-- An organizational unit expands to the accounts its members name, in order. -/
theorem expand_unit {u : Entity} (hu : u ∈ o.units) :
    ∃ es, Binding.expand o u = .ok es ∧ es.map (·.logicalId) = u.members ∧
      ∀ e ∈ es, e ∈ o.allAccounts := by
  have hnamed : ∀ m ∈ u.members, (o.get? m).isSome := by
    intro m hm
    obtain ⟨a, ha, rfl⟩ := List.mem_map.mp (hw.members u hu m hm)
    rw [hw.get?_of_mem (List.mem_append_left _ ha)]
    rfl
  obtain ⟨es, hes, -⟩ := Binding.mapM_lookupEntity hnamed
  have hexp : Binding.expand o u = .ok es := by
    unfold Binding.expand
    rw [hw.units u hu]
    exact hes
  -- each member names an entity with that logical id
  have hids : List.Forall₂ (fun m e => m = e.logicalId) u.members es :=
    (mapM_ok_forall₂ hes).imp fun _ _ hme =>
      (get?_eq_some (Binding.lookupEntity_mem hme)).2.symm
  refine ⟨es, hexp, Eq.symm ?_, Binding.expand_accounts hw (List.mem_append_right _ hu) hexp⟩
  rw [← List.forall₂_eq_eq_eq]
  exact List.forall₂_map_right_iff.mpr hids

end WellFormed

/-- The organization invariant. `build` succeeds exactly when the logical ids of the master, the
accounts and the organizational units are distinct and every member a unit lists is the logical
id of the master or of an account; otherwise it reports the first entity whose logical id an
earlier one has, or else the first unit that lists an unknown member, at that member. What it
builds is the entities as given, with the kinds master account, account and organizational unit
by position, and after any sequence of bindings of physical ids it is still so, a logical id
names exactly the entity that has it, and every organizational unit expands to the accounts its
members name. -/
theorem build_invariant (master : Option Entity) (accounts units : List Entity) :
    ((∃ o, build master accounts units = .ok o) ↔
      ((master.toList ++ accounts ++ units).map (·.logicalId)).Nodup ∧
        MembersKnown units ((master.toList ++ accounts).map (·.logicalId))) ∧
    (¬ ((master.toList ++ accounts ++ units).map (·.logicalId)).Nodup → ∃ e,
      build master accounts units = .error (.duplicateLogicalId e.logicalId) ∧
        FirstDuplicate (master.toList ++ accounts ++ units) e) ∧
    (((master.toList ++ accounts ++ units).map (·.logicalId)).Nodup →
      ¬ MembersKnown units ((master.toList ++ accounts).map (·.logicalId)) → ∃ u m,
        build master accounts units = .error (.unknownMember u.logicalId m) ∧
          FirstUnknownMember units ((master.toList ++ accounts).map (·.logicalId)) u m) ∧
    ∀ o, build master accounts units = .ok o →
      o.master = master.map (fun m => { m with kind := .masterAccount }) ∧
      o.accounts = accounts.map (fun a => { a with kind := .account }) ∧
      o.units = units.map (fun u => { u with kind := .organizationalUnit }) ∧
      ∀ lookups : List (String → Option String),
        let bound := lookups.foldl bindPhysicalIds o
        bound.Normalized ∧
        (∀ l e, bound.get? l = some e ↔ e ∈ bound.entities ∧ e.logicalId = l) ∧
        ∀ u ∈ bound.units, ∃ es, Binding.expand bound u = .ok es ∧
          es.map (·.logicalId) = u.members ∧ ∀ e ∈ es, e ∈ bound.allAccounts := by
  refine ⟨⟨fun ⟨_, h⟩ => (build_eq_ok_iff.mp h).1, fun hc => ⟨_, build_eq_ok_iff.mpr ⟨hc, rfl⟩⟩⟩,
    build_error_duplicate, build_error_unknownMember, fun o h => ?_⟩
  obtain ⟨-, rfl⟩ := build_eq_ok_iff.mp h
  refine ⟨rfl, rfl, rfl, fun lookups => ?_⟩
  have hn := (build_normalized h).foldl_bindPhysicalIds lookups
  exact ⟨hn, fun _ _ => hn.get?_eq_some_iff, fun _ hu => hn.expand_unit hu⟩

/-- The organization of the tests builds, and once `Prod` is bound the unit `Workloads` still
stands for `Dev` and `Prod`. -/
theorem workloads_expand_after_binding :
    let master : Entity := { logicalId := "Master", physicalId := some "1000" }
    let accounts : List Entity :=
      [{ logicalId := "Dev", physicalId := some "2000" }, { logicalId := "Prod" }]
    let workloads : Entity := { logicalId := "Workloads", members := ["Dev", "Prod"] }
    let o : Organization := ⟨some { master with kind := .masterAccount }, accounts,
      [{ workloads with kind := .organizationalUnit }]⟩
    let bound := [fun l => if l = "Prod" then some "3000" else none].foldl bindPhysicalIds o
    build (some master) accounts [workloads] = .ok o ∧
      { workloads with kind := .organizationalUnit } ∈ bound.units ∧
      ∃ es, Binding.expand bound { workloads with kind := .organizationalUnit } = .ok es ∧
        es.map (·.logicalId) = ["Dev", "Prod"] := by
  intro master accounts workloads o bound
  have hb : build (some master) accounts [workloads] = .ok o := by decide
  have hu : { workloads with kind := .organizationalUnit } ∈ bound.units := by decide
  obtain ⟨-, -, -, hrun⟩ := (build_invariant (some master) accounts [workloads]).2.2.2 o hb
  obtain ⟨es, hes, hids, -⟩ :=
    (hrun [fun l => if l = "Prod" then some "3000" else none]).2.2 _ hu
  exact ⟨hb, hu, es, hes, hids⟩

end Organization

end OrgDeploy
