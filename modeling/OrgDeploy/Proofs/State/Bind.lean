import Mathlib
import OrgDeploy.State.Basic

/-!
# Binding an organization to the state

`State.bindOrganization` first gives every entity without a physical id the one the state binds
to its logical id (`Entity.boundBy`), then binds every entity that has a physical id, where a
binding is never replaced. So afterwards a logical id is bound to the physical id it was bound
to before, else to the first physical id an entity with that logical id brings
(`physicalId?_bindOrganization`).

An organization that `Organization.build` accepts is well formed (`Organization.WellFormed`):
its logical ids are distinct, the master and the accounts are accounts, the organizational units
are units, and every member a unit lists is an account. Binding keeps this. When the state binds
no entity to a physical id other than the entity's own (`State.Agrees`), every entity of the
bound organization that has a physical id is bound to exactly that id (`State.bound_of_agrees`).
-/

namespace OrgDeploy

namespace Table

variable {β : Type}

@[simp] theorem get?_cons (k j : String) (v : β) (rest : Table β) :
    get? ((k, v) :: rest) j = if j = k then some v else get? rest j := by
  simp only [get?, List.lookup]
  split <;> simp_all

theorem get?_insert (k j : String) (v : β) (t : Table β) :
    (insert k v t).get? j = if j = k then some v else t.get? j := by
  induction t with
  | nil => simp [insert]
  | cons p rest ih =>
    obtain ⟨k', v'⟩ := p
    unfold insert
    split_ifs <;> simp_all

theorem mem_insert {k : String} {v : β} {p : String × β} :
    ∀ {t : Table β}, p ∈ insert k v t → p = (k, v) ∨ p ∈ t
  | [], h => by simpa [insert] using h
  | (k', v') :: rest, h => by
    unfold insert at h
    split_ifs at h
    · simpa using h
    · rcases List.mem_cons.mp h with rfl | h
      · exact .inl rfl
      · exact .inr (List.mem_cons_of_mem _ h)
    · rcases List.mem_cons.mp h with rfl | h
      · exact .inr List.mem_cons_self
      · rcases mem_insert h with rfl | h
        · exact .inl rfl
        · exact .inr (List.mem_cons_of_mem _ h)

end Table

namespace Entity

variable (lookup : String → Option String) (e : Entity)

/-- An entity once bound: its own physical id, else the one `lookup` knows for its logical id. -/
def boundBy : Entity :=
  match e.physicalId with
  | some _ => e
  | none => { e with physicalId := lookup e.logicalId }

@[simp] theorem boundBy_logicalId : (e.boundBy lookup).logicalId = e.logicalId := by
  unfold boundBy; split <;> rfl

@[simp] theorem boundBy_kind : (e.boundBy lookup).kind = e.kind := by
  unfold boundBy; split <;> rfl

@[simp] theorem boundBy_members : (e.boundBy lookup).members = e.members := by
  unfold boundBy; split <;> rfl

@[simp] theorem boundBy_physicalId :
    (e.boundBy lookup).physicalId = e.physicalId.or (lookup e.logicalId) := by
  unfold boundBy; split <;> simp_all

end Entity

namespace Organization

/-- The master and the member accounts, master first. -/
def allAccounts (o : Organization) : List Entity := o.master.toList ++ o.accounts

theorem entities_eq (o : Organization) : o.entities = o.allAccounts ++ o.units := rfl

theorem findAccountByPhysicalId?_eq (o : Organization) (pid : String) :
    o.findAccountByPhysicalId? pid = o.allAccounts.find? (·.physicalId == some pid) := rfl

section Bind

variable (o : Organization) (lookup : String → Option String)

theorem bindPhysicalIds_eq :
    o.bindPhysicalIds lookup =
      ⟨o.master.map (Entity.boundBy lookup), o.accounts.map (Entity.boundBy lookup),
       o.units.map (Entity.boundBy lookup)⟩ := rfl

@[simp] theorem allAccounts_bindPhysicalIds :
    (o.bindPhysicalIds lookup).allAccounts = o.allAccounts.map (Entity.boundBy lookup) := by
  cases h : o.master <;> simp [bindPhysicalIds_eq, allAccounts, h]

@[simp] theorem units_bindPhysicalIds :
    (o.bindPhysicalIds lookup).units = o.units.map (Entity.boundBy lookup) := rfl

@[simp] theorem entities_bindPhysicalIds :
    (o.bindPhysicalIds lookup).entities = o.entities.map (Entity.boundBy lookup) := by
  simp [entities_eq]

end Bind

/-- The first id that `firstRepeat` finds after `seen` is none exactly when the ids are distinct
and none of them was seen. -/
theorem firstRepeat_eq_none :
    ∀ {xs seen : List String}, firstRepeat xs seen = none → xs.Nodup ∧ ∀ x ∈ xs, x ∉ seen
  | [], _, _ => ⟨List.nodup_nil, by simp⟩
  | x :: rest, seen, h => by
    unfold firstRepeat at h
    split at h
    · cases h
    · rename_i hx
      obtain ⟨hnd, hfresh⟩ := firstRepeat_eq_none h
      refine ⟨List.nodup_cons.mpr ⟨fun hr => hfresh x hr List.mem_cons_self, hnd⟩, ?_⟩
      intro y hy
      rcases List.mem_cons.mp hy with rfl | hy
      · simpa using hx
      · exact fun hs => hfresh y hy (List.mem_cons_of_mem _ hs)

/-- What `build` checks of an organization, with the kinds it fixes by position. -/
structure WellFormed (o : Organization) : Prop where
  /-- Logical ids are distinct over master, accounts and units. -/
  nodup : (o.entities.map (·.logicalId)).Nodup
  /-- The master and the member accounts are accounts. -/
  accounts : ∀ e ∈ o.allAccounts, e.isAccount = true
  /-- The organizational units are units. -/
  units : ∀ u ∈ o.units, u.kind = .organizationalUnit
  /-- Every member a unit lists is the logical id of the master or of an account. -/
  members : ∀ u ∈ o.units, ∀ m ∈ u.members, m ∈ o.allAccounts.map (·.logicalId)

theorem build_wellFormed {master : Option Entity} {accounts units : List Entity}
    {o : Organization} (h : build master accounts units = .ok o) : o.WellFormed := by
  unfold build at h
  dsimp only at h
  split at h
  · cases h
  · rename_i hrep
    split at h
    · cases h
    · rename_i hunknown
      cases h
      refine ⟨(firstRepeat_eq_none hrep).1, ?_, ?_, ?_⟩
      · cases master <;> simp [allAccounts, Entity.isAccount]
      · simp
      · intro u hu m hm
        have hnone := List.findSome?_eq_none_iff.mp hunknown u hu
        simp only [Option.map_eq_none_iff, List.find?_eq_none] at hnone
        have hknown := hnone m hm
        simp [allAccounts] at hknown ⊢
        -- the member is the master's id, or else it is an account's
        by_cases hmaster : ∃ a, master = some a ∧ a.logicalId = m
        · exact .inl hmaster
        · exact .inr (hknown fun x hx hxm => hmaster ⟨x, hx, hxm⟩)

namespace WellFormed

variable {o : Organization} (hw : o.WellFormed)
include hw

/-- Binding physical ids changes no logical id, kind or member. -/
theorem bindPhysicalIds (lookup : String → Option String) :
    (o.bindPhysicalIds lookup).WellFormed where
  nodup := by simpa [Function.comp_def] using hw.nodup
  accounts := by
    simpa [Entity.isAccount] using hw.accounts
  units := by simpa using hw.units
  members := by simpa [Function.comp_def] using hw.members

/-- No entity before an entity shares its logical id. -/
theorem exists_split {e : Entity} (he : e ∈ o.entities) :
    ∃ es rest, o.entities = es ++ e :: rest ∧ ∀ x ∈ es, x.logicalId ≠ e.logicalId := by
  obtain ⟨es, rest, hsplit⟩ := List.append_of_mem he
  refine ⟨es, rest, hsplit, fun x hx hxe => ?_⟩
  have hnodup := hw.nodup
  rw [hsplit, List.map_append, List.map_cons] at hnodup
  exact List.disjoint_of_nodup_append hnodup (List.mem_map_of_mem hx) (hxe ▸ List.mem_cons_self)

/-- An entity is the one its logical id names. -/
theorem get?_of_mem {e : Entity} (he : e ∈ o.entities) : o.get? e.logicalId = some e := by
  obtain ⟨es, rest, hsplit, hbefore⟩ := hw.exists_split he
  rw [get?, hsplit, List.find?_append, List.find?_eq_none.mpr (by simpa using hbefore)]
  simp

/-- The first physical id an entity of some logical id brings is that entity's. -/
theorem findSome?_physicalId {e : Entity} (he : e ∈ o.entities) {pid : String}
    (hpid : e.physicalId = some pid) :
    (o.entities.findSome? fun x => if x.logicalId = e.logicalId then x.physicalId else none) =
      some pid := by
  obtain ⟨es, rest, hsplit, hbefore⟩ := hw.exists_split he
  have hnone : (es.findSome? fun x => if x.logicalId = e.logicalId then x.physicalId else none) =
      none := List.findSome?_eq_none_iff.mpr fun x hx => by simp [hbefore x hx]
  rw [hsplit, List.findSome?_append, hnone, List.findSome?_cons]
  simp [hpid]

end WellFormed

end Organization

namespace State

theorem physicalId?_setBinding (s : State) (id : String) (k : EntityKind) (pid j : String) :
    (s.setBinding id k pid).2.physicalId? j =
      (s.physicalId? j).or (if j = id then some pid else none) := by
  unfold setBinding
  split
  · -- bound already: nothing changes, and the binding shadows `pid`
    rename_i b hb
    by_cases hj : j = id
    · subst hj; simp [physicalId?, hb]
    · simp [hj]
  · rename_i hb
    by_cases hj : j = id
    · subst hj; simp [physicalId?, hb, Table.get?_insert]
    · simp [physicalId?, hj, Table.get?_insert]

/-- A fold whose every step binds the entity's physical id unless one is bound leaves each
logical id bound as before, else to the first physical id an entity of that id brings. -/
theorem physicalId?_foldl (F : State → Entity → State)
    (hF : ∀ s e j, (F s e).physicalId? j =
      (s.physicalId? j).or (if e.logicalId = j then e.physicalId else none)) :
    ∀ (es : List Entity) (s : State) (j : String), (es.foldl F s).physicalId? j =
      (s.physicalId? j).or (es.findSome? fun e => if e.logicalId = j then e.physicalId else none)
  | [], s, j => by simp
  | e :: es, s, j => by
    rw [List.foldl_cons, physicalId?_foldl F hF es, hF, Option.or_assoc, List.findSome?_cons]
    by_cases he : e.logicalId = j
    · cases e.physicalId <;> simp [he]
    · simp [he]

/-- One step of `bindOrganization`: an entity with a physical id is bound to it, unless its
logical id is bound already. -/
theorem physicalId?_bindEntity (s : State) (e : Entity) (j : String) :
    (match e.physicalId with
      | some pid => (s.setBinding e.logicalId e.kind pid).2
      | none => s).physicalId? j = (s.physicalId? j).or (if e.logicalId = j then e.physicalId else none) := by
  split
  · rename_i pid hpid
    rw [physicalId?_setBinding, hpid]
    by_cases hj : j = e.logicalId
    · simp [hj]
    · simp [hj, Ne.symm hj]
  · rename_i hpid
    simp [hpid]

theorem physicalId?_bindOrganization (s : State) (o : Organization) (j : String) :
    (s.bindOrganization o).1.physicalId? j = (s.physicalId? j).or
      ((o.bindPhysicalIds s.physicalId?).entities.findSome? fun e =>
        if e.logicalId = j then e.physicalId else none) := by
  unfold bindOrganization
  dsimp only
  -- remembering the master's physical id touches no binding
  split <;> exact physicalId?_foldl _ physicalId?_bindEntity _ _ _

/-- The state binds no entity of the organization to a physical id other than the entity's
own. -/
def Agrees (s : State) (o : Organization) : Prop :=
  ∀ e ∈ o.entities, ∀ pid pid', e.physicalId = some pid → s.physicalId? e.logicalId = some pid' →
    pid' = pid

/-- After binding a well-formed organization that the state agrees with, every entity of the
bound organization that has a physical id is bound to it. -/
theorem bound_of_agrees {s s' : State} {o o' : Organization} (hw : o.WellFormed)
    (ha : s.Agrees o) (hbind : s.bindOrganization o = (s', o')) {e : Entity}
    (he : e ∈ o'.entities) {pid : String} (hpid : e.physicalId = some pid) :
    s'.physicalId? e.logicalId = some pid := by
  have ho' : o' = o.bindPhysicalIds s.physicalId? := (congrArg Prod.snd hbind).symm
  have hs' : s' = (s.bindOrganization o).1 := (congrArg Prod.fst hbind).symm
  subst ho' hs'
  have hfirst := (hw.bindPhysicalIds s.physicalId?).findSome?_physicalId he hpid
  rw [physicalId?_bindOrganization, hfirst]
  -- whatever the state bound `e`'s logical id to is `pid` already
  obtain ⟨e₀, he₀, rfl⟩ := List.mem_map.mp (by simpa using he)
  have hstate : ∀ p, s.physicalId? e₀.logicalId = some p → p = pid := by
    intro p hp
    cases h₀ : e₀.physicalId with
    | none => simpa [h₀, hp] using hpid
    | some q =>
      have hq : q = pid := by simpa [h₀] using hpid
      exact hq ▸ ha e₀ he₀ q p h₀ hp
  cases hL : s.physicalId? e₀.logicalId with
  | none => simp [hL]
  | some p => simp [hL, hstate p hL]

end State

end OrgDeploy
