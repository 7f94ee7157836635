import Mathlib
import OrgDeploy.Proofs.State.Commute

/-!
# Identity exchange

`State.bindOrganization` exchanges identities between the state and an organization in three
steps. Every entity without a physical id takes the one the state binds its logical id to
(`Organization.bindPhysicalIds`). Then every entity with a physical id is bound (`bindEntity`),
where `setBinding` keeps a binding that is there already and refuses another physical id for it.
Last, the master's physical id is remembered (`rememberMaster`).

For an organization whose logical ids are distinct, as `Organization.build` makes them, the
exchange is append-only and idempotent (`bindOrganization_exchange`, spelled out by
`IdentityExchange`):

* a logical id the state bound keeps its binding; one it did not bind is bound to the kind and
  physical id of the entity of that logical id in the bound organization, when that entity has a
  physical id, and stays unbound otherwise;
* an entity with a physical id keeps it, and one without takes the state's binding, if any;
* the remembered master id becomes the master's physical id when it has one;
* nothing else of the state changes, and a second exchange changes neither side.

Distinct logical ids matter twice: the binding a logical id gets is that of the one entity with
that id, and an entity left without a physical id has no namesake whose binding it could take
in a second exchange.
-/

namespace OrgDeploy

/-- The binding an entity brings: its kind and physical id, when it has a physical id. -/
def Entity.binding? (e : Entity) : Option IdentityBinding := e.physicalId.map (⟨e.kind, ·⟩)

/-- An entity after the first step of an exchange with state `s`: its own physical id, else the
one `s` binds its logical id to; nothing else changes. -/
def Entity.filledFrom (e : Entity) (s : State) : Entity :=
  { e with physicalId := e.physicalId.or (s.physicalId? e.logicalId) }

namespace Entity

variable (lookup : String → Option String) (e : Entity)

theorem boundBy_eq_filledFrom (s : State) : e.boundBy s.physicalId? = e.filledFrom s := by
  cases e
  unfold boundBy filledFrom
  split <;> simp_all

/-- Binding leaves an entity as it is when it has a physical id, or when `lookup` has none for
it. -/
theorem boundBy_eq_self (h : e.physicalId = none → lookup e.logicalId = none) :
    e.boundBy lookup = e := by
  unfold boundBy
  split
  · rfl
  · rename_i hnone
    rw [h hnone, ← hnone]

end Entity

namespace Organization

section Distinct

variable {es : List Entity} (hnd : (es.map (·.logicalId)).Nodup)
include hnd

/-- Among entities with distinct logical ids, a member is the one its logical id finds. -/
theorem find?_logicalId_of_mem {e : Entity} (he : e ∈ es) :
    es.find? (·.logicalId == e.logicalId) = some e := by
  induction es with
  | nil => cases he
  | cons x rest ih =>
    obtain ⟨hx, hrest⟩ := List.nodup_cons.mp hnd
    rcases List.mem_cons.mp he with rfl | he
    · simp
    · -- `x` has another logical id than every entity after it
      have hne : x.logicalId ≠ e.logicalId := fun h => hx (List.mem_map.mpr ⟨e, he, h.symm⟩)
      simp [hne, ih hrest he]

/-- Among entities with distinct logical ids, the first one of a logical id that brings what `f`
asks is the one of that logical id, if it brings it. -/
theorem findSome?_logicalId_eq {α : Type} (f : Entity → Option α) (j : String) :
    es.findSome? (fun e => if e.logicalId = j then f e else none) =
      (es.find? (·.logicalId == j)).bind f := by
  induction es with
  | nil => rfl
  | cons x rest ih =>
    obtain ⟨hx, hrest⟩ := List.nodup_cons.mp hnd
    by_cases hj : x.logicalId = j
    · -- no entity after `x` has its logical id, so none after it brings anything
      have hnone : rest.findSome? (fun e => if e.logicalId = j then f e else none) = none :=
        List.findSome?_eq_none_iff.mpr fun y hy => by
          have hy' : y.logicalId ≠ j := fun h => hx (List.mem_map.mpr ⟨y, hy, h.trans hj.symm⟩)
          simp [hy']
      rw [List.findSome?_cons]
      cases hf : f x <;> simp [hj, hf, hnone]
    · simp [hj, ih hrest]

end Distinct

/-- Binding physical ids leaves an organization as it is when `lookup` knows none of its entities
without a physical id. -/
theorem bindPhysicalIds_eq_self (o : Organization) (lookup : String → Option String)
    (h : ∀ e ∈ o.entities, e.physicalId = none → lookup e.logicalId = none) :
    o.bindPhysicalIds lookup = o := by
  obtain ⟨master, accounts, units⟩ := o
  have hfix : ∀ e ∈ master.toList ++ accounts ++ units, e.boundBy lookup = e :=
    fun e he => Entity.boundBy_eq_self lookup e (h e he)
  rw [bindPhysicalIds_eq, Organization.mk.injEq]
  refine ⟨?_, ?_, ?_⟩
  · cases master with
    | none => rfl
    | some m => simp [hfix m (by simp)]
  · rw [List.map_congr_left fun a ha => hfix a (by simp [ha]), List.map_id']
  · rw [List.map_congr_left fun a ha => hfix a (by simp [ha]), List.map_id']

/-- Two lookups that agree on the entities without a physical id bind the same physical ids. -/
theorem bindPhysicalIds_congr (o : Organization) {lookup lookup' : String → Option String}
    (h : ∀ e ∈ o.entities, e.physicalId = none → lookup e.logicalId = lookup' e.logicalId) :
    o.bindPhysicalIds lookup = o.bindPhysicalIds lookup' := by
  obtain ⟨master, accounts, units⟩ := o
  have hfix : ∀ e ∈ master.toList ++ accounts ++ units, e.boundBy lookup = e.boundBy lookup' := by
    intro e he
    unfold Entity.boundBy
    split
    · rfl
    · rename_i hnone
      rw [h e he hnone]
  rw [bindPhysicalIds_eq, bindPhysicalIds_eq, Organization.mk.injEq]
  refine ⟨?_, ?_, ?_⟩
  · cases master with
    | none => rfl
    | some m => simp [hfix m (by simp)]
  · exact List.map_congr_left fun a ha => hfix a (by simp [ha])
  · exact List.map_congr_left fun a ha => hfix a (by simp [ha])

end Organization

namespace State

/-- The second step of an exchange, for one entity: one with a physical id is bound to it. -/
def bindEntity (s : State) (e : Entity) : State :=
  match e.physicalId with
  | some pid => (s.setBinding e.logicalId e.kind pid).2
  | none => s

/-- The last step of an exchange: the master's physical id is remembered when it has one. -/
def rememberMaster (s : State) (o : Organization) : State :=
  match o.master.bind (·.physicalId) with
  | some pid => { s with masterAccountId := some pid }
  | none => s

theorem bindOrganization_eq (s : State) (o : Organization) :
    s.bindOrganization o =
      (rememberMaster ((o.bindPhysicalIds s.physicalId?).entities.foldl bindEntity s)
        (o.bindPhysicalIds s.physicalId?), o.bindPhysicalIds s.physicalId?) := rfl

/-! ## The bindings -/

theorem get?_bindings_setBinding (s : State) (id : String) (k : EntityKind) (pid j : String) :
    (s.setBinding id k pid).2.bindings.get? j =
      (s.bindings.get? j).or (if j = id then some ⟨k, pid⟩ else none) := by
  unfold setBinding
  split
  · -- bound already: nothing changes, and the binding shadows the new one
    rename_i b hb
    by_cases hj : j = id
    · subst hj; simp [hb]
    · simp [hj]
  · rename_i hb
    by_cases hj : j = id
    · subst hj; simp [hb, Table.get?_insert]
    · simp [hj, Table.get?_insert]

theorem get?_bindings_bindEntity (s : State) (e : Entity) (j : String) :
    (s.bindEntity e).bindings.get? j =
      (s.bindings.get? j).or (if e.logicalId = j then e.binding? else none) := by
  unfold bindEntity Entity.binding?
  split
  · rename_i pid hpid
    rw [get?_bindings_setBinding, hpid]
    by_cases hj : j = e.logicalId
    · simp [hj]
    · simp [hj, Ne.symm hj]
  · rename_i hpid
    simp [hpid]

/-- Binding entities one by one leaves each logical id bound as before, else to the binding the
first entity of that logical id with a physical id brings. -/
theorem get?_bindings_foldl_bindEntity :
    ∀ (es : List Entity) (s : State) (j : String), (es.foldl bindEntity s).bindings.get? j =
      (s.bindings.get? j).or (es.findSome? fun e => if e.logicalId = j then e.binding? else none)
  | [], s, j => by simp
  | e :: es, s, j => by
    rw [List.foldl_cons, get?_bindings_foldl_bindEntity es, get?_bindings_bindEntity,
      Option.or_assoc, List.findSome?_cons]
    by_cases he : e.logicalId = j
    · cases e.binding? <;> simp [he]
    · simp [he]

theorem bindings_rememberMaster (s : State) (o : Organization) :
    (rememberMaster s o).bindings = s.bindings := by
  unfold rememberMaster
  split <;> rfl

theorem masterAccountId_rememberMaster (s : State) (o : Organization) :
    (rememberMaster s o).masterAccountId = (o.master.bind (·.physicalId)).or s.masterAccountId := by
  unfold rememberMaster
  cases h : o.master.bind (·.physicalId) <;> rfl

/-- Binding entities keeps the keys of the bindings sorted. -/
theorem sorted_bindings_foldl_bindEntity :
    ∀ (es : List Entity) {s : State}, s.bindings.Sorted → (es.foldl bindEntity s).bindings.Sorted
  | [], _, hs => hs
  | e :: es, s, hs => by
    refine sorted_bindings_foldl_bindEntity es ?_
    unfold bindEntity setBinding
    split
    · split
      · exact hs
      · exact hs.insert _ _
    · exact hs

/-! ## The rest of the state -/

/-- Binding entities changes the bindings alone. -/
theorem foldl_bindEntity_frame :
    ∀ (es : List Entity) (s : State), ∃ B, es.foldl bindEntity s = { s with bindings := B }
  | [], s => ⟨s.bindings, rfl⟩
  | e :: es, s => by
    have hstep : ∃ B, s.bindEntity e = { s with bindings := B } := by
      unfold bindEntity setBinding
      split
      · split
        · exact ⟨s.bindings, rfl⟩
        · exact ⟨_, rfl⟩
      · exact ⟨s.bindings, rfl⟩
    obtain ⟨B, hB⟩ := hstep
    obtain ⟨B', hB'⟩ := foldl_bindEntity_frame es (s.bindEntity e)
    exact ⟨B', by rw [List.foldl_cons, hB', hB]⟩

/-! ## A second exchange -/

/-- Binding entities whose logical ids are all bound changes nothing. -/
theorem foldl_bindEntity_of_bound :
    ∀ (es : List Entity) (s : State),
      (∀ e ∈ es, e.physicalId.isSome → (s.bindings.get? e.logicalId).isSome) →
      es.foldl bindEntity s = s
  | [], _, _ => rfl
  | e :: es, s, h => by
    have hstep : s.bindEntity e = s := by
      unfold bindEntity setBinding
      split
      · rename_i pid hpid
        obtain ⟨b, hb⟩ := Option.isSome_iff_exists.mp (h e List.mem_cons_self (by simp [hpid]))
        simp [hb]
      · rfl
    rw [List.foldl_cons, hstep]
    exact foldl_bindEntity_of_bound es s fun x hx => h x (List.mem_cons_of_mem e hx)

theorem rememberMaster_idem (s : State) (o : Organization) :
    rememberMaster (rememberMaster s o) o = rememberMaster s o := by
  unfold rememberMaster
  split <;> simp_all

end State

/-! ## The exchange -/

/-- What exchanging identities between state `s` and organization `o` leaves: state `s'` and
organization `o'`. -/
structure IdentityExchange (s : State) (o : Organization) (s' : State) (o' : Organization) :
    Prop where
  /-- Every binding of the state stays as it was. -/
  kept : ∀ j b, s.bindings.get? j = some b → s'.bindings.get? j = some b
  /-- A logical id the state did not bind is bound to what the entity of that logical id in `o'`
  brings, its kind and physical id, and is left unbound when there is none. -/
  bindings : ∀ j, s'.bindings.get? j = (s.bindings.get? j).or ((o'.get? j).bind Entity.binding?)
  /-- Each logical id has one binding: the keys stay sorted. -/
  sorted : s.bindings.Sorted → s'.bindings.Sorted
  /-- An entity with a physical id keeps it, one without takes the state's binding, if any. -/
  organization :
    o' = ⟨o.master.map (·.filledFrom s), o.accounts.map (·.filledFrom s),
      o.units.map (·.filledFrom s)⟩
  /-- The master's physical id is remembered when it has one. -/
  master : s'.masterAccountId = (o'.master.bind (·.physicalId)).or s.masterAccountId
  /-- Nothing else of the state changes. -/
  frame : { s' with bindings := s.bindings, masterAccountId := s.masterAccountId } = s
  /-- A second exchange changes neither side. -/
  idempotent : s'.bindOrganization o' = (s', o')

namespace State

/-- Exchanging identities with an organization whose logical ids are distinct is append-only and
idempotent. -/
theorem bindOrganization_exchange (s : State) (o : Organization)
    (hnd : (o.entities.map (·.logicalId)).Nodup) :
    IdentityExchange s o (s.bindOrganization o).1 (s.bindOrganization o).2 := by
  set o' := o.bindPhysicalIds s.physicalId? with ho'
  set s₁ := o'.entities.foldl bindEntity s with hs₁
  have hbind : s.bindOrganization o = (rememberMaster s₁ o', o') := rfl
  have hnd' : (o'.entities.map (·.logicalId)).Nodup := by
    simpa [o', Function.comp_def] using hnd
  have hB : ∀ j, (rememberMaster s₁ o').bindings.get? j =
      (s.bindings.get? j).or ((o'.get? j).bind Entity.binding?) := by
    intro j
    rw [bindings_rememberMaster, get?_bindings_foldl_bindEntity,
      Organization.findSome?_logicalId_eq hnd']
    rfl
  -- the entity of a logical id in `o'` is the one of `o'` with it
  have hget : ∀ e ∈ o'.entities, o'.get? e.logicalId = some e :=
    fun e he => Organization.find?_logicalId_of_mem hnd' he
  obtain ⟨B, hB₁⟩ := foldl_bindEntity_frame o'.entities s
  rw [← hs₁] at hB₁
  rw [hbind]
  refine ⟨fun j b h => by rw [hB, h]; rfl, hB, fun hs => ?_, ?_, ?_, ?_, ?_⟩
  · rw [bindings_rememberMaster]
    exact sorted_bindings_foldl_bindEntity _ hs
  · have hfill : Entity.boundBy s.physicalId? = (·.filledFrom s) :=
      funext fun e => e.boundBy_eq_filledFrom s
    rw [ho', Organization.bindPhysicalIds_eq, hfill]
  · rw [masterAccountId_rememberMaster, hB₁]
  · unfold rememberMaster
    split <;> rw [hB₁]
  · -- an entity of `o'` without a physical id had none in `o` and no binding in `s`, and it is
    -- the only entity of its logical id, so the second exchange finds no binding for it either
    have hfilled : o'.bindPhysicalIds (rememberMaster s₁ o').physicalId? = o' := by
      refine Organization.bindPhysicalIds_eq_self _ _ fun e he hnone => ?_
      obtain ⟨e₀, he₀, rfl⟩ := List.mem_map.mp (by simpa [o'] using he)
      simp only [Entity.boundBy_physicalId, Option.or_eq_none_iff] at hnone
      have hs : s.bindings.get? e₀.logicalId = none := by simpa [physicalId?] using hnone.2
      have he' := hget _ he
      rw [Entity.boundBy_logicalId] at he'
      simp [physicalId?, hB, hs, he', Entity.binding?, hnone.1]
    -- every entity of `o'` with a physical id is bound after the first exchange
    have hbound : ∀ e ∈ o'.entities, e.physicalId.isSome →
        ((rememberMaster s₁ o').bindings.get? e.logicalId).isSome := by
      intro e he hsome
      obtain ⟨pid, hpid⟩ := Option.isSome_iff_exists.mp hsome
      cases h : s.bindings.get? e.logicalId <;> simp [hB, h, hget _ he, Entity.binding?, hpid]
    rw [bindOrganization_eq, hfilled, foldl_bindEntity_of_bound _ _ hbound, rememberMaster_idem]

/-- Exchanging identities again with an organization of distinct logical ids, from any state that
has the bindings a first exchange left, gives the organization of the first exchange and binds
nothing new: what the engine meets when it loads a state it committed. -/
theorem bindOrganization_again {s₀ s s' : State} {O o : Organization}
    (hnd : (O.entities.map (·.logicalId)).Nodup) (hb : s₀.bindOrganization O = (s, o))
    (hs : s'.bindings = s.bindings) :
    (s'.bindOrganization O).2 = o ∧ (s'.bindOrganization O).1.bindings = s.bindings := by
  have ho : o = O.bindPhysicalIds s₀.physicalId? := (congrArg Prod.snd hb).symm
  have hs₁ : s = rememberMaster (o.entities.foldl bindEntity s₀) o := by
    have h₁ := congrArg Prod.fst hb
    rw [bindOrganization_eq, ← ho] at h₁
    exact h₁.symm
  have hnd' : (o.entities.map (·.logicalId)).Nodup := by
    simpa [ho, Function.comp_def] using hnd
  -- the first exchange adds to `s₀` what the entities of `o` bring
  have hB : ∀ j, s.bindings.get? j = (s₀.bindings.get? j).or ((o.get? j).bind Entity.binding?) := by
    intro j
    rw [hs₁, bindings_rememberMaster, get?_bindings_foldl_bindEntity,
      Organization.findSome?_logicalId_eq hnd']
    rfl
  have hget : ∀ e ∈ o.entities, o.get? e.logicalId = some e :=
    fun e he => Organization.find?_logicalId_of_mem hnd' he
  -- an entity of `O` without a physical id takes none from the first exchange's own bindings
  have ho' : O.bindPhysicalIds s'.physicalId? = o := by
    rw [ho]
    refine Organization.bindPhysicalIds_congr O fun e he hnone => ?_
    have he' : e.boundBy s₀.physicalId? ∈ o.entities := by
      rw [ho, Organization.entities_bindPhysicalIds]
      exact List.mem_map_of_mem he
    have hfound := hget _ he'
    rw [Entity.boundBy_logicalId] at hfound
    cases h₀ : s₀.bindings.get? e.logicalId <;>
      simp [physicalId?, hs, hB, hfound, h₀, Entity.binding?, hnone]
  -- every entity of `o` with a physical id is bound already
  have hbound : ∀ e ∈ o.entities, e.physicalId.isSome → (s'.bindings.get? e.logicalId).isSome := by
    intro e he hsome
    obtain ⟨pid, hpid⟩ := Option.isSome_iff_exists.mp hsome
    cases h₀ : s₀.bindings.get? e.logicalId <;> simp [hs, hB, hget e he, h₀, Entity.binding?, hpid]
  rw [bindOrganization_eq, ho', foldl_bindEntity_of_bound _ _ hbound, bindings_rememberMaster, hs]
  exact ⟨rfl, rfl⟩

end State

/-- The exchange of the original's own test: a master and an account with physical ids, and an
account without one that the state binds already. -/
theorem prod_bound_exchange :
    let o : Organization :=
      { master := some { logicalId := "Master", physicalId := some "1000", kind := .masterAccount },
        accounts := [{ logicalId := "Dev", physicalId := some "2000" }, { logicalId := "Prod" }] }
    let s : State := { bindings := [("Prod", ⟨.account, "3000"⟩)] }
    (o.entities.map (·.logicalId)).Nodup ∧
      IdentityExchange s o (s.bindOrganization o).1 (s.bindOrganization o).2 := by
  intro o s
  exact ⟨by decide, State.bindOrganization_exchange s o (by decide)⟩

end OrgDeploy
