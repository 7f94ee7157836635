import Mathlib
import OrgDeploy.Engine.Basic
import OrgDeploy.Proofs.State.Bind

/-!
# Recording successes in any order

The state keeps its tables sorted by key: `insert` puts a key in its place and `erase` only
removes entries (`Table.Sorted`). A sorted table is determined by what it gives for each key
(`Table.Sorted.ext`), so on sorted tables inserts and erasures at different keys commute.

Recording the success of a task (`recordSuccess`) changes the records of the task's unit at the
task's target key, and the unit's definition: a create-or-update sets both, a delete removes the
record and, with the unit's last record, its definition. On a sorted state the successes of two
tasks commute when they record under different keys and every create-or-update names a unit of
the template (`recordSuccess_comm`).
-/

namespace OrgDeploy

namespace Table

variable {β : Type}

/-- The keys of a table increase strictly, as `insert` keeps them. -/
def Sorted (t : Table β) : Prop := (t.map Prod.fst).Pairwise (· < ·)

@[simp] theorem sorted_nil : Sorted ([] : Table β) := List.Pairwise.nil

theorem sorted_cons {k : String} {v : β} {t : Table β} :
    Sorted ((k, v) :: t) ↔ (∀ p ∈ t, k < p.1) ∧ Sorted t := by
  simp [Sorted, List.pairwise_cons]

/-- A key below every key of a table is not in it. -/
theorem get?_eq_none_of_lt {k : String} {t : Table β} (h : ∀ p ∈ t, k < p.1) :
    t.get? k = none := by
  induction t with
  | nil => rfl
  | cons p t ih =>
    obtain ⟨k', v'⟩ := p
    rw [get?_cons, if_neg (ne_of_lt (h _ List.mem_cons_self)),
      ih fun q hq => h q (List.mem_cons_of_mem _ hq)]

/-- Sorted tables that give the same value for every key are the same table: their least keys
agree, and so do the rest. -/
theorem Sorted.ext : ∀ {t t' : Table β}, Sorted t → Sorted t' →
    (∀ k, t.get? k = t'.get? k) → t = t'
  | [], [], _, _, _ => rfl
  | [], (k, v) :: _, _, _, h => by simpa using h k
  | (k, v) :: _, [], _, _, h => by simpa using h k
  | (k, v) :: t, (k', v') :: t', hs, hs', h => by
    rw [sorted_cons] at hs hs'
    have hk : k = k' := by
      rcases lt_trichotomy k k' with hlt | heq | hlt
      · have := h k
        simp [ne_of_lt hlt, get?_eq_none_of_lt fun q hq => lt_trans hlt (hs'.1 q hq)] at this
      · exact heq
      · have := h k'
        simp [ne_of_lt hlt, get?_eq_none_of_lt fun q hq => lt_trans hlt (hs.1 q hq)] at this
    subst hk
    have hv : v = v' := by simpa using h k
    subst hv
    congr 1
    refine Sorted.ext hs.2 hs'.2 fun j => ?_
    by_cases hj : j = k
    · subst hj
      rw [get?_eq_none_of_lt hs.1, get?_eq_none_of_lt hs'.1]
    · simpa [hj] using h j

theorem Sorted.insert (k : String) (v : β) :
    ∀ {t : Table β}, Sorted t → Sorted (Table.insert k v t)
  | [], _ => by simp [Table.insert, sorted_cons]
  | (k', v') :: rest, hs => by
    rw [sorted_cons] at hs
    unfold Table.insert
    split_ifs with hlt heq
    · refine sorted_cons.mpr ⟨fun p hp => ?_, sorted_cons.mpr hs⟩
      rcases List.mem_cons.mp hp with rfl | hp
      · exact hlt
      · exact lt_trans hlt (hs.1 p hp)
    · subst heq
      exact sorted_cons.mpr hs
    · -- the new key goes after `k'`
      have hgt : k' < k := (lt_trichotomy k k').resolve_left hlt |>.resolve_left heq
      refine sorted_cons.mpr ⟨fun p hp => ?_, Sorted.insert k v hs.2⟩
      rcases mem_insert hp with rfl | hp
      · exact hgt
      · exact hs.1 p hp

theorem get?_erase (k j : String) (t : Table β) :
    (erase k t).get? j = if j = k then none else t.get? j := by
  induction t with
  | nil => simp [erase]
  | cons p t ih =>
    obtain ⟨k', v'⟩ := p
    unfold erase at ih ⊢
    by_cases hk : k' = k
    · subst hk
      simp only [List.filter_cons, bne_self_eq_false, Bool.false_eq_true, ↓reduceIte, ih,
        get?_cons]
      split_ifs <;> simp_all
    · simp only [List.filter_cons, bne_iff_ne, ne_eq, hk, not_false_eq_true, ↓reduceIte,
        get?_cons, ih]
      split_ifs <;> simp_all

theorem Sorted.erase (k : String) {t : Table β} (hs : Sorted t) : Sorted (erase k t) :=
  hs.sublist (List.filter_sublist.map Prod.fst)

theorem erase_comm (k k' : String) (t : Table β) :
    erase k (erase k' t) = erase k' (erase k t) := by
  simp only [erase, List.filter_filter, Bool.and_comm]

theorem insert_comm {k k' : String} (v v' : β) {t : Table β} (hs : Sorted t) (hk : k ≠ k') :
    insert k v (insert k' v' t) = insert k' v' (insert k v t) := by
  refine Sorted.ext ((hs.insert k' v').insert k v) ((hs.insert k v).insert k' v') fun j => ?_
  simp only [get?_insert]
  split_ifs <;> simp_all

theorem erase_insert {k k' : String} (v : β) {t : Table β} (hs : Sorted t) (hk : k ≠ k') :
    erase k (insert k' v t) = insert k' v (erase k t) := by
  refine Sorted.ext ((hs.insert k' v).erase k) ((hs.erase k).insert k' v) fun j => ?_
  simp only [get?_erase, get?_insert]
  split_ifs <;> simp_all

/-- The table itself when it has entries: how the deployments keep a unit's records. -/
def nonempty? (t : Table β) : Option (Table β) := if t.isEmpty then none else some t

@[simp] theorem getD_nonempty? (t : Table β) : (nonempty? t).getD [] = t := by
  unfold nonempty?
  split <;> simp_all

theorem isEmpty_eq_false {t : Table β} {k : String} {v : β} (h : t.get? k = some v) :
    t.isEmpty = false := by
  cases t with
  | nil => simp at h
  | cons p t => rfl

theorem erase_insert_ne_nil {k k' : String} (v : β) (t : Table β) (hk : k ≠ k') :
    erase k' (insert k v t) ≠ [] := by
  intro h
  have hget : (erase k' (insert k v t)).get? k = some v := by simp [get?_erase, get?_insert, hk]
  simp [h] at hget

@[simp] theorem erase_nil (k : String) : erase k ([] : Table β) = [] := rfl

theorem nonempty?_insert (k : String) (v : β) (t : Table β) :
    nonempty? (insert k v t) = some (insert k v t) := by
  have hget : (insert k v t).get? k = some v := by simp [get?_insert]
  simp [nonempty?, isEmpty_eq_false hget]

end Table

namespace State

/-- A state whose tables keep their keys sorted, as `Table.insert` and `Table.erase` leave
them. -/
structure Sorted (st : State) : Prop where
  deployments : st.deployments.Sorted
  records : ∀ n T, st.deployments.get? n = some T → T.Sorted
  definitions : st.definitions.Sorted

theorem Sorted.recordTable {st : State} (h : st.Sorted) (n : String) :
    (st.recordTable n).Sorted := by
  unfold State.recordTable
  cases hn : st.deployments.get? n with
  | none => exact Table.sorted_nil
  | some T => exact h.records n T hn

/-- The fields that recording a success leaves alone. -/
def frame (s : State) :
    Option String × Table IdentityBinding × Option String × Option Timestamp :=
  (s.masterAccountId, s.bindings, s.previousTemplate, s.committedAt)

theorem ext_frame {s s' : State} (hf : s.frame = s'.frame) (hd : s.deployments = s'.deployments)
    (he : s.definitions = s'.definitions) : s = s' := by
  cases s
  cases s'
  simp_all [frame]

end State

namespace DeployTask

variable {δ : Type} (t : DeployTask δ)

/-- The records a success of `t` leaves for its unit, from the unit's records `T`. -/
def recordsAfter (o : Outcome) (now : Timestamp) (T : Table Record) : Table Record :=
  match t.action with
  | .createOrUpdate => T.insert t.target.key (recordOf t o now)
  | .delete => T.erase t.target.key

/-- The definition of its unit a success of `t` leaves, from the unit's records `slot` and its
definition `d`: a create-or-update takes the template's, and a delete of the unit's last record
drops it. -/
def definitionAfter (units : List UnitDef) (slot : Option (Table Record)) (d : Option UnitDef) :
    Option UnitDef :=
  match t.action with
  | .createOrUpdate => (units.find? (·.name == t.id.unit)).or d
  | .delete => if slot.any fun T => (T.erase t.target.key).isEmpty then none else d

/-- A create-or-update task names a unit of the template; a delete may name any unit. -/
def Named (units : List UnitDef) : Prop :=
  t.action = .createOrUpdate → t.id.unit ∈ units.map (·.name)

theorem Named.find?_eq_some {units : List UnitDef} {t : DeployTask δ} (h : t.Named units)
    (ha : t.action = .createOrUpdate) : ∃ u, units.find? (·.name == t.id.unit) = some u := by
  obtain ⟨u, hu, hname⟩ := List.mem_map.mp (h ha)
  exact Option.isSome_iff_exists.mp (List.find?_isSome.mpr ⟨u, hu, by simp [hname]⟩)

variable {t} {t' : DeployTask δ} {now : Timestamp}

/-- Successes at different keys leave the same records in either order. -/
theorem recordsAfter_comm (o o' : Outcome) {T : Table Record} (hT : T.Sorted)
    (hk : t.target.key ≠ t'.target.key) :
    t.recordsAfter o now (t'.recordsAfter o' now T) =
      t'.recordsAfter o' now (t.recordsAfter o now T) := by
  unfold recordsAfter
  cases t.action <;> cases t'.action
  · exact Table.insert_comm _ _ hT hk
  · exact (Table.erase_insert _ hT hk.symm).symm
  · exact Table.erase_insert _ hT hk
  · exact Table.erase_comm _ _ _

/-- Successes of one unit at different keys leave it the same definition in either order, when
each create-or-update names a unit of the template. -/
theorem definitionAfter_comm {units : List UnitDef} (o o' : Outcome)
    (hu : t.id.unit = t'.id.unit) (hk : t.target.key ≠ t'.target.key) (hn : t.Named units)
    (hn' : t'.Named units) (slot : Option (Table Record)) (d : Option UnitDef) :
    t.definitionAfter units (t'.recordsAfter o' now (slot.getD [])).nonempty?
        (t'.definitionAfter units slot d) =
      t'.definitionAfter units (t.recordsAfter o now (slot.getD [])).nonempty?
        (t.definitionAfter units slot d) := by
  cases ha : t.action <;> cases ha' : t'.action
  · -- both take the template's definition of the unit
    simp [definitionAfter, ha, ha', hu]
  · obtain ⟨u, hfind⟩ := hn.find?_eq_some ha
    simp [definitionAfter, ha, ha', hfind, Table.nonempty?_insert, recordsAfter,
      Table.erase_insert_ne_nil _ _ hk]
  · obtain ⟨u, hfind⟩ := hn'.find?_eq_some ha'
    simp [definitionAfter, ha, ha', hfind, Table.nonempty?_insert, recordsAfter,
      Table.erase_insert_ne_nil _ _ hk.symm]
  · -- two deletes drop the definition exactly when no record is left after both
    cases slot with
    | none => simp [definitionAfter, ha, ha', recordsAfter, Table.nonempty?, Table.erase]
    | some S =>
      have hcomm := Table.erase_comm t.target.key t'.target.key S
      by_cases hA : S.erase t.target.key = [] <;> by_cases hA' : S.erase t'.target.key = [] <;>
        simp_all [definitionAfter, recordsAfter, Table.nonempty?]

end DeployTask

section Record

variable {δ : Type} {units : List UnitDef} {now : Timestamp} {t : DeployTask δ} {o : Outcome}
  {st : State}

theorem get?_deployments_recordSuccess (n : String) :
    (recordSuccess units now t o st).deployments.get? n =
      if n = t.id.unit then (t.recordsAfter o now (st.recordTable n)).nonempty?
      else st.deployments.get? n := by
  unfold recordSuccess DeployTask.recordsAfter
  cases ha : t.action with
  | createOrUpdate =>
    simp only
    split <;>
    · by_cases hn : n = t.id.unit
      · subst hn
        simp [State.setRecord, State.setDefinition, State.recordTable, Table.get?_insert,
          Table.nonempty?_insert, recordOf, Record.key, Target.key]
      · simp [State.setRecord, State.setDefinition, Table.get?_insert, hn]
  | delete =>
    simp only
    unfold State.removeRecord
    cases hT : st.deployments.get? t.id.unit with
    | none =>
      by_cases hn : n = t.id.unit
      · subst hn
        simp [State.recordTable, hT, Table.erase, Table.nonempty?]
      · simp [hn]
    | some T =>
      by_cases he : (T.erase t.target.key).isEmpty <;> by_cases hn : n = t.id.unit <;>
        simp_all [Table.get?_erase, Table.get?_insert, State.recordTable, Table.nonempty?,
          Target.key]

theorem recordTable_recordSuccess (n : String) :
    (recordSuccess units now t o st).recordTable n =
      if n = t.id.unit then t.recordsAfter o now (st.recordTable n) else st.recordTable n := by
  unfold State.recordTable
  rw [get?_deployments_recordSuccess]
  split <;> simp_all [State.recordTable]

theorem get?_definitions_recordSuccess (n : String) :
    (recordSuccess units now t o st).definitions.get? n =
      if n = t.id.unit then t.definitionAfter units (st.deployments.get? n) (st.definitions.get? n)
      else st.definitions.get? n := by
  unfold recordSuccess DeployTask.definitionAfter
  cases ha : t.action with
  | createOrUpdate =>
    simp only
    split
    · next u hu =>
      -- the template's unit is stored under the task's unit name
      have hname : u.name = t.id.unit := by simpa using List.find?_some hu
      by_cases hn : n = t.id.unit
      · subst hn
        simp [State.setRecord, State.setDefinition, Table.get?_insert, hname, hu]
      · simp [State.setRecord, State.setDefinition, Table.get?_insert, hname, hn]
    · next hnone =>
      by_cases hn : n = t.id.unit
      · subst hn
        simp [State.setRecord, hnone]
      · simp [State.setRecord, hn]
  | delete =>
    simp only
    unfold State.removeRecord
    cases hT : st.deployments.get? t.id.unit with
    | none =>
      by_cases hn : n = t.id.unit
      · subst hn
        simp [hT]
      · simp [hn]
    | some T =>
      by_cases he : (T.erase t.target.key).isEmpty <;> by_cases hn : n = t.id.unit <;>
        simp_all [Table.get?_erase, Target.key]

@[simp] theorem frame_recordSuccess : (recordSuccess units now t o st).frame = st.frame := by
  unfold recordSuccess
  split
  · split <;> rfl
  · unfold State.removeRecord
    split
    · rfl
    · dsimp only
      split <;> rfl

theorem Table.Sorted.recordsAfter {T : Table Record} (h : T.Sorted) :
    (t.recordsAfter o now T).Sorted := by
  unfold DeployTask.recordsAfter
  split
  · exact h.insert _ _
  · exact h.erase _

/-- Recording a success keeps the state's tables sorted. -/
theorem State.Sorted.recordSuccess (h : st.Sorted) : (recordSuccess units now t o st).Sorted := by
  refine ⟨?_, fun n T hT => ?_, ?_⟩
  · unfold OrgDeploy.recordSuccess
    split
    · split <;> exact h.deployments.insert _ _
    · unfold State.removeRecord
      split
      · exact h.deployments
      · dsimp only
        split
        · exact h.deployments.erase _
        · exact h.deployments.insert _ _
  · rw [get?_deployments_recordSuccess] at hT
    split at hT
    · -- the unit's records are what the success leaves of its sorted records
      have hT' : T = t.recordsAfter o now (st.recordTable n) := by
        unfold Table.nonempty? at hT
        split at hT <;> simp_all
      exact hT' ▸ (h.recordTable n).recordsAfter
    · exact h.records n T hT
  · unfold OrgDeploy.recordSuccess
    split
    · split
      · exact h.definitions.insert _ _
      · exact h.definitions
    · unfold State.removeRecord
      split
      · exact h.definitions
      · dsimp only
        split
        · exact h.definitions.erase _
        · exact h.definitions

/-- On a sorted state, successes of two tasks that record under different units or keys leave the
same state in either order, when each create-or-update names a unit of the template. -/
theorem recordSuccess_comm {t' : DeployTask δ} (o' : Outcome) (hs : st.Sorted)
    (hdist : t.id.unit = t'.id.unit → t.target.key ≠ t'.target.key) (hn : t.Named units)
    (hn' : t'.Named units) :
    recordSuccess units now t o (recordSuccess units now t' o' st) =
      recordSuccess units now t' o' (recordSuccess units now t o st) := by
  have hs₁ : (recordSuccess units now t o (recordSuccess units now t' o' st)).Sorted :=
    hs.recordSuccess.recordSuccess
  have hs₂ : (recordSuccess units now t' o' (recordSuccess units now t o st)).Sorted :=
    hs.recordSuccess.recordSuccess
  refine State.ext_frame (by simp) (hs₁.deployments.ext hs₂.deployments fun n => ?_)
    (hs₁.definitions.ext hs₂.definitions fun n => ?_)
  · simp only [get?_deployments_recordSuccess, recordTable_recordSuccess]
    by_cases hu : n = t.id.unit <;> by_cases hu' : n = t'.id.unit
    · subst hu
      simp only [if_pos hu', if_true]
      rw [DeployTask.recordsAfter_comm o o' (hs.recordTable _) (hdist hu')]
    · subst hu
      simp [hu']
    · subst hu'
      simp [hu]
    · simp [hu, hu']
  · simp only [get?_definitions_recordSuccess, get?_deployments_recordSuccess]
    by_cases hu : n = t.id.unit <;> by_cases hu' : n = t'.id.unit
    · subst hu
      simp only [if_pos hu', if_true, State.recordTable]
      exact DeployTask.definitionAfter_comm o o' hu' (hdist hu') hn hn' _ _
    · subst hu
      simp [hu']
    · subst hu'
      simp [hu]
    · simp [hu, hu']

end Record

end OrgDeploy
