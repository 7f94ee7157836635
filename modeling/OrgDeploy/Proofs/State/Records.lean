import Mathlib
import OrgDeploy.Proofs.Resolve.Semantics

/-!
# The deployment-record store

The state keeps the records of each unit in a table under the text key `account_id/region`
(`targetKey`). `setRecord` stores a record under the key of its own account id and region,
`removeRecord` takes the key of an account id and region out (and with the unit's last record,
the unit), and `record?` reads the key of an account id and region.

So the store is a map keyed by the unit and the target key. Whatever sequence of changes
(`RecordOp`) is made, the record under a key is the last one set there and not removed since
(`RecordOp.keyed`), a removal touches no other unit or key, and a unit's records are its live
records, one per key and in key order (`record_store_keyed`).

A key is the text of the account id and the region joined by `/`, so two targets share one when
an account id contains `/`: account id `1/2` in region `3` and account id `1` in region `2/3`
both have the key `1/2/3`, and the record set for the one is the record of the other
(`slash_targets_share_record`). Account ids without `/` give distinct targets distinct keys
(`targetKey_inj`).
-/

namespace OrgDeploy

/-- A change of the deployment records. -/
inductive RecordOp where
  /-- A record set for a unit, under the key of its account id and region. -/
  | set (unit : String) (record : Record)
  /-- The record of a unit at an account id and region removed. -/
  | remove (unit accountId region : String)

namespace RecordOp

/-- What a change does to a state. -/
def apply (s : State) : RecordOp → State
  | set u r => s.setRecord u r
  | remove u a r => (s.removeRecord u a r).2

/-- What a change leaves under key `k` of unit `u`, given what was there: a record set for `u`
under `k` replaces it, a removal of `u` at `k` clears it, and every other change leaves it. -/
def keyed (u k : String) (cur : Option Record) : RecordOp → Option Record
  | set u' r => if u' = u ∧ r.key = k then some r else cur
  | remove u' a r => if u' = u ∧ targetKey a r = k then none else cur

end RecordOp

/-! ## Keys -/

/-- Two lists cut at the first occurrence of `c` have equal parts when they are equal. -/
theorem append_cons_cancel_of_not_mem {α : Type} {c : α} :
    ∀ {x₁ x₂ z₁ z₂ : List α}, c ∉ x₁ → c ∉ x₂ → x₁ ++ c :: z₁ = x₂ ++ c :: z₂ →
      x₁ = x₂ ∧ z₁ = z₂
  | [], [], _, _, _, _, h => ⟨rfl, (List.cons.inj h).2⟩
  | [], b :: _, _, _, _, h₂, h => absurd (List.mem_cons.mpr (.inl (List.cons.inj h).1)) h₂
  | a :: _, [], _, _, h₁, _, h => absurd (List.mem_cons.mpr (.inl (List.cons.inj h).1.symm)) h₁
  | a :: x₁, b :: x₂, _, _, h₁, h₂, h => by
    rw [List.cons_append, List.cons_append, List.cons.injEq] at h
    obtain ⟨rfl, h⟩ := h
    obtain ⟨rfl, rfl⟩ :=
      append_cons_cancel_of_not_mem (fun hm => h₁ (List.mem_cons_of_mem _ hm))
        (fun hm => h₂ (List.mem_cons_of_mem _ hm)) h
    exact ⟨rfl, rfl⟩

/-- Account ids without `/` give distinct account ids and regions distinct keys. -/
theorem targetKey_inj {a a' r r' : String} (ha : '/' ∉ a.toList) (ha' : '/' ∉ a'.toList)
    (h : targetKey a r = targetKey a' r') : a = a' ∧ r = r' := by
  have hl := congrArg String.toList h
  simp only [targetKey, String.toList_append] at hl
  obtain ⟨h₁, h₂⟩ := append_cons_cancel_of_not_mem ha ha' (by simpa using hl)
  exact ⟨String.ext h₁, String.ext h₂⟩

namespace State

/-! ## The record under a key -/

/-- The record of a unit under a target key. -/
def recordAt (s : State) (unit key : String) : Option Record :=
  (s.deployments.get? unit).bind (·.get? key)

theorem record?_eq_recordAt (s : State) (u a r : String) :
    s.record? u a r = s.recordAt u (targetKey a r) := rfl

theorem recordAt_eq_get?_recordTable (s : State) (u k : String) :
    s.recordAt u k = (s.recordTable u).get? k := by
  unfold recordAt recordTable
  cases s.deployments.get? u <;> rfl

theorem recordAt_setRecord (s : State) (u' : String) (r : Record) (u k : String) :
    (s.setRecord u' r).recordAt u k = if u' = u ∧ r.key = k then some r else s.recordAt u k := by
  by_cases hu : u = u'
  · subst hu
    rw [recordAt_eq_get?_recordTable s]
    by_cases hk : k = r.key
    · simp [recordAt, setRecord, Table.get?_insert, hk]
    · simp [recordAt, setRecord, Table.get?_insert, hk, Ne.symm hk]
  · simp [recordAt, setRecord, Table.get?_insert, hu, Ne.symm hu]

theorem recordAt_removeRecord (s : State) (u' a r u k : String) :
    (s.removeRecord u' a r).2.recordAt u k =
      if u' = u ∧ targetKey a r = k then none else s.recordAt u k := by
  unfold removeRecord
  by_cases hu : u = u'
  · subst hu
    cases hT : s.deployments.get? u with
    | none => simp [recordAt, hT]
    | some T =>
      dsimp only
      split
      · -- the unit's last record goes, and with it the unit: no key of it was left but `k`'s
        rename_i he
        have hrest : (T.erase (targetKey a r)).get? k = none := by
          rw [List.isEmpty_iff.mp he]
          rfl
        rw [Table.get?_erase] at hrest
        by_cases hk : k = targetKey a r
        · simp [recordAt, Table.get?_erase, hk]
        · rw [if_neg hk] at hrest
          simp [recordAt, Table.get?_erase, Ne.symm hk, hT, hrest]
      · by_cases hk : k = targetKey a r
        · simp [recordAt, Table.get?_insert, Table.get?_erase, hk]
        · simp [recordAt, Table.get?_insert, Table.get?_erase, hk, Ne.symm hk, hT]
  · cases hT : s.deployments.get? u' with
    | none => simp [Ne.symm hu]
    | some T =>
      dsimp only
      split <;> simp [recordAt, Table.get?_erase, Table.get?_insert, hu, Ne.symm hu]

/-- One change does to the record under a key what `RecordOp.keyed` says. -/
theorem recordAt_apply (s : State) (op : RecordOp) (u k : String) :
    (op.apply s).recordAt u k = RecordOp.keyed u k (s.recordAt u k) op := by
  cases op with
  | set u' r => exact recordAt_setRecord s u' r u k
  | remove u' a r => exact recordAt_removeRecord s u' a r u k

/-- After any sequence of changes, the record under a key is the last one set there and not
removed since, else the one there at the start. -/
theorem recordAt_foldl (u k : String) :
    ∀ (ops : List RecordOp) (s : State),
      (ops.foldl RecordOp.apply s).recordAt u k = ops.foldl (RecordOp.keyed u k) (s.recordAt u k)
  | [], _ => rfl
  | op :: ops, s => by
    rw [List.foldl_cons, List.foldl_cons, recordAt_foldl u k ops, recordAt_apply]

/-! ## Sorted tables -/

theorem Sorted.setRecord {s : State} (hs : s.Sorted) (u : String) (r : Record) :
    (s.setRecord u r).Sorted := by
  refine ⟨hs.deployments.insert _ _, fun n T hT => ?_, hs.definitions⟩
  simp only [State.setRecord, Table.get?_insert] at hT
  split at hT
  · cases hT
    subst n
    exact (hs.recordTable u).insert _ _
  · exact hs.records n T hT

theorem Sorted.removeRecord {s : State} (hs : s.Sorted) (u a r : String) :
    (s.removeRecord u a r).2.Sorted := by
  unfold State.removeRecord
  cases hT : s.deployments.get? u with
  | none => exact hs
  | some T =>
    dsimp only
    split
    · exact ⟨hs.deployments.erase _, fun n T' hT' => hs.records n T' (by
        rw [Table.get?_erase] at hT'
        split at hT'
        · cases hT'
        · exact hT'), hs.definitions.erase _⟩
    · refine ⟨hs.deployments.insert _ _, fun n T' hT' => ?_, hs.definitions⟩
      rw [Table.get?_insert] at hT'
      split at hT'
      · cases hT'
        exact (hs.records u T hT).erase _
      · exact hs.records n T' hT'

theorem Sorted.foldl_apply : ∀ (ops : List RecordOp) {s : State}, s.Sorted →
    (ops.foldl RecordOp.apply s).Sorted
  | [], _, hs => hs
  | op :: ops, s, hs => by
    refine Sorted.foldl_apply ops ?_
    cases op with
    | set u r => exact hs.setRecord u r
    | remove u a r => exact hs.removeRecord u a r

/-- In a sorted state, the records of a unit are the records under its keys. -/
theorem Sorted.mem_records_iff {s : State} (hs : s.Sorted) (u : String) (x : Record) :
    x ∈ s.records u ↔ ∃ k, s.recordAt u k = some x := by
  rw [State.records, Table.values, List.mem_map]
  constructor
  · rintro ⟨⟨k, v⟩, hp, rfl⟩
    exact ⟨k, by rw [recordAt_eq_get?_recordTable]; exact (hs.recordTable u).mem_iff.mp hp⟩
  · rintro ⟨k, hk⟩
    rw [recordAt_eq_get?_recordTable] at hk
    exact ⟨(k, x), (hs.recordTable u).mem_iff.mpr hk, rfl⟩

end State

/-! ## The store as a map -/

/-- The deployment records of a state behave as a map keyed by unit and target key. -/
structure KeyedStore (s : State) (ops : List RecordOp) : Prop where
  /-- A unit's record at an account id and region is the last one set under their key and not
  removed since, else the one there at the start. -/
  record : ∀ u a r, (ops.foldl RecordOp.apply s).record? u a r =
    ops.foldl (RecordOp.keyed u (targetKey a r)) (s.record? u a r)
  /-- In a sorted state, a unit's records are its live records, one per key and in key
  order. -/
  records : s.Sorted → ∀ u, ((ops.foldl RecordOp.apply s).recordTable u).Sorted ∧
    ∀ x, x ∈ (ops.foldl RecordOp.apply s).records u ↔
      ∃ k, ops.foldl (RecordOp.keyed u k) (s.recordAt u k) = some x
  /-- A removal leaves the record of every other unit, and every other key of the unit. -/
  remove_frame : ∀ u a r u' k, (u' ≠ u ∨ k ≠ targetKey a r) →
    (s.removeRecord u a r).2.recordAt u' k = s.recordAt u' k
  /-- Account ids without `/` give distinct targets distinct keys. -/
  keys : ∀ a r a' r', '/' ∉ a.toList → '/' ∉ a'.toList → targetKey a r = targetKey a' r' →
    a = a' ∧ r = r'

/-- The deployment records are a map keyed by unit and the key `account_id/region`: after any
sequence of changes, a record is the last one set under its key and not removed since, a
removal touches no other unit or key, and a unit's records are its live ones. -/
theorem record_store_keyed (s : State) (ops : List RecordOp) : KeyedStore s ops where
  record u a r := State.recordAt_foldl u (targetKey a r) ops s
  records hs u := by
    refine ⟨(hs.foldl_apply ops).recordTable u, fun x => ?_⟩
    simp only [(hs.foldl_apply ops).mem_records_iff, State.recordAt_foldl]
  remove_frame u a r u' k h := by
    rw [State.recordAt_removeRecord]
    have hne : ¬(u = u' ∧ targetKey a r = k) := by
      rintro ⟨rfl, rfl⟩
      simp at h
    simp [hne]
  keys _ _ _ _ ha ha' h := targetKey_inj ha ha' h

/-- Account id `1/2` in region `3` and account id `1` in region `2/3` share the key `1/2/3`: once
a record is set for each, the record read for the first is the one set for the second, and the
unit has that one record only. -/
theorem slash_targets_share_record :
    let r₁ : Record := ⟨"h1", "1/2", "3", "A", [], Timestamp.epoch⟩
    let r₂ : Record := ⟨"h2", "1", "2/3", "B", [], Timestamp.epoch⟩
    let s := (({} : State).setRecord "u" r₁).setRecord "u" r₂
    s.record? "u" "1/2" "3" = some r₂ ∧ s.records "u" = [r₂] := by
  decide

end OrgDeploy
