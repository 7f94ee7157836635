import Mathlib
import OrgDeploy.Proofs.Plan.Template
import OrgDeploy.Proofs.State.Bind

/-!
# The accounts a binding targets

In a well-formed organization every selector of a binding picks accounts: a logical id names an
account, or an organizational unit whose members are accounts, and a tag selector looks at the
master and the accounts only. Exclusions only remove what was picked. So every target a binding
resolves to is named after an account of the organization (the master included) and carries
that account's physical id (`resolve_account`).
-/

namespace OrgDeploy

namespace Table

variable {β : Type}

/-- Inserting values under their keys adds only those values. -/
theorem mem_foldl_insert (key : β → String) {p : String × β} :
    ∀ {vs : List β} {t : Table β}, p ∈ vs.foldl (fun t v => insert (key v) v t) t →
      p.2 ∈ vs ∨ p ∈ t
  | [], _, h => .inr h
  | v :: vs, t, h => by
    rw [List.foldl_cons] at h
    rcases mem_foldl_insert key h with h | h
    · exact .inl (List.mem_cons_of_mem _ h)
    · rcases mem_insert h with rfl | h
      · exact .inl List.mem_cons_self
      · exact .inr h

/-- Erasing keys keeps only entries that were there. -/
theorem mem_foldl_erase (key : β → String) {p : String × β} :
    ∀ {vs : List β} {t : Table β}, p ∈ vs.foldl (fun t v => erase (key v) t) t → p ∈ t
  | [], _, h => h
  | _ :: _, _, h => by
    rw [List.foldl_cons] at h
    exact (List.mem_filter.mp (mem_foldl_erase key h)).1

end Table

namespace Organization.WellFormed

variable {o : Organization} (hw : o.WellFormed)
include hw

/-- An entity is an account exactly when it is not an organizational unit. -/
theorem mem_allAccounts_iff {e : Entity} (he : e ∈ o.entities) :
    e ∈ o.allAccounts ↔ e.kind ≠ .organizationalUnit := by
  constructor
  · intro ha hk
    simpa [Entity.isAccount, hk] using hw.accounts e ha
  · intro hk
    rcases List.mem_append.mp he with ha | hu
    · exact ha
    · exact absurd (hw.units e hu) hk

/-- The entity the logical id of an account names is an account. -/
theorem get?_account {m : String} (hm : m ∈ o.allAccounts.map (·.logicalId)) {e : Entity}
    (h : o.get? m = some e) : e ∈ o.allAccounts := by
  obtain ⟨a, ha, rfl⟩ := List.mem_map.mp hm
  rw [hw.get?_of_mem (List.mem_append_left _ ha)] at h
  exact Option.some.inj h ▸ ha

end Organization.WellFormed

namespace Binding

variable {o : Organization} (hw : o.WellFormed)
include hw

omit hw in
theorem lookupEntity_mem {id : String} {e : Entity} (h : lookupEntity o id = .ok e) :
    o.get? id = some e := by
  unfold lookupEntity at h
  split at h
  · rename_i e' he'
    cases h
    exact he'
  · cases h

/-- An entity of a well-formed organization stands for accounts. -/
theorem expand_accounts {e : Entity} (he : e ∈ o.entities) {es : List Entity}
    (h : expand o e = .ok es) : ∀ x ∈ es, x ∈ o.allAccounts := by
  unfold expand at h
  split at h
  · -- an organizational unit: each member names an account
    rename_i hk
    have hu : e ∈ o.units := by
      rcases List.mem_append.mp he with ha | hu
      · exact absurd hk ((hw.mem_allAccounts_iff he).mp ha)
      · exact hu
    intro x hx
    obtain ⟨m, hm, hmx⟩ := exists_of_forall₂_mem_right (mapM_ok_forall₂ h) x hx
    exact hw.get?_account (hw.members e hu m hm) (lookupEntity_mem hmx)
  · rename_i hk
    cases h
    intro x hx
    rw [List.mem_singleton.mp hx]
    exact (hw.mem_allAccounts_iff he).mpr hk

/-- Every selector picks accounts. -/
theorem pick_accounts {sel : Selector} {es : List Entity} (h : pick o sel = .ok es) :
    ∀ x ∈ es, x ∈ o.allAccounts := by
  cases sel with
  | logicalId id =>
    obtain ⟨e, he, h⟩ := bind_eq_ok.mp h
    exact expand_accounts hw (List.mem_of_find?_eq_some (lookupEntity_mem he)) h
  | tags pairs =>
    cases h
    exact fun x hx => (List.mem_filter.mp hx).1

/-- A binding selects accounts only. -/
theorem selectAccounts_accounts {b : Binding} {t : Table Entity} (h : selectAccounts o b = .ok t) :
    ∀ p ∈ t, p.2 ∈ o.allAccounts := by
  unfold selectAccounts at h
  dsimp only at h
  -- the master, when the binding asks for it, is an account too
  have hmaster : ∀ sel : Table Entity, (∀ p ∈ sel, p.2 ∈ o.allAccounts) →
      ∀ p ∈ (if b.includeMaster then o.master.toList.foldl (fun t e => t.insert e.logicalId e) sel
        else sel), p.2 ∈ o.allAccounts := by
    intro sel hsel p hp
    split at hp
    · rcases Table.mem_foldl_insert _ hp with hp | hp
      · exact List.mem_append_left _ hp
      · exact hsel p hp
    · exact hsel p hp
  split at h
  · obtain ⟨selected, hsel, h⟩ := bind_eq_ok.mp h
    cases hsel
    cases h
    exact hmaster [] (by simp)
  · obtain ⟨selected, hsel, h⟩ := bind_eq_ok.mp h
    cases hsel
    cases h
    refine hmaster _ fun p hp => ?_
    rcases Table.mem_foldl_insert _ hp with hp | hp
    · exact List.mem_append_right _ hp
    · simp at hp
  · obtain ⟨selected, hsel, h⟩ := bind_eq_ok.mp h
    cases h
    refine hmaster _ (foldlM_ok_invariant (fun t : Table Entity => ∀ p ∈ t, p.2 ∈ o.allAccounts)
      hsel (by simp) fun acc sel acc' _ hacc hstep => ?_)
    obtain ⟨es, hes, hstep⟩ := bind_eq_ok.mp hstep
    cases hstep
    intro p hp
    rcases Table.mem_foldl_insert _ hp with hp | hp
    · exact pick_accounts hw hes _ hp
    · exact hacc p hp

/-- Every target of a binding is named after an account of the organization and carries that
account's physical id. -/
theorem resolve_account {override : Option (List String)} {b : Binding} {ts : List Target}
    (h : b.resolve o override = .ok ts) {t : Target} (ht : t ∈ ts) :
    ∃ e ∈ o.allAccounts, e.logicalId = t.accountLogicalId ∧ e.physicalId = some t.accountId := by
  unfold resolve at h
  dsimp only at h
  split at h
  · cases h
  obtain ⟨selected, hsel, h⟩ := bind_eq_ok.mp h
  obtain ⟨kept, hkept, h⟩ := bind_eq_ok.mp h
  cases h
  -- exclusions only remove entries
  have haccounts : ∀ p ∈ kept, p.2 ∈ o.allAccounts :=
    foldlM_ok_invariant (fun t : Table Entity => ∀ p ∈ t, p.2 ∈ o.allAccounts) hkept
      (selectAccounts_accounts hw hsel) fun acc id acc' _ hacc hstep => by
        obtain ⟨e, -, hstep⟩ := bind_eq_ok.mp hstep
        obtain ⟨gone, -, hstep⟩ := bind_eq_ok.mp hstep
        cases hstep
        exact fun p hp => hacc p (Table.mem_foldl_erase _ hp)
  -- each kept account adds targets named after it, one region at a time
  let Named (ts : List Target) : Prop := ∀ t ∈ ts,
    ∃ e ∈ o.allAccounts, e.logicalId = t.accountLogicalId ∧ e.physicalId = some t.accountId
  refine List.foldlRecOn _ _ (motive := Named) (by simp [Named]) (fun acc hacc ⟨k, e⟩ hp => ?_) t ht
  dsimp only
  split
  · rename_i pid hpid
    refine List.foldlRecOn _ _ (motive := Named) hacc fun acc' hacc' r _ t' ht' => ?_
    rcases mem_addTarget ht' with rfl | ht'
    · exact ⟨e, haccounts _ hp, rfl, hpid⟩
    · exact hacc' t' ht'
  · exact hacc

end Binding

end OrgDeploy
