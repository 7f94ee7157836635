import Mathlib
import OrgDeploy.Proofs.Resolve.Accounts
import OrgDeploy.Proofs.State.Commute

/-!
# What a binding resolves to

A binding against an organization that `Organization.build` accepts resolves by sets:

* the regions are the non-blank strings given (the override, else the binding's own); none is
  `missingRegion`;
* the accounts selected (`Binding.Selects`) are every member account for `"*"`, what each
  logical-id selector stands for (`Organization.Denotes`: the entity, or the members of an
  organizational unit), the master and the member accounts carrying every pair of a tag
  selector, and the master when the binding asks for it; the accounts excluded
  (`Binding.Excludes`) are what the exclusions stand for; a logical id that names no entity is
  `unresolvableAccount`, the first one met, selectors before exclusions (`Binding.firstUnknown`);
* the targets are strictly increasing by account id, then region; their account ids and
  regions are exactly the physical ids of the accounts selected and not excluded, in every
  region; and each target is named after the account of smallest logical id among those with
  its physical id.

The selection and the exclusions are tables by logical id; `Table.Holds` says which entities a
table holds, and each insert or erasure changes that by one entity. The targets are built one
account at a time in logical-id order, with `addTarget` keeping the first target of an account
id and region (`TargetsOf`, preserved by `TargetsOf.addAccount`).

Headline: `resolve_set_semantics`.
-/

namespace OrgDeploy

open OrgDeploy.Text

/-! ## What logical ids stand for -/

namespace Organization

variable {o : Organization}

/-- The entity a logical id names is an entity of the organization with that logical id. -/
theorem get?_eq_some {k : String} {e : Entity} (h : o.get? k = some e) :
    e ∈ o.entities ∧ e.logicalId = k :=
  ⟨List.mem_of_find?_eq_some h, by simpa using List.find?_some h⟩

/-- The entities a logical id stands for: the entity it names, or the members of the
organizational unit it names. -/
def Denotes (o : Organization) (id : String) (e : Entity) : Prop :=
  ∃ x, o.get? id = some x ∧
    ((x.kind = .organizationalUnit ∧ ∃ m ∈ x.members, o.get? m = some e) ∨
      (x.kind ≠ .organizationalUnit ∧ e = x))

theorem Denotes.mem_entities {id : String} {e : Entity} (h : o.Denotes id e) : e ∈ o.entities := by
  obtain ⟨x, hx, ⟨-, m, -, hm⟩ | ⟨-, rfl⟩⟩ := h
  · exact (get?_eq_some hm).1
  · exact (get?_eq_some hx).1

end Organization

namespace Selector

/-- The accounts a selector picks: what its logical id stands for, or the master and the member
accounts whose tags hold every pair of the selector. -/
def Picks (o : Organization) : Selector → Entity → Prop
  | .logicalId id, e => o.Denotes id e
  | .tags pairs, e => e ∈ o.allAccounts ∧ ∀ p ∈ pairs, e.tags.lookup p.1 = some p.2

/-- The logical id a selector names, if it names one. -/
def logicalId? : Selector → Option String
  | .logicalId id => some id
  | .tags _ => none

theorem Picks.mem_entities {o : Organization} {sel : Selector} {e : Entity} (h : sel.Picks o e) :
    e ∈ o.entities := by
  cases sel with
  | logicalId id => exact Organization.Denotes.mem_entities h
  | tags pairs => exact List.mem_append_left _ h.1

end Selector

namespace Binding

/-- The regions given: the override if there is one, else the binding's own. -/
def givenRegions (override : Option (List String)) (b : Binding) : List String :=
  override.getD (b.regions.getD [])

/-- The accounts a binding selects: every member account for `"*"`, what its selectors pick,
and the master when the binding asks for it. -/
def Selects (o : Organization) (b : Binding) (e : Entity) : Prop :=
  (b.accounts = some .all ∧ e ∈ o.accounts) ∨
    (∃ sels, b.accounts = some (.list sels) ∧ ∃ sel ∈ sels, sel.Picks o e) ∨
    (b.includeMaster = true ∧ o.master = some e)

/-- The accounts a binding excludes: what its exclusions stand for. -/
def Excludes (o : Organization) (b : Binding) (e : Entity) : Prop :=
  ∃ id ∈ b.excludeAccounts, o.Denotes id e

/-- The accounts a binding deploys to: selected and not excluded. -/
def Deploys (o : Organization) (b : Binding) (e : Entity) : Prop :=
  b.Selects o e ∧ ¬ b.Excludes o e

/-- The logical ids of a binding's selectors, in order. -/
def selectorIds (b : Binding) : List String :=
  match b.accounts with
  | some (.list sels) => sels.filterMap Selector.logicalId?
  | _ => []

/-- The first logical id a binding names that names no entity: selectors first, then
exclusions. -/
def firstUnknown (o : Organization) (b : Binding) : Option String :=
  (b.selectorIds ++ b.excludeAccounts).find? fun id => (o.get? id).isNone

theorem Selects.mem_entities {o : Organization} {b : Binding} {e : Entity} (h : b.Selects o e) :
    e ∈ o.entities := by
  rcases h with ⟨-, he⟩ | ⟨sels, -, sel, -, hp⟩ | ⟨-, hm⟩
  · exact List.mem_append_left _ (List.mem_append_right _ he)
  · exact hp.mem_entities
  · exact List.mem_append_left _ (List.mem_append_left _ (by simp [hm]))

end Binding

/-! ## Tables of entities -/

namespace Table

/-- In a sorted table an entry is there exactly when its key gives its value. -/
theorem Sorted.mem_iff {β : Type} : ∀ {t : Table β}, t.Sorted → ∀ {k : String} {v : β},
    (k, v) ∈ t ↔ t.get? k = some v
  | [], _, _, _ => by simp
  | (k', v') :: rest, hs, k, v => by
    rw [sorted_cons] at hs
    rw [get?_cons, List.mem_cons]
    by_cases hk : k = k'
    · subst hk
      -- no later entry has the least key
      have hnot : (k, v) ∉ rest := fun h => lt_irrefl k (hs.1 _ h)
      simp [hnot, eq_comm]
    · simp [hk, hs.2.mem_iff]

/-- A sorted table holding, under each logical id, the organization's entity of that id when it
has property `P`. -/
def Holds (o : Organization) (P : Entity → Prop) (t : Table Entity) : Prop :=
  t.Sorted ∧ ∀ k v, t.get? k = some v ↔ o.get? k = some v ∧ P v

namespace Holds

variable {o : Organization} {P Q : Entity → Prop} {t : Table Entity}

theorem nil : Holds o (fun _ => False) [] := ⟨sorted_nil, by simp⟩

/-- What a table holds depends only on the entities of the organization. -/
theorem congr (h : Holds o P t) (hPQ : ∀ e ∈ o.entities, P e ↔ Q e) : Holds o Q t := by
  refine ⟨h.1, fun k v => ?_⟩
  rw [h.2]
  constructor
  · rintro ⟨hk, hp⟩
    exact ⟨hk, (hPQ v (Organization.get?_eq_some hk).1).mp hp⟩
  · rintro ⟨hk, hq⟩
    exact ⟨hk, (hPQ v (Organization.get?_eq_some hk).1).mpr hq⟩

/-- The entries of a table are its entities under their own logical ids. -/
theorem mem_iff (h : Holds o P t) {k : String} {v : Entity} :
    (k, v) ∈ t ↔ o.get? k = some v ∧ P v := by
  rw [h.1.mem_iff, h.2]

/-- The entities of a table, in order, have strictly increasing logical ids. -/
theorem values_pairwise (h : Holds o P t) :
    (t.map Prod.snd).Pairwise fun x y => x.logicalId < y.logicalId := by
  have hkey : ∀ p ∈ t, p.2.logicalId = p.1 := fun p hp =>
    (Organization.get?_eq_some (h.mem_iff.mp hp).1).2
  rw [List.pairwise_map]
  exact (List.pairwise_map.mp h.1).imp_of_mem fun {p q} hp hq hlt => by
    rw [hkey p hp, hkey q hq]
    exact hlt

section Wf

variable (hw : o.WellFormed)
include hw

/-- Inserting an entity under its logical id adds it. -/
theorem insert (h : Holds o P t) {e : Entity} (he : e ∈ o.entities) :
    Holds o (fun v => P v ∨ v = e) (t.insert e.logicalId e) := by
  refine ⟨h.1.insert _ _, fun k v => ?_⟩
  rw [get?_insert]
  by_cases hk : k = e.logicalId
  · subst hk
    rw [if_pos rfl, hw.get?_of_mem he]
    constructor
    · rintro ⟨⟩
      exact ⟨rfl, .inr rfl⟩
    · rintro ⟨hv, -⟩
      exact hv
  · rw [if_neg hk, h.2]
    constructor
    · rintro ⟨hv, hp⟩
      exact ⟨hv, .inl hp⟩
    · rintro ⟨hv, hp | rfl⟩
      · exact ⟨hv, hp⟩
      · exact absurd (Organization.get?_eq_some hv).2.symm hk

/-- Erasing an entity's logical id removes it. -/
theorem erase (h : Holds o P t) {e : Entity} (he : e ∈ o.entities) :
    Holds o (fun v => P v ∧ v ≠ e) (Table.erase e.logicalId t) := by
  refine ⟨h.1.erase _, fun k v => ?_⟩
  rw [get?_erase]
  by_cases hk : k = e.logicalId
  · subst hk
    rw [if_pos rfl, hw.get?_of_mem he]
    constructor
    · intro h
      cases h
    · rintro ⟨hv, -, hne⟩
      exact absurd (Option.some.inj hv).symm hne
  · rw [if_neg hk, h.2]
    constructor
    · rintro ⟨hv, hp⟩
      refine ⟨hv, hp, fun hve => hk ?_⟩
      rw [← (Organization.get?_eq_some hv).2, hve]
    · rintro ⟨hv, hp, -⟩
      exact ⟨hv, hp⟩

theorem foldl_insert : ∀ {es : List Entity} {P : Entity → Prop} {t : Table Entity},
    Holds o P t → (∀ e ∈ es, e ∈ o.entities) →
      Holds o (fun v => P v ∨ v ∈ es) (es.foldl (fun t e => t.insert e.logicalId e) t)
  | [], _, _, h, _ => h.congr fun e _ => by simp
  | e :: es, _, _, h, hes => by
    rw [List.foldl_cons]
    refine ((h.insert hw (hes e List.mem_cons_self)).foldl_insert
      fun x hx => hes x (List.mem_cons_of_mem _ hx)).congr fun v _ => ?_
    simp only [List.mem_cons]
    tauto

theorem foldl_erase : ∀ {es : List Entity} {P : Entity → Prop} {t : Table Entity},
    Holds o P t → (∀ e ∈ es, e ∈ o.entities) →
      Holds o (fun v => P v ∧ v ∉ es) (es.foldl (fun t e => Table.erase e.logicalId t) t)
  | [], _, _, h, _ => h.congr fun e _ => by simp
  | e :: es, _, _, h, hes => by
    rw [List.foldl_cons]
    refine ((h.erase hw (hes e List.mem_cons_self)).foldl_erase
      fun x hx => hes x (List.mem_cons_of_mem _ hx)).congr fun v _ => ?_
    simp only [List.mem_cons, not_or]
    tauto

end Wf

end Holds

end Table

/-! ## Selecting and excluding accounts -/

namespace Binding

variable {o : Organization}

/-- Looking up known logical ids gives the entities they name. -/
theorem mapM_lookupEntity : ∀ {ms : List String}, (∀ m ∈ ms, (o.get? m).isSome) →
    ∃ es, ms.mapM (lookupEntity o) = .ok es ∧ ∀ e, e ∈ es ↔ ∃ m ∈ ms, o.get? m = some e
  | [], _ => ⟨[], rfl, by simp⟩
  | m :: ms, h => by
    obtain ⟨x, hx⟩ := Option.isSome_iff_exists.mp (h m List.mem_cons_self)
    obtain ⟨es, hes, hmem⟩ := mapM_lookupEntity fun m' hm' => h m' (List.mem_cons_of_mem _ hm')
    refine ⟨x :: es, ?_, fun e => ?_⟩
    · simp [List.mapM_cons, lookupEntity, hx, hes, bind, Except.bind, pure, Except.pure]
    · simp only [List.mem_cons, hmem, exists_eq_or_imp, hx, Option.some.injEq]
      exact or_congr ⟨fun h => h.symm, fun h => h.symm⟩ Iff.rfl

variable (hw : o.WellFormed)
include hw

/-- A selector whose logical id names an entity, or a tag selector, picks exactly the accounts
it stands for, all entities of the organization. -/
theorem pick_ok {sel : Selector} (hsel : ∀ id, sel.logicalId? = some id → (o.get? id).isSome) :
    ∃ es, pick o sel = .ok es ∧ ∀ e, e ∈ es ↔ sel.Picks o e := by
  cases sel with
  | logicalId id =>
    obtain ⟨x, hx⟩ := Option.isSome_iff_exists.mp (hsel id rfl)
    have hxe : x ∈ o.entities := (Organization.get?_eq_some hx).1
    by_cases hk : x.kind = .organizationalUnit
    · -- an organizational unit stands for its members, which are accounts of the organization
      have hu : x ∈ o.units := by
        rcases List.mem_append.mp hxe with ha | hu
        · exact absurd hk ((hw.mem_allAccounts_iff hxe).mp ha)
        · exact hu
      obtain ⟨es, hes, hmem⟩ := @mapM_lookupEntity o x.members fun m hm => by
        obtain ⟨a, ha, rfl⟩ := List.mem_map.mp (hw.members x hu m hm)
        rw [hw.get?_of_mem (List.mem_append_left _ ha)]
        rfl
      refine ⟨es, ?_, fun e => ?_⟩
      · simp [pick, lookupEntity, hx, expand, hk, hes, bind, Except.bind]
      · rw [hmem]
        simp [Selector.Picks, Organization.Denotes, hx, hk]
    · have hexp : expand o x = .ok [x] := by
        unfold expand
        split
        · contradiction
        · rfl
      refine ⟨[x], by simp [pick, lookupEntity, hx, hexp, bind, Except.bind], fun e => ?_⟩
      simp [Selector.Picks, Organization.Denotes, hx, hk]
  | tags pairs =>
    refine ⟨_, rfl, fun e => ?_⟩
    simp [Selector.Picks, Entity.matchesTags, Organization.allAccounts, or_and_right]

/-- Adding what selectors pick, in order: the first logical id of a selector that names no
entity is the error, else the table gains what each selector picks. -/
theorem foldlM_pick {f : Table Entity → Selector → Except ResolveError (Table Entity)}
    (hf : ∀ t sel, f t sel =
      pick o sel >>= fun es => pure (es.foldl (fun t e => t.insert e.logicalId e) t)) :
    ∀ (sels : List Selector) {t : Table Entity} {P : Entity → Prop}, t.Holds o P →
      (∀ l, (sels.filterMap Selector.logicalId?).find? (fun id => (o.get? id).isNone) = some l →
        sels.foldlM f t = .error (.unresolvableAccount l)) ∧
      ((sels.filterMap Selector.logicalId?).find? (fun id => (o.get? id).isNone) = none →
        ∃ t', sels.foldlM f t = .ok t' ∧ t'.Holds o fun v => P v ∨ ∃ sel ∈ sels, sel.Picks o v)
  | [], t, P, h => ⟨fun l hl => by simp at hl, fun _ => ⟨t, rfl, h.congr fun e _ => by simp⟩⟩
  | sel :: sels, t, P, h => by
    -- a selector naming no entity stops the fold with its id
    by_cases hunk : ∃ id, sel.logicalId? = some id ∧ o.get? id = none
    · obtain ⟨id, hid, hnone⟩ := hunk
      have hsel : sel = .logicalId id := by cases sel <;> simp_all [Selector.logicalId?]
      subst hsel
      have hfind : ((Selector.logicalId id :: sels).filterMap Selector.logicalId?).find?
          (fun id => (o.get? id).isNone) = some id := by
        simp [Selector.logicalId?, hnone]
      refine ⟨fun l hl => ?_, fun hl => by rw [hfind] at hl; cases hl⟩
      rw [hfind] at hl
      cases hl
      simp [List.foldlM_cons, hf, pick, lookupEntity, hnone, bind, Except.bind]
    · -- otherwise it picks, and the fold goes on with a larger table
      have hknown : ∀ id, sel.logicalId? = some id → (o.get? id).isSome := fun id hid => by
        cases hget : o.get? id with
        | none => exact absurd ⟨id, hid, hget⟩ hunk
        | some _ => rfl
      obtain ⟨es, hes, hmem⟩ := pick_ok hw hknown
      have hstep : f t sel = .ok (es.foldl (fun t e => t.insert e.logicalId e) t) := by
        rw [hf, hes]; rfl
      have hnext := Table.Holds.foldl_insert hw h fun e he => ((hmem e).mp he).mem_entities
      have hfind : ((sel :: sels).filterMap Selector.logicalId?).find?
          (fun id => (o.get? id).isNone) =
          (sels.filterMap Selector.logicalId?).find? (fun id => (o.get? id).isNone) := by
        cases hs : sel.logicalId? with
        | none => simp [hs]
        | some id =>
          have := hknown id hs
          simp [hs, Option.isSome_iff_ne_none.mp this]
      obtain ⟨herr, hok⟩ := foldlM_pick hf sels hnext
      rw [hfind, List.foldlM_cons, hstep]
      refine ⟨herr, fun hnone => ?_⟩
      obtain ⟨t', ht', hholds⟩ := hok hnone
      refine ⟨t', ht', hholds.congr fun v _ => ?_⟩
      simp only [hmem, List.mem_cons, exists_eq_or_imp]
      tauto

/-- Selecting accounts fails with the first logical-id selector naming no entity, and otherwise
gives the table of the accounts the binding selects. -/
theorem selectAccounts_spec (b : Binding) :
    (∀ l, b.selectorIds.find? (fun id => (o.get? id).isNone) = some l →
      selectAccounts o b = .error (.unresolvableAccount l)) ∧
    (b.selectorIds.find? (fun id => (o.get? id).isNone) = none →
      ∃ t, selectAccounts o b = .ok t ∧ t.Holds o (b.Selects o)) := by
  -- the master, when asked for, is added last
  have hmaster : ∀ {P : Entity → Prop} {t : Table Entity}, t.Holds o P →
      (if b.includeMaster then o.master.toList.foldl (fun t e => t.insert e.logicalId e) t
        else t).Holds o fun v => P v ∨ (b.includeMaster = true ∧ o.master = some v) := by
    intro P t h
    split
    · rename_i hinc
      refine (h.foldl_insert hw fun e he => ?_).congr fun v _ => by simp [hinc]
      exact List.mem_append_left _ (List.mem_append_left _ he)
    · rename_i hinc
      exact h.congr fun v _ => by simp [hinc]
  unfold selectAccounts selectorIds
  dsimp only
  cases hacc : b.accounts with
  | none =>
    dsimp only
    refine ⟨fun l hl => by simp at hl, fun _ => ⟨_, rfl, (hmaster Table.Holds.nil).congr
      fun v _ => ?_⟩⟩
    simp [Selects, hacc]
  | some a =>
    cases a with
    | all =>
      dsimp only
      have hall : Table.Holds o (fun v => False ∨ v ∈ o.accounts)
          (o.accounts.foldl (fun t e => t.insert e.logicalId e) []) :=
        Table.Holds.nil.foldl_insert hw fun e he =>
          List.mem_append_left _ (List.mem_append_right _ he)
      refine ⟨fun l hl => by simp at hl, fun _ => ⟨_, rfl, (hmaster hall).congr fun v _ => ?_⟩⟩
      simp [Selects, hacc]
    | list sels =>
      dsimp only
      obtain ⟨herr, hok⟩ := foldlM_pick hw (fun _ _ => rfl) sels Table.Holds.nil
      refine ⟨fun l hl => ?_, fun hl => ?_⟩
      · rw [herr l hl]
        rfl
      · obtain ⟨t, ht, hholds⟩ := hok hl
        refine ⟨_, by rw [ht]; rfl, (hmaster hholds).congr fun v _ => ?_⟩
        simp [Selects, hacc]

/-- One exclusion: removes what a logical id stands for. -/
def excludeStep (o : Organization) (t : Table Entity) (id : String) :
    Except ResolveError (Table Entity) :=
  pick o (.logicalId id) >>= fun gone => pure (gone.foldl (fun t e => Table.erase e.logicalId t) t)

/-- Removing what exclusions stand for, in order: the first exclusion naming no entity is the
error, else the table loses what each one stands for. -/
theorem foldlM_excludeStep :
    ∀ (ids : List String) {t : Table Entity} {P : Entity → Prop}, t.Holds o P →
      (∀ l, ids.find? (fun id => (o.get? id).isNone) = some l →
        ids.foldlM (excludeStep o) t = .error (.unresolvableAccount l)) ∧
      (ids.find? (fun id => (o.get? id).isNone) = none →
        ∃ t', ids.foldlM (excludeStep o) t = .ok t' ∧
          t'.Holds o fun v => P v ∧ ¬ ∃ id ∈ ids, o.Denotes id v)
  | [], t, P, h => ⟨fun l hl => by simp at hl, fun _ => ⟨t, rfl, h.congr fun e _ => by simp⟩⟩
  | id :: ids, t, P, h => by
    cases hget : o.get? id with
    | none =>
      refine ⟨fun l hl => ?_, fun hl => by simp [hget] at hl⟩
      simp only [List.find?_cons, hget, Option.isNone_none, Option.some.injEq] at hl
      subst hl
      simp [List.foldlM_cons, excludeStep, pick, lookupEntity, hget, bind, Except.bind]
    | some x =>
      have hknown : ∀ i, (Selector.logicalId id).logicalId? = some i → (o.get? i).isSome :=
        fun _ hid => by cases hid; simp [hget]
      obtain ⟨es, hes, hmem⟩ := pick_ok hw hknown
      have hnext := Table.Holds.foldl_erase hw h fun e he => ((hmem e).mp he).mem_entities
      obtain ⟨herr, hok⟩ := foldlM_excludeStep ids hnext
      have hfind : (id :: ids).find? (fun id => (o.get? id).isNone) =
          ids.find? (fun id => (o.get? id).isNone) := by
        simp [hget]
      rw [hfind, List.foldlM_cons]
      have hstep : excludeStep o t id = .ok (es.foldl (fun t e => Table.erase e.logicalId t) t) := by
        rw [excludeStep, hes]; rfl
      rw [hstep]
      refine ⟨herr, fun hnone => ?_⟩
      obtain ⟨t', ht', hholds⟩ := hok hnone
      refine ⟨t', ht', hholds.congr fun v _ => ?_⟩
      simp only [hmem, Selector.Picks, List.mem_cons, exists_eq_or_imp, not_or]
      tauto

end Binding

/-! ## Regions -/

theorem mem_foldl_insertSortedStr {x : String} :
    ∀ (rs acc : List String), x ∈ rs.foldl (fun acc r => insertSortedStr r acc) acc ↔ x ∈ acc ∨ x ∈ rs
  | [], acc => by simp
  | r :: rs, acc => by
    rw [List.foldl_cons, mem_foldl_insertSortedStr rs, mem_insertSortedStr, List.mem_cons]
    tauto

namespace Binding

/-- The regions of a binding are the non-blank regions given. -/
theorem mem_regionSet {override : Option (List String)} {b : Binding} {r : String} :
    r ∈ regionSet override b ↔ r ∈ givenRegions override b ∧ allBlank r = false := by
  simp [regionSet, givenRegions, mem_foldl_insertSortedStr]

theorem regionSet_isEmpty {override : Option (List String)} {b : Binding} :
    (regionSet override b).isEmpty = true ↔ ∀ r ∈ givenRegions override b, allBlank r = true := by
  rw [List.isEmpty_iff, List.eq_nil_iff_forall_not_mem]
  simp only [mem_regionSet, not_and, Bool.not_eq_false]

theorem regionSet_isEmpty_eq_false {override : Option (List String)} {b : Binding} :
    (regionSet override b).isEmpty = false ↔ ∃ r ∈ givenRegions override b, allBlank r = false := by
  rw [← Bool.not_eq_true, regionSet_isEmpty]
  simp

end Binding

/-! ## Targets, one account at a time -/

namespace Binding

theorem compareKey_eq_eq {t u : Target} :
    Target.compareKey t u = .eq ↔ t.accountId = u.accountId ∧ t.region = u.region := by
  simp [Target.compareKey, compareLex_eq_eq, compareOn]

/-- Adding a target adds its account id and region to those there. -/
theorem exists_key_addTarget (t : Target) {a r : String} : ∀ {ts : List Target},
    (∃ u ∈ addTarget t ts, u.accountId = a ∧ u.region = r) ↔
      (∃ u ∈ ts, u.accountId = a ∧ u.region = r) ∨ (t.accountId = a ∧ t.region = r)
  | [] => by simp [addTarget]
  | u :: rest => by
    rw [addTarget_cons]
    split
    · simp only [List.mem_cons, exists_eq_or_imp]
      exact or_comm
    · -- `t` has the account id and region of `u`
      rename_i heq
      obtain ⟨ha, hr⟩ := compareKey_eq_eq.mp heq
      rw [ha, hr]
      simp only [List.mem_cons, exists_eq_or_imp]
      exact ⟨Or.inl, fun h => h.elim id Or.inl⟩
    · simp only [List.mem_cons, exists_eq_or_imp, exists_key_addTarget t]
      exact or_assoc.symm

/-- Into sorted targets, `addTarget` adds its target only when no target has its account id
and region. -/
theorem mem_addTarget_new {t x : Target} : ∀ {ts : List Target}, TargetsSorted ts →
    x ∈ addTarget t ts →
      x ∈ ts ∨ (x = t ∧ ¬ ∃ u ∈ ts, u.accountId = t.accountId ∧ u.region = t.region)
  | [], _, h => by simpa [addTarget] using h
  | u :: rest, hs, h => by
    obtain ⟨hu, hrest⟩ := List.pairwise_cons.mp hs
    rw [addTarget_cons] at h
    split at h
    · -- `t` goes first, below `u` and so below every target after it
      rename_i hlt
      rcases List.mem_cons.mp h with rfl | h
      · refine .inr ⟨rfl, ?_⟩
        rintro ⟨v, hv, ha, hr⟩
        have hvt : Target.compareKey x v = .eq := compareKey_eq_eq.mpr ⟨ha.symm, hr.symm⟩
        rcases List.mem_cons.mp hv with rfl | hv
        · rw [hvt] at hlt; cases hlt
        · rw [Std.TransCmp.lt_trans hlt (hu v hv)] at hvt; cases hvt
      · exact .inl h
    · exact .inl h
    · rename_i hgt
      rcases List.mem_cons.mp h with rfl | h
      · exact .inl List.mem_cons_self
      · rcases mem_addTarget_new hrest h with h | ⟨rfl, hnot⟩
        · exact .inl (List.mem_cons_of_mem _ h)
        · refine .inr ⟨rfl, ?_⟩
          rintro ⟨v, hv, ha, hr⟩
          rcases List.mem_cons.mp hv with rfl | hv
          · rw [compareKey_eq_eq.mpr ⟨ha.symm, hr.symm⟩] at hgt; cases hgt
          · exact hnot ⟨v, hv, ha, hr⟩

/-- The targets of one account with a physical id, added region by region. -/
def addRegions (pid lid : String) (regions : List String) (ts : List Target) : List Target :=
  regions.foldl (fun ts r => addTarget ⟨pid, r, lid⟩ ts) ts

theorem addRegions_sorted (pid lid : String) :
    ∀ (regions : List String) {ts : List Target}, TargetsSorted ts →
      TargetsSorted (addRegions pid lid regions ts)
  | [], _, hs => hs
  | _ :: regions, _, hs => addRegions_sorted pid lid regions (addTarget_sorted _ hs)

theorem exists_key_addRegions (pid lid : String) {a r : String} :
    ∀ (regions : List String) (ts : List Target),
      (∃ u ∈ addRegions pid lid regions ts, u.accountId = a ∧ u.region = r) ↔
        (∃ u ∈ ts, u.accountId = a ∧ u.region = r) ∨ (pid = a ∧ r ∈ regions)
  | [], ts => by simp [addRegions]
  | r' :: regions, ts => by
    simp only [addRegions, List.foldl_cons] at *
    rw [← addRegions, exists_key_addRegions pid lid regions, exists_key_addTarget]
    simp only [List.mem_cons]
    constructor
    · rintro ((h | ⟨rfl, rfl⟩) | ⟨rfl, h⟩)
      · exact .inl h
      · exact .inr ⟨rfl, .inl rfl⟩
      · exact .inr ⟨rfl, .inr h⟩
    · rintro (h | ⟨rfl, rfl | h⟩)
      · exact .inl (.inl h)
      · exact .inl (.inr ⟨rfl, rfl⟩)
      · exact .inr ⟨rfl, h⟩

/-- A target added region by region is new: at one of the regions, named after the account,
with no target there before. -/
theorem mem_addRegions_new (pid lid : String) {x : Target} :
    ∀ (regions : List String) {ts : List Target}, TargetsSorted ts →
      x ∈ addRegions pid lid regions ts → x ∈ ts ∨
        (x.accountId = pid ∧ x.accountLogicalId = lid ∧ x.region ∈ regions ∧
          ¬ ∃ u ∈ ts, u.accountId = pid ∧ u.region = x.region)
  | [], _, _, h => .inl h
  | r :: regions, ts, hs, h => by
    simp only [addRegions, List.foldl_cons] at h
    rw [← addRegions] at h
    rcases mem_addRegions_new pid lid regions (addTarget_sorted _ hs) h with h | ⟨ha, hl, hr, hnot⟩
    · rcases mem_addTarget_new hs h with h | ⟨rfl, hnot⟩
      · exact .inl h
      · exact .inr ⟨rfl, rfl, List.mem_cons_self, hnot⟩
    · -- new after the first region, so new before it too
      refine .inr ⟨ha, hl, List.mem_cons_of_mem _ hr, ?_⟩
      rintro ⟨u, hu, hua, hur⟩
      exact hnot ((exists_key_addTarget _).mpr (.inl ⟨u, hu, hua, hur⟩))

/-- The targets of one more account: one per region when it has a physical id. -/
def addAccount (regions : List String) (ts : List Target) (e : Entity) : List Target :=
  match e.physicalId with
  | some pid => addRegions pid e.logicalId regions ts
  | none => ts

/-- The targets of some accounts: sorted; with the account ids and regions of the accounts that
have a physical id, in every region; each named after the account of smallest logical id with
its physical id. -/
structure TargetsOf (regions : List String) (es : List Entity) (ts : List Target) : Prop where
  sorted : TargetsSorted ts
  keys : ∀ a r, (∃ t ∈ ts, t.accountId = a ∧ t.region = r) ↔
    (∃ e ∈ es, e.physicalId = some a) ∧ r ∈ regions
  named : ∀ t ∈ ts, ∃ e ∈ es, e.logicalId = t.accountLogicalId ∧
    e.physicalId = some t.accountId ∧
    ∀ e' ∈ es, e'.physicalId = some t.accountId → e.logicalId ≤ e'.logicalId

theorem targetsOf_nil (regions : List String) : TargetsOf regions [] [] :=
  ⟨List.Pairwise.nil, by simp, by simp⟩

/-- Adding an account after accounts of smaller logical id keeps the targets those of all. -/
theorem TargetsOf.addAccount {regions : List String} {es : List Entity} {ts : List Target}
    (h : TargetsOf regions es ts) {e : Entity} (hlt : ∀ x ∈ es, x.logicalId < e.logicalId) :
    TargetsOf regions (es ++ [e]) (Binding.addAccount regions ts e) := by
  unfold Binding.addAccount
  split
  · rename_i pid hpid
    refine ⟨addRegions_sorted pid _ regions h.sorted, fun a r => ?_, fun t ht => ?_⟩
    · rw [exists_key_addRegions, h.keys]
      simp only [List.mem_append, List.mem_singleton]
      constructor
      · rintro (⟨⟨x, hx, hxa⟩, hr⟩ | ⟨rfl, hr⟩)
        · exact ⟨⟨x, .inl hx, hxa⟩, hr⟩
        · exact ⟨⟨e, .inr rfl, hpid⟩, hr⟩
      · rintro ⟨⟨x, hx | rfl, hxa⟩, hr⟩
        · exact .inl ⟨⟨x, hx, hxa⟩, hr⟩
        · rw [hpid] at hxa
          exact .inr ⟨Option.some.inj hxa, hr⟩
    · rcases mem_addRegions_new pid e.logicalId regions h.sorted ht with ht | ⟨ha, hl, hr, hnot⟩
      · -- an earlier target keeps its account, whose logical id is below `e`'s
        obtain ⟨x, hx, hxl, hxa, hmin⟩ := h.named t ht
        refine ⟨x, List.mem_append_left _ hx, hxl, hxa, fun e' he' hpe' => ?_⟩
        rcases List.mem_append.mp he' with he' | he'
        · exact hmin e' he' hpe'
        · rw [List.mem_singleton.mp he']
          exact (hlt x hx).le
      · -- a new target: no earlier account has its physical id
        refine ⟨e, List.mem_append_right _ (List.mem_singleton_self e), hl.symm, ha ▸ hpid,
          fun e' he' hpe' => ?_⟩
        rcases List.mem_append.mp he' with he' | he'
        · exact absurd ((h.keys pid t.region).mpr ⟨⟨e', he', ha ▸ hpe'⟩, hr⟩) hnot
        · rw [List.mem_singleton.mp he']
  · rename_i hpid
    refine ⟨h.sorted, fun a r => ?_, fun t ht => ?_⟩
    · rw [h.keys]
      simp [hpid]
    · obtain ⟨x, hx, hxl, hxa, hmin⟩ := h.named t ht
      refine ⟨x, List.mem_append_left _ hx, hxl, hxa, fun e' he' hpe' => ?_⟩
      rcases List.mem_append.mp he' with he' | he'
      · exact hmin e' he' hpe'
      · rw [List.mem_singleton.mp he', hpid] at hpe'
        cases hpe'

/-- Accounts in increasing logical-id order, each added in turn, give the targets of all. -/
theorem targetsOf_foldl (regions : List String) :
    ∀ (es pre : List Entity) (ts : List Target), TargetsOf regions pre ts →
      (∀ x ∈ pre, ∀ y ∈ es, x.logicalId < y.logicalId) →
      es.Pairwise (fun x y => x.logicalId < y.logicalId) →
      TargetsOf regions (pre ++ es) (es.foldl (addAccount regions) ts)
  | [], pre, ts, h, _, _ => by simpa using h
  | e :: es, pre, ts, h, hlt, hes => by
    obtain ⟨he, hes⟩ := List.pairwise_cons.mp hes
    have hnext := h.addAccount fun x hx => hlt x hx e List.mem_cons_self
    have hrest := targetsOf_foldl regions es (pre ++ [e]) _ hnext (fun x hx y hy => by
      rcases List.mem_append.mp hx with hx | hx
      · exact hlt x hx y (List.mem_cons_of_mem _ hy)
      · rw [List.mem_singleton.mp hx]
        exact he y hy) hes
    simpa using hrest

end Binding

/-! ## Resolving -/

namespace Binding

/-- Resolving, step by step: the regions, the selection, the exclusions, then the targets of
the accounts kept, in logical-id order. -/
theorem resolve_eq (o : Organization) (override : Option (List String)) (b : Binding) :
    b.resolve o override =
      if (regionSet override b).isEmpty then .error .missingRegion
      else selectAccounts o b >>= fun selected =>
        b.excludeAccounts.foldlM (excludeStep o) selected >>= fun kept =>
          pure ((kept.map Prod.snd).foldl (addAccount (regionSet override b)) []) := by
  have hstep : (fun t id => do
      let gone ← expand o (← lookupEntity o id)
      pure (gone.foldl (fun t e => Table.erase e.logicalId t) t)) = excludeStep o := by
    funext t id
    unfold excludeStep pick
    dsimp only
    cases lookupEntity o id <;> rfl
  unfold resolve
  dsimp only
  split
  · rfl
  · -- the targets are added account by account, in the order of the table
    rw [hstep]
    simp only [List.foldl_map]
    rfl

variable {o : Organization} (hw : o.WellFormed)
include hw

/-- The accounts kept by a table that holds the accounts a binding deploys to, in table order. -/
theorem mem_values_iff {b : Binding} {t : Table Entity} (h : t.Holds o (b.Deploys o)) {e : Entity} :
    e ∈ t.map Prod.snd ↔ b.Deploys o e := by
  constructor
  · intro he
    obtain ⟨⟨k, v⟩, hp, rfl⟩ := List.mem_map.mp he
    exact (h.mem_iff.mp hp).2
  · intro he
    have hent := he.1.mem_entities
    exact List.mem_map.mpr ⟨(e.logicalId, e), h.mem_iff.mpr ⟨hw.get?_of_mem hent, he⟩, rfl⟩

/-- After the regions, resolving fails with the first logical id naming no entity, selectors
first; otherwise the accounts kept are those the binding deploys to. -/
theorem resolve_accounts (override : Option (List String)) (b : Binding)
    (hR : (regionSet override b).isEmpty = false) :
    (∀ l, b.firstUnknown o = some l → b.resolve o override = .error (.unresolvableAccount l)) ∧
    (b.firstUnknown o = none → ∃ kept : Table Entity, kept.Holds o (b.Deploys o) ∧
      b.resolve o override =
        .ok ((kept.map Prod.snd).foldl (addAccount (regionSet override b)) [])) := by
  rw [resolve_eq, hR, if_neg (by simp)]
  obtain ⟨hselErr, hselOk⟩ := selectAccounts_spec hw b
  unfold firstUnknown
  rw [List.find?_append]
  cases hsel : b.selectorIds.find? (fun id => (o.get? id).isNone) with
  | some l =>
    refine ⟨fun l' hl' => ?_, fun h => by simp at h⟩
    simp only [Option.some_or, Option.some.injEq] at hl'
    subst hl'
    simp [hselErr l hsel, bind, Except.bind]
  | none =>
    obtain ⟨selected, hs, hholds⟩ := hselOk hsel
    obtain ⟨hexErr, hexOk⟩ := foldlM_excludeStep hw b.excludeAccounts hholds
    simp only [Option.none_or]
    refine ⟨fun l hl => ?_, fun hl => ?_⟩
    · simp [hs, hexErr l hl, bind, Except.bind]
    · obtain ⟨kept, hk, hkholds⟩ := hexOk hl
      exact ⟨kept, hkholds.congr fun v _ => Iff.rfl, by simp [hs, hk, bind, Except.bind, pure,
        Except.pure]⟩

end Binding

/-- What resolving a binding gives, by sets: `missingRegion` exactly when no region given is
non-blank; otherwise `unresolvableAccount` with the first logical id naming no entity, selectors
before exclusions; otherwise targets strictly increasing by account id and region, whose account
ids and regions are exactly the physical ids of the accounts the binding deploys to in every
non-blank region given, each named after the account of smallest logical id with its physical
id. -/
structure Binding.ResolvesBySets (o : Organization) (override : Option (List String))
    (b : Binding) : Prop where
  missing_region : b.resolve o override = .error .missingRegion ↔
    ∀ r ∈ b.givenRegions override, allBlank r = true
  unresolvable : ∀ l, b.resolve o override = .error (.unresolvableAccount l) ↔
    (∃ r ∈ b.givenRegions override, allBlank r = false) ∧ b.firstUnknown o = some l
  targets : (∃ r ∈ b.givenRegions override, allBlank r = false) → b.firstUnknown o = none →
    ∃ ts, b.resolve o override = .ok ts ∧ TargetsSorted ts ∧
      (∀ a r, (∃ t ∈ ts, t.accountId = a ∧ t.region = r) ↔
        (∃ e, b.Deploys o e ∧ e.physicalId = some a) ∧
          r ∈ b.givenRegions override ∧ allBlank r = false) ∧
      ∀ t ∈ ts, ∃ e, b.Deploys o e ∧ e.logicalId = t.accountLogicalId ∧
        e.physicalId = some t.accountId ∧
        ∀ e', b.Deploys o e' → e'.physicalId = some t.accountId → e.logicalId ≤ e'.logicalId

/-- Every binding resolves by sets against an organization that `build` accepts. -/
theorem resolve_set_semantics {master : Option Entity} {accounts units : List Entity}
    {o : Organization} (ho : Organization.build master accounts units = .ok o)
    (override : Option (List String)) (b : Binding) : b.ResolvesBySets o override := by
  have hw := Organization.build_wellFormed ho
  -- the regions decide first
  cases hR : (Binding.regionSet override b).isEmpty with
  | true =>
    have hnone : ¬ ∃ r ∈ b.givenRegions override, allBlank r = false := by
      rw [← Binding.regionSet_isEmpty_eq_false, hR]
      simp
    have hres : b.resolve o override = .error .missingRegion := by
      rw [Binding.resolve_eq, hR, if_pos rfl]
    refine ⟨⟨fun _ => Binding.regionSet_isEmpty.mp hR, fun _ => hres⟩, fun l => ?_,
      fun hsome => absurd hsome hnone⟩
    simp only [hres, Except.error.injEq, reduceCtorEq, false_iff, not_and]
    exact fun hsome => absurd hsome hnone
  | false =>
    have hsome := Binding.regionSet_isEmpty_eq_false.mp hR
    obtain ⟨herr, hok⟩ := Binding.resolve_accounts hw override b hR
    -- the two errors exclude each other, and a success excludes both
    have hnotMissing : b.resolve o override ≠ .error .missingRegion := by
      intro hm
      cases hf : b.firstUnknown o with
      | some l => rw [herr l hf] at hm; cases hm
      | none =>
        obtain ⟨kept, -, hk⟩ := hok hf
        rw [hk] at hm; cases hm
    refine ⟨⟨fun h => absurd h hnotMissing, fun hall => ?_⟩, fun l => ⟨fun h => ⟨hsome, ?_⟩,
      fun hl => herr l hl.2⟩, fun _ hnone => ?_⟩
    · obtain ⟨r, hr, hnb⟩ := hsome
      rw [hall r hr] at hnb
      cases hnb
    · cases hf : b.firstUnknown o with
      | some l' => rw [herr l' hf] at h; cases h; rfl
      | none =>
        obtain ⟨kept, -, hk⟩ := hok hf
        rw [hk] at h; cases h
    · obtain ⟨kept, hkholds, hk⟩ := hok hnone
      have htargets := Binding.targetsOf_foldl (Binding.regionSet override b) (kept.map Prod.snd)
        [] [] (Binding.targetsOf_nil _) (by simp) hkholds.values_pairwise
      rw [List.nil_append] at htargets
      refine ⟨_, hk, htargets.sorted, fun a r => ?_, fun t ht => ?_⟩
      · rw [htargets.keys, Binding.mem_regionSet]
        simp only [Binding.mem_values_iff hw hkholds]
      · obtain ⟨e, he, hel, hea, hmin⟩ := htargets.named t ht
        exact ⟨e, (Binding.mem_values_iff hw hkholds).mp he, hel, hea,
          fun e' he' hpe' => hmin e' ((Binding.mem_values_iff hw hkholds).mpr he') hpe'⟩

/-- An organizational unit and a tag selector with an exclusion, the master asked for, two
accounts sharing a physical id, an unbound account, and a blank region given beside a real
one. -/
theorem workloads_resolve_set_semantics :
    let master : Option Entity :=
      some { logicalId := "Master", physicalId := some "100", tags := [("env", "prod")] }
    let accounts : List Entity :=
      [{ logicalId := "Prod", physicalId := some "300", tags := [("env", "prod")] },
       { logicalId := "Dev", physicalId := some "200", tags := [("env", "dev")] },
       { logicalId := "Sandbox", physicalId := some "200", tags := [("env", "dev")] },
       { logicalId := "Pending", tags := [("env", "dev")] }]
    let units : List Entity := [{ logicalId := "Workloads", members := ["Dev", "Prod"] }]
    ∃ o, Organization.build master accounts units = .ok o ∧
      Binding.ResolvesBySets o none
        { accounts := some (.list [.logicalId "Workloads", .tags [("env", "dev")]]),
          excludeAccounts := ["Prod"], regions := some ["eu-west-1", " "], includeMaster := true } := by
  intro master accounts units
  obtain ⟨o, ho⟩ : ∃ o, Organization.build master accounts units = .ok o := ⟨_, rfl⟩
  exact ⟨o, ho, resolve_set_semantics ho _ _⟩

end OrgDeploy
