import OrgDeploy.Json.Decode

/-!
# Targets

A target is one (account, region) destination of a deployment, with the logical id of the
account. Targets are ordered by account id, then region, then logical id; persisted records are
keyed by `account_id/region`.

## Tables

Records, bindings and definitions are kept in `Table`s, as the persisted state keeps them in
sorted maps: a `Table β` is a finite map from strings to `β`, kept as a list of pairs in
increasing key order with distinct keys, so that walking it visits keys in sorted order.
`insert` replaces the value of an existing key; `erase` removes a key.

Source: `orgform-organization/src/target.rs:1-47`; the sorted maps of
`orgform-state/src/types.rs:41-57`.
-/

namespace OrgDeploy

open OrgDeploy.Json

/-- One deployment destination. -/
structure Target where
  accountId : String
  region : String
  accountLogicalId : String
  deriving DecidableEq, Repr, Inhabited

/-- The key of an account and region in persisted state: `account_id/region`. -/
def targetKey (accountId region : String) : String := accountId ++ "/" ++ region

namespace Target

/-- The persisted key of a target. -/
def key (t : Target) : String := targetKey t.accountId t.region

/-- How a target is named in messages. -/
def display (t : Target) : String :=
  s!"account {t.accountLogicalId} ({t.accountId}) in {t.region}"

/-- Targets in order of account id, then region, then logical id. -/
def compare (a b : Target) : Ordering :=
  (Ord.compare a.accountId b.accountId).then
    ((Ord.compare a.region b.region).then (Ord.compare a.accountLogicalId b.accountLogicalId))

instance : Ord Target := ⟨Target.compare⟩

/-- A target as JSON. -/
def toJson (t : Target) : Value :=
  .obj [("account_id", .str t.accountId), ("region", .str t.region),
        ("account_logical_id", .str t.accountLogicalId)]

/-- The JSON shape of a target. -/
def shape : Shape Target where
  name := "struct Target"
  init := ⟨"", "", ""⟩
  fields := [
    Field.need "account_id" Decoder.string fun v t => { t with accountId := v },
    Field.need "region" Decoder.string fun v t => { t with region := v },
    Field.need "account_logical_id" Decoder.string fun v t => { t with accountLogicalId := v }]

/-- Decodes a target. -/
def decoder : Decoder Target := Decoder.record shape

end Target

/-- A finite map from strings, sorted by key. -/
abbrev Table (β : Type) := List (String × β)

namespace Table

/-- The value of a key. -/
def get? (t : Table β) (k : String) : Option β := t.lookup k

/-- Sets the value of a key, keeping the keys sorted. -/
def insert (k : String) (v : β) : Table β → Table β
  | [] => [(k, v)]
  | (k', v') :: rest =>
    if k < k' then (k, v) :: (k', v') :: rest
    else if k = k' then (k, v) :: rest
    else (k', v') :: insert k v rest

/-- Removes a key. -/
def erase (k : String) (t : Table β) : Table β := t.filter (·.1 != k)

/-- The keys in order. -/
def keys (t : Table β) : List String := t.map Prod.fst

/-- The values in key order. -/
def values (t : Table β) : List β := t.map Prod.snd

/-- A table from pairs in any order; of equal keys the last one stays. -/
def ofList (pairs : List (String × β)) : Table β :=
  pairs.foldl (fun t (k, v) => insert k v t) []

@[simp] theorem get?_nil (k : String) : get? ([] : Table β) k = none := rfl

theorem mem_of_get? {t : Table β} {k : String} {v : β} (h : t.get? k = some v) : (k, v) ∈ t := by
  obtain ⟨l₁, l₂, rfl, -⟩ := List.lookup_eq_some_iff.mp h
  simp

end Table

end OrgDeploy
