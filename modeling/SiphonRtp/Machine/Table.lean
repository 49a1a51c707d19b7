import Mathlib.Data.List.AList

/-!
# Tables

Finite maps with one entry per key, as association lists of Mathlib (`AList`), with the operations a
map of a program has besides them: `modify` changes the value of a key in place, `mapValues` every
value, and `retain` drops the entries that fail a test. Each operation is described by what it does
to `lookup`.
-/

set_option autoImplicit false

namespace SiphonRtp.Machine

/-- A finite map from keys to values. -/
abbrev Table (κ ν : Type*) := AList fun _ : κ ↦ ν

namespace Table

variable {κ ν : Type*}

/-- Every value changed by a function of its key. -/
def mapValues (change : κ → ν → ν) (table : Table κ ν) : Table κ ν where
  entries := table.entries.map fun entry ↦ ⟨entry.1, change entry.1 entry.2⟩
  nodupKeys := by
    have hkeys : (table.entries.map fun entry ↦
        (⟨entry.1, change entry.1 entry.2⟩ : Sigma fun _ : κ ↦ ν)).keys = table.entries.keys := by
      simp [List.keys, Function.comp_def]
    unfold List.NodupKeys
    rw [hkeys]
    exact table.nodupKeys

/-- The entries that pass a test. -/
def retain (keep : κ → ν → Bool) (table : Table κ ν) : Table κ ν where
  entries := table.entries.filter fun entry ↦ keep entry.1 entry.2
  nodupKeys := table.nodupKeys.sublist List.filter_sublist

variable [DecidableEq κ]

/-- The value of a key changed, if it has one. -/
def modify (key : κ) (change : ν → ν) (table : Table κ ν) : Table κ ν :=
  match table.lookup key with
  | some value => table.insert key (change value)
  | none => table

/-! ### Lookup -/

theorem lookup_insert_apply (key other : κ) (value : ν) (table : Table κ ν) :
    (table.insert key value).lookup other =
      if other = key then some value else table.lookup other := by
  split_ifs with heq
  · rw [heq]
    exact AList.lookup_insert table
  · exact AList.lookup_insert_ne heq

theorem lookup_erase_apply (key other : κ) (table : Table κ ν) :
    (table.erase key).lookup other = if other = key then none else table.lookup other := by
  split_ifs with heq
  · rw [heq]
    exact AList.lookup_erase key table
  · exact AList.lookup_erase_ne heq

theorem lookup_modify (key other : κ) (change : ν → ν) (table : Table κ ν) :
    (table.modify key change).lookup other =
      if other = key then (table.lookup other).map change else table.lookup other := by
  unfold modify
  split
  · rename_i value hvalue
    rw [lookup_insert_apply]
    split_ifs with heq
    · rw [heq, hvalue, Option.map_some]
    · rfl
  · rename_i hnone
    split_ifs with heq
    · rw [heq, hnone, Option.map_none]
    · rfl

theorem lookup_mapValues (change : κ → ν → ν) (table : Table κ ν) (key : κ) :
    (table.mapValues change).lookup key = (table.lookup key).map (change key) := by
  ext value
  rw [← Option.mem_def, AList.mem_lookup_iff, Option.map_eq_some_iff]
  constructor
  · intro hmem
    obtain ⟨entry, hentry, heq⟩ := List.mem_map.mp hmem
    obtain ⟨rfl, hvalue⟩ := Sigma.mk.inj heq
    exact ⟨entry.2, AList.mem_lookup_iff.mpr hentry, eq_of_heq hvalue⟩
  · rintro ⟨old, hold, rfl⟩
    exact List.mem_map.mpr ⟨⟨key, old⟩, AList.mem_lookup_iff.mp hold, rfl⟩

theorem lookup_retain (keep : κ → ν → Bool) (table : Table κ ν) (key : κ) :
    (table.retain keep).lookup key = (table.lookup key).filter (keep key) := by
  ext value
  rw [← Option.mem_def, AList.mem_lookup_iff, Option.filter_eq_some_iff, ← Option.mem_def,
    AList.mem_lookup_iff]
  exact List.mem_filter

theorem lookup_foldl_insert (keys : List κ) (value : ν) (table : Table κ ν) (key : κ) :
    (keys.foldl (fun table other ↦ table.insert other value) table).lookup key =
      if key ∈ keys then some value else table.lookup key := by
  induction keys generalizing table with
  | nil => simp
  | cons first rest ih =>
    rw [List.foldl_cons, ih, lookup_insert_apply]
    by_cases hfirst : key = first
    · simp [hfirst]
    · simp [hfirst]

end Table

end SiphonRtp.Machine
