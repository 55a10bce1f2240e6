import Mathlib.Data.Finmap
import Mathlib.Data.Finset.Sort

/-!
# Finite tables of records stored under their own key

A table whose records carry their key can be given a type in which a record
filed under a foreign key does not exist.  Two tables with the same lookups are
equal, and every summary of a table taken over its unordered records depends on
the lookups alone.
-/

universe u v w

/-- A finite map from keys to records in which every record is stored under its
own key. -/
structure Indexed {κ : Type u} {ν : Type v} (key : ν → κ) where
  /-- The underlying finite map. -/
  table : Finmap fun _ : κ => ν
  /-- Every stored record carries the key it is stored under. -/
  keyed : ∀ k value, ⟨k, value⟩ ∈ table.entries → key value = k

namespace Indexed

variable {κ : Type u} {ν : Type v} {key : ν → κ}

/-- The set of keys in use. -/
def keys (records : Indexed key) : Finset κ :=
  records.table.keys

/-- The number of records. -/
def size (records : Indexed key) : Nat :=
  records.keys.card

/-- The table without records. -/
def empty : Indexed key where
  table := ∅
  keyed := by
    intro k value member
    exact absurd member (Multiset.notMem_zero _)

@[simp] theorem keys_empty : (empty : Indexed key).keys = ∅ := rfl

/-- Keep the records satisfying a predicate. -/
def filter (keep : ν → Bool) (records : Indexed key) : Indexed key where
  table :=
    { entries := records.table.entries.filter fun entry => keep entry.2
      nodupKeys := Multiset.nodup_keys.mp
        (Multiset.nodup_of_le
          (Multiset.map_le_map (Multiset.filter_le _ _))
          records.table.nodupKeys.nodup_keys) }
  keyed := by
    intro k value member
    exact records.keyed k value (Multiset.mem_of_mem_filter member)

/-- Rewrite every record, leaving its key alone. -/
def map (rewrite : ν → ν) (keepsKey : ∀ value, key (rewrite value) = key value)
    (records : Indexed key) : Indexed key where
  table :=
    { entries := records.table.entries.map
        fun entry => (⟨entry.1, rewrite entry.2⟩ : Sigma fun _ : κ => ν)
      nodupKeys := Multiset.nodup_keys.mp (by
        have same : Multiset.keys (records.table.entries.map
            fun entry => (⟨entry.1, rewrite entry.2⟩ : Sigma fun _ : κ => ν)) =
              records.table.entries.keys := by
          simp [Multiset.keys, Multiset.map_map]
        rw [same]
        exact records.table.nodupKeys.nodup_keys) }
  keyed := by
    intro k value member
    obtain ⟨entry, present, equal⟩ := Multiset.mem_map.mp member
    cases equal
    rw [keepsKey]
    exact records.keyed _ _ present

variable [DecidableEq κ]

/-- The record stored under a key. -/
def lookup (k : κ) (records : Indexed key) : Option ν :=
  records.table.lookup k

/-- The records, in no particular order. -/
def values (records : Indexed key) : Multiset ν :=
  records.keys.val.filterMap fun k => records.lookup k

/-- The records in ascending order of their keys. -/
def sorted [LinearOrder κ] (records : Indexed key) : List ν :=
  (records.keys.sort (· ≤ ·)).filterMap fun k => records.lookup k

/-- Store a record under its own key, replacing the record that was there. -/
def insert (value : ν) (records : Indexed key) : Indexed key where
  table := records.table.insert (key value) value
  keyed := by
    intro k other member
    have found := Finmap.mem_lookup_iff.mpr member
    by_cases same : k = key value
    · subst same
      rw [Finmap.lookup_insert] at found
      cases found
      rfl
    · rw [Finmap.lookup_insert_of_ne _ same] at found
      exact records.keyed k other (Finmap.mem_lookup_iff.mp found)

/-- Forget the record stored under a key. -/
def erase (k : κ) (records : Indexed key) : Indexed key where
  table := records.table.erase k
  keyed := by
    intro k' value member
    have found := Finmap.mem_lookup_iff.mpr member
    by_cases same : k' = k
    · subst same
      rw [Finmap.lookup_erase] at found
      cases found
    · rw [Finmap.lookup_erase_ne same] at found
      exact records.keyed k' value (Finmap.mem_lookup_iff.mp found)

/-- Store every record of a list, a later record replacing an earlier one with
its key. -/
def ofList (values : List ν) : Indexed key :=
  values.foldl (fun records value => records.insert value) empty

/-! ## Lookups -/

theorem lookup_eq_some_iff {records : Indexed key} {k : κ} {value : ν} :
    records.lookup k = some value ↔
      (⟨k, value⟩ : Sigma fun _ : κ => ν) ∈ records.table.entries :=
  Finmap.mem_lookup_iff

/-- A record found under a key carries that key. -/
theorem key_of_lookup {records : Indexed key} {k : κ} {value : ν}
    (found : records.lookup k = some value) : key value = k :=
  records.keyed k value (lookup_eq_some_iff.mp found)

/-- Tables with the same lookups are equal. -/
@[ext] theorem ext {left right : Indexed key}
    (same : ∀ k, left.lookup k = right.lookup k) : left = right := by
  have tables : left.table = right.table := Finmap.ext_lookup same
  cases left
  cases right
  cases tables
  rfl

@[simp] theorem lookup_empty (k : κ) :
    (empty : Indexed key).lookup k = none := rfl

theorem lookup_insert (value : ν) (records : Indexed key) (k : κ) :
    (records.insert value).lookup k =
      if k = key value then some value else records.lookup k := by
  split
  case isTrue same =>
    subst same
    exact Finmap.lookup_insert _
  case isFalse different => exact Finmap.lookup_insert_of_ne _ different

@[simp] theorem lookup_insert_self (value : ν) (records : Indexed key) :
    (records.insert value).lookup (key value) = some value := by
  simp [lookup_insert]

theorem lookup_insert_of_ne {value : ν} {k : κ} (records : Indexed key)
    (different : k ≠ key value) :
    (records.insert value).lookup k = records.lookup k := by
  simp [lookup_insert, different]

/-- Only the last record stored under a key counts. -/
theorem insert_insert {first second : ν} (records : Indexed key)
    (same : key first = key second) :
    (records.insert first).insert second = records.insert second := by
  ext1 k
  rw [lookup_insert, lookup_insert, lookup_insert, same]
  split <;> rfl

theorem lookup_erase (k : κ) (records : Indexed key) (k' : κ) :
    (records.erase k).lookup k' =
      if k' = k then none else records.lookup k' := by
  split
  case isTrue same =>
    subst same
    exact Finmap.lookup_erase _ _
  case isFalse different => exact Finmap.lookup_erase_ne different

@[simp] theorem lookup_filter (keep : ν → Bool) (records : Indexed key) (k : κ) :
    (records.filter keep).lookup k = (records.lookup k).filter keep := by
  ext value
  rw [lookup_eq_some_iff, Option.filter_eq_some_iff, lookup_eq_some_iff]
  simp [filter]

@[simp] theorem lookup_map (rewrite : ν → ν)
    (keepsKey : ∀ value, key (rewrite value) = key value)
    (records : Indexed key) (k : κ) :
    (records.map rewrite keepsKey).lookup k =
      (records.lookup k).map rewrite := by
  ext value
  rw [lookup_eq_some_iff, Option.map_eq_some_iff]
  simp [map, lookup_eq_some_iff]

/-! ## Keys and sizes -/

theorem mem_keys_iff {records : Indexed key} {k : κ} :
    k ∈ records.keys ↔ ∃ value, records.lookup k = some value := by
  rw [keys, Finmap.mem_keys, Finmap.mem_iff]
  rfl

theorem mem_keys_of_lookup {records : Indexed key} {k : κ} {value : ν}
    (found : records.lookup k = some value) : k ∈ records.keys :=
  mem_keys_iff.mpr ⟨value, found⟩

theorem notMem_keys_iff {records : Indexed key} {k : κ} :
    k ∉ records.keys ↔ records.lookup k = none := by
  rw [mem_keys_iff]
  cases records.lookup k <;> simp

@[simp] theorem keys_insert (value : ν) (records : Indexed key) :
    (records.insert value).keys = Insert.insert (key value) records.keys := by
  ext k
  rw [mem_keys_iff, lookup_insert, Finset.mem_insert, mem_keys_iff]
  split <;> simp_all

theorem keys_insert_of_mem {value : ν} {records : Indexed key}
    (present : key value ∈ records.keys) :
    (records.insert value).keys = records.keys := by
  rw [keys_insert, Finset.insert_eq_self.mpr present]

@[simp] theorem keys_map (rewrite : ν → ν)
    (keepsKey : ∀ value, key (rewrite value) = key value)
    (records : Indexed key) :
    (records.map rewrite keepsKey).keys = records.keys := by
  ext k
  simp [mem_keys_iff]

@[simp] theorem keys_erase (k : κ) (records : Indexed key) :
    (records.erase k).keys = records.keys.erase k := by
  ext k'
  rw [mem_keys_iff, lookup_erase, Finset.mem_erase, mem_keys_iff]
  split <;> simp_all

theorem size_erase_lt {records : Indexed key} {k : κ} {value : ν}
    (found : records.lookup k = some value) :
    (records.erase k).size < records.size := by
  rw [size, size, keys_erase]
  exact Finset.card_erase_lt_of_mem (mem_keys_of_lookup found)

/-! ## Summaries of the records -/

theorem mem_sorted_iff [LinearOrder κ] {records : Indexed key} {value : ν} :
    value ∈ records.sorted ↔ records.lookup (key value) = some value := by
  rw [sorted, List.mem_filterMap]
  constructor
  · rintro ⟨k, _, found⟩
    rwa [key_of_lookup found]
  · intro found
    exact ⟨key value,
      (Finset.mem_sort _).mpr (mem_keys_of_lookup found), found⟩

theorem mem_values_iff {records : Indexed key} {value : ν} :
    value ∈ records.values ↔ records.lookup (key value) = some value := by
  rw [values, Multiset.mem_filterMap]
  constructor
  · rintro ⟨k, _, found⟩
    rwa [key_of_lookup found]
  · intro found
    exact ⟨key value, mem_keys_of_lookup found, found⟩

theorem filterMap_eq_map_of_forall {α : Type u} {β : Type v}
    {items : Multiset α} {partly : α → Option β} {total : α → β}
    (agrees : ∀ item ∈ items, partly item = some (total item)) :
    items.filterMap partly = items.map total := by
  induction items using Multiset.induction_on with
  | empty => rfl
  | cons item items inductionHypothesis =>
      rw [Multiset.filterMap_cons_some _ _ _
          (agrees item (Multiset.mem_cons_self _ _)),
        Multiset.map_cons, inductionHypothesis fun other member =>
          agrees other (Multiset.mem_cons_of_mem member)]

/-- A summary of the records whose observation is a function of the key. -/
theorem map_values_eq_of_forall {α : Type w} {records : Indexed key}
    (observe : ν → α) (summary : κ → α)
    (agrees : ∀ k value, records.lookup k = some value →
      observe value = summary k) :
    records.values.map observe = records.keys.val.map summary := by
  rw [values, Multiset.map_filterMap]
  refine filterMap_eq_map_of_forall fun k member => ?_
  obtain ⟨value, found⟩ := mem_keys_iff.mp member
  rw [found, Option.map_some, agrees k value found]

/-! ## Tables from lists -/

/-- Storing records of a table one after the other copies exactly the keys that
were stored. -/
theorem lookup_foldl_insert {records : Indexed key} (copied : List ν)
    (start : Indexed key)
    (agrees : ∀ value ∈ copied, records.lookup (key value) = some value)
    (k : κ) :
    (copied.foldl (fun table value => table.insert value) start).lookup k =
      if k ∈ copied.map key then records.lookup k else start.lookup k := by
  induction copied generalizing start with
  | nil => simp
  | cons value copied inductionHypothesis =>
      rw [List.foldl_cons, inductionHypothesis _ fun other member =>
        agrees other (List.mem_cons_of_mem _ member), List.map_cons,
        lookup_insert]
      by_cases here : k = key value
      · subst here
        simp [agrees value List.mem_cons_self]
      · simp [here]

/-- A table is rebuilt from the list of its records. -/
@[simp] theorem ofList_sorted [LinearOrder κ] (records : Indexed key) :
    ofList records.sorted = records := by
  ext1 k
  rw [ofList, lookup_foldl_insert records.sorted empty
    (fun value member => mem_sorted_iff.mp member), lookup_empty]
  split
  case isTrue => rfl
  case isFalse absent =>
    symm
    refine notMem_keys_iff.mp fun member => ?_
    obtain ⟨value, found⟩ := mem_keys_iff.mp member
    refine absent (List.mem_map.mpr ⟨value, ?_, key_of_lookup found⟩)
    exact mem_sorted_iff.mpr (key_of_lookup found ▸ found)

end Indexed
