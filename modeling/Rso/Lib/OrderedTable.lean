import Mathlib.Data.List.Nodup

/-!
# Insertion-ordered tables

A table binds keys to values and remembers in which order the keys were bound.
It is a list of entries whose keys are pairwise distinct, and carries that fact,
so a table with a repeated key cannot be built.

`append` binds a fresh key last, `erase` drops one key and keeps the others in
their order, and `lookup` reads the value of a key.
-/

namespace Rso

/-- An insertion-ordered table from keys to values. -/
structure OrderedTable (κ ν : Type) where
  /-- The entries, oldest first. -/
  entries : List (κ × ν)
  /-- No key is bound twice. -/
  nodup : (entries.map Prod.fst).Nodup

namespace OrderedTable

variable {κ ν : Type}

/-- The table with no entry. -/
def empty : OrderedTable κ ν := ⟨[], List.nodup_nil⟩

/-- The keys, in the order in which they were bound. -/
def keys (t : OrderedTable κ ν) : List κ := t.entries.map Prod.fst

theorem keys_nodup (t : OrderedTable κ ν) : t.keys.Nodup := t.nodup

@[simp] theorem keys_empty : (empty : OrderedTable κ ν).keys = [] := rfl

/-- Bind a fresh key, last in the order. -/
def append (t : OrderedTable κ ν) (k : κ) (v : ν) (h : k ∉ t.keys) : OrderedTable κ ν where
  entries := t.entries ++ [(k, v)]
  nodup := by
    rw [List.map_append]
    exact List.Nodup.append t.nodup (List.nodup_singleton k) (by simpa [keys] using h)

@[simp] theorem append_entries (t : OrderedTable κ ν) (k : κ) (v : ν) (h : k ∉ t.keys) :
    (t.append k v h).entries = t.entries ++ [(k, v)] := rfl

@[simp] theorem append_keys (t : OrderedTable κ ν) (k : κ) (v : ν) (h : k ∉ t.keys) :
    (t.append k v h).keys = t.keys ++ [k] := by
  simp [keys]

variable [DecidableEq κ]

/-- Drop a key.  The other entries keep their order. -/
def erase (t : OrderedTable κ ν) (k : κ) : OrderedTable κ ν where
  entries := t.entries.filter fun e => e.1 ≠ k
  nodup := t.nodup.sublist (List.filter_sublist.map Prod.fst)

/-- The value of a key. -/
def lookup (t : OrderedTable κ ν) (k : κ) : Option ν := t.entries.lookup k

theorem erase_keys (t : OrderedTable κ ν) (k : κ) : (t.erase k).keys = t.keys.erase k := by
  rw [t.keys_nodup.erase_eq_filter, keys, keys, erase, List.filter_map]
  congr 1
  exact List.filter_congr fun e _ => by by_cases h : e.1 = k <;> simp [h]

/-- Dropping the oldest key drops the first entry and nothing else. -/
theorem erase_head {t : OrderedTable κ ν} {k : κ} (h : t.keys.head? = some k) :
    (t.erase k).keys = t.keys.tail := by
  rw [erase_keys]
  cases hk : t.keys with
  | nil => rfl
  | cons a as =>
      rw [hk] at h
      cases h
      simp

@[simp] theorem lookup_empty (k : κ) : (empty : OrderedTable κ ν).lookup k = none := rfl

/-- The entries of a table are the graph of its lookup. -/
theorem mem_entries_iff (t : OrderedTable κ ν) (k : κ) (v : ν) :
    (k, v) ∈ t.entries ↔ t.lookup k = some v := by
  obtain ⟨entries, nodup⟩ := t
  show (k, v) ∈ entries ↔ entries.lookup k = some v
  induction entries with
  | nil => simp
  | cons e es ih =>
      obtain ⟨k', v'⟩ := e
      rw [List.map_cons, List.nodup_cons] at nodup
      rcases eq_or_ne k k' with rfl | hk
      · have hnot : (k, v) ∉ es := fun hm => nodup.1 (List.mem_map.mpr ⟨(k, v), hm, rfl⟩)
        simp [hnot, eq_comm]
      · have hbeq : (k == k') = false := by simpa using hk
        rw [List.lookup_cons, hbeq, List.mem_cons, ← ih nodup.2]
        simp [hk]

theorem mem_keys_of_lookup {t : OrderedTable κ ν} {k : κ} {v : ν} (h : t.lookup k = some v) :
    k ∈ t.keys :=
  List.mem_map.mpr ⟨(k, v), (t.mem_entries_iff k v).mpr h, rfl⟩

theorem lookup_eq_none_iff (t : OrderedTable κ ν) (k : κ) : t.lookup k = none ↔ k ∉ t.keys := by
  rw [Option.eq_none_iff_forall_ne_some]
  constructor
  · intro h hk
    obtain ⟨⟨k', v⟩, hmem, rfl⟩ := List.mem_map.mp hk
    exact h v ((t.mem_entries_iff _ v).mp hmem)
  · intro h v hv
    exact h (mem_keys_of_lookup hv)

theorem exists_lookup {t : OrderedTable κ ν} {k : κ} (h : k ∈ t.keys) :
    ∃ v, t.lookup k = some v := by
  cases hv : t.lookup k with
  | none => exact absurd h ((t.lookup_eq_none_iff k).mp hv)
  | some v => exact ⟨v, rfl⟩

theorem lookup_append (t : OrderedTable κ ν) (k : κ) (v : ν) (h : k ∉ t.keys) (k' : κ) :
    (t.append k v h).lookup k' = if k' = k then some v else t.lookup k' := by
  ext w
  rw [← mem_entries_iff, append_entries, List.mem_append, List.mem_singleton, mem_entries_iff]
  rcases eq_or_ne k' k with rfl | hk
  · simp [(t.lookup_eq_none_iff k').mpr h, eq_comm]
  · simp [hk]

theorem lookup_erase (t : OrderedTable κ ν) (k k' : κ) :
    (t.erase k).lookup k' = if k' = k then none else t.lookup k' := by
  ext w
  rw [← mem_entries_iff, erase, List.mem_filter, mem_entries_iff]
  rcases eq_or_ne k' k with hk | hk
  · simp [hk]
  · simp [hk]

end OrderedTable

end Rso
