import Mathlib.Data.List.Basic
import Mathlib.Data.List.Nodup

/-! The JavaScript `Map`: entries in the order their keys were first set. Setting a
key again keeps its place; deleting and setting it moves it to the end. -/
namespace NestStorageExample.Collections
variable {κ ν : Type}

structure InsertionMap (κ ν : Type) where
  entries : List (κ × ν)
  nodup : (entries.map Prod.fst).Nodup

namespace InsertionMap

def empty : InsertionMap κ ν := ⟨[], List.nodup_nil⟩

def keys (m : InsertionMap κ ν) : List κ := m.entries.map Prod.fst

def size (m : InsertionMap κ ν) : Nat := m.entries.length

theorem size_eq (m : InsertionMap κ ν) : m.size = m.keys.length := by
  rw [size, keys, List.length_map]

theorem keys_nodup (m : InsertionMap κ ν) : m.keys.Nodup := m.nodup

variable [DecidableEq κ]

def get (m : InsertionMap κ ν) (k : κ) : Option ν :=
  (m.entries.find? (fun e => e.1 = k)).map Prod.snd

def setEntries (entries : List (κ × ν)) (k : κ) (v : ν) : List (κ × ν) :=
  if k ∈ entries.map Prod.fst then entries.map (fun e => if e.1 = k then (k, v) else e) else entries ++ [(k, v)]

theorem map_fst_setEntries (entries : List (κ × ν)) (k : κ) (v : ν) :
    (setEntries entries k v).map Prod.fst =
      if k ∈ entries.map Prod.fst then entries.map Prod.fst else entries.map Prod.fst ++ [k] := by
  unfold setEntries
  split
  · rw [List.map_map]
    apply List.map_congr_left
    intro e _
    simp only [Function.comp_apply]
    split
    · exact Eq.symm ‹_›
    · rfl
  · simp

def set (m : InsertionMap κ ν) (k : κ) (v : ν) : InsertionMap κ ν where
  entries := setEntries m.entries k v
  nodup := by
    rw [map_fst_setEntries]
    split
    · exact m.nodup
    · rename_i h
      exact List.Nodup.append m.nodup (List.nodup_singleton k) (List.disjoint_singleton.mpr h)

def delete (m : InsertionMap κ ν) (k : κ) : InsertionMap κ ν where
  entries := m.entries.filter (fun e => e.1 ≠ k)
  nodup := m.nodup.sublist (List.filter_sublist.map _)

theorem keys_set_of_mem {m : InsertionMap κ ν} {k : κ} (h : k ∈ m.keys) (v : ν) : (m.set k v).keys = m.keys := by
  change (setEntries m.entries k v).map Prod.fst = _
  rw [map_fst_setEntries]
  exact if_pos h

theorem keys_set_of_not_mem {m : InsertionMap κ ν} {k : κ} (h : k ∉ m.keys) (v : ν) :
    (m.set k v).keys = m.keys ++ [k] := by
  change (setEntries m.entries k v).map Prod.fst = _
  rw [map_fst_setEntries]
  exact if_neg h

@[simp] theorem keys_delete (m : InsertionMap κ ν) (k : κ) : (m.delete k).keys = m.keys.filter (· ≠ k) := by
  change (m.entries.filter (fun e => e.1 ≠ k)).map Prod.fst = _
  rw [keys, List.filter_map]
  rfl

theorem get_eq_some_iff (m : InsertionMap κ ν) (k : κ) (v : ν) : m.get k = some v ↔ (k, v) ∈ m.entries := by
  have hnodup := m.nodup
  unfold get
  generalize m.entries = entries at hnodup ⊢
  induction entries with
  | nil => simp
  | cons e entries ih =>
    rw [List.map_cons, List.nodup_cons] at hnodup
    rw [List.find?_cons, List.mem_cons]
    by_cases he : e.1 = k
    · have hout : (k, v) ∉ entries := fun h => hnodup.1 (he ▸ List.mem_map_of_mem h)
      rw [decide_eq_true he]
      constructor
      · intro h
        cases h
        exact Or.inl (by rw [← he])
      · rintro (rfl | h)
        · rfl
        · exact absurd h hout
    · rw [decide_eq_false he]
      simp only [ih hnodup.2]
      constructor
      · exact Or.inr
      · rintro (rfl | h)
        · exact absurd rfl he
        · exact h

theorem get_eq_none_iff (m : InsertionMap κ ν) (k : κ) : m.get k = none ↔ k ∉ m.keys := by
  simp only [get, keys, Option.map_eq_none_iff, List.find?_eq_none, decide_eq_true_eq, List.mem_map, not_exists,
    not_and]

theorem get_isSome_iff (m : InsertionMap κ ν) (k : κ) : (m.get k).isSome = true ↔ k ∈ m.keys := by
  rw [Option.isSome_iff_ne_none, ne_eq, get_eq_none_iff, not_not]

theorem mem_setEntries_iff (entries : List (κ × ν)) (k k' : κ) (v v' : ν) :
    (k', v') ∈ setEntries entries k v ↔ (k' = k ∧ v' = v) ∨ (k' ≠ k ∧ (k', v') ∈ entries) := by
  unfold setEntries
  split
  · rename_i h
    obtain ⟨e, he, rfl⟩ := List.mem_map.mp h
    simp only [List.mem_map]
    constructor
    · rintro ⟨e', he', heq⟩
      split at heq
      · cases heq
        exact Or.inl ⟨rfl, rfl⟩
      · rename_i hne
        subst heq
        exact Or.inr ⟨hne, he'⟩
    · rintro (⟨rfl, rfl⟩ | ⟨hne, hmem⟩)
      · exact ⟨e, he, by rw [if_pos rfl]⟩
      · exact ⟨_, hmem, by rw [if_neg hne]⟩
  · rename_i h
    simp only [List.mem_append, List.mem_singleton, Prod.mk.injEq]
    constructor
    · rintro (hmem | heq)
      · exact Or.inr ⟨fun he => h (he ▸ List.mem_map_of_mem hmem), hmem⟩
      · exact Or.inl heq
    · rintro (heq | ⟨-, hmem⟩)
      · exact Or.inr heq
      · exact Or.inl hmem

theorem get_set (m : InsertionMap κ ν) (k k' : κ) (v : ν) :
    (m.set k v).get k' = if k' = k then some v else m.get k' := by
  apply Option.ext
  intro v'
  rw [get_eq_some_iff]
  change (k', v') ∈ setEntries m.entries k v ↔ _
  rw [mem_setEntries_iff]
  by_cases h : k' = k
  · simp [h, eq_comm]
  · simp [h, get_eq_some_iff]

theorem get_delete (m : InsertionMap κ ν) (k k' : κ) :
    (m.delete k).get k' = if k' = k then none else m.get k' := by
  apply Option.ext
  intro v'
  rw [get_eq_some_iff]
  change (k', v') ∈ m.entries.filter (fun e => e.1 ≠ k) ↔ _
  rw [List.mem_filter]
  by_cases h : k' = k
  · simp [h]
  · simp [h, get_eq_some_iff]

end InsertionMap

end NestStorageExample.Collections
