/-
  AvMesh.Lib.SortedMap
  ────────────────────
  **MAPS THAT CARRY THE ORDER OF THEIR KEYS.**

  `AvMesh.Lib.OrderedMap` speaks about lists of entries.  Here the list and the
  proof that it is ascending are one value, so that a map in any other order
  cannot be built, and an insertion may meet its key.

  The result this file is for is about two listings
  (`eq_of_mem_iff_of_pairwise`): where each value knows its key, a list in the
  order of the keys is decided by WHICH values it holds.  So what two maps list
  of the values that pass a test is the same as soon as they agree on those
  values, whatever else they hold.
-/
import AvMesh.Lib.OrderedMap
import Mathlib.Data.List.Sort

namespace AvMesh.Lib

/-- Entries in the order of their keys, at most one for a key. -/
structure SortedMap (K V : Type) [LinearOrder K] where
  entries : List (K × V)
  ascending : Ascending entries

namespace SortedMap

variable {K V : Type} [LinearOrder K] {m m' : SortedMap K V} {k k' : K} {v v' : V}

def empty : SortedMap K V := ⟨[], List.Pairwise.nil⟩

def lookup (m : SortedMap K V) (k : K) : Option V := m.entries.lookup k

def size (m : SortedMap K V) : Nat := m.entries.length

def values (m : SortedMap K V) : List V := m.entries.map Prod.snd

theorem lookup_eq_some_iff : m.lookup k = some v ↔ (k, v) ∈ m.entries :=
  m.ascending.lookup_eq_some_iff

theorem mem_values_iff : v ∈ m.values ↔ ∃ k, (k, v) ∈ m.entries := by
  show v ∈ m.entries.map Prod.snd ↔ _
  rw [List.mem_map]
  constructor
  · rintro ⟨entry, hentry, rfl⟩
    exact ⟨entry.1, hentry⟩
  · rintro ⟨k, hk⟩
    exact ⟨(k, v), hk, rfl⟩

/-! ## §1. Insertion. -/

/-- The entry of the key, if there is one, makes room for the new one. -/
def insert (m : SortedMap K V) (k : K) (v : V) : SortedMap K V where
  entries := insertAscending (m.entries.filter fun entry => entry.1 ≠ k) k v
  ascending := by
    refine Ascending.insert (m.ascending.filter _) fun v' hv' => ?_
    have hne := (List.mem_filter.1 hv').2
    simp at hne

theorem mem_insert {entry : K × V} :
    entry ∈ (m.insert k v).entries ↔
      entry = (k, v) ∨ (entry ∈ m.entries ∧ entry.1 ≠ k) := by
  show entry ∈ insertAscending _ k v ↔ _
  rw [mem_insertAscending, List.mem_filter, decide_eq_true_eq]

theorem lookup_insert_of_ne (h : k' ≠ k) : (m.insert k v).lookup k' = m.lookup k' := by
  refine Option.ext fun w => ?_
  rw [lookup_eq_some_iff, lookup_eq_some_iff, mem_insert]
  constructor
  · rintro (heq | hmem)
    · exact absurd (Prod.mk.inj heq).1 h
    · exact hmem.1
  · intro hmem
    exact Or.inr ⟨hmem, h⟩

theorem length_insertAscending (entries : List (K × V)) (k : K) (v : V) :
    (insertAscending entries k v).length = entries.length + 1 := by
  have hsplit := congrArg List.length
    (List.takeWhile_append_dropWhile (p := fun entry : K × V => decide (entry.1 < k))
      (l := entries))
  rw [List.length_append] at hsplit
  rw [insertAscending, List.length_append, List.length_cons]
  omega

theorem size_insert_le : (m.insert k v).size ≤ m.size + 1 := by
  show (insertAscending _ k v).length ≤ m.entries.length + 1
  rw [length_insertAscending]
  have hfilter := List.length_filter_le (fun entry : K × V => decide (entry.1 ≠ k)) m.entries
  omega

/-! ## §2. Listings. -/

/-- Where each value knows its key, the values are listed in the order of the
keys. -/
theorem pairwise_values {key : V → K} (hkey : ∀ entry ∈ m.entries, entry.1 = key entry.2) :
    m.values.Pairwise fun left right => key left < key right := by
  show (m.entries.map Prod.snd).Pairwise _
  refine List.pairwise_map.2 (m.ascending.imp_of_mem ?_)
  intro left right hleft hright hlt
  rwa [hkey left hleft, hkey right hright] at hlt

/-- **A list in the order of the keys is determined by its elements.** -/
theorem eq_of_mem_iff_of_pairwise {key : V → K} {xs ys : List V}
    (hxs : xs.Pairwise fun left right => key left < key right)
    (hys : ys.Pairwise fun left right => key left < key right)
    (h : ∀ v, v ∈ xs ↔ v ∈ ys) : xs = ys := by
  have hasymm : Std.Antisymm fun left right : V => key left < key right :=
    ⟨fun left right hlt hgt => absurd hgt (lt_asymm hlt)⟩
  have hirrefl : Std.Irrefl fun left right : V => key left < key right :=
    ⟨fun v hlt => absurd hlt (lt_irrefl _)⟩
  exact hxs.eq_of_mem_iff hys h

end SortedMap

end AvMesh.Lib
