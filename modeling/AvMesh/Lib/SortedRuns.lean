/-
  AvMesh.Lib.SortedRuns
  ─────────────────────
  **SORT, THEN KEEP ONE OF EACH** (`sort_by` and `dedup_by` of the standard library).

  `dedup_by` compares an element with the last one it kept, which is
  `List.destutter`.  After a sort the elements of one key stand together, so the
  first of each key is kept: the least one in the order of the sort.

      sort        a₂ a₁ b₁ a₃  ↦  a₁ a₂ a₃ b₁
      dedup_by    a₁ a₂ a₃ b₁  ↦  a₁ b₁

  Main results:

    • `exists_mem_sortedFirst`  — every key is kept, with an element that is least,
    • `pairwise_sortedFirst`    — what is kept is in the order of the keys, each once.
-/
import Mathlib.Data.List.Destutter
import Mathlib.Data.List.Sort

namespace AvMesh.Lib

variable {α K : Type*} [LinearOrder K] {key : α → K} {l : List α} {x : α}

/-! ## §1. The first element of each run. -/

variable (key) in
/-- `dedup_by_key`. -/
def firstOfRuns (l : List α) : List α := l.destutter fun last next => key last ≠ key next

theorem mem_of_mem_firstOfRuns (h : x ∈ firstOfRuns key l) : x ∈ l :=
  (List.destutter_sublist _ l).subset h

/-- In a list in the order of the keys no key is kept twice. -/
theorem pairwise_destutter' (first : α) (h : (first :: l).Pairwise fun a b => key a ≤ key b) :
    (l.destutter' (fun last next => key last ≠ key next) first).Pairwise
      fun a b => key a < key b := by
  induction l generalizing first with
  | nil => exact List.pairwise_singleton _ first
  | cons next rest ih =>
      obtain ⟨hfirst, hrest⟩ := List.pairwise_cons.mp h
      have hnext := hfirst next List.mem_cons_self
      rw [List.destutter'_cons]
      by_cases hkey : key first ≠ key next
      · rw [if_pos hkey]
        refine List.pairwise_cons.mpr ⟨fun kept hkept => ?_, ih next hrest⟩
        have hmem := (List.destutter'_sublist _ _ next).subset hkept
        have hlt : key first < key next := lt_of_le_of_ne hnext hkey
        rcases List.mem_cons.mp hmem with hsame | hbehind
        · rw [hsame]
          exact hlt
        · exact lt_of_lt_of_le hlt ((List.pairwise_cons.mp hrest).1 kept hbehind)
      · rw [if_neg hkey]
        refine ih first (List.pairwise_cons.mpr ⟨fun a ha => ?_, hrest.tail⟩)
        exact hfirst a (List.mem_cons_of_mem _ ha)

theorem pairwise_firstOfRuns (h : l.Pairwise fun a b => key a ≤ key b) :
    (firstOfRuns key l).Pairwise fun a b => key a < key b := by
  cases l with
  | nil => exact List.Pairwise.nil
  | cons first rest => exact pairwise_destutter' first h

/-- Every element has one of its key that is kept, itself or in front of it. -/
theorem exists_mem_destutter' {R : α → α → Prop} (hrefl : ∀ a, R a a) (first : α)
    (h : (first :: l).Pairwise R) (hx : x ∈ first :: l) :
    ∃ y ∈ l.destutter' (fun last next => key last ≠ key next) first, key y = key x ∧ R y x := by
  induction l generalizing first with
  | nil =>
      rw [List.mem_singleton] at hx
      subst hx
      exact ⟨x, List.mem_singleton_self x, rfl, hrefl x⟩
  | cons next rest ih =>
      obtain ⟨hfirst, hrest⟩ := List.pairwise_cons.mp h
      rw [List.destutter'_cons]
      by_cases hkey : key first ≠ key next
      · rw [if_pos hkey]
        rcases List.mem_cons.mp hx with hx | hx
        · subst hx
          exact ⟨x, List.mem_cons_self, rfl, hrefl x⟩
        · obtain ⟨y, hy, hsame, hle⟩ := ih next hrest hx
          exact ⟨y, List.mem_cons_of_mem _ hy, hsame, hle⟩
      · -- `next` is dropped, and `first` stands for it
        rw [if_neg hkey]
        have hskip : (first :: rest).Pairwise R :=
          List.pairwise_cons.mpr ⟨fun a ha => hfirst a (List.mem_cons_of_mem _ ha), hrest.tail⟩
        rcases List.mem_cons.mp hx with hx | hx
        · exact ih first hskip (by rw [hx]; exact List.mem_cons_self)
        · rcases List.mem_cons.mp hx with hx | hx
          · refine ⟨first, List.mem_destutter' _ _ first, ?_, ?_⟩
            · rw [hx]
              exact not_not.mp hkey
            · rw [hx]
              exact hfirst next List.mem_cons_self
          · exact ih first hskip (List.mem_cons_of_mem _ hx)

theorem exists_mem_firstOfRuns {R : α → α → Prop} (hrefl : ∀ a, R a a) (h : l.Pairwise R)
    (hx : x ∈ l) : ∃ y ∈ firstOfRuns key l, key y = key x ∧ R y x := by
  cases l with
  | nil => cases hx
  | cons first rest => exact exists_mem_destutter' hrefl first h hx

/-! ## §2. After a sort. -/

/-- A comparison that sorts by the key, and orders the elements of one key somehow. -/
structure SortsBy (key : α → K) (le : α → α → Bool) : Prop where
  total : ∀ a b, le a b || le b a
  trans : ∀ a b c, le a b → le b c → le a c
  key_le : ∀ a b, le a b → key a ≤ key b

variable {le : α → α → Bool}

theorem SortsBy.pairwise (hle : SortsBy key le) (l : List α) :
    (l.mergeSort le).Pairwise fun a b => le a b := List.pairwise_mergeSort hle.trans hle.total l

theorem SortsBy.refl (hle : SortsBy key le) (a : α) : le a a := by
  have htotal := hle.total a a
  rwa [Bool.or_self] at htotal

variable (key le) in
/-- `sort_by` with the comparison, then `dedup_by` with the key. -/
def sortedFirst (l : List α) : List α := firstOfRuns key (l.mergeSort le)

theorem mem_of_mem_sortedFirst (h : x ∈ sortedFirst key le l) : x ∈ l :=
  List.mem_mergeSort.mp (mem_of_mem_firstOfRuns h)

/-- What is kept is in the order of the keys. -/
theorem pairwise_sortedFirst (hle : SortsBy key le) (l : List α) :
    (sortedFirst key le l).Pairwise fun a b => key a < key b :=
  pairwise_firstOfRuns ((hle.pairwise l).imp fun hab => hle.key_le _ _ hab)

/-- Every key is kept, with an element that is least. -/
theorem exists_mem_sortedFirst (hle : SortsBy key le) (hx : x ∈ l) :
    ∃ y ∈ sortedFirst key le l, key y = key x ∧ le y x :=
  exists_mem_firstOfRuns hle.refl (hle.pairwise l) (List.mem_mergeSort.mpr hx)

end AvMesh.Lib
