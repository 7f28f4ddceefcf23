/-
  AvMesh.Lib.Histogram
  ────────────────────
  **ORDER STATISTICS AND THE CELLS OF A HISTOGRAM.**

  A histogram keeps, instead of the samples, how many of them fall between two
  neighbouring bounds.  What it can still answer is how an order statistic
  compares with a bound:

    • `orderStatistic_le_iff` — the sample at position `k` of the sorted list is
      at most `b` exactly when more than `k` samples are,
    • `cell` — the first bound that is at least a value,
    • `countP_cells` — the samples in the first cells are those within the
      last of their bounds,
    • `find_bound_eq_cell` — the first bound that enough samples are within is
      the cell of the order statistic.
-/
import Mathlib.Algebra.GroupWithZero.Nat
import Mathlib.Data.List.Sort
import Mathlib.Data.List.FinRange
import Mathlib.Order.Fin.Basic

namespace AvMesh.Lib

variable {α : Type*} [LinearOrder α]

/-! ## §1. Order statistics. -/

/-- The sample at position `k`, from zero, of the sorted list. -/
def orderStatistic (l : List α) (k : Nat) (h : k < l.length) : α :=
  (l.insertionSort (· ≤ ·)).get ⟨k, by rwa [List.length_insertionSort]⟩

/-- In a sorted list the values up to `b` come first. -/
theorem sorted_get_le_iff {m : List α} (hsorted : m.Pairwise (· ≤ ·)) (b : α) :
    ∀ k (h : k < m.length), m.get ⟨k, h⟩ ≤ b ↔ k < m.countP (· ≤ b) := by
  induction m with
  | nil =>
      intro k h
      simp at h
  | cons a m ih =>
      have hhead := (List.pairwise_cons.mp hsorted).1
      have htail := (List.pairwise_cons.mp hsorted).2
      intro k h
      by_cases hab : a ≤ b
      · rw [List.countP_cons_of_pos (by simpa using hab)]
        -- position zero is `a` itself; the others are those of the rest
        cases k with
        | zero => simpa using hab
        | succ k =>
            have hk : k < m.length := by simpa using h
            show m.get ⟨k, hk⟩ ≤ b ↔ _
            rw [ih htail k hk]
            omega
      · -- everything after `a` is beyond `b` too
        have hnone : m.countP (· ≤ b) = 0 := by
          rw [List.countP_eq_zero]
          intro x hx hxb
          exact hab ((hhead x hx).trans (by simpa using hxb))
        rw [List.countP_cons_of_neg (by simpa using hab), hnone]
        have hlarge : a ≤ (a :: m).get ⟨k, h⟩ := by
          cases k with
          | zero => exact le_refl a
          | succ k => exact hhead _ (List.get_mem m _)
        constructor
        · intro hle
          exact absurd (hlarge.trans hle) hab
        · intro hlt
          omega

/-- **An order statistic is at most `b` exactly when more samples than its
position are.** -/
theorem orderStatistic_le_iff (l : List α) {k : Nat} (h : k < l.length) (b : α) :
    orderStatistic l k h ≤ b ↔ k < l.countP (· ≤ b) := by
  unfold orderStatistic
  rw [sorted_get_le_iff (List.pairwise_insertionSort (· ≤ ·) l) b,
    (List.perm_insertionSort (· ≤ ·) l).countP_eq]

/-! ## §2. The first index with a property. -/

variable {n : Nat}

theorem find_finRange_eq_some_iff {p : Fin n → Bool} {i : Fin n} :
    (List.finRange n).find? p = some i ↔ p i = true ∧ ∀ j < i, p j = false := by
  rw [List.find?_eq_some_iff_getElem]
  constructor
  · rintro ⟨hp, k, hk, heq, hbefore⟩
    have hki : k = i.val := by
      rw [List.getElem_finRange] at heq
      simpa using congrArg Fin.val heq
    refine ⟨hp, ?_⟩
    intro j hj
    have hfalse := hbefore j.val (by omega)
    rw [List.getElem_finRange] at hfalse
    simpa using hfalse
  · rintro ⟨hp, hbefore⟩
    refine ⟨hp, i.val, by simp, by simp, ?_⟩
    intro j hj
    have hfalse := hbefore ⟨j, by omega⟩ (Fin.lt_def.mpr hj)
    rw [List.getElem_finRange]
    simpa using hfalse

theorem find_finRange_eq_none_iff {p : Fin n → Bool} :
    (List.finRange n).find? p = none ↔ ∀ i, p i = false := by
  rw [List.find?_eq_none]
  simp

/-! ## §3. Cells. -/

/-- The first bound that is at least `a`. -/
def cell (bounds : Fin n → α) (a : α) : Option (Fin n) :=
  (List.finRange n).find? fun i => a ≤ bounds i

theorem cell_eq_some_iff {bounds : Fin n → α} {a : α} {i : Fin n} :
    cell bounds a = some i ↔ a ≤ bounds i ∧ ∀ j < i, bounds j < a := by
  unfold cell
  rw [find_finRange_eq_some_iff]
  simp

theorem cell_eq_none_iff {bounds : Fin n → α} {a : α} :
    cell bounds a = none ↔ ∀ i, bounds i < a := by
  unfold cell
  rw [find_finRange_eq_none_iff]
  simp

/-- A value lies in one of the cells up to `i` exactly when it is within the
bound of `i`. -/
theorem cell_le_iff {bounds : Fin n → α} (hbounds : Monotone bounds) {a : α} {i : Fin n} :
    (∃ j ≤ i, cell bounds a = some j) ↔ a ≤ bounds i := by
  constructor
  · rintro ⟨j, hji, hcell⟩
    exact (cell_eq_some_iff.mp hcell).1.trans (hbounds hji)
  · intro ha
    cases hcell : cell bounds a with
    | none => exact absurd ha (not_le.mpr (cell_eq_none_iff.mp hcell i))
    | some j =>
        refine ⟨j, ?_, rfl⟩
        by_contra hij
        exact absurd ha (not_le.mpr ((cell_eq_some_iff.mp hcell).2 i (not_le.mp hij)))

omit [LinearOrder α] in
/-- The samples with one of two properties that exclude each other. -/
theorem countP_or_of_disjoint {p q : α → Bool} (l : List α)
    (hdisjoint : ∀ a, p a = true → q a = false) :
    l.countP (fun a => p a || q a) = l.countP p + l.countP q := by
  induction l with
  | nil => rfl
  | cons a l ih =>
      rw [List.countP_cons, List.countP_cons, List.countP_cons, ih]
      cases hp : p a with
      | false => simp; omega
      | true => simp [hdisjoint a hp]; omega

/-- **Running totals of the cells**: adding up the cell counts before position
`m` counts the samples in those cells. -/
theorem countP_cells (bounds : Fin n → α) (l : List α) (m : Nat) (hm : m ≤ n) :
    (((List.finRange n).take m).map fun j => l.countP fun a => cell bounds a = some j).sum
      = l.countP fun a => (cell bounds a).any fun j => j.val < m := by
  induction m with
  | zero =>
      symm
      rw [List.take_zero, List.map_nil, List.sum_nil, List.countP_eq_zero]
      intro a _
      cases cell bounds a <;> simp
  | succ m ih =>
      have htake : (List.finRange n).take (m + 1)
          = (List.finRange n).take m ++ [⟨m, hm⟩] := by
        rw [List.take_succ_eq_append_getElem (by rwa [List.length_finRange]),
          List.getElem_finRange]
        simp
      -- the cells before `m` and the cell of `m` share no sample
      rw [htake, List.map_append, List.sum_append, ih (by omega), List.map_singleton,
        List.sum_singleton, ← countP_or_of_disjoint]
      · refine List.countP_congr fun a _ => ?_
        cases cell bounds a with
        | none => simp
        | some j =>
            simp [Fin.ext_iff]
            omega
      · intro a hbefore
        cases hcell : cell bounds a with
        | none => simp
        | some j =>
            rw [hcell] at hbefore
            simp [Fin.ext_iff] at hbefore ⊢
            omega

/-- The samples in the cells up to `i` are those within the bound of `i`. -/
theorem countP_cells_le {bounds : Fin n → α} (hbounds : Monotone bounds) (l : List α)
    (i : Fin n) :
    (((List.finRange n).take (i.val + 1)).map fun j =>
        l.countP fun a => cell bounds a = some j).sum
      = l.countP (· ≤ bounds i) := by
  rw [countP_cells bounds l _ (by omega)]
  refine List.countP_congr fun a _ => ?_
  rw [decide_eq_true_iff, ← cell_le_iff hbounds]
  cases hcell : cell bounds a with
  | none => simp
  | some j =>
      simp only [Option.any_some, decide_eq_true_eq, Option.some.injEq]
      constructor
      · intro hlt
        exact ⟨j, Fin.le_def.mpr (by omega), rfl⟩
      · rintro ⟨j', hle, rfl⟩
        have := Fin.le_def.mp hle
        omega

/-- **The first bound that enough samples are within is the cell of the order
statistic.** -/
theorem find_bound_eq_cell (bounds : Fin n → α) (l : List α) {k : Nat} (h : k < l.length) :
    ((List.finRange n).find? fun i => decide (k < l.countP (· ≤ bounds i)))
      = cell bounds (orderStatistic l k h) := by
  unfold cell
  congr 1
  funext i
  rw [decide_eq_decide, orderStatistic_le_iff]

end AvMesh.Lib
