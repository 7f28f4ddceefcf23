/-
  AvMesh.Lib.Pacing
  ─────────────────
  **WHAT A PACED SEQUENCE OF SENDS FITS INTO A WINDOW.**

  Every item of a sequence has a start time and takes some time.  The sequence
  is PACED when an item starts only after the earlier ones have taken theirs.

    • `Paced.start_add_sum_le` — between two starts lies the time of everything
                                 from the first up to the second,
    • `Paced.sum_le_window`    — what starts within a window, the last item
                                 apart, takes no longer than the window.

  Nothing depends on what came before the window: idle time earns nothing.
-/
import Mathlib.Algebra.BigOperators.Group.List.Basic
import Mathlib.Algebra.GroupWithZero.Nat

namespace AvMesh.Lib

variable {α : Type*} {start time : α → Nat} {l : List α}

variable (start time) in
/-- An item starts after each earlier one has taken its time. -/
def Paced (l : List α) : Prop :=
  l.Pairwise fun earlier later => start earlier + time earlier ≤ start later

theorem Paced.sublist {l' : List α} (h : Paced start time l) (hsub : l'.Sublist l) :
    Paced start time l' :=
  List.Pairwise.sublist hsub h

/-- An item, some more, and a last one: the last starts after all of the others took their
time. -/
theorem Paced.start_add_sum_le {first last : α} {between : List α}
    (h : Paced start time (first :: (between ++ [last]))) :
    start first + ((first :: between).map time).sum ≤ start last := by
  unfold Paced at h
  induction between generalizing first with
  | nil =>
      have hpair := (List.pairwise_cons.mp h).1 last (by simp)
      simpa using hpair
  | cons second between ih =>
      obtain ⟨hfirst, hrest⟩ := List.pairwise_cons.mp h
      have hnext : start first + time first ≤ start second := hfirst second (by simp)
      have hlast := ih hrest
      simp only [List.map_cons, List.sum_cons] at hlast ⊢
      omega

/-- The same by positions: what lies in `[i, j)`. -/
theorem Paced.getElem_add_sum_le (h : Paced start time l) {i j : Nat} (hij : i ≤ j)
    (hj : j < l.length) :
    start (l[i]) + (((l.take j).drop i).map time).sum ≤ start (l[j]) := by
  rcases Nat.eq_or_lt_of_le hij with rfl | hlt
  · simp
  · -- cut the sequence at `i` and after `j`
    have hsub : (l[i] :: ((l.take j).drop (i + 1) ++ [l[j]])).Sublist l := by
      have hcut : (l.take (j + 1)).drop i = l[i] :: ((l.take j).drop (i + 1) ++ [l[j]]) := by
        rw [List.take_succ_eq_append_getElem hj, List.drop_append_of_le_length (by simp; omega),
          List.drop_eq_getElem_cons (by simp; omega)]
        simp
      rw [← hcut]
      exact (List.drop_sublist _ _).trans (List.take_sublist _ _)
    have hsum := (h.sublist hsub).start_add_sum_le
    have hhead : (l.take j).drop i = l[i] :: (l.take j).drop (i + 1) := by
      rw [List.drop_eq_getElem_cons (by simp; omega)]
      simp
    rw [hhead]
    exact hsum

/-- The items that start in the closed window of length `width` from `opens`. -/
def startingIn (start : α → Nat) (opens width : Nat) (l : List α) : List α :=
  l.filter fun item => decide (opens ≤ start item ∧ start item ≤ opens + width)

/-- **The window bound.**  Of the items that start in a window, all but the last one fit into
its length. -/
theorem Paced.sum_le_window (h : Paced start time l) {opens width : Nat} {others : List α}
    {last : α} (hwindow : startingIn start opens width l = others ++ [last]) :
    (others.map time).sum ≤ width := by
  have hinside : ∀ item ∈ others ++ [last], opens ≤ start item ∧ start item ≤ opens + width := by
    intro item hitem
    rw [← hwindow] at hitem
    simpa using (List.mem_filter.mp hitem).2
  cases others with
  | nil => simp
  | cons first between =>
      have hpaced : Paced start time (first :: (between ++ [last])) := by
        rw [← List.cons_append, ← hwindow]
        exact h.sublist List.filter_sublist
      have hsum := hpaced.start_add_sum_le
      have hopens := (hinside first (by simp)).1
      have hcloses := (hinside last (by simp)).2
      omega

end AvMesh.Lib
