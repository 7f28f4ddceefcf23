/-
  AvMesh.Lib.Wrapping
  ───────────────────
  **COUNTERS MODULO 2^64.**

  A `fetch_add` wraps, so sums over a counter hold modulo 2^64 only.  In the
  ring of the integers modulo 2^64 they hold exactly, without side conditions:

    • `Update.apply_wrapping` — an addition adds its amount,
    • `Update.foldl_wrapping` — a list of additions adds the sum of theirs,
    • `eq_mod_of_wrapping`    — back to the value of the counter.
-/
import AvMesh.Lib.Counters
import Mathlib.Algebra.BigOperators.Fin
import Mathlib.Data.ZMod.Basic

namespace AvMesh.Lib

variable {κ : Type*}

/-- The integers modulo 2^64, in which a counter never wraps. -/
abbrev Wrapping := ZMod (2 ^ 64)

/-- A counter below 2^64 is its sum modulo 2^64. -/
theorem eq_mod_of_wrapping {value sum : Nat} (hlt : value < 2 ^ 64)
    (h : (value : Wrapping) = (sum : Nat)) : value = sum % 2 ^ 64 := by
  have hmod := (ZMod.natCast_eq_natCast_iff' _ _ _).mp h
  rw [Nat.mod_eq_of_lt hlt] at hmod
  exact hmod

/-- Two sums of counters that are equal modulo 2^64. -/
theorem mod_eq_of_wrapping {left right : Nat} (h : (left : Wrapping) = (right : Nat)) :
    left % 2 ^ 64 = right % 2 ^ 64 :=
  (ZMod.natCast_eq_natCast_iff' _ _ _).mp h

namespace Update

def IsAdd : Update κ → Prop
  | add _ _ => True
  | sub _ _ => False

variable [DecidableEq κ]

/-- An addition adds its amount, modulo 2^64. -/
theorem apply_wrapping (values : κ → Nat) {u : Update κ} (hu : u.IsAdd) (k : κ) :
    ((u.apply values k : Nat) : Wrapping) = values k + (u.adds k : Nat) := by
  cases u with
  | sub counter n => exact hu.elim
  | add counter n =>
      unfold apply adds
      dsimp only
      by_cases hsame : counter = k
      · subst hsame
        rw [Function.update_self, if_pos rfl, ZMod.natCast_mod, Nat.cast_add]
      · rw [Function.update_of_ne (Ne.symm hsame), if_neg hsame, Nat.cast_zero, add_zero]

/-- Additions one after the other add the sum of their amounts. -/
theorem foldl_wrapping (updates : List (Update κ)) (hadds : ∀ u ∈ updates, u.IsAdd) (k : κ) :
    ∀ values : κ → Nat, ((updates.foldl apply values k : Nat) : Wrapping)
      = values k + ((updates.map (adds k)).sum : Nat) := by
  induction updates with
  | nil =>
      intro values
      simp
  | cons u updates ih =>
      intro values
      rw [List.foldl_cons, ih (fun v hv => hadds v (List.mem_cons_of_mem _ hv)),
        apply_wrapping values (hadds u List.mem_cons_self), List.map_cons, List.sum_cons,
        Nat.cast_add, add_assoc]

end Update

end AvMesh.Lib
