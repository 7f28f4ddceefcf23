/-
  AvMesh.Lib.Counters
  ───────────────────
  **ATOMIC COUNTERS THAT ARE UPDATED AFTER THE FACT.**

  A component changes its state under a lock, releases the lock, and only then
  adds to and subtracts from a few shared counters, one atomic operation at a
  time.  Calls that overlap do these operations in any order.

    • `Update.apply`  — one operation: `fetch_add` wraps at 2^64, the
                        subtraction stops at zero,
    • `Update.Exact`  — neither happens,
    • `Balanced`      — the counter is what it measures, up to the operations
                        that calls in flight have yet to do.

  Exact operations keep the balance (`Balanced.apply`), whatever the order;
  so once no call is in flight the counter is exact (`Balanced.settled`).  A
  subtraction that stops at zero breaks it for good.
-/
import Mathlib.Data.List.Basic
import Mathlib.Algebra.BigOperators.Group.List.Basic
import Mathlib.Algebra.GroupWithZero.Nat
import Mathlib.Logic.Function.Basic

namespace AvMesh.Lib

variable {κ : Type*}

/-! ## §1. Operations on counters. -/

inductive Update (κ : Type*) where
  | add (counter : κ) (n : Nat)
  | sub (counter : κ) (n : Nat)
  deriving Repr, DecidableEq

namespace Update

def counter : Update κ → κ
  | add counter _ => counter
  | sub counter _ => counter

variable [DecidableEq κ]

/-- `fetch_add`, and a `fetch_update` with `saturating_sub`. -/
def apply (values : κ → Nat) : Update κ → κ → Nat
  | add counter n => Function.update values counter ((values counter + n) % 2 ^ 64)
  | sub counter n => Function.update values counter (values counter - n)

omit [DecidableEq κ] in
/-- The operation neither wraps nor stops at zero. -/
def Exact (values : κ → Nat) : Update κ → Prop
  | add counter n => values counter + n < 2 ^ 64
  | sub counter n => n ≤ values counter

omit [DecidableEq κ] in
instance (values : κ → Nat) (u : Update κ) : Decidable (u.Exact values) := by
  cases u
  · exact inferInstanceAs (Decidable (_ < _))
  · exact inferInstanceAs (Decidable (_ ≤ _))

/-- What the operation will add to the counter. -/
def adds (k : κ) : Update κ → Nat
  | add counter n => if counter = k then n else 0
  | sub _ _ => 0

def subs (k : κ) : Update κ → Nat
  | add _ _ => 0
  | sub counter n => if counter = k then n else 0

theorem apply_of_ne (values : κ → Nat) {u : Update κ} {k : κ} (h : u.counter ≠ k) :
    u.apply values k = values k := by
  cases u with
  | add counter n => exact Function.update_of_ne (Ne.symm h) _ _
  | sub counter n => exact Function.update_of_ne (Ne.symm h) _ _

/-- Counters stay below 2^64. -/
theorem apply_lt {values : κ → Nat} {k : κ} (h : values k < 2 ^ 64) (u : Update κ) :
    u.apply values k < 2 ^ 64 := by
  by_cases hk : u.counter = k
  · subst hk
    cases u with
    | add counter n =>
        show Function.update values counter ((values counter + n) % 2 ^ 64) counter < 2 ^ 64
        rw [Function.update_self]
        exact Nat.mod_lt _ (by decide)
    | sub counter n =>
        show Function.update values counter (values counter - n) counter < 2 ^ 64
        rw [Function.update_self]
        exact Nat.lt_of_le_of_lt (Nat.sub_le _ _) h
  · rw [apply_of_ne values hk]
    exact h

/-- An exact operation moves its amount from the operations to come into the counter. -/
theorem apply_exact {values : κ → Nat} {u : Update κ} {k : κ}
    (h : u.counter = k → u.Exact values) :
    u.apply values k + u.subs k = values k + u.adds k := by
  by_cases hk : u.counter = k
  · cases u with
    | add counter n =>
        have hexact := h hk
        subst hk
        show Function.update values counter ((values counter + n) % 2 ^ 64) counter + 0 =
          values counter + if counter = counter then n else 0
        rw [Function.update_self, if_pos rfl, Nat.mod_eq_of_lt hexact, Nat.add_zero]
    | sub counter n =>
        have hexact := h hk
        subst hk
        show Function.update values counter (values counter - n) counter +
          (if counter = counter then n else 0) = values counter + 0
        rw [Function.update_self, if_pos rfl]
        exact Nat.sub_add_cancel hexact
  · -- an operation on another counter
    rw [apply_of_ne values hk]
    cases u with
    | add counter n =>
        change ¬ counter = k at hk
        show values k + 0 = values k + if counter = k then n else 0
        rw [if_neg hk]
    | sub counter n =>
        change ¬ counter = k at hk
        show values k + (if counter = k then n else 0) = values k + 0
        rw [if_neg hk]

end Update

/-! ## §2. Calls in flight. -/

/-- Replacing one entry of a list changes a sum over it by the difference. -/
theorem sum_map_set {α : Type*} (f : α → Nat) {l : List α} {i : Nat} {a : α} (b : α)
    (h : l[i]? = some a) : ((l.set i b).map f).sum + f a = (l.map f).sum + f b := by
  induction l generalizing i with
  | nil => cases h
  | cons x l ih =>
      cases i with
      | zero =>
          cases h
          rw [List.set_cons_zero, List.map_cons, List.map_cons, List.sum_cons, List.sum_cons]
          omega
      | succ i =>
          have hrest := ih h
          rw [List.set_cons_succ, List.map_cons, List.map_cons, List.sum_cons, List.sum_cons]
          omega

variable [DecidableEq κ]

/-- The operations that the calls in flight have yet to do, each in its own order. -/
abbrev InFlight (κ : Type*) := List (List (Update κ))

def InFlight.adds (k : κ) (calls : InFlight κ) : Nat :=
  (calls.map fun updates => (updates.map (Update.adds k)).sum).sum

def InFlight.subs (k : κ) (calls : InFlight κ) : Nat :=
  (calls.map fun updates => (updates.map (Update.subs k)).sum).sum

omit [DecidableEq κ] in
/-- Every call is done. -/
def InFlight.Settled (calls : InFlight κ) : Prop := ∀ updates ∈ calls, updates = []

omit [DecidableEq κ] in
instance (calls : InFlight κ) : Decidable calls.Settled :=
  inferInstanceAs (Decidable (∀ updates ∈ calls, updates = []))

theorem InFlight.Settled.adds {calls : InFlight κ} (h : calls.Settled) (k : κ) :
    calls.adds k = 0 := by
  unfold InFlight.adds
  refine List.sum_eq_zero ?_
  intro n hn
  obtain ⟨updates, hmem, rfl⟩ := List.mem_map.mp hn
  rw [h updates hmem]
  rfl

theorem InFlight.Settled.subs {calls : InFlight κ} (h : calls.Settled) (k : κ) :
    calls.subs k = 0 := by
  unfold InFlight.subs
  refine List.sum_eq_zero ?_
  intro n hn
  obtain ⟨updates, hmem, rfl⟩ := List.mem_map.mp hn
  rw [h updates hmem]
  rfl

/-- The counter is what it measures, up to the operations of the calls in flight. -/
def Balanced (values : κ → Nat) (calls : InFlight κ) (k : κ) (measured : Nat) : Prop :=
  values k + calls.adds k = measured + calls.subs k

variable {values : κ → Nat} {calls : InFlight κ} {k : κ} {measured measured' : Nat}

/-- A new call, whose operations are those that its change of the measured quantity needs. -/
theorem Balanced.start (h : Balanced values calls k measured) (updates : List (Update κ))
    (hchange : measured' + (updates.map (Update.subs k)).sum =
      measured + (updates.map (Update.adds k)).sum) :
    Balanced values (calls ++ [updates]) k measured' := by
  unfold Balanced InFlight.adds InFlight.subs at h ⊢
  simp only [List.map_append, List.map_cons, List.map_nil, List.sum_append, List.sum_cons,
    List.sum_nil, Nat.add_zero]
  omega

/-- A call in flight does its next operation, exactly. -/
theorem Balanced.apply (h : Balanced values calls k measured) {call : Nat} {u : Update κ}
    {updates : List (Update κ)} (hcall : calls[call]? = some (u :: updates))
    (hexact : u.counter = k → u.Exact values) :
    Balanced (u.apply values) (calls.set call updates) k measured := by
  have hvalue := Update.apply_exact hexact
  have hadds := sum_map_set (fun updates => (updates.map (Update.adds k)).sum) updates hcall
  have hsubs := sum_map_set (fun updates => (updates.map (Update.subs k)).sum) updates hcall
  simp only [List.map_cons, List.sum_cons] at hadds hsubs
  unfold Balanced InFlight.adds InFlight.subs at h ⊢
  omega

/-- **With no call in flight the counter is exact.** -/
theorem Balanced.settled (h : Balanced values calls k measured) (hsettled : calls.Settled) :
    values k = measured := by
  unfold Balanced at h
  rw [hsettled.adds, hsettled.subs] at h
  exact h

end AvMesh.Lib
