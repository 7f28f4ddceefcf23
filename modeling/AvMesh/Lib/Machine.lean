/-
  AvMesh.Lib.Machine
  ──────────────────
  **MACHINE INTEGERS AND THE TWO WAYS A CALL ENDS WITHOUT A VALUE.**

  Unsigned 64-bit quantities are carried as `Nat`; the operations that clamp
  or report overflow say so here:

    • `satAdd`, `satMul` — `saturating_add`, `saturating_mul`, clamped at `u64Max`,
    • `checkedAdd`, `checkedMul` — `none` past `u64Max`,
    • `tryFrom`     — `try_from` into a narrower type, `none` when too large,
    • `saturating_sub` is `Nat` subtraction and needs no definition.

  A call that returns no value either returns an error (`Stop.err`) or
  panics in an `expect` (`Stop.panic`).  Keeping the two apart lets a theorem
  say that a panic is UNREACHABLE.

  The byte lists and the UDP addresses that every receive path takes are here too.
-/
import Mathlib.Algebra.GroupWithZero.Nat
import Mathlib.Data.Nat.Basic

namespace AvMesh.Lib

/-! ## §1. Saturating and checked addition. -/

/-- The largest unsigned 64-bit value. -/
def u64Max : Nat := 18446744073709551615

/-- `a.saturating_add(b)`. -/
def satAdd (a b : Nat) : Nat := min (a + b) u64Max

/-- `a.saturating_mul(b)`. -/
def satMul (a b : Nat) : Nat := min (a * b) u64Max

/-- `a.checked_add(b)`. -/
def checkedAdd (a b : Nat) : Option Nat :=
  if a + b ≤ u64Max then some (a + b) else none

/-- `a.checked_mul(b)`. -/
def checkedMul (a b : Nat) : Option Nat :=
  if a * b ≤ u64Max then some (a * b) else none

/-- `uN::try_from(n)` for an unsigned type of `bits` bits. -/
def tryFrom (bits n : Nat) : Option Nat := if n < 2 ^ bits then some n else none

theorem satAdd_of_le {a b : Nat} (h : a + b ≤ u64Max) : satAdd a b = a + b :=
  Nat.min_eq_left h

theorem satAdd_of_lt_bound {a m : Nat} (h : a < m) (hm : m ≤ u64Max) :
    satAdd a 1 = a + 1 :=
  satAdd_of_le (by omega)

theorem satMul_le (a b : Nat) : satMul a b ≤ u64Max := Nat.min_le_right _ _

theorem u64_toNat_max (a b : UInt64) : (max a b).toNat = max a.toNat b.toNat := by
  show (if a ≤ b then b else a).toNat = _
  split
  next h =>
    rw [UInt64.le_iff_toNat_le] at h
    omega
  next h =>
    rw [UInt64.le_iff_toNat_le] at h
    omega

theorem u64_toNat_min (a b : UInt64) : (min a b).toNat = min a.toNat b.toNat := by
  show (if a ≤ b then a else b).toNat = _
  split
  next h =>
    rw [UInt64.le_iff_toNat_le] at h
    omega
  next h =>
    rw [UInt64.le_iff_toNat_le] at h
    omega

theorem u8_toNat_max (a b : UInt8) : (max a b).toNat = max a.toNat b.toNat := by
  show (if a ≤ b then b else a).toNat = _
  split
  next h =>
    rw [UInt8.le_iff_toNat_le] at h
    omega
  next h =>
    rw [UInt8.le_iff_toNat_le] at h
    omega

theorem u8_toNat_min (a b : UInt8) : (min a b).toNat = min a.toNat b.toNat := by
  show (if a ≤ b then a else b).toNat = _
  split
  next h =>
    rw [UInt8.le_iff_toNat_le] at h
    omega
  next h =>
    rw [UInt8.le_iff_toNat_le] at h
    omega

theorem toNat_le_u64Max (n : UInt64) : n.toNat ≤ u64Max := by
  have hlt := n.toNat_lt
  unfold u64Max
  omega

theorem checkedAdd_eq_some {a b c : Nat} (h : checkedAdd a b = some c) : c = a + b := by
  unfold checkedAdd at h
  split at h
  · exact (Option.some.inj h).symm
  · cases h

theorem checkedAdd_of_le {a b : Nat} (h : a + b ≤ u64Max) : checkedAdd a b = some (a + b) :=
  if_pos h

theorem tryFrom_of_lt {bits n : Nat} (h : n < 2 ^ bits) : tryFrom bits n = some n :=
  if_pos h

theorem tryFrom_eq_some {bits n m : Nat} (h : tryFrom bits n = some m) : n < 2 ^ bits ∧ m = n := by
  unfold tryFrom at h
  split at h
  · next hlt => exact ⟨hlt, (Option.some.inj h).symm⟩
  · cases h

/-! ## §2. Errors and panics. -/

/-- How a call ends without a value: an `Err`, or a panic with its message. -/
inductive Stop (ε : Type*) where
  | err (error : ε)
  | panic (message : String)
  deriving Repr, DecidableEq

/-- The result of a fallible call that may also panic. -/
abbrev Outcome (ε α : Type*) := Except (Stop ε) α

/-- A sequence of two fallible calls succeeds when both do. -/
theorem except_bind_eq_ok {ε α β : Type} {x : Except ε α} {f : α → Except ε β} {b : β} :
    x >>= f = .ok b ↔ ∃ a, x = .ok a ∧ f a = .ok b := by
  cases x with
  | error e =>
      constructor
      · intro h
        cases h
      · rintro ⟨_, h, _⟩
        cases h
  | ok a =>
      constructor
      · intro h
        exact ⟨a, rfl, h⟩
      · rintro ⟨_, ha, h⟩
        cases ha
        exact h

theorem except_mapError_eq_ok {ε δ α : Type} {x : Except ε α} {f : ε → δ} {a : α} :
    x.mapError f = .ok a ↔ x = .ok a := by
  cases x with
  | error e => simp [Except.mapError]
  | ok b => simp [Except.mapError]

/-- The call does not panic. -/
def NoPanic {ε α : Type} (x : Outcome ε α) : Prop := ∀ message, x ≠ .error (.panic message)

theorem NoPanic.ok {ε α : Type} (a : α) : NoPanic (.ok a : Outcome ε α) := fun _ => nofun

theorem NoPanic.err {ε α : Type} (e : ε) : NoPanic (.error (.err e) : Outcome ε α) :=
  fun _ => nofun

/-- An error passed on unchanged panics no more than before. -/
theorem NoPanic.error {ε α β : Type} {x : Outcome ε α} {stop : Stop ε} (h : NoPanic x)
    (hx : x = .error stop) : NoPanic (.error stop : Outcome ε β) := by
  intro message hstop
  cases hstop
  exact h message hx

theorem NoPanic.bind {ε α β : Type} {x : Outcome ε α} {f : α → Outcome ε β} (h : NoPanic x)
    (hf : ∀ a, NoPanic (f a)) : NoPanic (x >>= f) := by
  cases x with
  | error stop => exact h.error rfl
  | ok a => exact hf a

/-- Errors of a callee that are wrapped as errors do not panic. -/
theorem NoPanic.mapError {ε δ α : Type} (x : Except δ α) (f : δ → ε) :
    NoPanic (x.mapError fun e => Stop.err (f e)) := by
  cases x with
  | error e => exact NoPanic.err (f e)
  | ok a => exact NoPanic.ok a

end AvMesh.Lib

namespace AvMesh

/-! ## §3. Payload bytes and peer addresses. -/

abbrev Bytes := List UInt8

/-- A UDP peer address. -/
structure SocketAddr where
  ip : String
  port : Nat
  deriving Repr, DecidableEq

end AvMesh
