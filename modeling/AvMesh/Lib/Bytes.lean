/-
  AvMesh.Lib.Bytes
  ────────────────
  **BYTE STRINGS: FIXED-WIDTH INTEGERS, CHECKED RANGES, UTF-8 TEXT.**

  A byte string is a `List UInt8`.  A wire format reads and writes it in
  three ways, and each has its round trip here:

    • `toLeBytes` / `fromLeBytes` and the big-endian pair — integers of a
      fixed width, written and read back exactly,
    • `byteAt` / `range` — indexing and slicing, which PANIC out of bounds
      (so that "no access out of range" is a statement about the code),
    • `asBytes` / `fromUtf8` — the UTF-8 bytes of a text.

  `slice` is the total part of `range`; consecutive slices join, so a byte
  string is the concatenation of the fields of its layout.
-/
import AvMesh.Lib.Machine
import Mathlib.Tactic.Ring
import Mathlib.Data.List.Basic

namespace AvMesh.Lib

/-! ## §1. Fixed-width integers. -/

/-- `n.to_le_bytes()` of a `width`-byte integer. -/
def toLeBytes : Nat → Nat → List UInt8
  | 0, _ => []
  | width + 1, n => UInt8.ofNat n :: toLeBytes width (n / 256)

/-- `from_le_bytes(bytes)`. -/
def fromLeBytes : List UInt8 → Nat
  | [] => 0
  | b :: rest => b.toNat + 256 * fromLeBytes rest

/-- `n.to_be_bytes()` of a `width`-byte integer. -/
def toBeBytes (width n : Nat) : List UInt8 := (toLeBytes width n).reverse

/-- `from_be_bytes(bytes)`. -/
def fromBeBytes (bytes : List UInt8) : Nat := fromLeBytes bytes.reverse

@[simp] theorem length_toLeBytes (width n : Nat) : (toLeBytes width n).length = width := by
  induction width generalizing n with
  | zero => rfl
  | succ width ih => simp [toLeBytes, ih]

@[simp] theorem length_toBeBytes (width n : Nat) : (toBeBytes width n).length = width := by
  simp [toBeBytes]

theorem fromLeBytes_toLeBytes {width n : Nat} (h : n < 256 ^ width) :
    fromLeBytes (toLeBytes width n) = n := by
  induction width generalizing n with
  | zero =>
      have hn : n = 0 := by simpa using h
      simp [toLeBytes, fromLeBytes, hn]
  | succ width ih =>
      have hdiv : n / 256 < 256 ^ width := by
        apply Nat.div_lt_of_lt_mul
        rwa [pow_succ, Nat.mul_comm] at h
      have hlow : (UInt8.ofNat n).toNat = n % 256 := by simp
      rw [toLeBytes, fromLeBytes, ih hdiv, hlow]
      exact Nat.mod_add_div n 256

theorem fromLeBytes_lt (bytes : List UInt8) : fromLeBytes bytes < 256 ^ bytes.length := by
  induction bytes with
  | nil => simp [fromLeBytes]
  | cons b rest ih =>
      have hb := b.toNat_lt
      have hpow : 256 ^ (b :: rest).length = 256 * 256 ^ rest.length := by
        simp [pow_succ, Nat.mul_comm]
      rw [fromLeBytes, hpow]
      omega

theorem toLeBytes_fromLeBytes (bytes : List UInt8) :
    toLeBytes bytes.length (fromLeBytes bytes) = bytes := by
  induction bytes with
  | nil => rfl
  | cons b rest ih =>
      have hb := b.toNat_lt
      have hlow : UInt8.ofNat (fromLeBytes (b :: rest)) = b := by
        apply UInt8.toNat_inj.mp
        simp only [UInt8.toNat_ofNat', fromLeBytes]
        omega
      have hhigh : fromLeBytes (b :: rest) / 256 = fromLeBytes rest := by
        simp only [fromLeBytes]
        omega
      rw [List.length_cons, toLeBytes, hlow, hhigh, ih]

/-- Reading a field of a layout gives `n` exactly when the field holds the bytes of `n`. -/
theorem fromLeBytes_eq_iff {bytes : List UInt8} {width n : Nat} (hlen : bytes.length = width)
    (hn : n < 256 ^ width) : fromLeBytes bytes = n ↔ bytes = toLeBytes width n := by
  constructor
  · intro h
    rw [← h, ← hlen, toLeBytes_fromLeBytes]
  · intro h
    rw [h, fromLeBytes_toLeBytes hn]

theorem uint64_fromLeBytes_eq_iff {bytes : List UInt8} {x : UInt64} (hlen : bytes.length = 8) :
    UInt64.ofNat (fromLeBytes bytes) = x ↔ bytes = toLeBytes 8 x.toNat := by
  have hlt : fromLeBytes bytes < 2 ^ 64 := by
    have h := fromLeBytes_lt bytes
    rwa [hlen] at h
  rw [← fromLeBytes_eq_iff hlen x.toNat_lt, ← UInt64.toNat_inj, UInt64.toNat_ofNat',
    Nat.mod_eq_of_lt hlt]

theorem uint32_fromLeBytes_eq_iff {bytes : List UInt8} {x : UInt32} (hlen : bytes.length = 4) :
    UInt32.ofNat (fromLeBytes bytes) = x ↔ bytes = toLeBytes 4 x.toNat := by
  have hlt : fromLeBytes bytes < 2 ^ 32 := by
    have h := fromLeBytes_lt bytes
    rwa [hlen] at h
  rw [← fromLeBytes_eq_iff hlen x.toNat_lt, ← UInt32.toNat_inj, UInt32.toNat_ofNat',
    Nat.mod_eq_of_lt hlt]

theorem fromBeBytes_toBeBytes {width n : Nat} (h : n < 256 ^ width) :
    fromBeBytes (toBeBytes width n) = n := by
  rw [fromBeBytes, toBeBytes, List.reverse_reverse]
  exact fromLeBytes_toLeBytes h

theorem fromBeBytes_lt (bytes : List UInt8) : fromBeBytes bytes < 256 ^ bytes.length := by
  have h := fromLeBytes_lt bytes.reverse
  rwa [List.length_reverse] at h

theorem fromBeBytes_eq_iff {bytes : List UInt8} {width n : Nat} (hlen : bytes.length = width)
    (hn : n < 256 ^ width) : fromBeBytes bytes = n ↔ bytes = toBeBytes width n := by
  have hreverse : bytes.reverse.length = width := by rw [List.length_reverse, hlen]
  rw [fromBeBytes, fromLeBytes_eq_iff hreverse hn, toBeBytes, List.reverse_eq_iff]

/-! ## §2. Slices. -/

/-- The bytes from position `start` up to `stop`. -/
def slice (bytes : List UInt8) (start stop : Nat) : List UInt8 :=
  (bytes.drop start).take (stop - start)

theorem length_slice {bytes : List UInt8} {start stop : Nat} (h : stop ≤ bytes.length) :
    (slice bytes start stop).length = stop - start := by
  simp only [slice, List.length_take, List.length_drop]
  omega

/-- Consecutive slices join. -/
theorem slice_append_slice {bytes : List UInt8} {start mid stop : Nat} (h : start ≤ mid)
    (h' : mid ≤ stop) :
    slice bytes start mid ++ slice bytes mid stop = slice bytes start stop := by
  have hdrop : bytes.drop mid = (bytes.drop start).drop (mid - start) := by
    rw [List.drop_drop]
    congr 1
    omega
  have hlen : stop - start = (mid - start) + (stop - mid) := by omega
  rw [slice, slice, slice, hdrop, hlen, List.take_add]

theorem slice_zero_length (bytes : List UInt8) : slice bytes 0 bytes.length = bytes := by
  simp [slice]

theorem slice_to_length (bytes : List UInt8) (start : Nat) :
    slice bytes start bytes.length = bytes.drop start := by
  rw [slice, ← List.length_drop, List.take_length]

theorem slice_self (bytes : List UInt8) (i : Nat) : slice bytes i i = [] := by
  simp [slice]

/-- A slice starts with the byte at its start. -/
theorem slice_cons {bytes : List UInt8} {start stop : Nat} (h : start < stop)
    (h' : start < bytes.length) :
    slice bytes start stop = bytes[start] :: slice bytes (start + 1) stop := by
  have hlen : stop - start = (stop - (start + 1)) + 1 := by omega
  rw [slice, List.drop_eq_getElem_cons h', hlen, List.take_succ_cons, slice]

/-- A slice beyond a known front part is a slice of the rest. -/
theorem slice_skip {front rest : List UInt8} {width start stop : Nat}
    (hfront : front.length = width) (h : width ≤ start) :
    slice (front ++ rest) start stop = slice rest (start - width) (stop - width) := by
  have hsub : stop - start = stop - width - (start - width) := by omega
  have hdrop : front.drop start = [] := List.drop_eq_nil_of_le (by omega)
  rw [slice, slice, ← hsub, List.drop_append, hdrop, List.nil_append, hfront]

/-- The slice of a front part's own length is that part. -/
theorem slice_field {front rest : List UInt8} {width : Nat} (hfront : front.length = width) :
    slice (front ++ rest) 0 width = front := by
  simp [slice, ← hfront]

/-- A slice is a front part and a rest exactly when its two parts are. -/
theorem slice_eq_append_iff {bytes front rest : List UInt8} {start width stop : Nat}
    (hfront : front.length = width) (h : start + width ≤ stop) (h' : stop ≤ bytes.length) :
    slice bytes start stop = front ++ rest ↔
      slice bytes start (start + width) = front ∧ slice bytes (start + width) stop = rest := by
  have hlength : (slice bytes start (start + width)).length = front.length := by
    rw [length_slice (Nat.le_trans h h'), hfront]
    omega
  rw [← slice_append_slice (Nat.le_add_right start width) h]
  constructor
  · intro heq
    exact List.append_inj heq hlength
  · intro hparts
    rw [hparts.1, hparts.2]

/-! ## §3. Indexing and slicing that panic out of range. -/

/-- `bytes[i]`. -/
def byteAt {ε : Type} (bytes : List UInt8) (i : Nat) : Outcome ε UInt8 :=
  match bytes[i]? with
  | some b => .ok b
  | none => .error (.panic "index out of bounds")

/-- `bytes[start..stop]`. -/
def range {ε : Type} (bytes : List UInt8) (start stop : Nat) : Outcome ε (List UInt8) :=
  if start ≤ stop ∧ stop ≤ bytes.length then .ok (slice bytes start stop)
  else .error (.panic "range out of bounds")

theorem byteAt_of_lt {ε : Type} {bytes : List UInt8} {i : Nat} (h : i < bytes.length) :
    (byteAt bytes i : Outcome ε UInt8) = .ok bytes[i] := by
  simp [byteAt, h]

theorem range_of_le {ε : Type} {bytes : List UInt8} {start stop : Nat} (h : start ≤ stop)
    (h' : stop ≤ bytes.length) :
    (range bytes start stop : Outcome ε (List UInt8)) = .ok (slice bytes start stop) :=
  if_pos ⟨h, h'⟩

/-! ## §4. Text. -/

/-- `text.as_bytes()`: the UTF-8 bytes of a text. -/
def asBytes (text : String) : List UInt8 := text.toByteArray.data.toList

/-- `std::str::from_utf8(bytes)`. -/
def fromUtf8 (bytes : List UInt8) : Option String := String.fromUTF8? ⟨⟨bytes⟩⟩

theorem fromUtf8_asBytes (text : String) : fromUtf8 (asBytes text) = some text := by
  have hvalid : ByteArray.IsValidUTF8 ⟨⟨asBytes text⟩⟩ := text.isValidUTF8
  rw [fromUtf8, String.fromUTF8?, dif_pos hvalid]
  rfl

theorem asBytes_of_fromUtf8 {bytes : List UInt8} {text : String} (h : fromUtf8 bytes = some text) :
    asBytes text = bytes := by
  unfold fromUtf8 String.fromUTF8? at h
  split at h
  · cases h
    rfl
  · cases h

end AvMesh.Lib
