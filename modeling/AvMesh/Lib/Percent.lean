/-
  AvMesh.Lib.Percent
  ──────────────────
  **PERCENT-CODED BYTES.**

  A byte of a query value stands for itself, or is written as a percent sign
  and two hexadecimal digits; a plus sign stands for a blank.

    • `percentDecode`   — the decoder, `none` on an incomplete or malformed code,
    • `percentEncode`   — every byte but ASCII letters and digits coded, in
                          upper or lower case,
    • `percentDecode_encode` — the round trip.

  The code of a text is ASCII, so it is a text itself (`percentEncodeText`).
-/
import AvMesh.Lib.Bytes

namespace AvMesh.Lib

/-! ## §1. Hexadecimal digits. -/

def hexValue (byte : UInt8) : Option UInt8 :=
  if 48 ≤ byte ∧ byte ≤ 57 then some (byte - 48)
  else if 97 ≤ byte ∧ byte ≤ 102 then some (byte - 97 + 10)
  else if 65 ≤ byte ∧ byte ≤ 70 then some (byte - 65 + 10)
  else none

/-- The digit of a value below 16. -/
def hexDigit (upper : Bool) (value : UInt8) : UInt8 :=
  if value < 10 then value + 48 else if upper then value - 10 + 65 else value - 10 + 97

/-- An ASCII letter or digit. -/
def isAlphanumeric (byte : UInt8) : Bool :=
  (48 ≤ byte && byte ≤ 57) || (65 ≤ byte && byte ≤ 90) || (97 ≤ byte && byte ≤ 122)

/-! ## §2. Decoding and encoding. -/

/-- The loop of a percent decoder. -/
def percentDecode : List UInt8 → Option (List UInt8)
  | [] => some []
  | byte :: rest =>
      if byte = 37 then
        match rest with
        | high :: low :: rest => do
            let high ← hexValue high
            let low ← hexValue low
            let decoded ← percentDecode rest
            return (high <<< 4 ||| low) :: decoded
        | _ => none
      else do
        let decoded ← percentDecode rest
        return (if byte = 43 then 32 else byte) :: decoded

def percentEncodeByte (upper : Bool) (byte : UInt8) : List UInt8 :=
  if isAlphanumeric byte then [byte]
  else [37, hexDigit upper (byte / 16), hexDigit upper (byte % 16)]

def percentEncode (upper : Bool) (bytes : List UInt8) : List UInt8 :=
  bytes.flatMap (percentEncodeByte upper)

/-- A property of all bytes is checked on the 256 of them. -/
theorem forall_byte {P : UInt8 → Prop} (h : ∀ n : Fin 256, P (UInt8.ofNat n)) (byte : UInt8) :
    P byte := by
  have := h ⟨byte.toNat, byte.toNat_lt⟩
  rwa [UInt8.ofNat_toNat] at this

theorem hexDigits_of_byte (upper : Bool) (byte : UInt8) :
    hexValue (hexDigit upper (byte / 16)) = some (byte / 16)
      ∧ hexValue (hexDigit upper (byte % 16)) = some (byte % 16)
      ∧ (byte / 16) <<< 4 ||| byte % 16 = byte := by
  refine forall_byte (P := fun byte => hexValue (hexDigit upper (byte / 16)) = some (byte / 16)
      ∧ hexValue (hexDigit upper (byte % 16)) = some (byte % 16)
      ∧ (byte / 16) <<< 4 ||| byte % 16 = byte) ?_ byte
  cases upper <;> decide +kernel

theorem isAlphanumeric_hexDigit (upper : Bool) (byte : UInt8) :
    isAlphanumeric (hexDigit upper (byte / 16)) = true
      ∧ isAlphanumeric (hexDigit upper (byte % 16)) = true := by
  refine forall_byte (P := fun byte => isAlphanumeric (hexDigit upper (byte / 16)) = true
      ∧ isAlphanumeric (hexDigit upper (byte % 16)) = true) ?_ byte
  cases upper <;> decide +kernel

/-- The bytes of a code are letters, digits and percent signs. -/
theorem percentEncodeByte_chars (upper : Bool) (byte : UInt8) :
    ∀ b ∈ percentEncodeByte upper byte, isAlphanumeric b = true ∨ b = 37 := by
  obtain ⟨hhigh, hlow⟩ := isAlphanumeric_hexDigit upper byte
  intro b hb
  unfold percentEncodeByte at hb
  split at hb
  next halpha =>
    rw [List.mem_singleton.mp hb]
    exact .inl halpha
  next =>
    simp only [List.mem_cons, List.not_mem_nil, or_false] at hb
    rcases hb with rfl | rfl | rfl
    · exact .inr rfl
    · exact .inl hhigh
    · exact .inl hlow

theorem percentEncode_chars {upper : Bool} {bytes : List UInt8} {b : UInt8}
    (h : b ∈ percentEncode upper bytes) : isAlphanumeric b = true ∨ b = 37 := by
  obtain ⟨byte, _, hb⟩ := List.mem_flatMap.mp h
  exact percentEncodeByte_chars upper byte b hb

theorem percentDecode_encodeByte (upper : Bool) (byte : UInt8) (rest : List UInt8) :
    percentDecode (percentEncodeByte upper byte ++ rest) = (percentDecode rest).map (byte :: ·) := by
  unfold percentEncodeByte
  split
  next halpha =>
    have hplain : byte ≠ 37 ∧ byte ≠ 43 := by
      constructor
      · rintro rfl
        revert halpha
        decide
      · rintro rfl
        revert halpha
        decide
    show percentDecode (byte :: rest) = _
    rw [percentDecode.eq_def]
    dsimp only
    rw [if_neg hplain.1, if_neg hplain.2]
    cases percentDecode rest <;> rfl
  next =>
    obtain ⟨hhigh, hlow, hjoin⟩ := hexDigits_of_byte upper byte
    show percentDecode (37 :: hexDigit upper (byte / 16) :: hexDigit upper (byte % 16) :: rest) = _
    rw [percentDecode, if_pos rfl]
    simp only [hhigh, hlow, Option.bind_eq_bind, Option.bind_some, hjoin]
    cases percentDecode rest <;> rfl

/-- **What is encoded is decoded.** -/
theorem percentDecode_encode (upper : Bool) (bytes : List UInt8) :
    percentDecode (percentEncode upper bytes) = some bytes := by
  induction bytes with
  | nil => rfl
  | cons byte bytes ih =>
      unfold percentEncode at ih ⊢
      rw [List.flatMap_cons, percentDecode_encodeByte, ih]
      rfl

/-! ## §3. The code of a text is a text. -/

/-- The UTF-8 bytes of a list of characters. -/
def utf8Bytes (text : List Char) : List UInt8 := text.flatMap String.utf8EncodeChar

theorem asBytes_ofList (text : List Char) : asBytes (String.ofList text) = utf8Bytes text := by
  unfold asBytes utf8Bytes
  rw [String.toByteArray_ofList]
  simp [List.utf8Encode]

theorem utf8Bytes_cons (c : Char) (text : List Char) :
    utf8Bytes (c :: text) = String.utf8EncodeChar c ++ utf8Bytes text := by
  unfold utf8Bytes
  rw [List.flatMap_cons]

/-- The character of an ASCII byte. -/
def asciiChar (byte : UInt8) : Char := Char.ofNat byte.toNat

theorem utf8EncodeChar_asciiChar {byte : UInt8} (h : byte < 128) :
    String.utf8EncodeChar (asciiChar byte) = [byte] := by
  revert h
  refine forall_byte (P := fun byte => byte < 128 →
    String.utf8EncodeChar (asciiChar byte) = [byte]) ?_ byte
  decide +kernel

theorem utf8Bytes_map_asciiChar {bytes : List UInt8} (h : ∀ byte ∈ bytes, byte < 128) :
    utf8Bytes (bytes.map asciiChar) = bytes := by
  induction bytes with
  | nil => rfl
  | cons byte bytes ih =>
      rw [List.map_cons, utf8Bytes_cons, utf8EncodeChar_asciiChar (h byte List.mem_cons_self),
        ih fun b hb => h b (List.mem_cons_of_mem _ hb)]
      rfl

theorem lt_of_isAlphanumeric {byte : UInt8} (h : isAlphanumeric byte = true ∨ byte = 37) :
    byte < 128 := by
  revert h
  refine forall_byte (P := fun byte => isAlphanumeric byte = true ∨ byte = 37 → byte < 128) ?_ byte
  decide +kernel

/-- The percent code of a text. -/
def percentEncodeText (upper : Bool) (text : String) : String :=
  String.ofList ((percentEncode upper (asBytes text)).map asciiChar)

theorem asBytes_percentEncodeText (upper : Bool) (text : String) :
    asBytes (percentEncodeText upper text) = percentEncode upper (asBytes text) := by
  unfold percentEncodeText
  rw [asBytes_ofList, utf8Bytes_map_asciiChar]
  intro byte hbyte
  exact lt_of_isAlphanumeric (percentEncode_chars hbyte)

/-- **A text is read back from its code.** -/
theorem fromUtf8_percentDecode (upper : Bool) (text : String) :
    (percentDecode (asBytes (percentEncodeText upper text))).bind fromUtf8 = some text := by
  rw [asBytes_percentEncodeText, percentDecode_encode]
  exact fromUtf8_asBytes text

end AvMesh.Lib
