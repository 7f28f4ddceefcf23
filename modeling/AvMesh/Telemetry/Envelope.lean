/-
  AvMesh.Telemetry.Envelope
  ─────────────────────────
  **THE TELEMETRY ENVELOPE AND ITS WIRE FORMAT.**

  `TelemetryEnvelope` (src/telemetry_fec.rs) is a fixed 48-byte header, the
  node id as UTF-8 text, and the payload:

      0..4  magic    4 version   5 kind     6..8  reserved
      8..16 boot id  16..24 sequence        24..32 capture time
      32..36 period  36..38 node id length  38..40 reserved
      40..44 payload length                 44..48 payload checksum

  `encode` writes zeros in the reserved bytes and `decode` does not read
  them; this is the only freedom a decodable byte string has.  The checksum
  function is a parameter: nothing depends on which one it is.
-/
import AvMesh.Lib.Bytes

namespace AvMesh.Telemetry

open AvMesh.Lib

/-! ## §1. Constants and types. -/

def telemetryEnvelopeMagic : List UInt8 := [0x4e, 0x54, 0x46, 0x31]
def telemetryEnvelopeVersion : UInt8 := 1
def telemetryKindMeshSnapshot : UInt8 := 1
def maxTelemetryEnvelopeBytes : Nat := 32 * 1024
def maxTelemetryNodeIdBytes : Nat := 128
def envelopeHeaderLen : Nat := 48

structure TelemetryEnvelope where
  kind : UInt8
  bootId : UInt64
  sequence : UInt64
  capturedUnixMs : UInt64
  periodMs : UInt32
  nodeId : String
  payload : List UInt8
  deriving DecidableEq

/-- The errors of the codec. -/
inductive TelemetryFecError where
  | invalidNodeIdLength (length : Nat)
  | emptyPayload
  | envelopeTooLarge (length : Nat)
  | envelopeTooShort (length : Nat)
  | invalidMagic
  | unsupportedVersion (version : UInt8)
  | lengthMismatch (declared actual : Nat)
  | invalidNodeIdEncoding
  | payloadChecksumMismatch
  deriving Repr, DecidableEq

namespace TelemetryEnvelope

def meshSnapshot (bootId sequence capturedUnixMs : UInt64) (periodMs : UInt32) (nodeId : String)
    (payload : List UInt8) : TelemetryEnvelope :=
  { kind := telemetryKindMeshSnapshot, bootId, sequence, capturedUnixMs, periodMs, nodeId, payload }

/-! ## §2. The codec. -/

/-- `ENVELOPE_HEADER_LEN.checked_add(node_id_len)` and then the payload length. -/
def envelopeLen (nodeIdLen payloadLen : Nat) : Option Nat :=
  (checkedAdd envelopeHeaderLen nodeIdLen).bind fun len => checkedAdd len payloadLen

/-- The header fields in the order `encode` appends them. -/
def headerBytes (e : TelemetryEnvelope) (nodeIdLen payloadLen : Nat) (crc : UInt32) : List UInt8 :=
  telemetryEnvelopeMagic ++ [telemetryEnvelopeVersion] ++ [e.kind] ++ toLeBytes 2 0
    ++ toLeBytes 8 e.bootId.toNat ++ toLeBytes 8 e.sequence.toNat
    ++ toLeBytes 8 e.capturedUnixMs.toNat ++ toLeBytes 4 e.periodMs.toNat
    ++ toLeBytes 2 nodeIdLen ++ toLeBytes 2 0 ++ toLeBytes 4 payloadLen
    ++ toLeBytes 4 crc.toNat

def encode (hash : List UInt8 → UInt32) (e : TelemetryEnvelope) :
    Outcome TelemetryFecError (List UInt8) :=
  let nodeId := asBytes e.nodeId
  if nodeId.isEmpty ∨ nodeId.length > maxTelemetryNodeIdBytes then
    .error (.err (.invalidNodeIdLength nodeId.length))
  else if e.payload.isEmpty then .error (.err .emptyPayload)
  else
    match envelopeLen nodeId.length e.payload.length with
    | none => .error (.err (.envelopeTooLarge u64Max))
    | some encodedLen =>
        if encodedLen > maxTelemetryEnvelopeBytes then
          .error (.err (.envelopeTooLarge encodedLen))
        else
          match tryFrom 16 nodeId.length, tryFrom 32 e.payload.length with
          | none, _ => .error (.err (.invalidNodeIdLength nodeId.length))
          | some _, none => .error (.err (.envelopeTooLarge encodedLen))
          | some nodeIdLen, some payloadLen =>
              let encoded :=
                headerBytes e nodeIdLen payloadLen (hash e.payload) ++ nodeId ++ e.payload
              -- debug_assert_eq!(encoded.len(), encoded_len)
              if encoded.length ≠ encodedLen then .error (.panic "encoded length")
              else .ok encoded

/-- `read_u64(encoded, offset)`. -/
def readU64 (encoded : List UInt8) (offset : Nat) : Outcome TelemetryFecError UInt64 := do
  let bytes ← range encoded offset (offset + 8)
  return UInt64.ofNat (fromLeBytes bytes)

/-- The part of `decode` after the declared lengths agree with the bytes. -/
def decodeFields (hash : List UInt8 → UInt32) (encoded : List UInt8) (nodeIdLen : Nat) :
    Outcome TelemetryFecError TelemetryEnvelope := do
  let nodeEnd := envelopeHeaderLen + nodeIdLen
  match fromUtf8 (← range encoded envelopeHeaderLen nodeEnd) with
  | none => .error (.err .invalidNodeIdEncoding)
  | some nodeId =>
      let payload ← range encoded nodeEnd encoded.length
      let expectedCrc := UInt32.ofNat (fromLeBytes [← byteAt encoded 44, ← byteAt encoded 45,
        ← byteAt encoded 46, ← byteAt encoded 47])
      if hash payload ≠ expectedCrc then .error (.err .payloadChecksumMismatch)
      else
        return {
          kind := ← byteAt encoded 5
          bootId := ← readU64 encoded 8
          sequence := ← readU64 encoded 16
          capturedUnixMs := ← readU64 encoded 24
          periodMs := UInt32.ofNat (fromLeBytes [← byteAt encoded 32, ← byteAt encoded 33,
            ← byteAt encoded 34, ← byteAt encoded 35])
          nodeId
          payload }

/-- The part of `decode` after the magic and the version. -/
def decodeLengths (hash : List UInt8 → UInt32) (encoded : List UInt8) :
    Outcome TelemetryFecError TelemetryEnvelope := do
  let nodeIdLen := fromLeBytes [← byteAt encoded 36, ← byteAt encoded 37]
  if nodeIdLen = 0 ∨ nodeIdLen > maxTelemetryNodeIdBytes then
    .error (.err (.invalidNodeIdLength nodeIdLen))
  else
    let payloadLen := fromLeBytes [← byteAt encoded 40, ← byteAt encoded 41,
      ← byteAt encoded 42, ← byteAt encoded 43]
    match envelopeLen nodeIdLen payloadLen with
    | none => .error (.err (.envelopeTooLarge u64Max))
    | some expectedLen =>
        if expectedLen ≠ encoded.length then
          .error (.err (.lengthMismatch expectedLen encoded.length))
        else if payloadLen = 0 then .error (.err .emptyPayload)
        else decodeFields hash encoded nodeIdLen

def decode (hash : List UInt8 → UInt32) (encoded : List UInt8) :
    Outcome TelemetryFecError TelemetryEnvelope :=
  if encoded.length < envelopeHeaderLen then
    .error (.err (.envelopeTooShort encoded.length))
  else if encoded.length > maxTelemetryEnvelopeBytes then
    .error (.err (.envelopeTooLarge encoded.length))
  else do
    if (← range encoded 0 4) ≠ telemetryEnvelopeMagic then .error (.err .invalidMagic)
    else
      let version ← byteAt encoded 4
      if version ≠ telemetryEnvelopeVersion then .error (.err (.unsupportedVersion version))
      else decodeLengths hash encoded

/-! ## §3. What has an encoding, and the bytes it has. -/

/-- The envelopes `encode` accepts. -/
structure Encodable (e : TelemetryEnvelope) : Prop where
  nodeId_pos : 1 ≤ (asBytes e.nodeId).length
  nodeId_le : (asBytes e.nodeId).length ≤ 128
  payload_pos : 1 ≤ e.payload.length
  total_le : 48 + (asBytes e.nodeId).length + e.payload.length ≤ 32768

/-- The bytes of an envelope on the wire. -/
def wireBytes (hash : List UInt8 → UInt32) (e : TelemetryEnvelope) : List UInt8 :=
  headerBytes e (asBytes e.nodeId).length e.payload.length (hash e.payload)
    ++ asBytes e.nodeId ++ e.payload

section Codec

variable {hash : List UInt8 → UInt32} {b : List UInt8} {e : TelemetryEnvelope}

theorem length_headerBytes (e : TelemetryEnvelope) (nodeIdLen payloadLen : Nat) (crc : UInt32) :
    (headerBytes e nodeIdLen payloadLen crc).length = 48 := by
  simp [headerBytes, telemetryEnvelopeMagic]

theorem length_wireBytes (hash : List UInt8 → UInt32) (e : TelemetryEnvelope) :
    (wireBytes hash e).length = 48 + (asBytes e.nodeId).length + e.payload.length := by
  simp only [wireBytes, List.length_append, length_headerBytes]

/-- Lengths that fit the total bound do not overflow. -/
theorem envelopeLen_of_le {nodeIdLen payloadLen : Nat} (h : 48 + nodeIdLen + payloadLen ≤ u64Max) :
    envelopeLen nodeIdLen payloadLen = some (48 + nodeIdLen + payloadLen) := by
  have hnode : 48 + nodeIdLen ≤ u64Max := by omega
  simp only [envelopeLen, envelopeHeaderLen, checkedAdd_of_le hnode, Option.bind_some,
    checkedAdd_of_le h]

theorem envelopeLen_eq_some {nodeIdLen payloadLen len : Nat}
    (h : envelopeLen nodeIdLen payloadLen = some len) : len = 48 + nodeIdLen + payloadLen := by
  obtain ⟨front, hfront, hlen⟩ := Option.bind_eq_some_iff.mp h
  have hfront' := checkedAdd_eq_some hfront
  have hlen' := checkedAdd_eq_some hlen
  simp only [envelopeHeaderLen] at hfront'
  omega

theorem encode_of_encodable (h : Encodable e) : encode hash e = .ok (wireBytes hash e) := by
  obtain ⟨hpos, hle, hpay, htotal⟩ := h
  have hmax : (32768 : Nat) ≤ u64Max := by decide
  have hnode : ¬((asBytes e.nodeId).isEmpty ∨
      (asBytes e.nodeId).length > maxTelemetryNodeIdBytes) := by
    simp only [List.isEmpty_iff_length_eq_zero, maxTelemetryNodeIdBytes]
    omega
  have hpayload : ¬(e.payload.isEmpty = true) := by
    simp only [List.isEmpty_iff_length_eq_zero]
    omega
  have hbound : ¬(48 + (asBytes e.nodeId).length + e.payload.length
      > maxTelemetryEnvelopeBytes) := by
    simp only [maxTelemetryEnvelopeBytes]
    omega
  have h16 : (asBytes e.nodeId).length < 2 ^ 16 := by omega
  have h32 : e.payload.length < 2 ^ 32 := by omega
  have hwire := length_wireBytes hash e
  simp only [encode]
  rw [if_neg hnode, if_neg hpayload, envelopeLen_of_le (htotal.trans hmax)]
  simp only [if_neg hbound, tryFrom_of_lt h16, tryFrom_of_lt h32]
  exact if_neg (not_not.mpr hwire)

theorem encodable_of_encode (h : encode hash e = .ok b) : Encodable e := by
  simp only [encode] at h
  split at h
  · cases h
  next hnode =>
  split at h
  · cases h
  next hpayload =>
  split at h
  · cases h
  next encodedLen hlen =>
  split at h
  · cases h
  next hbound =>
  have htotal := envelopeLen_eq_some hlen
  simp only [List.isEmpty_iff_length_eq_zero, maxTelemetryNodeIdBytes] at hnode
  simp only [List.isEmpty_iff_length_eq_zero] at hpayload
  simp only [maxTelemetryEnvelopeBytes] at hbound
  exact ⟨by omega, by omega, by omega, by omega⟩

/-! ## §4. The layout a decodable byte string has. -/

/-- The fields that follow the length checks, with the node id of the given length. -/
structure Fields (hash : List UInt8 → UInt32) (b : List UInt8) (e : TelemetryEnvelope)
    (nodeIdLen : Nat) : Prop where
  kind : slice b 5 6 = [e.kind]
  bootId : slice b 8 16 = toLeBytes 8 e.bootId.toNat
  sequence : slice b 16 24 = toLeBytes 8 e.sequence.toNat
  capturedUnixMs : slice b 24 32 = toLeBytes 8 e.capturedUnixMs.toNat
  periodMs : slice b 32 36 = toLeBytes 4 e.periodMs.toNat
  crc : slice b 44 48 = toLeBytes 4 (hash e.payload).toNat
  nodeId : slice b 48 (48 + nodeIdLen) = asBytes e.nodeId
  payload : slice b (48 + nodeIdLen) b.length = e.payload

/-- `b` is laid out as the wire format of `e`, reserved bytes aside. -/
structure Layout (hash : List UInt8 → UInt32) (b : List UInt8) (e : TelemetryEnvelope) : Prop where
  encodable : Encodable e
  length : b.length = 48 + (asBytes e.nodeId).length + e.payload.length
  magic : slice b 0 4 = telemetryEnvelopeMagic
  version : slice b 4 5 = [telemetryEnvelopeVersion]
  nodeIdLen : slice b 36 38 = toLeBytes 2 (asBytes e.nodeId).length
  payloadLen : slice b 40 44 = toLeBytes 4 e.payload.length
  fields : Fields hash b e (asBytes e.nodeId).length

theorem slice_two {i : Nat} (h : i + 2 ≤ b.length) :
    slice b i (i + 2) = [b[i], b[i + 1]] := by
  simp (disch := omega) only [slice_cons, slice_self]

theorem slice_four {i : Nat} (h : i + 4 ≤ b.length) :
    slice b i (i + 4) = [b[i], b[i + 1], b[i + 2], b[i + 3]] := by
  simp (disch := omega) only [slice_cons, slice_self]

theorem readU64_of_le {offset : Nat} (h : offset + 8 ≤ b.length) :
    readU64 b offset = .ok (UInt64.ofNat (fromLeBytes (slice b offset (offset + 8)))) := by
  rw [readU64, range_of_le (by omega) h]
  rfl

/-- The last stage of `decode`, on bytes long enough for every access. -/
theorem decodeFields_eq {nodeIdLen : Nat} (h : 48 + nodeIdLen ≤ b.length) :
    decodeFields hash b nodeIdLen =
      match fromUtf8 (slice b 48 (48 + nodeIdLen)) with
      | none => .error (.err .invalidNodeIdEncoding)
      | some nodeId =>
          let payload := slice b (48 + nodeIdLen) b.length
          if hash payload ≠ UInt32.ofNat (fromLeBytes (slice b 44 48)) then
            .error (.err .payloadChecksumMismatch)
          else
            .ok { kind := b[5]
                  bootId := UInt64.ofNat (fromLeBytes (slice b 8 16))
                  sequence := UInt64.ofNat (fromLeBytes (slice b 16 24))
                  capturedUnixMs := UInt64.ofNat (fromLeBytes (slice b 24 32))
                  periodMs := UInt32.ofNat (fromLeBytes (slice b 32 36))
                  nodeId
                  payload } := by
  have hcrc := slice_four (show 44 + 4 ≤ b.length by omega)
  have hperiod := slice_four (show 32 + 4 ≤ b.length by omega)
  rw [hcrc, hperiod]
  simp (disch := omega) only [decodeFields, envelopeHeaderLen, range_of_le, byteAt_of_lt,
    readU64_of_le]
  rfl

theorem decodeFields_eq_ok_iff {nodeIdLen : Nat} (h : 48 + nodeIdLen ≤ b.length) :
    decodeFields hash b nodeIdLen = .ok e ↔ Fields hash b e nodeIdLen := by
  have hkind : slice b 5 6 = [b[5]] := by
    simp (disch := omega) only [slice_cons, slice_self]
  have hlen8 : ∀ i, i + 8 ≤ 48 → (slice b i (i + 8)).length = 8 := by
    intro i hi
    rw [length_slice (by omega)]
    omega
  have hlen4 : ∀ i, i + 4 ≤ 48 → (slice b i (i + 4)).length = 4 := by
    intro i hi
    rw [length_slice (by omega)]
    omega
  rw [decodeFields_eq h]
  constructor
  · intro hok
    split at hok
    · cases hok
    next nodeId hnode =>
    dsimp only at hok
    split at hok
    · cases hok
    next hcrc =>
    cases hok
    exact {
      kind := hkind
      bootId := (uint64_fromLeBytes_eq_iff (hlen8 8 (by omega))).mp rfl
      sequence := (uint64_fromLeBytes_eq_iff (hlen8 16 (by omega))).mp rfl
      capturedUnixMs := (uint64_fromLeBytes_eq_iff (hlen8 24 (by omega))).mp rfl
      periodMs := (uint32_fromLeBytes_eq_iff (hlen4 32 (by omega))).mp rfl
      crc := (uint32_fromLeBytes_eq_iff (hlen4 44 (by omega))).mp (not_not.mp hcrc).symm
      nodeId := (asBytes_of_fromUtf8 hnode).symm
      payload := rfl }
  · intro hf
    have hkind' : b[5] = e.kind := by
      have hcons := hf.kind
      rw [hkind] at hcons
      exact (List.cons.inj hcons).1
    rw [hf.nodeId, fromUtf8_asBytes, hf.payload]
    dsimp only
    rw [(uint32_fromLeBytes_eq_iff (hlen4 44 (by omega))).mpr hf.crc,
      (uint64_fromLeBytes_eq_iff (hlen8 8 (by omega))).mpr hf.bootId,
      (uint64_fromLeBytes_eq_iff (hlen8 16 (by omega))).mpr hf.sequence,
      (uint64_fromLeBytes_eq_iff (hlen8 24 (by omega))).mpr hf.capturedUnixMs,
      (uint32_fromLeBytes_eq_iff (hlen4 32 (by omega))).mpr hf.periodMs, hkind']
    exact if_neg (not_not.mpr rfl)

/-- The stage that checks the declared lengths, on bytes with a whole header. -/
theorem decodeLengths_eq (h : 48 ≤ b.length) :
    decodeLengths hash b =
      let nodeIdLen := fromLeBytes (slice b 36 38)
      let payloadLen := fromLeBytes (slice b 40 44)
      if nodeIdLen = 0 ∨ nodeIdLen > maxTelemetryNodeIdBytes then
        .error (.err (.invalidNodeIdLength nodeIdLen))
      else
        match envelopeLen nodeIdLen payloadLen with
        | none => .error (.err (.envelopeTooLarge u64Max))
        | some expectedLen =>
            if expectedLen ≠ b.length then
              .error (.err (.lengthMismatch expectedLen b.length))
            else if payloadLen = 0 then .error (.err .emptyPayload)
            else decodeFields hash b nodeIdLen := by
  have hnode := slice_two (show 36 + 2 ≤ b.length by omega)
  have hpayload := slice_four (show 40 + 4 ≤ b.length by omega)
  rw [hnode, hpayload]
  simp (disch := omega) only [decodeLengths, byteAt_of_lt]
  rfl

/-- The checks before the lengths, on bytes of an allowed length. -/
theorem decode_eq (h : 48 ≤ b.length) (hmax : b.length ≤ 32768) :
    decode hash b =
      if slice b 0 4 ≠ telemetryEnvelopeMagic then .error (.err .invalidMagic)
      else if b[4] ≠ telemetryEnvelopeVersion then .error (.err (.unsupportedVersion b[4]))
      else decodeLengths hash b := by
  have hshort : ¬(b.length < envelopeHeaderLen) := by
    simp only [envelopeHeaderLen]
    omega
  have hlarge : ¬(b.length > maxTelemetryEnvelopeBytes) := by
    simp only [maxTelemetryEnvelopeBytes]
    omega
  rw [decode, if_neg hshort, if_neg hlarge]
  simp (disch := omega) only [range_of_le, byteAt_of_lt]
  rfl

/-- A decoded byte string is laid out as its envelope. -/
theorem layout_of_decode (h : decode hash b = .ok e) : Layout hash b e := by
  have hshort : 48 ≤ b.length := by
    by_contra hlt
    have hshort : b.length < envelopeHeaderLen := by
      simp only [envelopeHeaderLen]
      omega
    rw [decode, if_pos hshort] at h
    cases h
  have hlarge : b.length ≤ 32768 := by
    by_contra hgt
    have hlarge : b.length > maxTelemetryEnvelopeBytes := by
      simp only [maxTelemetryEnvelopeBytes]
      omega
    rw [decode, if_neg (by simp only [envelopeHeaderLen]; omega), if_pos hlarge] at h
    cases h
  rw [decode_eq hshort hlarge] at h
  split at h
  · cases h
  next hmagic =>
  split at h
  · cases h
  next hversion =>
  rw [decodeLengths_eq hshort] at h
  dsimp only at h
  split at h
  · cases h
  next hnode =>
  split at h
  · cases h
  next expectedLen hexpected =>
  split at h
  · cases h
  next hlength =>
  split at h
  · cases h
  next hpayload =>
  have htotal := envelopeLen_eq_some hexpected
  have hfields := (decodeFields_eq_ok_iff (by omega)).mp h
  -- The lengths read from the header are those of the parts they delimit.
  have hnodeLen : (asBytes e.nodeId).length = fromLeBytes (slice b 36 38) := by
    rw [← hfields.nodeId, length_slice (by omega)]
    omega
  have hpayloadLen : e.payload.length = fromLeBytes (slice b 40 44) := by
    rw [← hfields.payload, length_slice (by omega)]
    omega
  have hlen2 : (slice b 36 38).length = 2 := by rw [length_slice (by omega)]
  have hlen4 : (slice b 40 44).length = 4 := by rw [length_slice (by omega)]
  simp only [maxTelemetryNodeIdBytes] at hnode
  have hencodable : Encodable e := ⟨by omega, by omega, by omega, by omega⟩
  constructor
  case encodable => exact hencodable
  case length => omega
  case magic => exact not_not.mp hmagic
  case version =>
    have hslice : slice b 4 5 = [b[4]] := by
      simp (disch := omega) only [slice_cons, slice_self]
    rw [hslice, not_not.mp hversion]
  case nodeIdLen =>
    have hle := hencodable.nodeId_le
    exact (fromLeBytes_eq_iff hlen2 (by omega)).mp hnodeLen.symm
  case payloadLen =>
    have hle := hencodable.total_le
    exact (fromLeBytes_eq_iff hlen4 (by omega)).mp hpayloadLen.symm
  case fields => exact hnodeLen ▸ hfields

/-- Bytes laid out as an envelope decode to it. -/
theorem decode_of_layout (h : Layout hash b e) : decode hash b = .ok e := by
  obtain ⟨⟨hpos, hle, hpay, htotal⟩, hlength, hmagic, hversion, hnode, hpayload, hfields⟩ := h
  have hnodeLen : fromLeBytes (slice b 36 38) = (asBytes e.nodeId).length := by
    rw [hnode, fromLeBytes_toLeBytes (by omega)]
  have hpayloadLen : fromLeBytes (slice b 40 44) = e.payload.length := by
    rw [hpayload, fromLeBytes_toLeBytes (by omega)]
  have hversion' : b[4] = telemetryEnvelopeVersion := by
    have hslice : slice b 4 5 = [b[4]] := by
      simp (disch := omega) only [slice_cons, slice_self]
    rw [hslice] at hversion
    exact (List.cons.inj hversion).1
  have hmax : (32768 : Nat) ≤ u64Max := by decide
  have hnodeOk : ¬((asBytes e.nodeId).length = 0 ∨
      (asBytes e.nodeId).length > maxTelemetryNodeIdBytes) := by
    simp only [maxTelemetryNodeIdBytes]
    omega
  rw [decode_eq (by omega) (by omega), if_neg (not_not.mpr hmagic),
    if_neg (not_not.mpr hversion'), decodeLengths_eq (by omega)]
  dsimp only
  rw [hnodeLen, hpayloadLen, if_neg hnodeOk, envelopeLen_of_le (htotal.trans hmax)]
  dsimp only
  rw [if_neg (not_not.mpr hlength.symm), if_neg (by omega)]
  exact (decodeFields_eq_ok_iff (by omega)).mpr hfields

/-- No access of `decode` is out of range, whatever the bytes. -/
theorem noPanic_decode (hash : List UInt8 → UInt32) (b : List UInt8) :
    NoPanic (decode hash b) := by
  by_cases hshort : 48 ≤ b.length
  · by_cases hlarge : b.length ≤ 32768
    · rw [decode_eq hshort hlarge]
      split
      · exact NoPanic.err _
      split
      · exact NoPanic.err _
      rw [decodeLengths_eq hshort]
      dsimp only
      split
      · exact NoPanic.err _
      split
      · exact NoPanic.err _
      next expectedLen hexpected =>
      split
      · exact NoPanic.err _
      next hlength =>
      split
      · exact NoPanic.err _
      have htotal := envelopeLen_eq_some hexpected
      rw [decodeFields_eq (by omega)]
      split
      · exact NoPanic.err _
      dsimp only
      split
      · exact NoPanic.err _
      · exact NoPanic.ok _
    · rw [decode, if_neg (by simp only [envelopeHeaderLen]; omega),
        if_pos (by simp only [maxTelemetryEnvelopeBytes]; omega)]
      exact NoPanic.err _
  · rw [decode, if_pos (by simp only [envelopeHeaderLen]; omega)]
    exact NoPanic.err _

/-! ## §5. The round trips. -/

/-- The byte string with its reserved bytes 6, 7, 38 and 39 set to zero. -/
def zeroReserved (b : List UInt8) : List UInt8 :=
  (((b.set 6 0).set 7 0).set 38 0).set 39 0

theorem zeroReserved_eq (h : 40 ≤ b.length) :
    zeroReserved b =
      slice b 0 6 ++ (toLeBytes 2 0 ++ (slice b 8 38 ++ (toLeBytes 2 0 ++ slice b 40 b.length))) := by
  have hsplit : b = slice b 0 6 ++ (slice b 6 8 ++ (slice b 8 38 ++
      (slice b 38 40 ++ slice b 40 b.length))) := by
    rw [slice_append_slice (by omega) h, slice_append_slice (by omega) (by omega),
      slice_append_slice (by omega) (by omega), slice_append_slice (by omega) (by omega),
      slice_zero_length]
  have hlow : slice b 6 8 = [b[6], b[7]] := slice_two (by omega)
  have hhigh : slice b 38 40 = [b[38], b[39]] := slice_two (by omega)
  have hlen6 : (slice b 0 6).length = 6 := by rw [length_slice (by omega)]
  have hlen30 : (slice b 8 38).length = 30 := by rw [length_slice (by omega)]
  rw [hlow, hhigh] at hsplit
  generalize slice b 0 6 = front at *
  generalize slice b 8 38 = middle at *
  generalize slice b 40 b.length = rest at *
  rw [zeroReserved, hsplit]
  simp [hlen6, hlen30]
  rfl

/-- The wire bytes with every field its own part. -/
theorem wireBytes_eq (hash : List UInt8 → UInt32) (e : TelemetryEnvelope) :
    wireBytes hash e =
      telemetryEnvelopeMagic ++ ([telemetryEnvelopeVersion] ++ ([e.kind] ++ (toLeBytes 2 0
        ++ (toLeBytes 8 e.bootId.toNat ++ (toLeBytes 8 e.sequence.toNat
        ++ (toLeBytes 8 e.capturedUnixMs.toNat ++ (toLeBytes 4 e.periodMs.toNat
        ++ (toLeBytes 2 (asBytes e.nodeId).length ++ (toLeBytes 2 0
        ++ (toLeBytes 4 e.payload.length ++ (toLeBytes 4 (hash e.payload).toNat
        ++ (asBytes e.nodeId ++ e.payload)))))))))))) := by
  simp only [wireBytes, headerBytes, List.append_assoc]

theorem length_magic : telemetryEnvelopeMagic.length = 4 := rfl

/-- The wire bytes of an encodable envelope are laid out as it. -/
theorem layout_wireBytes (h : Encodable e) : Layout hash (wireBytes hash e) e := by
  have hlength := length_wireBytes hash e
  have hheader := length_headerBytes e (asBytes e.nodeId).length e.payload.length (hash e.payload)
  have hparts : wireBytes hash e =
      headerBytes e (asBytes e.nodeId).length e.payload.length (hash e.payload)
        ++ (asBytes e.nodeId ++ e.payload) := List.append_assoc ..
  have hnode : slice (wireBytes hash e) 48 (48 + (asBytes e.nodeId).length) = asBytes e.nodeId := by
    rw [hparts, slice_skip hheader le_rfl, Nat.sub_self, Nat.add_sub_cancel_left]
    exact slice_field rfl
  have hpayload : slice (wireBytes hash e) (48 + (asBytes e.nodeId).length)
      (wireBytes hash e).length = e.payload := by
    rw [slice_to_length, hparts, ← List.append_assoc]
    apply List.drop_left'
    rw [List.length_append, hheader]
  refine ⟨h, hlength, ?_, ?_, ?_, ?_, ⟨?_, ?_, ?_, ?_, ?_, ?_, hnode, hpayload⟩⟩
  all_goals
    simp (disch := simp) only [wireBytes_eq, slice_skip length_magic,
      slice_skip (length_toLeBytes _ _), slice_skip List.length_singleton, Nat.reduceSub,
      slice_field length_magic, slice_field (length_toLeBytes _ _),
      slice_field List.length_singleton]

/-- The wire bytes of the envelope a byte string is laid out as differ from it only in the
reserved bytes. -/
theorem wireBytes_of_layout (h : Layout hash b e) : wireBytes hash e = zeroReserved b := by
  obtain ⟨⟨hpos, hle, hpay, htotal⟩, hlength, hmagic, hversion, hnode, hpayload, hfields⟩ := h
  have hfront : slice b 0 6 =
      telemetryEnvelopeMagic ++ ([telemetryEnvelopeVersion] ++ [e.kind]) := by
    rw [← hmagic, ← hversion, ← hfields.kind, slice_append_slice (by omega) (by omega),
      slice_append_slice (by omega) (by omega)]
  have hmiddle : slice b 8 38 =
      toLeBytes 8 e.bootId.toNat ++ (toLeBytes 8 e.sequence.toNat
        ++ (toLeBytes 8 e.capturedUnixMs.toNat ++ (toLeBytes 4 e.periodMs.toNat
        ++ toLeBytes 2 (asBytes e.nodeId).length))) := by
    rw [← hfields.bootId, ← hfields.sequence, ← hfields.capturedUnixMs, ← hfields.periodMs,
      ← hnode, slice_append_slice (by omega) (by omega), slice_append_slice (by omega) (by omega),
      slice_append_slice (by omega) (by omega), slice_append_slice (by omega) (by omega)]
  have hrest : slice b 40 b.length =
      toLeBytes 4 e.payload.length ++ (toLeBytes 4 (hash e.payload).toNat
        ++ (asBytes e.nodeId ++ e.payload)) := by
    have htail : slice b 48 b.length = asBytes e.nodeId ++ e.payload := by
      rw [← slice_append_slice (show 48 ≤ 48 + (asBytes e.nodeId).length by omega) (by omega),
        hfields.nodeId, hfields.payload]
    rw [← hpayload, ← hfields.crc, ← htail, slice_append_slice (by omega) (by omega),
      slice_append_slice (by omega) (by omega)]
  rw [zeroReserved_eq (by omega), hfront, hmiddle, hrest, wireBytes_eq]
  simp only [List.append_assoc]

/-- **The envelope codec**: `encode` succeeds exactly on the encodable envelopes and `decode`
inverts it; `decode` accesses no byte out of range, and re-encoding what it returns gives the
input back up to the reserved bytes. -/
theorem envelope_codec (hash : List UInt8 → UInt32) :
    (∀ e : TelemetryEnvelope,
      ((∃ b, encode hash e = .ok b) ↔
        1 ≤ (asBytes e.nodeId).length ∧ (asBytes e.nodeId).length ≤ 128 ∧ e.payload ≠ [] ∧
          48 + (asBytes e.nodeId).length + e.payload.length ≤ 32768) ∧
      ∀ b, encode hash e = .ok b → decode hash b = .ok e) ∧
    (∀ b : List UInt8, NoPanic (decode hash b) ∧
      ∀ e, decode hash b = .ok e → encode hash e = .ok (zeroReserved b)) := by
  refine ⟨fun e => ⟨⟨?_, ?_⟩, ?_⟩, fun b => ⟨noPanic_decode hash b, ?_⟩⟩
  · rintro ⟨b, hb⟩
    obtain ⟨hpos, hle, hpay, htotal⟩ := encodable_of_encode hb
    exact ⟨hpos, hle, List.length_pos_iff.mp hpay, htotal⟩
  · rintro ⟨hpos, hle, hpay, htotal⟩
    exact ⟨_, encode_of_encodable ⟨hpos, hle, List.length_pos_iff.mpr hpay, htotal⟩⟩
  · intro b hb
    have hencodable := encodable_of_encode hb
    rw [encode_of_encodable hencodable] at hb
    cases hb
    exact decode_of_layout (layout_wireBytes hencodable)
  · intro e he
    have hlayout := layout_of_decode he
    rw [encode_of_encodable hlayout.encodable, wireBytes_of_layout hlayout]

end Codec

end TelemetryEnvelope

end AvMesh.Telemetry
