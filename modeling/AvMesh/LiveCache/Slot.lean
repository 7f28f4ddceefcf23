/-
  AvMesh.LiveCache.Slot
  ─────────────────────
  **LIVE SLOTS: what the cache stores for a media object, and how it is read.**

  A slot of the live cache (src/main.rs) holds one of three byte formats,
  told apart by their first bytes:

    • the INDEXED slot `AVMOBJS1` — a 40-byte index with the ranges of the
      initialization and of the media, then the exact canonical envelope,
    • a canonical ENVELOPE, decoded by the media-object crate,
    • the fMP4 slot `AVFMP4S1` (initialization, then fragment), or else plain
      transport-stream bytes.

  `decodeInner` reads all three and `encodeCanonicalLiveSlot` writes the
  first.  The media-object crate is a parameter (`MediaObjectCrate`): its
  magic and its decoder.
-/
import AvMesh.Lib.Bytes
import AvMesh.Lib.Machine
import AvMesh.Lib.Table

namespace AvMesh.LiveCache

open AvMesh.Lib

/-! ## §1. Media objects. -/

/-- `media_object::ObjectKind`. -/
inductive ObjectKind where
  | initialization
  | codecConfiguration
  | media
  | discontinuity
  deriving Repr, DecidableEq

/-- The accessors of `MediaObject::key()` the cache reads. -/
structure MediaObjectKey where
  stream : String
  epoch : UInt64
  object : UInt64
  deriving DecidableEq

/-- What the cache reads of a `media_object::MediaObject`. -/
structure MediaObject where
  key : MediaObjectKey
  kind : ObjectKind
  metadata : Table String Bytes
  payload : Bytes
  isKeyframe : Bool

/-- `object.metadata().get(name).is_some_and(|value| value.as_slice() == text)`. -/
def MediaObject.metadataIs (object : MediaObject) (name text : String) : Bool :=
  match object.metadata.lookup name with
  | some value => value == asBytes text
  | none => false

/-- The media-object crate: the magic of its envelopes and their decoder. -/
structure MediaObjectCrate where
  wireMagic : Bytes
  decode : Bytes → Option MediaObject

/-! ## §2. Slot payloads. -/

inductive LiveMediaKind where
  | fmp4
  | opaqueMedia
  | ts
  deriving Repr, DecidableEq

namespace LiveMediaKind

def canonicalSlotTag : LiveMediaKind → UInt8
  | .fmp4 => 0
  | .opaqueMedia => 1
  | .ts => 2

def fromCanonicalSlotTag (tag : UInt8) : Option LiveMediaKind :=
  if tag = 0 then some .fmp4
  else if tag = 1 then some .opaqueMedia
  else if tag = 2 then some .ts
  else none

@[simp] theorem fromCanonicalSlotTag_canonicalSlotTag (kind : LiveMediaKind) :
    fromCanonicalSlotTag kind.canonicalSlotTag = some kind := by
  cases kind <;> rfl

end LiveMediaKind

def meshFmp4SlotMagic : Bytes := asBytes "AVFMP4S1"
def meshFmp4SlotHeaderLen : Nat := 16
def canonicalLiveSlotMagic : Bytes := asBytes "AVMOBJS1"
def canonicalLiveSlotHeaderLen : Nat := 40

inductive LiveSlotPayload where
  | fmp4 (init : Option Bytes) (media : Bytes)
  | opaqueMedia (media : Bytes) (kind : LiveMediaKind)
  | invalid
  deriving DecidableEq

namespace LiveSlotPayload

def decodeFmp4Slot (payload : Bytes) : Option LiveSlotPayload :=
  if payload.length < meshFmp4SlotHeaderLen ∨ ¬ meshFmp4SlotMagic <+: payload then none
  else do
    let initLen := fromBeBytes (slice payload 8 12)
    let mediaLen := fromBeBytes (slice payload 12 16)
    let initEnd ← checkedAdd meshFmp4SlotHeaderLen initLen
    let mediaEnd ← checkedAdd initEnd mediaLen
    if mediaEnd ≠ payload.length then none
    else
      let init := if initLen > 0 then some (slice payload meshFmp4SlotHeaderLen initEnd) else none
      some (.fmp4 init (slice payload initEnd mediaEnd))

/-- `checked_range(offset, len)` of `decode_canonical_live_slot`. -/
def checkedRange (payload : Bytes) (offset len : Nat) : Option Bytes := do
  let stop ← checkedAdd offset len
  if offset ≥ canonicalLiveSlotHeaderLen ∧ stop ≤ payload.length then some (slice payload offset stop)
  else none

/-- The initialization range of an indexed slot: absent exactly when both numbers are zero. -/
def indexedInit (payload : Bytes) (initOffset initLen : Nat) : Option (Option Bytes) :=
  if initLen = 0 then
    if initOffset ≠ 0 then none else some none
  else (checkedRange payload initOffset initLen).map some

/-- The payload of an indexed slot: only fMP4 has an initialization. -/
def ofRanges (kind : LiveMediaKind) (init : Option Bytes) (media : Bytes) :
    Option LiveSlotPayload :=
  match kind with
  | .fmp4 => some (.fmp4 init media)
  | .opaqueMedia | .ts => if init.isNone then some (.opaqueMedia media kind) else none

def decodeCanonicalLiveSlot (M : MediaObjectCrate) (payload : Bytes)
    (expectedStreamId : Option UInt64) : Option LiveSlotPayload :=
  if payload.length < canonicalLiveSlotHeaderLen ∨ ¬ canonicalLiveSlotMagic <+: payload ∨
      slice payload 17 20 ≠ [0, 0, 0] then none
  else
    let streamId := UInt64.ofNat (fromBeBytes (slice payload 8 16))
    if expectedStreamId.any (fun expected => expected ≠ streamId) then none
    else do
      let kind ← (slice payload 16 17).head?.bind LiveMediaKind.fromCanonicalSlotTag
      let envelopeLen := fromBeBytes (slice payload 20 24)
      if envelopeLen ≠ payload.length - canonicalLiveSlotHeaderLen ∨
          ¬ M.wireMagic <+: payload.drop canonicalLiveSlotHeaderLen then none
      else
        let init ← indexedInit payload (fromBeBytes (slice payload 24 28))
          (fromBeBytes (slice payload 28 32))
        let media ← checkedRange payload (fromBeBytes (slice payload 32 36))
          (fromBeBytes (slice payload 36 40))
        ofRanges kind init media

/-- The reading of a canonical envelope once decoded. -/
def ofObject (object : MediaObject) : LiveSlotPayload :=
  let isFmp4 := object.metadataIs "container" "fmp4"
  let isFmp4Slot := object.metadataIs "payload-format" "fmp4-slot-v1"
  let isOpaque := object.metadataIs "container" "opaque" &&
    object.metadataIs "payload-format" "opaque-part-v1"
  match object.kind with
  | .media =>
      if isFmp4 && isFmp4Slot then (decodeFmp4Slot object.payload).getD .invalid
      else if isFmp4 then .fmp4 none object.payload
      else if isOpaque then .opaqueMedia object.payload .opaqueMedia
      else .opaqueMedia object.payload .ts
  | .initialization | .codecConfiguration =>
      if isFmp4 then .fmp4 (some object.payload) [] else .invalid
  | .discontinuity => .invalid

def decodeInner (M : MediaObjectCrate) (payload : Bytes) (expectedStreamId : Option UInt64) :
    LiveSlotPayload :=
  if canonicalLiveSlotMagic <+: payload then
    (decodeCanonicalLiveSlot M payload expectedStreamId).getD .invalid
  else if M.wireMagic <+: payload then
    match M.decode payload with
    | none => .invalid
    | some object =>
        if expectedStreamId.any (fun streamId => object.key.stream ≠ toString streamId.toNat) then
          .invalid
        else ofObject object
  else (decodeFmp4Slot payload).getD (.opaqueMedia payload .ts)

def decode (M : MediaObjectCrate) (payload : Bytes) : LiveSlotPayload :=
  decodeInner M payload none

def decodeForStream (M : MediaObjectCrate) (payload : Bytes) (streamId : UInt64) :
    LiveSlotPayload :=
  decodeInner M payload (some streamId)

def mediaKind : LiveSlotPayload → LiveMediaKind
  | .fmp4 _ _ => .fmp4
  | .opaqueMedia _ kind => kind
  | .invalid => .ts

def init : LiveSlotPayload → Option Bytes
  | .fmp4 init _ => init
  | .opaqueMedia _ _ | .invalid => none

def media : LiveSlotPayload → Bytes
  | .fmp4 _ media => media
  | .opaqueMedia media _ => media
  | .invalid => []

end LiveSlotPayload

/-! ## §3. Writing slots. -/

/-- The result of a fallible cache function; the error is the text of its outermost context. -/
abbrev CacheResult (α : Type) := Except String α

/-- `value.context(text)?`. -/
def context {α : Type} (value : Option α) (text : String) : CacheResult α :=
  match value with
  | some a => .ok a
  | none => .error text

def encodeFmp4Slot (init media : Bytes) : CacheResult Bytes := do
  let initLen ← context (tryFrom 32 init.length) "fMP4 init is too large"
  let mediaLen ← context (tryFrom 32 media.length) "fMP4 fragment is too large"
  return meshFmp4SlotMagic ++ toBeBytes 4 initLen ++ toBeBytes 4 mediaLen ++ init ++ media

/-- The ranges an indexed slot records: offset and length of the initialization and the media. -/
structure SlotIndex where
  initOffset : Nat
  initLen : Nat
  mediaOffset : Nat
  mediaLen : Nat
  deriving Repr, DecidableEq

/-- The ranges of an fMP4 slot nested in an envelope whose payload starts at the given offset. -/
def fmp4SlotIndex (slot envelope : Bytes) (objectPayloadOffset : Nat) : CacheResult SlotIndex := do
  if slot.length < meshFmp4SlotHeaderLen ∨ ¬ meshFmp4SlotMagic <+: slot then
    .error "canonical fMP4 slot has an invalid header"
  else
    let initLen := fromBeBytes (slice slot 8 12)
    let mediaLen := fromBeBytes (slice slot 12 16)
    let initStart ← context (checkedAdd objectPayloadOffset meshFmp4SlotHeaderLen)
      "canonical fMP4 init offset overflow"
    let mediaStart ← context (checkedAdd initStart initLen) "canonical fMP4 media offset overflow"
    let mediaEnd ← context (checkedAdd mediaStart mediaLen) "canonical fMP4 media length overflow"
    if mediaEnd ≠ canonicalLiveSlotHeaderLen + envelope.length then
      .error "canonical fMP4 slot lengths do not match its envelope"
    else
      return ⟨if initLen > 0 then initStart else 0, initLen, mediaStart, mediaLen⟩

/-- The part of `encode_canonical_live_slot` that finds the ranges. -/
def slotIndex (object : MediaObject) (envelope : Bytes) (mediaKind : LiveMediaKind) :
    CacheResult SlotIndex := do
  let before ← context
    (if object.payload.length ≤ envelope.length then
      some (envelope.length - object.payload.length) else none)
    "canonical payload is not contained in its envelope"
  let objectPayloadOffset ← context (checkedAdd canonicalLiveSlotHeaderLen before)
    "canonical live-slot payload offset overflow"
  let isFmp4Slot := mediaKind = .fmp4 ∧ object.metadataIs "payload-format" "fmp4-slot-v1" = true
  if isFmp4Slot then fmp4SlotIndex object.payload envelope objectPayloadOffset
  else return ⟨0, 0, objectPayloadOffset, object.payload.length⟩

/-- The 40 index bytes in front of the envelope. -/
def indexBytes (streamId : UInt64) (mediaKind : LiveMediaKind)
    (envelopeLen initOffset initLen mediaOffset mediaLen : Nat) : Bytes :=
  canonicalLiveSlotMagic ++ (toBeBytes 8 streamId.toNat ++ ([mediaKind.canonicalSlotTag]
    ++ ([0, 0, 0] ++ (toBeBytes 4 envelopeLen ++ (toBeBytes 4 initOffset ++ (toBeBytes 4 initLen
    ++ (toBeBytes 4 mediaOffset ++ toBeBytes 4 mediaLen)))))))

def encodeCanonicalLiveSlot (streamId : UInt64) (object : MediaObject) (envelope : Bytes)
    (mediaKind : LiveMediaKind) : CacheResult Bytes := do
  if object.kind ≠ .media ∨ object.payload.isEmpty then
    .error "only non-empty canonical media objects can enter the live media cache"
  else
    let envelopeLen ← context (tryFrom 32 envelope.length) "canonical envelope is too large"
    let index ← slotIndex object envelope mediaKind
    let initOffset ← context (tryFrom 32 index.initOffset) "canonical init offset is too large"
    let initLen ← context (tryFrom 32 index.initLen) "canonical init is too large"
    let mediaOffset ← context (tryFrom 32 index.mediaOffset) "canonical media offset is too large"
    let mediaLen ← context (tryFrom 32 index.mediaLen) "canonical media is too large"
    return indexBytes streamId mediaKind envelopeLen initOffset initLen mediaOffset mediaLen
      ++ envelope

/-! ## §4. Reboxing a Soundkit bundle. -/

inductive SoundKitFmp4Codec where
  | flac
  | opus
  deriving Repr, DecidableEq

structure ReboxOptions where
  sequence : Nat
  includeInit : Bool
  startPtsMs : Option Nat
  deriving Repr, DecidableEq

/-- What `rebox_soundkit_v2` returns. -/
structure ReboxedFrames where
  codec : SoundKitFmp4Codec
  init : Option Bytes
  media : Bytes
  durationMs : UInt32

/-- The soundkit-fmp4 crate: its reboxing of framed audio and the names of its codecs. -/
structure SoundkitCrate where
  reboxSoundkitV2 : Bytes → ReboxOptions → Except String ReboxedFrames
  codecName : SoundKitFmp4Codec → String

structure ReboxedLiveAudio where
  init : Bytes
  media : Bytes
  durationMs : UInt32
  deriving DecidableEq

def soundkitV2BundleMagic : Bytes := asBytes "NTV2PART"
def soundkitV2BundleHeaderLen : Nat := 21
def soundkitV2EpochDurationMs : Nat := 5

/-- The epoch loop of `rebox_soundkit_v2_bundle`: the offset reached and the frames joined. -/
def collectFrames (payload : Bytes) (baseGroupId : Nat) :
    Nat → Nat → Nat → Bytes → CacheResult (Nat × Bytes)
  | 0, _, offset, framed => .ok (offset, framed)
  | remaining + 1, epoch, offset, framed => do
      let entryHeaderEnd ← context (checkedAdd offset 6) "Soundkit v2 bundle entry header overflow"
      if entryHeaderEnd > payload.length then
        .error s!"Soundkit v2 bundle ended before epoch {epoch}"
      else
        let groupId := fromBeBytes (slice payload offset (offset + 2))
        let frameLen := fromBeBytes (slice payload (offset + 2) entryHeaderEnd)
        if groupId ≠ baseGroupId then
          .error s!"Soundkit v2 bundle epoch {epoch} changed group identity"
        else
          let frameEnd ← context (checkedAdd entryHeaderEnd frameLen)
            "Soundkit v2 bundle frame length overflow"
          if frameEnd > payload.length then
            .error s!"Soundkit v2 bundle epoch {epoch} frame is truncated"
          else
            collectFrames payload baseGroupId remaining (epoch + 1) frameEnd
              (framed ++ slice payload entryHeaderEnd frameEnd)

/-- The codec named by the bundle header. -/
def bundleCodec (tag : UInt8) : CacheResult SoundKitFmp4Codec :=
  if tag = 1 then .ok .flac
  else if tag = 2 then .ok .opus
  else .error s!"Soundkit v2 bundle has unsupported codec tag {tag}"

def reboxSoundkitV2Bundle (K : SoundkitCrate) (payload : Bytes) (sequence : UInt64) :
    CacheResult ReboxedLiveAudio := do
  if payload.length < soundkitV2BundleHeaderLen ∨ ¬ soundkitV2BundleMagic <+: payload then
    .error "Soundkit v2 bundle has an invalid header"
  else
    let codec ← bundleCodec ((slice payload 8 9).headD 0)
    let epochCount := fromBeBytes (slice payload 9 17)
    let baseGroupId := fromBeBytes (slice payload 17 19)
    let trackCount := fromBeBytes (slice payload 19 21)
    if epochCount = 0 ∨ trackCount = 0 then
      .error "Soundkit v2 bundle declares no epochs or tracks"
    else if trackCount ≠ 1 then
      .error s!"Soundkit v2 HLS publication currently requires one track per canonical stream; bundle has {trackCount}"
    else
      let (offset, framed) ←
        collectFrames payload baseGroupId epochCount 0 soundkitV2BundleHeaderLen []
      if offset ≠ payload.length then .error "Soundkit v2 bundle has trailing bytes"
      else
        let startPtsMs ← context
          ((checkedMul sequence.toNat epochCount).bind (checkedMul · soundkitV2EpochDurationMs))
          "Soundkit v2 publication timeline overflow"
        let fragment ← context (tryFrom 32 sequence.toNat) "fMP4 sequence exceeds u32"
        let reboxed ← (K.reboxSoundkitV2 framed ⟨fragment, true, some startPtsMs⟩).mapError
          fun error => s!"Soundkit v2 rebox failed: {error}"
        if reboxed.codec ≠ codec then
          .error s!"Soundkit v2 bundle codec {K.codecName codec} disagrees with framed codec {K.codecName reboxed.codec}"
        else
          let init ← context reboxed.init "Soundkit v2 rebox did not return fMP4 initialization"
          return ⟨init, reboxed.media, reboxed.durationMs⟩

/-- `reboxed_audio` of a commit: a Soundkit bundle is reboxed, any other object is kept. -/
def reboxedAudio (K : SoundkitCrate) (object : MediaObject) :
    CacheResult (Option ReboxedLiveAudio) :=
  if object.kind = .media ∧ object.metadataIs "payload-format" "soundkit-v2-bundle" = true then
    (reboxSoundkitV2Bundle K object.payload object.key.object).map some
  else .ok none

/-- `media_kind` of a commit. -/
def commitMediaKind (reboxed : Option ReboxedLiveAudio) (object : MediaObject) : LiveMediaKind :=
  if reboxed.isSome || object.metadataIs "container" "fmp4" then .fmp4
  else if object.metadataIs "container" "opaque" &&
      object.metadataIs "payload-format" "opaque-part-v1" then .opaqueMedia
  else .ts

/-! ## §5. A sample object. -/

/-- An fMP4 slot object of epoch 42 of stream 87. -/
def sampleObject (payload : Bytes) : MediaObject where
  key := ⟨"87", 42, 11⟩
  kind := .media
  metadata := AList.insert "container" (asBytes "fmp4")
    (AList.insert "payload-format" (asBytes "fmp4-slot-v1") ∅)
  payload := payload
  isKeyframe := true

/-- A crate whose envelopes are a magic, then the payload of a sample object. -/
def sampleCrate : MediaObjectCrate where
  wireMagic := asBytes "OBJ1"
  decode := fun envelope =>
    if asBytes "OBJ1" <+: envelope then some (sampleObject (envelope.drop 4)) else none

def sampleSoundkit : SoundkitCrate where
  reboxSoundkitV2 := fun framed options =>
    .ok ⟨.flac, if options.includeInit then some [0] else none, framed, 5⟩
  codecName := fun codec => match codec with
    | .flac => "flac"
    | .opus => "opus"

end AvMesh.LiveCache
