/-
  AvMesh.LiveCache.Commit
  ───────────────────────
  **COMMITTING A PAYLOAD TO THE LIVE CACHE** (`LiveTsCache`, src/main.rs).

  `commitStreamPayloadInner` is the function under the per-stream commit
  lock, so one call is one step.  It is cut where it can fail:

    • `decodeCanonicalStreamObject` — plain bytes, or a canonical object,
    • `admitObject`    — the stream and the epoch of the object,
    • `activateEpoch`  — a new epoch empties the stream,
    • `recordObject`   — counters, next sequence, kind, initialization,
    • `writeInitialization`, `slotBytes`, the put — the chunk cache,
    • `finishObject`   — the head, the base and the retained parts.

  The chunk cache is a parameter (`ChunkCacheCrate`); what a reader can see of
  a stream in it is `slots` and `initialization`.  Times are the readings the
  call takes from the clock.
-/
import AvMesh.LiveCache.Slot

namespace AvMesh.LiveCache

open AvMesh.Lib

/-! ## §1. The chunk cache. -/

/-- The result of a put, as far as a commit tells results apart. -/
inductive PutIfAbsentResult where
  | present
  | hashConflict
  deriving Repr, DecidableEq

/-- The operations of `ChunkCache` a commit uses, and the two views of a stream readers have. -/
structure ChunkCacheCrate where
  Cache : Type
  Slots : Type
  slots : Cache → UInt64 → Slots
  initialization : Cache → UInt64 → Option Bytes
  zeroStreamId : Cache → UInt64 → Cache
  setStreamInitialization : Cache → UInt64 → Bytes → Except String Unit × Cache
  putIfAbsentContiguous :
    Cache → UInt64 → Nat → Nat → Bytes → Except String PutIfAbsentResult × Cache
  addForStreamId : Cache → UInt64 → Nat → Bytes → Except String Unit × Cache

/-! ## §2. The state. -/

structure RetainedPartObservation where
  bytes : Nat
  availableUnixUs : Nat
  durationMs : Option Nat
  keyframe : Bool
  fmp4SegmentId : Option Nat
  deriving Repr, DecidableEq

/-- A `BTreeMap<u64, RetainedPartObservation>`: entries in ascending order of their sequence. -/
abbrev RetainedParts := List (Nat × RetainedPartObservation)

namespace RetainedParts

def get? (parts : RetainedParts) (sequence : Nat) : Option RetainedPartObservation :=
  List.lookup sequence parts

/-- Insertion under a vacant key. -/
def insert (parts : RetainedParts) (sequence : Nat) (part : RetainedPartObservation) :
    RetainedParts :=
  parts.takeWhile (fun entry => entry.1 < sequence) ++
    (sequence, part) :: parts.dropWhile (fun entry => entry.1 < sequence)

/-- `last_key_value()`. -/
def lastKey (parts : RetainedParts) : Option Nat := parts.getLast?.map (·.1)

end RetainedParts

structure LiveState where
  processStartedUnixUs : Nat
  datagramsReceived : Nat
  bytesReceived : Nat
  lastIngestUnixMs : Option Nat
  lastCommittedSeq : Option Nat
  lastCommittedUnixMs : Option Nat
  lastCommittedBytes : Option Nat
  lastCommittedDurationMs : Option Nat
  streamNextSeq : Table UInt64 Nat
  streamCanonicalEpoch : Table UInt64 Nat
  streamCanonicalEpochActivationDelayUs : Table UInt64 Nat
  streamSubscriptionBaseObject : Table UInt64 Nat
  streamLatestCanonicalObject : Table UInt64 Nat
  streamLastIngestUnixMs : Table UInt64 Nat
  streamParts : Table UInt64 RetainedParts
  streamCurrentFmp4Segment : Table UInt64 Nat
  streamRetainedBytes : Table UInt64 Nat
  streamMaxPartDurationMs : Table UInt64 Nat
  streamMaxSegmentDurationMs : Table UInt64 Nat
  streamInits : Table UInt64 Bytes
  streamMediaKinds : Table UInt64 LiveMediaKind

structure LiveTsCache (C : ChunkCacheCrate) where
  chunkCache : C.Cache
  streamId : UInt64
  windowParts : Nat
  state : LiveState
  partUpdates : Nat

/-- The clock readings of one commit. -/
structure CommitClock where
  activationUs : Nat
  nowMs : Nat
  availableUs : Nat

namespace LiveState

def new (processStartedUnixUs : Nat) : LiveState where
  processStartedUnixUs := processStartedUnixUs
  datagramsReceived := 0
  bytesReceived := 0
  lastIngestUnixMs := none
  lastCommittedSeq := none
  lastCommittedUnixMs := none
  lastCommittedBytes := none
  lastCommittedDurationMs := none
  streamNextSeq := ∅
  streamCanonicalEpoch := ∅
  streamCanonicalEpochActivationDelayUs := ∅
  streamSubscriptionBaseObject := ∅
  streamLatestCanonicalObject := ∅
  streamLastIngestUnixMs := ∅
  streamParts := ∅
  streamCurrentFmp4Segment := ∅
  streamRetainedBytes := ∅
  streamMaxPartDurationMs := ∅
  streamMaxSegmentDurationMs := ∅
  streamInits := ∅
  streamMediaKinds := ∅

/-- `next_stream_seq`: the sequence taken and the state after it. -/
def nextStreamSeq (s : LiveState) (streamId : UInt64) : Nat × LiveState :=
  let seq := (s.streamNextSeq.lookup streamId).getD 0
  (seq, { s with streamNextSeq := s.streamNextSeq.insert streamId (satAdd seq 1) })

def observeStreamSeq (s : LiveState) (streamId : UInt64) (sequence : Nat) : LiveState :=
  let next := (s.streamNextSeq.lookup streamId).getD 0
  { s with streamNextSeq := s.streamNextSeq.insert streamId (max next (satAdd sequence 1)) }

/-- The counters and times every accepted payload updates. -/
def recordIngest (s : LiveState) (streamId : UInt64) (bytes nowMs : Nat) : LiveState :=
  { s with
    datagramsReceived := satAdd s.datagramsReceived 1
    bytesReceived := satAdd s.bytesReceived bytes
    lastIngestUnixMs := some nowMs
    streamLastIngestUnixMs := s.streamLastIngestUnixMs.insert streamId nowMs }

/-- The segment a new part belongs to, and the state with a new segment opened if it starts one. -/
def fmp4Segment (s : LiveState) (streamId : UInt64) (keyframe keyframeSegments : Bool) :
    Option Nat × LiveState :=
  if keyframeSegments && keyframe then
    let segmentId := match s.streamCurrentFmp4Segment.lookup streamId with
      | some segmentId => satAdd segmentId 1
      | none => 0
    (some segmentId, { s with
      streamCurrentFmp4Segment := s.streamCurrentFmp4Segment.insert streamId segmentId })
  else if keyframeSegments then (s.streamCurrentFmp4Segment.lookup streamId, s)
  else (none, s)

def recordPartAvailable (s : LiveState) (streamId : UInt64) (sequence bytes availableUnixUs : Nat)
    (durationMs : Option Nat) (keyframe keyframeSegments : Bool) (windowParts : Nat) : LiveState :=
  let s := match durationMs with
    | none => s
    | some durationMs => { s with
        streamMaxPartDurationMs := s.streamMaxPartDurationMs.insert streamId
          (match s.streamMaxPartDurationMs.lookup streamId with
          | some maximum => max maximum durationMs
          | none => durationMs) }
  let parts := (s.streamParts.lookup streamId).getD []
  let (fmp4SegmentId, s) := match parts.get? sequence with
    | some existing => (existing.fmp4SegmentId, s)
    | none => s.fmp4Segment streamId keyframe keyframeSegments
  let (parts, insertedBytes) := match parts.get? sequence with
    | some _ => (parts, 0)
    | none =>
        (parts.insert sequence ⟨bytes, availableUnixUs, durationMs, keyframe, fmp4SegmentId⟩, bytes)
  let retentionHead := (parts.lastKey).getD sequence
  let oldestRetained := retentionHead - (max windowParts 1 - 1)
  let removed := parts.takeWhile (fun entry => entry.1 < oldestRetained)
  let removedBytes := removed.foldl (fun total entry => satAdd total entry.2.bytes) 0
  let retainedBytes := (s.streamRetainedBytes.lookup streamId).getD 0
  { s with
    streamParts := s.streamParts.insert streamId
      (parts.dropWhile (fun entry => entry.1 < oldestRetained))
    streamRetainedBytes := s.streamRetainedBytes.insert streamId
      (satAdd retainedBytes insertedBytes - removedBytes) }

/-- `last_committed_*` after a part has been stored. -/
def recordCommitted (s : LiveState) (seq nowMs mediaBytes : Nat) (durationMs : Option Nat) :
    LiveState :=
  { s with
    lastCommittedSeq := some (match s.lastCommittedSeq with
      | some last => max last seq
      | none => seq)
    lastCommittedUnixMs := some nowMs
    lastCommittedBytes := some mediaBytes
    lastCommittedDurationMs := durationMs }

end LiveState

/-! ## §3. Reading the payload. -/

/-- `value.parse::<u32>()` of a metadata text: an optional plus sign, then decimal digits. -/
def parseU32 (text : Bytes) : Option Nat :=
  let digits := match text with
    | 43 :: rest => rest
    | text => text
  if digits.isEmpty ∨ digits.any (fun digit => digit < 48 || 57 < digit) then none
  else tryFrom 32 (digits.foldl (fun value digit => value * 10 + (digit.toNat - 48)) 0)

/-- `media_duration_ms` of a commit. -/
def mediaDurationMs (reboxed : Option ReboxedLiveAudio) (object : MediaObject) : Option Nat :=
  match reboxed with
  | some reboxed => some reboxed.durationMs.toNat
  | none => do
      let value ← object.metadata.lookup "duration-ms"
      let _ ← fromUtf8 value
      let duration ← parseU32 value
      if duration > 0 then some duration else none

/-- `media_bytes` of a commit. -/
def commitMediaBytes (reboxed : Option ReboxedLiveAudio) (object : MediaObject) : Nat :=
  match reboxed with
  | some reboxed => reboxed.media.length
  | none => object.payload.length

def decodeCanonicalStreamObject (M : MediaObjectCrate) (payload : Bytes) :
    CacheResult (Option MediaObject) :=
  if ¬ M.wireMagic <+: payload then .ok none
  else
    match M.decode payload with
    | some object => .ok (some object)
    | none => .error "invalid canonical media-object envelope"

/-- The initialization an object brings: a reboxed one, or its own payload. -/
def objectInit (reboxed : Option ReboxedLiveAudio) (object : MediaObject) : Option Bytes :=
  match reboxed with
  | some reboxed => some reboxed.init
  | none =>
      if object.kind = .initialization ∨ object.kind = .codecConfiguration then some object.payload
      else none

/-- The bytes cached for a media object. -/
def slotBytes (streamId : UInt64) (payload : Bytes) (reboxed : Option ReboxedLiveAudio)
    (object : MediaObject) : CacheResult Bytes :=
  match reboxed with
  | some reboxed => encodeFmp4Slot reboxed.init reboxed.media
  | none => encodeCanonicalLiveSlot streamId object payload (commitMediaKind reboxed object)

namespace LiveTsCache

variable {C : ChunkCacheCrate}

/-! ## §4. The stages of a canonical commit. -/

/-- The stream and epoch checks. -/
def admitObject (cache : LiveTsCache C) (streamId : UInt64) (object : MediaObject) :
    CacheResult Unit :=
  if object.key.stream ≠ toString streamId.toNat then
    .error s!"canonical media-object stream {object.key.stream} does not match carrier stream {streamId}"
  else
    match cache.state.streamCanonicalEpoch.lookup streamId with
    | some previous =>
        if object.key.epoch.toNat < previous then
          .error s!"stale canonical source epoch {object.key.epoch} for stream {streamId}; current epoch is {previous}"
        else .ok ()
    | none => .ok ()

/-- What activating an epoch does to the state of its stream. -/
def resetStream (s : LiveState) (streamId : UInt64) (sourceEpoch : Nat)
    (activationDelayUs : Option Nat) : LiveState :=
  { s with
    streamCanonicalEpoch := s.streamCanonicalEpoch.insert streamId sourceEpoch
    streamCanonicalEpochActivationDelayUs :=
      match activationDelayUs with
      | some delay => s.streamCanonicalEpochActivationDelayUs.insert streamId delay
      | none => s.streamCanonicalEpochActivationDelayUs.erase streamId
    streamSubscriptionBaseObject := s.streamSubscriptionBaseObject.erase streamId
    streamLatestCanonicalObject := s.streamLatestCanonicalObject.erase streamId
    streamNextSeq := s.streamNextSeq.erase streamId
    streamParts := s.streamParts.erase streamId
    streamCurrentFmp4Segment := s.streamCurrentFmp4Segment.erase streamId
    streamRetainedBytes := s.streamRetainedBytes.erase streamId
    streamMaxPartDurationMs := s.streamMaxPartDurationMs.erase streamId
    streamMaxSegmentDurationMs := s.streamMaxSegmentDurationMs.erase streamId
    streamInits := s.streamInits.erase streamId
    streamMediaKinds := s.streamMediaKinds.erase streamId }

/-- The cache once the epoch of an admitted object is current. -/
def activateEpoch (cache : LiveTsCache C) (streamId : UInt64) (sourceEpoch nowUs : Nat) :
    LiveTsCache C :=
  let previous := cache.state.streamCanonicalEpoch.lookup streamId
  if previous = some sourceEpoch then cache
  else
    let activationDelayUs :=
      if previous.isSome ∨ sourceEpoch ≥ cache.state.processStartedUnixUs then
        if sourceEpoch ≤ nowUs then some (nowUs - sourceEpoch) else none
      else none
    let state := resetStream cache.state streamId sourceEpoch activationDelayUs
    { cache with
      chunkCache := C.zeroStreamId cache.chunkCache streamId
      state :=
        if streamId = cache.streamId then
          { state with
            lastCommittedSeq := none
            lastCommittedUnixMs := none
            lastCommittedBytes := none
            lastCommittedDurationMs := none }
        else state }

/-- The state update before anything is written: counters, next sequence, kind, initialization. -/
def recordObject (cache : LiveTsCache C) (streamId : UInt64) (bytes nowMs : Nat)
    (reboxed : Option ReboxedLiveAudio) (object : MediaObject) : LiveTsCache C :=
  let s := cache.state.recordIngest streamId bytes nowMs
  let s := s.observeStreamSeq streamId object.key.object.toNat
  { cache with
    state := { s with
      streamMediaKinds := s.streamMediaKinds.insert streamId (commitMediaKind reboxed object)
      streamInits := match objectInit reboxed object with
        | some init => s.streamInits.insert streamId init
        | none => s.streamInits } }

/-- The initialization write, if there is one to write. -/
def writeInitialization (cache : LiveTsCache C) (streamId : UInt64) (init : Option Bytes)
    (failure : String) : CacheResult Unit × LiveTsCache C :=
  match init with
  | none => (.ok (), cache)
  | some init =>
      match C.setStreamInitialization cache.chunkCache streamId init with
      | (.ok _, chunkCache) => (.ok (), { cache with chunkCache })
      | (.error err, chunkCache) => (.error s!"{failure}: {err}", { cache with chunkCache })

/-- The context of a failed initialization write. -/
def initFailure (reboxed : Option ReboxedLiveAudio) : String :=
  if reboxed.isSome then "Soundkit fMP4 initialization cache write failed"
  else "stream initialization cache write failed"

/-- The state update after a media object is stored. -/
def finishObject (cache : LiveTsCache C) (streamId : UInt64) (cachedBytes : Nat)
    (clock : CommitClock) (reboxed : Option ReboxedLiveAudio) (object : MediaObject) :
    LiveTsCache C :=
  let seq := object.key.object.toNat
  let duration := mediaDurationMs reboxed object
  let s := cache.state
  let s := { s with
    streamSubscriptionBaseObject :=
      match s.streamSubscriptionBaseObject.lookup streamId with
      | some _ => s.streamSubscriptionBaseObject
      | none => s.streamSubscriptionBaseObject.insert streamId seq
    streamLatestCanonicalObject := s.streamLatestCanonicalObject.insert streamId
      (match s.streamLatestCanonicalObject.lookup streamId with
      | some head => max head seq
      | none => seq) }
  let s := s.recordCommitted seq clock.nowMs (commitMediaBytes reboxed object) duration
  { cache with
    state := s.recordPartAvailable streamId seq cachedBytes clock.availableUs duration
      object.isKeyframe (commitMediaKind reboxed object = .fmp4) cache.windowParts
    partUpdates := seq }

/-- Storing a media object.  Sequences are 64-bit on both sides, so `usize::try_from` succeeds. -/
def storeObject (cache : LiveTsCache C) (streamId : UInt64) (payload : Bytes)
    (clock : CommitClock) (reboxed : Option ReboxedLiveAudio) (object : MediaObject) :
    CacheResult Nat × LiveTsCache C :=
  let seq := object.key.object.toNat
  let base := (cache.state.streamSubscriptionBaseObject.lookup streamId).getD seq
  match slotBytes streamId payload reboxed object with
  | .error error => (.error error, cache)
  | .ok cachedPayload =>
      match C.putIfAbsentContiguous cache.chunkCache streamId seq base cachedPayload with
      | (.error err, chunkCache) =>
          (.error s!"canonical stream cache write failed: {err}", { cache with chunkCache })
      | (.ok .hashConflict, chunkCache) =>
          (.error s!"canonical media-object identity conflict for stream {streamId} sequence {seq}",
            { cache with chunkCache })
      | (.ok .present, chunkCache) =>
          (.ok seq, finishObject { cache with chunkCache } streamId cachedPayload.length clock
            reboxed object)

/-- An object that has been reboxed, or needs no reboxing. -/
def commitReboxed (cache : LiveTsCache C) (streamId : UInt64) (payload : Bytes)
    (clock : CommitClock) (reboxed : Option ReboxedLiveAudio) (object : MediaObject) :
    CacheResult Nat × LiveTsCache C :=
  let cache := cache.recordObject streamId payload.length clock.nowMs reboxed object
  match cache.writeInitialization streamId (objectInit reboxed object) (initFailure reboxed) with
  | (.error error, cache) => (.error error, cache)
  | (.ok _, cache) =>
      if object.kind ≠ .media then (.ok object.key.object.toNat, cache)
      else cache.storeObject streamId payload clock reboxed object

def commitObject (cache : LiveTsCache C) (K : SoundkitCrate) (streamId : UInt64) (payload : Bytes)
    (clock : CommitClock) (object : MediaObject) : CacheResult Nat × LiveTsCache C :=
  match cache.admitObject streamId object with
  | .error error => (.error error, cache)
  | .ok _ =>
      let cache := cache.activateEpoch streamId object.key.epoch.toNat clock.activationUs
      match reboxedAudio K object with
      | .error error => (.error error, cache)
      | .ok reboxed => cache.commitReboxed streamId payload clock reboxed object

/-! ## §5. Plain payloads, and the function itself. -/

/-- The state update of a plain payload, with the sequence it takes. -/
def recordPlain (cache : LiveTsCache C) (streamId : UInt64) (bytes nowMs : Nat)
    (decoded : LiveSlotPayload) : Nat × LiveTsCache C :=
  let s := cache.state.recordIngest streamId bytes nowMs
  let s := { s with
    streamMediaKinds := s.streamMediaKinds.insert streamId decoded.mediaKind
    streamInits := match decoded.init with
      | some init => s.streamInits.insert streamId init
      | none => s.streamInits }
  let (seq, s) := s.nextStreamSeq streamId
  (seq, { cache with state := s })

def commitPlain (cache : LiveTsCache C) (M : MediaObjectCrate) (streamId : UInt64)
    (payload : Bytes) (clock : CommitClock) : CacheResult Nat × LiveTsCache C :=
  let decoded := LiveSlotPayload.decode M payload
  let (seq, cache) := cache.recordPlain streamId payload.length clock.nowMs decoded
  match cache.writeInitialization streamId decoded.init (initFailure none) with
  | (.error error, cache) => (.error error, cache)
  | (.ok _, cache) =>
      match C.addForStreamId cache.chunkCache streamId seq payload with
      | (.error err, chunkCache) =>
          (.error s!"stream-prefixed chunk cache write failed: {err}", { cache with chunkCache })
      | (.ok _, chunkCache) =>
          let s := cache.state.recordCommitted seq clock.nowMs decoded.media.length none
          (.ok seq, { cache with
            chunkCache
            state := s.recordPartAvailable streamId seq payload.length clock.availableUs none false
              false cache.windowParts
            partUpdates := seq })

/-- The object to commit: a validated one, or what the payload decodes to. -/
def canonicalObject (M : MediaObjectCrate) (payload : Bytes) (validatedObject : Option MediaObject) :
    CacheResult (Option MediaObject) :=
  match validatedObject with
  | some object => .ok (some object)
  | none => decodeCanonicalStreamObject M payload

def commitStreamPayloadInner (cache : LiveTsCache C) (M : MediaObjectCrate) (K : SoundkitCrate)
    (streamId : UInt64) (payload : Bytes) (validatedObject : Option MediaObject)
    (clock : CommitClock) : CacheResult Nat × LiveTsCache C :=
  match canonicalObject M payload validatedObject with
  | .error error => (.error error, cache)
  | .ok (some object) => cache.commitObject K streamId payload clock object
  | .ok none => cache.commitPlain M streamId payload clock

def commitStreamPayload (cache : LiveTsCache C) (M : MediaObjectCrate) (K : SoundkitCrate)
    (streamId : UInt64) (payload : Bytes) (clock : CommitClock) : CacheResult Nat × LiveTsCache C :=
  cache.commitStreamPayloadInner M K streamId payload none clock

def commitValidatedStreamPayload (cache : LiveTsCache C) (M : MediaObjectCrate) (K : SoundkitCrate)
    (streamId : UInt64) (payload : Bytes) (object : MediaObject) (clock : CommitClock) :
    CacheResult Nat × LiveTsCache C :=
  cache.commitStreamPayloadInner M K streamId payload (some object) clock

end LiveTsCache

end AvMesh.LiveCache
