/-
  AvMesh.LiveCache.Playlist
  ─────────────────────────
  **WHAT HLS CLIENTS ARE SERVED** (`LiveTsCache`, src/main.rs): the playlist of
  a stream, its segments, and whether a blocking reload may return.

  The three read a stream at two places:

      chunk cache   the slots, and `last`, the end of the contiguous run
      live state    the parts recorded by commits, with their segments

      playlist_for_stream_id          slots up to `last`, segments from the state
      get_segment_for_stream_id       sequences from the state, slots for the bytes
      hls_reload_position_available   the state only

  A playlist is a list of lines.  Durations stand in milliseconds in them: the
  text has them as seconds with three digits.  A read that waits for a part is
  one step here, so a part that is not there is not waited for.
-/
import AvMesh.LiveCache.Commit
import AvMesh.Lib.OrderedMap

namespace AvMesh.LiveCache

open AvMesh.Lib

/-! ## §1. Lines and positions. -/

inductive PlaylistLine where
  | extM3u
  | version (version : Nat)
  | targetDuration (seconds : Nat)
  | mediaSequence (number : Nat)
  | independentSegments
  | map
  | partInf (partTargetMs : Nat)
  | serverControl (partHoldBackMs holdBackMs : Nat)
  | programDateTime (text : String)
  | part (durationMs sequence : Nat) (kind : LiveMediaKind) (independent : Bool)
  | extInf (durationMs : Nat)
  | segment (number : Nat) (kind : LiveMediaKind)
  | preloadHint (sequence : Nat) (kind : LiveMediaKind)
  deriving Repr, DecidableEq

structure CachedPlaylist where
  streamId : UInt64
  version : Nat
  body : List PlaylistLine
  deriving DecidableEq

structure HlsReloadPosition where
  msn : Nat
  part : Option Nat
  deriving Repr, DecidableEq

/-- The operations of `ChunkCache` that readers use. -/
structure ChunkCacheReads (C : ChunkCacheCrate) where
  getStreamIdx : C.Cache → UInt64 → Option Nat
  last : C.Cache → Nat → Option Nat
  version : C.Cache → Nat → Option Nat
  get : C.Cache → Nat → Nat → Option Bytes
  getForStreamId : C.Cache → UInt64 → Nat → Option Bytes
  retainedStart : C.Cache → Nat → Nat

/-- The cache with what only HLS reads of it. -/
structure HlsCache (C : ChunkCacheCrate) extends LiveTsCache C where
  partTargetMs : Nat
  partsPerSegment : Nat
  playlistCache : List (Option CachedPlaylist)

/-! ## §2. Parts and their segments. -/

/-- A part of the window, with what the state has observed of it. -/
structure ObservedPart where
  sequence : Nat
  durationMs : Nat
  keyframe : Bool
  fmp4SegmentId : Option Nat
  availableUnixUs : Nat
  deriving Repr, DecidableEq

def observePart (observations : Option RetainedParts) (nominalPartDurationMs sequence : Nat) :
    ObservedPart :=
  let observation := observations.bind fun parts => parts.get? sequence
  { sequence
    durationMs := (observation.bind (·.durationMs)).getD nominalPartDurationMs
    keyframe := observation.any (·.keyframe)
    fmp4SegmentId := observation.bind (·.fmp4SegmentId)
    availableUnixUs := (observation.map (·.availableUnixUs)).getD 0 }

/-- `keyframe_aligned_segments`. -/
def keyframeAligned (kind : LiveMediaKind) (available : List ObservedPart) : Bool :=
  decide (kind = .fmp4) && available.any (·.fmp4SegmentId.isSome)

/-- The segment a playlist puts a part into, if any. -/
def playlistSegment (aligned : Bool) (partsPerSegment : Nat) (part : ObservedPart) : Option Nat :=
  if aligned then part.fmp4SegmentId else some (part.sequence / partsPerSegment)

/-- A truncated segment is not advertised: in keyframe segments, any that does not begin with its
keyframe; in segments of a fixed size, the first of several that begins in the middle. -/
def retainWholeSegments (aligned : Bool) (partsPerSegment : Nat)
    (groups : List (Nat × List ObservedPart)) : List (Nat × List ObservedPart) :=
  if aligned then groups.filter fun group => group.2.head?.any (·.keyframe)
  else
    match groups with
    | (firstSegment, group) :: next :: rest =>
        if group.head?.any fun part => part.sequence ≠ satMul firstSegment partsPerSegment then
          next :: rest
        else groups
    | groups => groups

/-- The segments of a playlist, with their parts. -/
def playlistGroups (aligned : Bool) (partsPerSegment : Nat) (available : List ObservedPart) :
    List (Nat × List ObservedPart) :=
  retainWholeSegments aligned partsPerSegment
    (groupEntries (playlistSegment aligned partsPerSegment) available)

/-- `segment_is_complete`. -/
def segmentIsComplete (aligned : Bool) (partsPerSegment : Nat)
    (groups : List (Nat × List ObservedPart)) (segment : Nat × List ObservedPart) : Bool :=
  if aligned then decide (some segment.1 ≠ groups.getLast?.map (·.1))
  else decide (segment.2.length = partsPerSegment)

/-! ## §3. Rendering. -/

def hlsTargetDurationFromMillis (durationMs : Nat) : Nat := max (satAdd durationMs 500 / 1000) 1

/-- `init.windows(word.len()).any(|candidate| candidate == word)`. -/
def hasWindow (init : Bytes) (word : String) : Bool :=
  init.tails.any fun rest => (asBytes word).isPrefixOf rest

def fmp4InitIsAudioOnly (init : Bytes) : Bool :=
  ["fLaC", "alac", "Opus", "mp4a", "ipcm", "fpcm"].any (hasWindow init) &&
    !(["avcC", "hvcC", "av1C", "vpcC"].any (hasWindow init))

def groupDurationMs (group : List ObservedPart) : Nat := (group.map (·.durationMs)).sum

/-- The lines of one segment. -/
def renderSegment (kind : LiveMediaKind) (audioOnly : Bool) (firstPartedSegment : Nat)
    (complete : Bool) (segment : Nat × List ObservedPart) : List PlaylistLine :=
  (if segment.1 < firstPartedSegment then []
    else segment.2.map fun part =>
      .part part.durationMs part.sequence kind
        ((part.keyframe || audioOnly) && decide (kind = .fmp4))) ++
  (if complete then [.extInf (groupDurationMs segment.2), .segment segment.1 kind] else [])

/-- What the lines in front of the segments depend on. -/
structure PlaylistHead where
  targetDuration : Nat
  independentSegments : Bool
  hasMap : Bool
  partTargetMs : Nat
  programDateTime : Option String

def renderHead (head : PlaylistHead) (mediaSequence : Nat) : List PlaylistLine :=
  [.extM3u, .version 10, .targetDuration head.targetDuration, .mediaSequence mediaSequence] ++
  (if head.independentSegments then [.independentSegments] else []) ++
  (if head.hasMap then [.map] else []) ++
  [.partInf head.partTargetMs,
    .serverControl (head.partTargetMs * 3) (max (head.targetDuration * 3) 3 * 1000)] ++
  (head.programDateTime.map PlaylistLine.programDateTime).toList

/-- The playlist of a stream with parts. -/
def renderPlaylist (head : PlaylistHead) (kind : LiveMediaKind) (audioOnly : Bool)
    (firstPartedSegment nextPart : Nat) (complete : Nat × List ObservedPart → Bool)
    (groups : List (Nat × List ObservedPart)) : List PlaylistLine :=
  renderHead head ((groups.head?.map (·.1)).getD 0) ++
  (groups.flatMap fun segment =>
    renderSegment kind audioOnly firstPartedSegment (complete segment) segment) ++
  [.preloadHint nextPart kind]

namespace LiveSlotPayload

def hasMedia : LiveSlotPayload → Bool
  | .fmp4 _ media => !media.isEmpty
  | .opaqueMedia media _ => !media.isEmpty
  | .invalid => false

end LiveSlotPayload

namespace HlsCache

variable {C : ChunkCacheCrate}

/-! ## §4. What reading remembers. -/

def rememberMediaKind (cache : HlsCache C) (streamId : UInt64) (kind : LiveMediaKind) :
    HlsCache C :=
  { cache with
    state := { cache.state with
      streamMediaKinds := cache.state.streamMediaKinds.insert streamId kind } }

/-- A refused write is only logged. -/
def rememberStreamInit (cache : HlsCache C) (streamId : UInt64) (init : Bytes) : HlsCache C :=
  { cache with
    chunkCache := (C.setStreamInitialization cache.chunkCache streamId init).2
    state := { cache.state with
      streamInits := cache.state.streamInits.insert streamId init } }

variable (R : ChunkCacheReads C) (M : MediaObjectCrate)

/-- `stream_position_for_id`: the index of the stream and the end of its contiguous run. -/
def streamPosition (cache : HlsCache C) (streamId : UInt64) : Option (Nat × Nat) :=
  (R.getStreamIdx cache.chunkCache streamId).bind fun streamIdx =>
    (R.last cache.chunkCache streamIdx).map fun last => (streamIdx, last)

/-- The initialization in the slots of a stream, the latest first. -/
def scanInit (cache : HlsCache C) (streamId : UInt64) : Option Bytes :=
  (cache.streamPosition R streamId).bind fun (streamIdx, last) =>
    let first := R.retainedStart cache.chunkCache last
    (List.range' first (last + 1 - first)).reverse.findSome? fun seq =>
      (R.get cache.chunkCache streamIdx seq).bind fun bytes =>
        (LiveSlotPayload.decodeForStream M bytes streamId).init

def getInitForStreamId (cache : HlsCache C) (streamId : UInt64) : Option Bytes × HlsCache C :=
  match cache.state.streamInits.lookup streamId with
  | some init => (some init, cache)
  | none =>
      match C.initialization cache.chunkCache streamId with
      | some init => (some init, cache.rememberStreamInit streamId init)
      | none =>
          match cache.scanInit R M streamId with
          | some init => (some init, cache.rememberStreamInit streamId init)
          | none => (none, cache)

section Init

variable {R M} {cache : HlsCache C} {streamId : UInt64}

/-- Where an initialization is looked for. -/
theorem getInitForStreamId_fst :
    (cache.getInitForStreamId R M streamId).1 =
      (cache.state.streamInits.lookup streamId).or
        ((C.initialization cache.chunkCache streamId).or (cache.scanInit R M streamId)) := by
  rw [getInitForStreamId]
  cases cache.state.streamInits.lookup streamId with
  | some init => rfl
  | none =>
      cases C.initialization cache.chunkCache streamId with
      | some init => rfl
      | none =>
          cases cache.scanInit R M streamId with
          | some init => rfl
          | none => rfl

/-- It changes nothing, but that what is found is remembered. -/
theorem getInitForStreamId_snd :
    (cache.getInitForStreamId R M streamId).2 = cache ∨
      ∃ init, (cache.getInitForStreamId R M streamId).1 = some init ∧
        (cache.getInitForStreamId R M streamId).2 = cache.rememberStreamInit streamId init := by
  rw [getInitForStreamId]
  split
  · exact Or.inl rfl
  · split
    · next init _ => exact Or.inr ⟨init, rfl, rfl⟩
    · split
      · next init _ => exact Or.inr ⟨init, rfl, rfl⟩
      · exact Or.inl rfl

theorem getInitForStreamId_rememberMediaKind (kind : LiveMediaKind) :
    ((cache.rememberMediaKind streamId kind).getInitForStreamId R M streamId).1 =
      (cache.getInitForStreamId R M streamId).1 := by
  rw [getInitForStreamId_fst, getInitForStreamId_fst]
  rfl

theorem getInitForStreamId_rememberStreamInit (init : Bytes) :
    ((cache.rememberStreamInit streamId init).getInitForStreamId R M streamId).1 = some init := by
  have hlookup : (cache.rememberStreamInit streamId init).state.streamInits.lookup streamId =
      some init := AList.lookup_insert _
  rw [getInitForStreamId, hlookup]

end Init

/-! ## §5. The playlist. -/

/-- The slots from `first` to `last` that hold media. -/
def windowSlots (cache : HlsCache C) (streamId : UInt64) (streamIdx first last : Nat) :
    List (Nat × LiveSlotPayload) :=
  (List.range' first (last + 1 - first)).filterMap fun seq =>
    (R.get cache.chunkCache streamIdx seq).bind fun bytes =>
      let slot := LiveSlotPayload.decodeForStream M bytes streamId
      if slot.hasMedia then some (seq, slot) else none

/-- `include_map` of a playlist without parts. -/
def includeMap (cache : HlsCache C) (streamId : UInt64) (kind : LiveMediaKind) :
    Bool × HlsCache C :=
  if kind = .fmp4 then
    let (init, cache) := cache.getInitForStreamId R M streamId
    (init.isSome, cache)
  else (false, cache)

/-- The lines that a playlist without parts has in common with a waiting one. -/
def emptyHead (cache : HlsCache C) (hasMap : Bool) : List PlaylistLine :=
  renderHead
    { targetDuration := hlsTargetDurationFromMillis (cache.partTargetMs * cache.partsPerSegment)
      independentSegments := false
      hasMap
      partTargetMs := cache.partTargetMs
      programDateTime := none } 0

def emptyPlaylist (cache : HlsCache C) (nextPart : Nat) (kind : LiveMediaKind) (hasMap : Bool) :
    List PlaylistLine :=
  cache.emptyHead hasMap ++
    (if kind = .fmp4 ∧ ¬ hasMap then [] else [.preloadHint nextPart kind])

def waitingPlaylist (cache : HlsCache C) (hasMap : Bool) : List PlaylistLine :=
  cache.emptyHead hasMap

def cachedPlaylist (cache : HlsCache C) (streamId : UInt64) (streamIdx version : Nat) :
    Option (List PlaylistLine) :=
  ((cache.playlistCache[streamIdx]?).bind id).bind fun cached =>
    if cached.streamId = streamId ∧ cached.version = version then some cached.body else none

def cachePlaylist (cache : HlsCache C) (streamId : UInt64) (streamIdx version : Nat)
    (body : List PlaylistLine) : HlsCache C :=
  if R.version cache.chunkCache streamIdx ≠ some version then cache
  else
    { cache with
      playlistCache := cache.playlistCache.set streamIdx (some ⟨streamId, version, body⟩) }

/-- `nominal_part_duration_ms`. -/
def nominalPartDurationMs (cache : HlsCache C) : Nat := min (max cache.partTargetMs 1) (2 ^ 32 - 1)

/-- The parts of these sequences, as the state has observed them. -/
def available (cache : HlsCache C) (streamId : UInt64) (sequences : List Nat) :
    List ObservedPart :=
  sequences.map
    (observePart (cache.state.streamParts.lookup streamId) cache.nominalPartDurationMs)

/-- `stream_max_segment_duration_ms` once a complete segment of this duration is observed. -/
def observeSegmentDuration (cache : HlsCache C) (streamId : UInt64) (observed : Option Nat) :
    HlsCache C :=
  match observed with
  | none => cache
  | some observed =>
      { cache with
        state := { cache.state with
          streamMaxSegmentDurationMs := cache.state.streamMaxSegmentDurationMs.insert streamId
            (match cache.state.streamMaxSegmentDurationMs.lookup streamId with
            | some durationMs => max durationMs observed
            | none => observed) } }

/-- `format_hls_program_date_time` is given; the rest is the part of `playlist_for_stream_id` from
`next_part` on. -/
def renderParts (formatProgramDateTime : Nat → Option String) (cache : HlsCache C)
    (streamId : UInt64) (kind : LiveMediaKind) (init : Option Bytes) (sequences : List Nat) :
    List PlaylistLine × HlsCache C :=
  let nextPart := (sequences.getLast?.getD 0 + 1) % 2 ^ 64
  let partTargetMs := max
    ((cache.state.streamMaxPartDurationMs.lookup streamId).getD cache.nominalPartDurationMs)
    cache.nominalPartDurationMs
  let available := cache.available streamId sequences
  let aligned := keyframeAligned kind available
  let groups := playlistGroups aligned cache.partsPerSegment available
  let complete := segmentIsComplete aligned cache.partsPerSegment groups
  let observed := ((groups.filter complete).map fun segment => groupDurationMs segment.2).max?
  let fallback := cache.nominalPartDurationMs * cache.partsPerSegment
  let cache := cache.observeSegmentDuration streamId observed
  let segmentTargetMs := max
    ((cache.state.streamMaxSegmentDurationMs.lookup streamId).getD fallback) fallback
  let targetDuration := hlsTargetDurationFromMillis segmentTargetMs
  let audioOnly := decide (kind = .fmp4) && init.any fmp4InitIsAudioOnly
  let programDateTime := (groups.head?.bind fun segment => segment.2.head?).bind fun part =>
    formatProgramDateTime (part.availableUnixUs - satMul part.durationMs 1000)
  let lastSegment := (groups.getLast?.map (·.1)).getD 0
  let partedWindowSegments := max
    ((satMul targetDuration 3000 + max segmentTargetMs 1 - 1) / max segmentTargetMs 1) 1
  let firstPartedSegment := lastSegment - (partedWindowSegments - 1)
  (renderPlaylist
    { targetDuration
      independentSegments := aligned || audioOnly
      hasMap := decide (kind = .fmp4) && init.isSome
      partTargetMs
      programDateTime } kind audioOnly firstPartedSegment nextPart complete groups, cache)

/-- The playlist of a window, rendered anew. -/
def renderWindow (formatProgramDateTime : Nat → Option String) (cache : HlsCache C)
    (streamId : UInt64) (streamIdx last : Nat) : List PlaylistLine × HlsCache C :=
  let first := last - (cache.windowParts - 1)
  let slots := cache.windowSlots R M streamId streamIdx first last
  match slots.getLast? with
  | none =>
      let kind := (cache.state.streamMediaKinds.lookup streamId).getD .fmp4
      let (hasMap, cache) := cache.includeMap R M streamId kind
      (cache.emptyPlaylist last kind hasMap, cache)
  | some (_, latest) =>
      let cache := match (slots.filterMap fun slot => slot.2.init).getLast? with
        | some init => cache.rememberStreamInit streamId init
        | none => cache
      let kind := latest.mediaKind
      let cache := cache.rememberMediaKind streamId kind
      let (init, cache) :=
        if kind = .fmp4 then cache.getInitForStreamId R M streamId else (none, cache)
      if kind = .fmp4 ∧ init.isNone then (cache.waitingPlaylist false, cache)
      else cache.renderParts formatProgramDateTime streamId kind init (slots.map (·.1))

def playlistForStreamId (formatProgramDateTime : Nat → Option String) (cache : HlsCache C)
    (streamId : UInt64) : List PlaylistLine × HlsCache C :=
  match cache.streamPosition R streamId with
  | none =>
      let kind := (cache.state.streamMediaKinds.lookup streamId).getD .fmp4
      let (hasMap, cache) := cache.includeMap R M streamId kind
      (cache.emptyPlaylist 0 kind hasMap, cache)
  | some (streamIdx, last) =>
      let version := (R.version cache.chunkCache streamIdx).getD 0
      match cache.cachedPlaylist streamId streamIdx version with
      | some body => (body, cache)
      | none =>
          let (body, cache) := cache.renderWindow R M formatProgramDateTime streamId streamIdx last
          (body, cache.cachePlaylist R streamId streamIdx version body)

/-- `groups` of `playlist_for_stream_id`: the segments a playlist rendered anew is made of. -/
def listedGroups (cache : HlsCache C) (streamId : UInt64) : List (Nat × List ObservedPart) :=
  match cache.streamPosition R streamId with
  | none => []
  | some (streamIdx, last) =>
      let slots := cache.windowSlots R M streamId streamIdx (last - (cache.windowParts - 1)) last
      match slots.getLast? with
      | none => []
      | some (_, latest) =>
          let available := cache.available streamId (slots.map (·.1))
          playlistGroups (keyframeAligned latest.mediaKind available) cache.partsPerSegment
            available

/-! ## §6. Segments and reloads. -/

/-- `get_part_for_stream_id`. -/
def getPartForStreamId (cache : HlsCache C) (streamId : UInt64) (seq : Nat) :
    Option Bytes × HlsCache C :=
  match (R.getForStreamId cache.chunkCache streamId seq).map fun bytes =>
      LiveSlotPayload.decodeForStream M bytes streamId with
  | none => (none, cache)
  | some slot =>
      if slot.hasMedia then
        let cache := match slot.init with
          | some init => cache.rememberStreamInit streamId init
          | none => cache
        (some slot.media, cache.rememberMediaKind streamId slot.mediaKind)
      else (none, cache)

/-- The parts of these sequences one behind the other, if they are all there. -/
def joinParts (streamId : UInt64) : HlsCache C → List Nat → Bytes → Option Bytes × HlsCache C
  | cache, [], out => (some out, cache)
  | cache, seq :: sequences, out =>
      match cache.getPartForStreamId R M streamId seq with
      | (none, cache) => (none, cache)
      | (some bytes, cache) => joinParts streamId cache sequences (out ++ bytes)

/-- `keyframe_aligned_sequences`: `none` if segments have a fixed size, `some none` if the segment
is not served. -/
def keyframeAlignedSequences (parts : RetainedParts) (segment : Nat) : Option (Option (List Nat)) :=
  if parts.any fun entry => entry.2.fmp4SegmentId.isSome then
    let closed := parts.any fun entry => entry.2.fmp4SegmentId.any fun id => segment < id
    let members := parts.filter fun entry => entry.2.fmp4SegmentId = some segment
    if ¬ closed ∨ ¬ members.head?.any (fun entry => entry.2.keyframe) then some none
    else some (some (members.map (·.1)))
  else none

def getSegmentForStreamId (cache : HlsCache C) (streamId : UInt64) (segment : Nat) :
    Option Bytes × HlsCache C :=
  match keyframeAlignedSequences ((cache.state.streamParts.lookup streamId).getD []) segment with
  | some none => (none, cache)
  | some (some sequences) => joinParts R M streamId cache sequences []
  | none =>
      match checkedMul segment cache.partsPerSegment with
      | none => (none, cache)
      | some firstPart =>
          joinParts R M streamId cache (List.range' firstPart cache.partsPerSegment) []

/-- The segment a reload counts a part to. -/
def reloadSegment (keyframeSegments : Bool) (partsPerSegment : Nat)
    (entry : Nat × RetainedPartObservation) : Option Nat :=
  if keyframeSegments then entry.2.fmp4SegmentId else some (entry.1 / partsPerSegment)

def hlsReloadPositionAvailable (cache : HlsCache C) (streamId : UInt64)
    (position : HlsReloadPosition) : Bool :=
  match cache.state.streamParts.lookup streamId with
  | none => false
  | some parts =>
      let keyframeSegments := parts.any fun entry => entry.2.fmp4SegmentId.isSome
      let segmentParts :=
        (groupEntries (reloadSegment keyframeSegments cache.partsPerSegment) parts).map
          fun group => (group.1, group.2.length)
      match segmentParts.head?, segmentParts.getLast? with
      | some (firstSegment, _), some (lastSegment, _) =>
          if position.msn < firstSegment ∨ position.msn < lastSegment then true
          else
            match segmentParts.lookup position.msn with
            | none => false
            | some partCount =>
                match position.part with
                | some part => decide (part < partCount)
                | none =>
                    if keyframeSegments then decide (position.msn < lastSegment)
                    else decide (partCount ≥ cache.partsPerSegment)
      | _, _ => false

end HlsCache

end AvMesh.LiveCache
