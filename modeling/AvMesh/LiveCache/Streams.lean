/-
  AvMesh.LiveCache.Streams
  ────────────────────────
  **WHAT A COMMIT TO ONE STREAM DOES TO THE OTHERS.**

  Almost all of the live state is keyed by stream (`StreamEntries`), and a
  commit writes under its own key only (`leavesOthers_commit`).  Four fields are
  not keyed:

      last_committed_seq   last_committed_unix_ms
      last_committed_bytes last_committed_duration_ms

  `stats` reports them for the default stream, and the activation of an epoch
  clears them for the default stream only, but every commit that stores a part
  writes them (`streams_undisturbed_iff`).
-/
import AvMesh.LiveCache.Served

namespace AvMesh.LiveCache

open AvMesh.Lib

variable {C : ChunkCacheCrate}

/-! ## §1. The entries of a stream. -/

/-- What the live state holds of one stream. -/
structure StreamEntries where
  nextSeq : Option Nat
  canonicalEpoch : Option Nat
  canonicalEpochActivationDelayUs : Option Nat
  subscriptionBaseObject : Option Nat
  latestCanonicalObject : Option Nat
  lastIngestUnixMs : Option Nat
  parts : Option RetainedParts
  currentFmp4Segment : Option Nat
  retainedBytes : Option Nat
  maxPartDurationMs : Option Nat
  maxSegmentDurationMs : Option Nat
  init : Option Bytes
  mediaKind : Option LiveMediaKind

/-- The fields that are not keyed by stream. -/
structure LastCommitted where
  seq : Option Nat
  unixMs : Option Nat
  bytes : Option Nat
  durationMs : Option Nat
  deriving DecidableEq

namespace LiveState

def entries (s : LiveState) (streamId : UInt64) : StreamEntries where
  nextSeq := s.streamNextSeq.lookup streamId
  canonicalEpoch := s.streamCanonicalEpoch.lookup streamId
  canonicalEpochActivationDelayUs := s.streamCanonicalEpochActivationDelayUs.lookup streamId
  subscriptionBaseObject := s.streamSubscriptionBaseObject.lookup streamId
  latestCanonicalObject := s.streamLatestCanonicalObject.lookup streamId
  lastIngestUnixMs := s.streamLastIngestUnixMs.lookup streamId
  parts := s.streamParts.lookup streamId
  currentFmp4Segment := s.streamCurrentFmp4Segment.lookup streamId
  retainedBytes := s.streamRetainedBytes.lookup streamId
  maxPartDurationMs := s.streamMaxPartDurationMs.lookup streamId
  maxSegmentDurationMs := s.streamMaxSegmentDurationMs.lookup streamId
  init := s.streamInits.lookup streamId
  mediaKind := s.streamMediaKinds.lookup streamId

def committed (s : LiveState) : LastCommitted :=
  ⟨s.lastCommittedSeq, s.lastCommittedUnixMs, s.lastCommittedBytes, s.lastCommittedDurationMs⟩

/-- Every other stream has the entries it had. -/
def KeepsOthers (s s' : LiveState) (streamId : UInt64) : Prop :=
  ∀ other, other ≠ streamId → s'.entries other = s.entries other

section Frame

variable {s s' s'' : LiveState} {streamId : UInt64}

theorem KeepsOthers.refl (s : LiveState) : s.KeepsOthers s streamId := fun _ _ => rfl

theorem KeepsOthers.trans (h : s.KeepsOthers s' streamId) (h' : s'.KeepsOthers s'' streamId) :
    s.KeepsOthers s'' streamId :=
  fun other hother => (h' other hother).trans (h other hother)

theorem keepsOthers_recordIngest {bytes nowMs : Nat} :
    s.KeepsOthers (s.recordIngest streamId bytes nowMs) streamId := by
  intro other hother
  simp only [entries, recordIngest, AList.lookup_insert_ne hother]

theorem keepsOthers_observeStreamSeq {sequence : Nat} :
    s.KeepsOthers (s.observeStreamSeq streamId sequence) streamId := by
  intro other hother
  simp only [entries, observeStreamSeq, AList.lookup_insert_ne hother]

theorem keepsOthers_nextStreamSeq : s.KeepsOthers (s.nextStreamSeq streamId).2 streamId := by
  intro other hother
  simp only [entries, nextStreamSeq, AList.lookup_insert_ne hother]

theorem keepsOthers_recordPartAvailable {sequence bytes availableUnixUs windowParts : Nat}
    {durationMs : Option Nat} {keyframe keyframeSegments : Bool} :
    s.KeepsOthers (s.recordPartAvailable streamId sequence bytes availableUnixUs durationMs keyframe
      keyframeSegments windowParts) streamId := by
  intro other hother
  cases durationMs <;>
    simp only [entries, recordPartAvailable, AList.lookup_insert_ne hother] <;>
    cases ((s.streamParts.lookup streamId).getD []).get? sequence <;>
    cases keyframe <;> cases keyframeSegments <;>
    simp [fmp4Segment, AList.lookup_insert_ne hother]

theorem committed_recordPartAvailable {sequence bytes availableUnixUs windowParts : Nat}
    {durationMs : Option Nat} {keyframe keyframeSegments : Bool} :
    (s.recordPartAvailable streamId sequence bytes availableUnixUs durationMs keyframe
      keyframeSegments windowParts).committed = s.committed := by
  cases durationMs <;> simp only [committed, recordPartAvailable] <;>
    cases ((s.streamParts.lookup streamId).getD []).get? sequence <;>
    cases keyframe <;> cases keyframeSegments <;> rfl

/-- The last commit depends on the one before only. -/
theorem committed_recordCommitted_congr {seq nowMs bytes : Nat} {durationMs : Option Nat}
    (h : s.committed = s'.committed) :
    (s.recordCommitted seq nowMs bytes durationMs).committed =
      (s'.recordCommitted seq nowMs bytes durationMs).committed := by
  have hseq : s.lastCommittedSeq = s'.lastCommittedSeq := congrArg LastCommitted.seq h
  simp only [committed, recordCommitted, hseq]

end Frame

end LiveState

/-! ## §2. The commit. -/

/-- A stream reads the same in both chunk caches. -/
structure ChunkCacheReads.SameReads (R : ChunkCacheReads C) (streamId : UInt64)
    (chunk chunk' : C.Cache) : Prop where
  position : R.position chunk' streamId = R.position chunk streamId
  slots : ∀ slot, R.getForStreamId chunk' streamId slot = R.getForStreamId chunk streamId slot

/-- The chunk cache keeps its streams apart. -/
structure StreamsApart (R : ChunkCacheReads C) : Prop where
  zero : ∀ chunk streamId other, other ≠ streamId →
    R.SameReads other chunk (C.zeroStreamId chunk streamId)
  init : ∀ chunk streamId init other, other ≠ streamId →
    R.SameReads other chunk (C.setStreamInitialization chunk streamId init).2
  put : ∀ chunk streamId slot base bytes other, other ≠ streamId →
    R.SameReads other chunk (C.putIfAbsentContiguous chunk streamId slot base bytes).2
  add : ∀ chunk streamId slot bytes other, other ≠ streamId →
    R.SameReads other chunk (C.addForStreamId chunk streamId slot bytes).2

namespace LiveTsCache

/-- Whatever happened was about one stream only. -/
structure LeavesOthers (R : ChunkCacheReads C) (streamId : UInt64) (cache after : LiveTsCache C) :
    Prop where
  state : cache.state.KeepsOthers after.state streamId
  chunk : ∀ other, other ≠ streamId → R.SameReads other cache.chunkCache after.chunkCache
  config : after.streamId = cache.streamId ∧ after.windowParts = cache.windowParts

section Frame

variable {R : ChunkCacheReads C} {cache after last : LiveTsCache C} {M : MediaObjectCrate}
  {K : SoundkitCrate} {streamId : UInt64} {payload : Bytes} {clock : CommitClock}
  {object : MediaObject}

theorem LeavesOthers.refl (cache : LiveTsCache C) : LeavesOthers R streamId cache cache :=
  ⟨LiveState.KeepsOthers.refl _, fun _ _ => ⟨rfl, fun _ => rfl⟩, rfl, rfl⟩

theorem LeavesOthers.trans (h : LeavesOthers R streamId cache after)
    (h' : LeavesOthers R streamId after last) : LeavesOthers R streamId cache last := by
  refine ⟨h.state.trans h'.state, fun other hother => ⟨?_, fun slot => ?_⟩,
    h'.config.1.trans h.config.1, h'.config.2.trans h.config.2⟩
  · exact (h'.chunk other hother).position.trans (h.chunk other hother).position
  · exact ((h'.chunk other hother).slots slot).trans ((h.chunk other hother).slots slot)

/-- A change of the state under the key of the stream. -/
theorem LeavesOthers.of_state {state : LiveState} {partUpdates : Nat}
    (h : cache.state.KeepsOthers state streamId) :
    LeavesOthers R streamId cache { cache with state, partUpdates } :=
  ⟨h, fun _ _ => ⟨rfl, fun _ => rfl⟩, rfl, rfl⟩

/-- A write to the chunk cache for one stream. -/
theorem LeavesOthers.of_chunk {chunkCache : C.Cache}
    (h : ∀ other, other ≠ streamId → R.SameReads other cache.chunkCache chunkCache) :
    LeavesOthers R streamId cache { cache with chunkCache } :=
  ⟨LiveState.KeepsOthers.refl _, h, rfl, rfl⟩

theorem leavesOthers_activateEpoch (hR : StreamsApart R) {sourceEpoch nowUs : Nat} :
    LeavesOthers R streamId cache (cache.activateEpoch streamId sourceEpoch nowUs) := by
  refine ⟨fun other hother => ?_, fun other hother => ?_, ?_⟩
  · rw [activateEpoch]
    dsimp only
    split
    · rfl
    · split <;> simp only [LiveState.entries, resetStream, AList.lookup_insert_ne hother,
        AList.lookup_erase_ne hother] <;> split <;>
        simp only [AList.lookup_insert_ne hother, AList.lookup_erase_ne hother]
  · rw [activateEpoch]
    dsimp only
    split
    · exact ⟨rfl, fun _ => rfl⟩
    · exact hR.zero _ _ _ hother
  · rw [activateEpoch]
    dsimp only
    split <;> exact ⟨rfl, rfl⟩

/-- Only the default stream has its last commit cleared. -/
theorem committed_activateEpoch {sourceEpoch nowUs : Nat} (h : streamId ≠ cache.streamId) :
    (cache.activateEpoch streamId sourceEpoch nowUs).state.committed = cache.state.committed := by
  rw [activateEpoch]
  dsimp only
  split
  · rfl
  · rfl

theorem leavesOthers_recordObject {bytes nowMs : Nat} {reboxed : Option ReboxedLiveAudio} :
    LeavesOthers R streamId cache (cache.recordObject streamId bytes nowMs reboxed object) := by
  have hseq : cache.state.KeepsOthers ((cache.state.recordIngest streamId bytes
      nowMs).observeStreamSeq streamId object.key.object.toNat) streamId :=
    LiveState.keepsOthers_recordIngest.trans LiveState.keepsOthers_observeStreamSeq
  refine LeavesOthers.of_state (hseq.trans fun other hother => ?_)
  simp only [LiveState.entries, AList.lookup_insert_ne hother]
  split
  · rw [AList.lookup_insert_ne hother]
  · rfl

theorem leavesOthers_recordPlain {bytes nowMs : Nat} {decoded : LiveSlotPayload} :
    LeavesOthers R streamId cache (cache.recordPlain streamId bytes nowMs decoded).2 := by
  have hingest := @LiveState.keepsOthers_recordIngest cache.state streamId bytes nowMs
  refine LeavesOthers.of_state ((hingest.trans fun other hother => ?_).trans
    LiveState.keepsOthers_nextStreamSeq)
  simp only [LiveState.entries, AList.lookup_insert_ne hother]
  split
  · rw [AList.lookup_insert_ne hother]
  · rfl

theorem leavesOthers_writeInitialization (hR : StreamsApart R) {init : Option Bytes}
    {failure : String} :
    LeavesOthers R streamId cache (cache.writeInitialization streamId init failure).2 := by
  rw [writeInitialization_snd]
  refine LeavesOthers.of_chunk fun other hother => ?_
  cases init with
  | none => exact ⟨rfl, fun _ => rfl⟩
  | some init => exact hR.init cache.chunkCache streamId init other hother

theorem leavesOthers_finishObject {cachedBytes : Nat} {reboxed : Option ReboxedLiveAudio} :
    LeavesOthers R streamId cache
      (finishObject cache streamId cachedBytes clock reboxed object) := by
  refine LeavesOthers.of_state (LiveState.KeepsOthers.trans (fun other hother => ?_)
    LiveState.keepsOthers_recordPartAvailable)
  simp only [LiveState.entries, LiveState.recordCommitted, AList.lookup_insert_ne hother]
  split
  · rfl
  · rw [AList.lookup_insert_ne hother]

theorem leavesOthers_storeObject (hR : StreamsApart R) {reboxed : Option ReboxedLiveAudio} :
    LeavesOthers R streamId cache
      (cache.storeObject streamId payload clock reboxed object).2 := by
  rw [storeObject]
  split
  · exact LeavesOthers.refl _
  · next bytes _ =>
      have hput := hR.put cache.chunkCache streamId object.key.object.toNat
        ((cache.state.streamSubscriptionBaseObject.lookup streamId).getD
          object.key.object.toNat) bytes
      split
      · next heq =>
          rw [heq] at hput
          exact LeavesOthers.of_chunk hput
      · next heq =>
          rw [heq] at hput
          exact LeavesOthers.of_chunk hput
      · next heq =>
          rw [heq] at hput
          exact (LeavesOthers.of_chunk hput).trans leavesOthers_finishObject

theorem leavesOthers_commitReboxed (hR : StreamsApart R) {reboxed : Option ReboxedLiveAudio} :
    LeavesOthers R streamId cache
      (cache.commitReboxed streamId payload clock reboxed object).2 := by
  rw [commitReboxed]
  have hwritten := (@leavesOthers_recordObject C R cache streamId object payload.length
    clock.nowMs reboxed).trans
    (@leavesOthers_writeInitialization C R _ streamId hR (objectInit reboxed object)
      (initFailure reboxed))
  split
  · next heq =>
      rw [heq] at hwritten
      exact hwritten
  · next heq =>
      rw [heq] at hwritten
      split
      · exact hwritten
      · exact hwritten.trans (leavesOthers_storeObject hR)

theorem leavesOthers_commitObject (hR : StreamsApart R) :
    LeavesOthers R streamId cache (cache.commitObject K streamId payload clock object).2 := by
  rw [commitObject]
  split
  · exact LeavesOthers.refl _
  · dsimp only
    split
    · exact leavesOthers_activateEpoch hR
    · exact (leavesOthers_activateEpoch hR).trans (leavesOthers_commitReboxed hR)

theorem leavesOthers_commitPlain (hR : StreamsApart R) :
    LeavesOthers R streamId cache (cache.commitPlain M streamId payload clock).2 := by
  rw [commitPlain]
  have hwritten := (@leavesOthers_recordPlain C R cache streamId payload.length clock.nowMs
    (LiveSlotPayload.decode M payload)).trans
    (@leavesOthers_writeInitialization C R _ streamId hR
      (LiveSlotPayload.decode M payload).init (initFailure none))
  dsimp only
  split
  · next heq =>
      rw [heq] at hwritten
      exact hwritten
  · next written heq =>
      rw [heq] at hwritten
      have hadd := hR.add written.chunkCache streamId
        (cache.recordPlain streamId payload.length clock.nowMs
          (LiveSlotPayload.decode M payload)).1 payload
      split
      · next hadded =>
          rw [hadded] at hadd
          exact hwritten.trans (LeavesOthers.of_chunk hadd)
      · next hadded =>
          rw [hadded] at hadd
          refine (hwritten.trans (LeavesOthers.of_chunk hadd)).trans (LeavesOthers.of_state ?_)
          refine LiveState.KeepsOthers.trans (fun _ _ => ?_)
            LiveState.keepsOthers_recordPartAvailable
          rfl

/-- **A commit is about its own stream only**, but for the fields that have no key. -/
theorem leavesOthers_commit (hR : StreamsApart R) {validatedObject : Option MediaObject} :
    LeavesOthers R streamId cache
      (cache.commitStreamPayloadInner M K streamId payload validatedObject clock).2 := by
  rw [commitStreamPayloadInner]
  split
  · exact LeavesOthers.refl _
  · exact leavesOthers_commitObject hR
  · exact leavesOthers_commitPlain hR

end Frame

/-! ## §3. The last commit. -/

/-- The commit stores a part with this sequence, size and duration. -/
inductive Stores (cache : LiveTsCache C) (M : MediaObjectCrate) (K : SoundkitCrate)
    (streamId : UInt64) (payload : Bytes) (validatedObject : Option MediaObject) (nowUs : Nat) :
    Nat → Nat → Option Nat → Prop
  | object {object : MediaObject} {reboxed : Option ReboxedLiveAudio}
      (hobject : canonicalObject M payload validatedObject = .ok (some object))
      (hadmitted : cache.admitObject streamId object = .ok ())
      (hreboxed : reboxedAudio K object = .ok reboxed) (hkind : object.kind = .media)
      (hstored : ¬ Refused (cache.activateEpoch streamId object.key.epoch.toNat nowUs).chunkCache
        streamId ((cache.activateEpoch streamId object.key.epoch.toNat
          nowUs).state.streamSubscriptionBaseObject.lookup streamId) payload reboxed object) :
      Stores cache M K streamId payload validatedObject nowUs object.key.object.toNat
        (commitMediaBytes reboxed object) (mediaDurationMs reboxed object)
  | plain (hobject : canonicalObject M payload validatedObject = .ok none)
      (hstored : ¬ PlainRefused cache.chunkCache streamId
        ((cache.state.streamNextSeq.lookup streamId).getD 0) payload
        (LiveSlotPayload.decode M payload).init) :
      Stores cache M K streamId payload validatedObject nowUs
        ((cache.state.streamNextSeq.lookup streamId).getD 0)
        (LiveSlotPayload.decode M payload).media.length none

theorem Stores.unique {cache : LiveTsCache C} {M : MediaObjectCrate} {K : SoundkitCrate}
    {streamId : UInt64} {payload : Bytes} {validatedObject : Option MediaObject} {nowUs : Nat}
    {seq bytes seq' bytes' : Nat} {durationMs durationMs' : Option Nat}
    (h : cache.Stores M K streamId payload validatedObject nowUs seq bytes durationMs)
    (h' : cache.Stores M K streamId payload validatedObject nowUs seq' bytes' durationMs') :
    seq = seq' ∧ bytes = bytes' ∧ durationMs = durationMs' := by
  cases h with
  | object hobject _ hreboxed =>
      cases h' with
      | object hobject' _ hreboxed' =>
          rw [hobject] at hobject'
          cases hobject'
          rw [hreboxed] at hreboxed'
          cases hreboxed'
          exact ⟨rfl, rfl, rfl⟩
      | plain hobject' => simp [hobject] at hobject'
  | plain hobject =>
      cases h' with
      | object hobject' => simp [hobject] at hobject'
      | plain => exact ⟨rfl, rfl, rfl⟩

section Committed

variable {cache : LiveTsCache C} {M : MediaObjectCrate} {K : SoundkitCrate} {streamId : UInt64}
  {payload : Bytes} {clock : CommitClock} {object : MediaObject}

theorem committed_finishObject {cachedBytes : Nat} {reboxed : Option ReboxedLiveAudio} :
    (finishObject cache streamId cachedBytes clock reboxed object).state.committed =
      (cache.state.recordCommitted object.key.object.toNat clock.nowMs
        (commitMediaBytes reboxed object) (mediaDurationMs reboxed object)).committed := by
  rw [finishObject]
  exact LiveState.committed_recordPartAvailable

theorem committed_storeObject_of_error {reboxed : Option ReboxedLiveAudio} {error : String}
    (h : (cache.storeObject streamId payload clock reboxed object).1 = .error error) :
    (cache.storeObject streamId payload clock reboxed object).2.state.committed =
      cache.state.committed := by
  rw [storeObject] at h ⊢
  split
  · rfl
  · next heq =>
      rw [heq] at h
      split
      · rfl
      · rfl
      · next hput =>
          simp only [hput] at h
          cases h

/-- A commit that stores no part leaves the last one. -/
theorem committed_commitReboxed_of_refused {reboxed : Option ReboxedLiveAudio}
    (h : object.kind = .media → Refused cache.chunkCache streamId
      (cache.state.streamSubscriptionBaseObject.lookup streamId) payload reboxed object) :
    (cache.commitReboxed streamId payload clock reboxed object).2.state.committed =
      cache.state.committed := by
  have hfails := @commitReboxed_fails_iff C cache streamId payload clock reboxed object
  rw [commitReboxed] at hfails ⊢
  have hwrite := @state_writeInitialization C
    (cache.recordObject streamId payload.length clock.nowMs reboxed object) streamId
    (objectInit reboxed object) (initFailure reboxed)
  generalize (cache.recordObject streamId payload.length clock.nowMs reboxed
    object).writeInitialization streamId (objectInit reboxed object) (initFailure reboxed) =
    written at hfails hwrite ⊢
  have hsame : written.2.state.committed = cache.state.committed := by
    rw [hwrite]
    rfl
  obtain ⟨result, written⟩ := written
  cases result with
  | error error => exact hsame
  | ok _ =>
      simp only at hfails hsame ⊢
      split
      · exact hsame
      · next hmedia =>
          rw [if_neg hmedia] at hfails
          obtain ⟨error, herror⟩ := hfails.2 (h (not_not.1 hmedia))
          rw [committed_storeObject_of_error herror]
          exact hsame

theorem committed_commitReboxed_of_stored {reboxed : Option ReboxedLiveAudio}
    (hkind : object.kind = .media) (h : ¬ Refused cache.chunkCache streamId
      (cache.state.streamSubscriptionBaseObject.lookup streamId) payload reboxed object) :
    (cache.commitReboxed streamId payload clock reboxed object).2.state.committed =
      (cache.state.recordCommitted object.key.object.toNat clock.nowMs
        (commitMediaBytes reboxed object) (mediaDurationMs reboxed object)).committed := by
  have hfails := @commitReboxed_fails_iff C cache streamId payload clock reboxed object
  cases hresult : (cache.commitReboxed streamId payload clock reboxed object).1 with
  | error error => exact absurd (hfails.1 ⟨error, hresult⟩) h
  | ok seq =>
      obtain ⟨bytes, chunk, _, _, hafter⟩ := commitReboxed_stored hresult hkind
      rw [hafter, committed_finishObject]
      rfl

theorem committed_commitPlain :
    (cache.commitPlain M streamId payload clock).2.state.committed =
      cache.state.committed ∧ PlainRefused cache.chunkCache streamId
        ((cache.state.streamNextSeq.lookup streamId).getD 0) payload
        (LiveSlotPayload.decode M payload).init ∨
    (cache.commitPlain M streamId payload clock).2.state.committed =
        (cache.state.recordCommitted ((cache.state.streamNextSeq.lookup streamId).getD 0)
          clock.nowMs (LiveSlotPayload.decode M payload).media.length none).committed ∧
      ¬ PlainRefused cache.chunkCache streamId
        ((cache.state.streamNextSeq.lookup streamId).getD 0) payload
        (LiveSlotPayload.decode M payload).init := by
  rw [commitPlain]
  have hwrite := @state_writeInitialization C
    (cache.recordPlain streamId payload.length clock.nowMs (LiveSlotPayload.decode M payload)).2
    streamId (LiveSlotPayload.decode M payload).init (initFailure none)
  have hcases := @writeInitialization_cases C
    (cache.recordPlain streamId payload.length clock.nowMs (LiveSlotPayload.decode M payload)).2
    streamId (LiveSlotPayload.decode M payload).init (initFailure none)
  dsimp only
  generalize (cache.recordPlain streamId payload.length clock.nowMs
    (LiveSlotPayload.decode M payload)).2.writeInitialization streamId
    (LiveSlotPayload.decode M payload).init (initFailure none) = written at hwrite hcases ⊢
  have hsame : written.2.state.committed = cache.state.committed := by
    rw [hwrite]
    rfl
  obtain ⟨result, written⟩ := written
  rcases hcases with ⟨hrefused, error, herror⟩ | ⟨hwritten, hok, hchunk⟩
  · obtain rfl : result = .error error := herror
    exact Or.inl ⟨hsame, fun hinit => absurd hinit hrefused⟩
  · obtain rfl : result = .ok () := hok
    simp only at hwrite hchunk ⊢
    have hseq : (cache.recordPlain streamId payload.length clock.nowMs
        (LiveSlotPayload.decode M payload)).1 =
        (cache.state.streamNextSeq.lookup streamId).getD 0 := rfl
    rw [hseq]
    split
    · next err chunk hadd =>
        refine Or.inl ⟨hsame, fun _ => ⟨err, ?_⟩⟩
        have hafter : written.chunkCache = chunkAfterInit cache.chunkCache streamId
            (LiveSlotPayload.decode M payload).init := hchunk
        rw [← hafter, hadd]
    · next chunk hadd =>
        refine Or.inr ⟨?_, fun hrefused => ?_⟩
        · rw [LiveState.committed_recordPartAvailable, hwrite]
          rfl
        · obtain ⟨err, herror⟩ := hrefused hwritten
          have hafter : written.chunkCache = chunkAfterInit cache.chunkCache streamId
              (LiveSlotPayload.decode M payload).init := hchunk
          rw [← hafter, hadd] at herror
          cases herror

/-- What a commit to another stream than the default one makes the last commit. -/
theorem committed_commit {validatedObject : Option MediaObject} (h : streamId ≠ cache.streamId) :
    (∃ seq bytes durationMs,
      cache.Stores M K streamId payload validatedObject clock.activationUs seq bytes durationMs ∧
      (cache.commitStreamPayloadInner M K streamId payload validatedObject
        clock).2.state.committed =
        (cache.state.recordCommitted seq clock.nowMs bytes durationMs).committed) ∨
    (∀ seq bytes durationMs,
      ¬ cache.Stores M K streamId payload validatedObject clock.activationUs seq bytes
        durationMs) ∧
      (cache.commitStreamPayloadInner M K streamId payload validatedObject
        clock).2.state.committed = cache.state.committed := by
  rw [commitStreamPayloadInner]
  cases hobject : canonicalObject M payload validatedObject with
  | error error =>
      refine Or.inr ⟨fun seq bytes durationMs hstores => ?_, rfl⟩
      cases hstores with
      | object hobject' => simp [hobject] at hobject'
      | plain hobject' => simp [hobject] at hobject'
  | ok canonical =>
      cases canonical with
      | none =>
          rcases @committed_commitPlain C cache M streamId payload clock with
            ⟨hsame, hrefused⟩ | ⟨hcommitted, hstored⟩
          · refine Or.inr ⟨fun seq bytes durationMs hstores => ?_, hsame⟩
            cases hstores with
            | object hobject' => simp [hobject] at hobject'
            | plain _ hstored => exact hstored hrefused
          · exact Or.inl ⟨_, _, _, .plain hobject hstored, hcommitted⟩
      | some object =>
          have hsame := @committed_activateEpoch C cache streamId object.key.epoch.toNat
            clock.activationUs h
          simp only [commitObject]
          cases hadmitted : cache.admitObject streamId object with
          | error error =>
              refine Or.inr ⟨fun seq bytes durationMs hstores => ?_, rfl⟩
              cases hstores with
              | object hobject' hadmitted' =>
                  rw [hobject] at hobject'
                  cases hobject'
                  rw [hadmitted] at hadmitted'
                  cases hadmitted'
              | plain hobject' => simp [hobject] at hobject'
          | ok _ =>
              cases hreboxed : reboxedAudio K object with
              | error error =>
                  refine Or.inr ⟨fun seq bytes durationMs hstores => ?_, hsame⟩
                  cases hstores with
                  | object hobject' _ hreboxed' =>
                      rw [hobject] at hobject'
                      cases hobject'
                      rw [hreboxed] at hreboxed'
                      cases hreboxed'
                  | plain hobject' => simp [hobject] at hobject'
              | ok reboxed =>
                  simp only
                  by_cases hstored : object.kind = .media ∧ ¬ Refused
                      (cache.activateEpoch streamId object.key.epoch.toNat
                        clock.activationUs).chunkCache streamId ((cache.activateEpoch streamId
                        object.key.epoch.toNat
                        clock.activationUs).state.streamSubscriptionBaseObject.lookup streamId)
                      payload reboxed object
                  · obtain ⟨hkind, hstored⟩ := hstored
                    refine Or.inl ⟨_, _, _, .object hobject hadmitted hreboxed hkind hstored, ?_⟩
                    rw [committed_commitReboxed_of_stored hkind hstored]
                    exact LiveState.committed_recordCommitted_congr hsame
                  · refine Or.inr ⟨fun seq bytes durationMs hstores => ?_, ?_⟩
                    · cases hstores with
                      | object hobject' _ hreboxed' hkind' hstored' =>
                          rw [hobject] at hobject'
                          cases hobject'
                          rw [hreboxed] at hreboxed'
                          cases hreboxed'
                          exact hstored ⟨hkind', hstored'⟩
                      | plain hobject' => simp [hobject] at hobject'
                    · rw [committed_commitReboxed_of_refused fun hkind =>
                        Classical.byContradiction fun hnot => hstored ⟨hkind, hnot⟩]
                      exact hsame

end Committed

end LiveTsCache

/-! ## §4. What `stats` reports. -/

structure StatsSnapshot where
  streamId : UInt64
  streamIdText : String
  partTargetMs : Nat
  partsPerSegment : Nat
  windowParts : Nat
  datagramsReceived : Nat
  bytesReceived : Nat
  currentPartBytes : Nat
  latestLocalPart : Option Nat
  latestLocalPartBytes : Option Nat
  latestLocalPartDurationMs : Option Nat
  latestMeshPart : Option Nat
  canonicalEpoch : Option Nat
  canonicalEpochActivationDelayUs : Option Nat
  contiguousObject : Option Nat
  headObject : Option Nat
  gapCount : Option Nat
  meshPeers : List String
  latestLocalPartAgeMs : Option Nat
  lastIngestAgeMs : Option Nat

namespace HlsCache

variable (R : ChunkCacheReads C)

def canonicalGapCount (cache : HlsCache C) (streamId : UInt64)
    (subscriptionBaseObject headObject : Option Nat) : Option Nat :=
  subscriptionBaseObject.bind fun base => headObject.bind fun head =>
    if (cache.streamPosition R streamId).any fun position => head ≤ position.2 then some 0
    else
      let retainedStart := max (head - (cache.windowParts - 1)) base
      some ((List.range' retainedStart (head + 1 - retainedStart)).foldl
        (fun gaps object =>
          if (R.getForStreamId cache.chunkCache streamId object).isNone then satAdd gaps 1
          else gaps) 0)

/-- The bytes of the part that is being collected and the mesh peers are read elsewhere. -/
def stats (cache : HlsCache C) (nowMs currentPartBytes : Nat) (meshPeers : List String) :
    StatsSnapshot :=
  let state := cache.state
  let latestMeshPart := (cache.streamPosition R cache.streamId).map (·.2)
  { streamId := cache.streamId
    streamIdText := toString cache.streamId.toNat
    partTargetMs := cache.partTargetMs
    partsPerSegment := cache.partsPerSegment
    windowParts := cache.windowParts
    datagramsReceived := state.datagramsReceived
    bytesReceived := state.bytesReceived
    currentPartBytes
    latestLocalPart := state.lastCommittedSeq
    latestLocalPartBytes := state.lastCommittedBytes
    latestLocalPartDurationMs := state.lastCommittedDurationMs
    latestMeshPart
    canonicalEpoch := state.streamCanonicalEpoch.lookup cache.streamId
    canonicalEpochActivationDelayUs :=
      state.streamCanonicalEpochActivationDelayUs.lookup cache.streamId
    contiguousObject := latestMeshPart
    headObject := state.streamLatestCanonicalObject.lookup cache.streamId
    gapCount := cache.canonicalGapCount R cache.streamId
      (state.streamSubscriptionBaseObject.lookup cache.streamId)
      (state.streamLatestCanonicalObject.lookup cache.streamId)
    meshPeers
    latestLocalPartAgeMs := state.lastCommittedUnixMs.map (nowMs - ·)
    lastIngestAgeMs := state.lastIngestUnixMs.map (nowMs - ·) }

end HlsCache

/-- But for the totals of the process and the time since anything came in, the report is the
same. -/
def StatsSnapshot.SameButTotals (before after : StatsSnapshot) : Prop :=
  after = { before with
    datagramsReceived := after.datagramsReceived
    bytesReceived := after.bytesReceived
    lastIngestAgeMs := after.lastIngestAgeMs }

/-- A commit to this stream disturbs no other: every other stream keeps its entries, and if it is
not the default stream, the report about that stays the same. -/
structure StreamsUndisturbed (R : ChunkCacheReads C) (streamId : UInt64)
    (before after : HlsCache C) : Prop where
  entries : ∀ other, other ≠ streamId → after.state.entries other = before.state.entries other
  report : streamId ≠ before.streamId → ∀ nowMs currentPartBytes meshPeers,
    (before.stats R nowMs currentPartBytes meshPeers).SameButTotals
      (after.stats R nowMs currentPartBytes meshPeers)

/-- `commit_stream_payload` and `commit_validated_stream_payload`. -/
def HlsCache.commitInner (cache : HlsCache C) (M : MediaObjectCrate) (K : SoundkitCrate)
    (streamId : UInt64) (payload : Bytes) (validatedObject : Option MediaObject)
    (clock : CommitClock) : CacheResult Nat × HlsCache C :=
  let (result, live) :=
    cache.toLiveTsCache.commitStreamPayloadInner M K streamId payload validatedObject clock
  (result, { cache with toLiveTsCache := live })

section Report

variable {R : ChunkCacheReads C} {M : MediaObjectCrate} {K : SoundkitCrate}
  {before after : HlsCache C} {streamId : UInt64}

/-- The report about the default stream depends on its entries, its slots and the last commit. -/
theorem sameButTotals_iff (hothers : LiveTsCache.LeavesOthers R streamId before.toLiveTsCache
      after.toLiveTsCache) (hstream : streamId ≠ before.streamId)
    (htarget : after.partTargetMs = before.partTargetMs)
    (hsegment : after.partsPerSegment = before.partsPerSegment) :
    (∀ nowMs currentPartBytes meshPeers,
      (before.stats R nowMs currentPartBytes meshPeers).SameButTotals
        (after.stats R nowMs currentPartBytes meshPeers)) ↔
      after.state.committed = before.state.committed := by
  obtain ⟨hid, hwindow⟩ := hothers.config
  have hentries := hothers.state before.streamId hstream.symm
  have hreads := hothers.chunk before.streamId hstream.symm
  constructor
  · intro hsame
    have hseq : after.state.lastCommittedSeq = before.state.lastCommittedSeq :=
      congrArg StatsSnapshot.latestLocalPart (hsame 0 0 [])
    have hbytes : after.state.lastCommittedBytes = before.state.lastCommittedBytes :=
      congrArg StatsSnapshot.latestLocalPartBytes (hsame 0 0 [])
    have hduration : after.state.lastCommittedDurationMs = before.state.lastCommittedDurationMs :=
      congrArg StatsSnapshot.latestLocalPartDurationMs (hsame 0 0 [])
    have hage : ∀ nowMs, after.state.lastCommittedUnixMs.map (nowMs - ·) =
        before.state.lastCommittedUnixMs.map (nowMs - ·) :=
      fun nowMs => congrArg StatsSnapshot.latestLocalPartAgeMs (hsame nowMs 0 [])
    have htime : after.state.lastCommittedUnixMs = before.state.lastCommittedUnixMs := by
      cases hafter : after.state.lastCommittedUnixMs with
      | none =>
          have hnone := hage 0
          rw [hafter, Option.map_none, eq_comm, Option.map_eq_none_iff] at hnone
          exact hnone.symm
      | some time =>
          cases hbefore : before.state.lastCommittedUnixMs with
          | none =>
              have hsome := hage 0
              rw [hafter, hbefore] at hsome
              cases hsome
          | some time' =>
              -- the later of the two tells them apart
              have hlater := hage (max time time')
              rw [hafter, hbefore, Option.map_some, Option.map_some, Option.some.injEq] at hlater
              rw [show time = time' by omega]
    rw [LiveState.committed, LiveState.committed, hseq, htime, hbytes, hduration]
  · intro hcommitted nowMs currentPartBytes meshPeers
    have hposition : after.streamPosition R before.streamId =
        before.streamPosition R before.streamId := hreads.position
    have hgaps : ∀ base head, after.canonicalGapCount R before.streamId base head =
        before.canonicalGapCount R before.streamId base head := by
      intro base head
      simp only [HlsCache.canonicalGapCount, hposition, hwindow, hreads.slots]
    have hkey : after.state.entries after.streamId = before.state.entries before.streamId := by
      rw [hid]
      exact hentries
    have hepoch := congrArg StreamEntries.canonicalEpoch hkey
    have hdelay := congrArg StreamEntries.canonicalEpochActivationDelayUs hkey
    have hbase := congrArg StreamEntries.subscriptionBaseObject hkey
    have hhead := congrArg StreamEntries.latestCanonicalObject hkey
    have hseq := congrArg LastCommitted.seq hcommitted
    have htime := congrArg LastCommitted.unixMs hcommitted
    have hbytes := congrArg LastCommitted.bytes hcommitted
    have hduration := congrArg LastCommitted.durationMs hcommitted
    simp only [LiveState.entries] at hepoch hdelay hbase hhead
    simp only [LiveState.committed] at hseq htime hbytes hduration
    simp only [StatsSnapshot.SameButTotals, HlsCache.stats, hid, hwindow, htarget, hsegment,
      hposition, hepoch, hdelay, hbase, hhead, hgaps, hseq, htime, hbytes, hduration]

end Report

/-- **The streams are undisturbed** exactly if the commit is to the default stream, or stores no
part, or stores one that leaves the last commit as it was. -/
theorem streams_undisturbed_iff {C : ChunkCacheCrate} {R : ChunkCacheReads C}
    (hR : StreamsApart R) (M : MediaObjectCrate) (K : SoundkitCrate) (cache : HlsCache C)
    (streamId : UInt64) (payload : Bytes) (validatedObject : Option MediaObject)
    (clock : CommitClock) :
    StreamsUndisturbed R streamId cache
        (cache.commitInner M K streamId payload validatedObject clock).2 ↔
      streamId = cache.streamId ∨ ∀ seq bytes durationMs,
        cache.Stores M K streamId payload validatedObject clock.activationUs seq bytes durationMs →
        (cache.state.recordCommitted seq clock.nowMs bytes durationMs).committed =
          cache.state.committed := by
  have hothers := @LiveTsCache.leavesOthers_commit C R cache.toLiveTsCache M K streamId payload
    clock hR validatedObject
  have hreport := fun hstream => @sameButTotals_iff C R cache
    (cache.commitInner M K streamId payload validatedObject clock).2 streamId hothers hstream rfl
    rfl
  constructor
  · intro hundisturbed
    by_cases hstream : streamId = cache.streamId
    · exact Or.inl hstream
    · refine Or.inr fun seq bytes durationMs hstores => ?_
      have hkept := (hreport hstream).1 (hundisturbed.report hstream)
      rcases @LiveTsCache.committed_commit C cache.toLiveTsCache M K streamId payload clock
        validatedObject hstream with ⟨seq', bytes', durationMs', hstores', hcommitted⟩ | ⟨hnone, _⟩
      · obtain ⟨rfl, rfl, rfl⟩ := hstores.unique hstores'
        exact hcommitted.symm.trans hkept
      · exact absurd hstores (hnone seq bytes durationMs)
  · intro hcondition
    refine ⟨hothers.state, fun hstream => (hreport hstream).2 ?_⟩
    have hkept := hcondition.resolve_left hstream
    rcases @LiveTsCache.committed_commit C cache.toLiveTsCache M K streamId payload clock
      validatedObject hstream with ⟨seq, bytes, durationMs, hstores, hcommitted⟩ | ⟨_, hsame⟩
    · exact hcommitted.trans (hkept seq bytes durationMs hstores)
    · exact hsame

theorem sameReads_update {chunk : sampleStore.Cache} {streamId other : UInt64}
    {stream : SampleStream} (h : other ≠ streamId) :
    sampleReads.SameReads other chunk (Function.update chunk streamId stream) := by
  refine ⟨?_, fun slot => ?_⟩
  · rw [position_sampleReads, position_sampleReads, Function.update_of_ne h]
  · show (Function.update chunk streamId stream other).slots.lookup slot = _
    rw [Function.update_of_ne h]

theorem sampleReads_apart : StreamsApart sampleReads where
  zero := fun _ _ _ h => sameReads_update h
  init := fun _ _ _ _ h => sameReads_update h
  put := by
    intro chunk streamId slot base bytes other h
    simp only [sampleStore]
    split
    · exact ⟨rfl, fun _ => rfl⟩
    · exact sameReads_update h
  add := fun _ _ _ _ _ h => sameReads_update h

/-- A commit to stream 4 of an object that names stream 3 is refused. -/
theorem streams_undisturbed_refused :
    StreamsUndisturbed sampleReads 4 (emptyHlsCache 2 6)
      ((emptyHlsCache 2 6).commitInner feedCrate sampleSoundkit 4
        (feedCommit 0 false false).payload none ⟨0, 0, 0⟩).2 := by
  refine (streams_undisturbed_iff sampleReads_apart feedCrate sampleSoundkit (emptyHlsCache 2 6) 4
    (feedCommit 0 false false).payload none ⟨0, 0, 0⟩).2 (Or.inr ?_)
  intro seq bytes durationMs hstores
  have hobject : LiveTsCache.canonicalObject feedCrate (feedCommit 0 false false).payload none =
      .ok (some (feedCommit 0 false false).object) := rfl
  cases hstores with
  | object hobject' hadmitted =>
      rw [hobject] at hobject'
      cases hobject'
      cases hadmitted
  | plain hobject' =>
      rw [hobject] at hobject'
      cases hobject'

/-- A part committed to stream 3 is reported as the latest part of the default stream 1. -/
theorem other_stream_reported :
    let after := ((emptyHlsCache 2 6).commitInner feedCrate sampleSoundkit 3
      (feedCommit 0 false false).payload none ⟨0, 0, 0⟩).2
    ((emptyHlsCache 2 6).stats sampleReads 0 0 []).latestLocalPart = none ∧
      (after.stats sampleReads 0 0 []).latestLocalPart = some 0 ∧
      ¬ StreamsUndisturbed sampleReads 3 (emptyHlsCache 2 6) after := by
  intro after
  have hafter : (after.stats sampleReads 0 0 []).latestLocalPart = some 0 := by rfl
  refine ⟨rfl, hafter, fun hundisturbed => ?_⟩
  have hsame := congrArg StatsSnapshot.latestLocalPart
    (hundisturbed.report (by decide) 0 0 [])
  rw [hafter] at hsame
  cases hsame

end AvMesh.LiveCache
