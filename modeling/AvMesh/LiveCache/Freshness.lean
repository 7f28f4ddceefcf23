/-
  AvMesh.LiveCache.Freshness
  ──────────────────────────
  **ARE THESE STREAMS FRESH HERE: ONE BY ONE, AND ALL AT ONCE.**

  `stream_is_locally_fresh` asks for a recent ingest, and for a contiguous run of
  slots that reaches the latest canonical object.  `streams_are_locally_fresh`
  asks a list of streams under one lock and without the chunk cache: it takes
  the LAST RETAINED PART of a stream for the end of that run.  After a commit
  the last retained part is the latest object, whatever is missing below it:

      committed     last retained part     contiguous run
      0, 1, 2               2                   0 - 2
      0, 2                  2                   0

  So the second check never sees a hole (`streamsAreLocallyFresh_iff`), and the
  first one does (`streamIsLocallyFresh_iff`).

  Main result: `fresh_checks_agree_iff`.
-/
import AvMesh.Lib.KeyWindow
import AvMesh.Lib.StepSystem
import AvMesh.LiveCache.Published
import AvMesh.LiveCache.Streams

namespace AvMesh.LiveCache

open AvMesh.Lib

variable {C : ChunkCacheCrate}

/-! ## §1. The checks. -/

def meshMinStaleIngestAlertMs : Nat := 5000

def streamStaleThresholdMs (partTargetMs windowParts : Nat) : Nat :=
  max (satMul partTargetMs windowParts) meshMinStaleIngestAlertMs

namespace HlsCache

/-- `stream_is_locally_fresh`, at a reading of the clock. -/
def streamIsLocallyFresh (R : ChunkCacheReads C) (cache : HlsCache C) (streamId : UInt64)
    (nowMs : Nat) : Bool :=
  let staleAfterMs := streamStaleThresholdMs cache.partTargetMs cache.windowParts
  match cache.state.streamLastIngestUnixMs.lookup streamId with
  | none => false
  | some lastIngestUnixMs =>
      if nowMs - lastIngestUnixMs > staleAfterMs then false
      else
        match cache.state.streamLatestCanonicalObject.lookup streamId with
        | none => true
        | some head => (cache.streamPosition R streamId).any fun position => head ≤ position.2

/-- `streams_are_locally_fresh`, at a reading of the clock. -/
def streamsAreLocallyFresh (cache : HlsCache C) (streamIds : List UInt64) (nowMs : Nat) : Bool :=
  if streamIds.isEmpty then false
  else
    let staleAfterMs := streamStaleThresholdMs cache.partTargetMs cache.windowParts
    streamIds.all fun streamId =>
      ((cache.state.streamLastIngestUnixMs.lookup streamId).any fun lastIngestUnixMs =>
        nowMs - lastIngestUnixMs ≤ staleAfterMs) &&
      (cache.state.streamLatestCanonicalObject.lookup streamId).all fun head =>
        ((cache.state.streamParts.lookup streamId).bind RetainedParts.lastKey).any
          fun contiguous => head ≤ contiguous

/-- The stream was fed within the threshold. -/
def recentlyFed (cache : HlsCache C) (streamId : UInt64) (nowMs : Nat) : Bool :=
  (cache.state.streamLastIngestUnixMs.lookup streamId).any fun lastIngestUnixMs =>
    nowMs - lastIngestUnixMs ≤ streamStaleThresholdMs cache.partTargetMs cache.windowParts

end HlsCache

/-- A call of the commit. -/
structure CommitOp where
  streamId : UInt64
  payload : Bytes
  validatedObject : Option MediaObject
  clock : CommitClock

/-- The payload is a canonical object, or it is refused for not being one. -/
def CommitOp.Canonical (M : MediaObjectCrate) (op : CommitOp) : Prop :=
  LiveTsCache.canonicalObject M op.payload op.validatedObject ≠ .ok none

def commitStep (M : MediaObjectCrate) (K : SoundkitCrate) (cache : HlsCache C) (op : CommitOp) :
    CacheResult Nat × HlsCache C :=
  cache.commitInner M K op.streamId op.payload op.validatedObject op.clock

/-! ## §2. The contiguous run. -/

/-- The run of stored slots that begins at `base` ends at `last`, or has not begun. -/
def ContiguousRun (stored : Nat → Bool) (base : Nat) : Option Nat → Prop
  | none => stored base = false
  | some last =>
      base ≤ last ∧ (∀ q, base ≤ q → q ≤ last → stored q = true) ∧ stored (last + 1) = false

/-- The run reaches `head` if and only if no slot up to it is missing. -/
theorem ContiguousRun.any_le_iff {stored : Nat → Bool} {base head : Nat} {last : Option Nat}
    (h : ContiguousRun stored base last) (hbase : base ≤ head) :
    (last.any fun last => head ≤ last) = true ↔
      ∀ q, base ≤ q → q ≤ head → stored q = true := by
  cases last with
  | none =>
      constructor
      · intro hfalse
        cases hfalse
      · intro hall
        have hstored := hall base (Nat.le_refl _) hbase
        rw [show stored base = false from h] at hstored
        cases hstored
  | some last =>
      obtain ⟨hle, hrun, hend⟩ := h
      rw [Option.any_some, decide_eq_true_eq]
      constructor
      · intro hreach q hq hqhead
        exact hrun q hq (by omega)
      · intro hall
        by_contra hshort
        -- the slot behind the run is one of those up to the head
        have hstored := hall (last + 1) (by omega) (by omega)
        rw [hend] at hstored
        cases hstored

/-- The reads of a chunk cache that never evicts: `stored` says which slots have been put. -/
@[reducible] def ChunkCacheReads.whole (R : ChunkCacheReads C)
    (stored : C.Cache → UInt64 → Nat → Bool) : ChunkCacheReads C :=
  { R with getForStreamId := fun chunk streamId slot =>
      if stored chunk streamId slot then some [] else none }

/-- `ChunkCache::last` is the contiguous watermark of the slots that have been put since the stream
was emptied; `stored` says which these are. -/
structure ContiguousWatermark (R : ChunkCacheReads C) (stored : C.Cache → UInt64 → Nat → Bool) :
    Prop where
  apart : StreamsApart (R.whole stored)
  zero : ∀ chunk streamId, R.position (C.zeroStreamId chunk streamId) streamId = none ∧
    ∀ slot, stored (C.zeroStreamId chunk streamId) streamId slot = false
  init : ∀ chunk streamId init, (R.whole stored).SameReads streamId chunk
    (C.setStreamInitialization chunk streamId init).2
  refused : ∀ chunk streamId slot base bytes,
    (C.putIfAbsentContiguous chunk streamId slot base bytes).1 ≠ .ok .present →
    (R.whole stored).SameReads streamId chunk
      (C.putIfAbsentContiguous chunk streamId slot base bytes).2
  put : ∀ chunk streamId slot base bytes chunk',
    C.putIfAbsentContiguous chunk streamId slot base bytes = (.ok .present, chunk') →
    ∀ q, stored chunk' streamId q = (decide (q = slot) || stored chunk streamId q)
  watermark : ∀ chunk streamId slot base bytes chunk',
    C.putIfAbsentContiguous chunk streamId slot base bytes = (.ok .present, chunk') →
    ContiguousRun (stored chunk streamId) base ((R.position chunk streamId).map (·.2)) →
    ContiguousRun (stored chunk' streamId) base ((R.position chunk' streamId).map (·.2))

theorem ChunkCacheReads.SameReads.stored {R : ChunkCacheReads C}
    {stored : C.Cache → UInt64 → Nat → Bool} {streamId : UInt64} {chunk chunk' : C.Cache}
    (h : (R.whole stored).SameReads streamId chunk chunk') (slot : Nat) :
    stored chunk' streamId slot = stored chunk streamId slot := by
  have hslot := h.slots slot
  simp only at hslot
  cases hafter : stored chunk' streamId slot <;> cases hbefore : stored chunk streamId slot <;>
    rw [hafter, hbefore] at hslot <;> first | rfl | cases hslot

/-! ## §3. What a stream keeps. -/

/-- What the checks read of a stream, and the slots that have been put. -/
structure StreamRun where
  parts : RetainedParts
  base : Option Nat
  latest : Option Nat
  last : Option Nat
  stored : Nat → Bool

def LiveTsCache.run (R : ChunkCacheReads C) (stored : C.Cache → UInt64 → Nat → Bool)
    (cache : LiveTsCache C) (streamId : UInt64) : StreamRun where
  parts := cache.state.parts streamId
  base := cache.state.streamSubscriptionBaseObject.lookup streamId
  latest := cache.state.streamLatestCanonicalObject.lookup streamId
  last := (R.position cache.chunkCache streamId).map (·.2)
  stored := stored cache.chunkCache streamId

namespace StreamRun

/-- No object of the stream is there. -/
structure Blank (run : StreamRun) : Prop where
  parts : run.parts = []
  base : run.base = none
  latest : run.latest = none
  last : run.last = none
  stored : ∀ q, run.stored q = false

/-- The objects began with `first` and the latest is `head`, which is the last part. -/
structure Started (run : StreamRun) (first head : Nat) : Prop where
  ascending : Ascending run.parts
  lastPart : lastKey run.parts = some head
  base : run.base = some first
  latest : run.latest = some head
  first_le : first ≤ head
  contiguous : ContiguousRun run.stored first run.last

def Tracks (run : StreamRun) : Prop := run.Blank ∨ ∃ first head, run.Started first head

/-- **A stored object** keeps the last part and the latest object together. -/
theorem Tracks.store {run run' : StreamRun} {slot width : Nat} {part : RetainedPartObservation}
    (h : run.Tracks) (hparts : run'.parts = offer width run.parts slot part)
    (hbase : run'.base = some (run.base.getD slot))
    (hlatest : run'.latest = some (match run.latest with
      | some head => max head slot
      | none => slot))
    (hrun : ContiguousRun run.stored (run.base.getD slot) run.last →
      ContiguousRun run'.stored (run.base.getD slot) run'.last) : run'.Tracks := by
  rcases h with hblank | ⟨first, head, hstarted⟩
  · rw [hblank.parts] at hparts
    rw [hblank.base, Option.getD_none] at hbase hrun
    rw [hblank.latest] at hlatest
    -- the first object is the base, the latest and the last part at once
    refine .inr ⟨slot, slot, ?_, ?_, hbase, hlatest, Nat.le_refl _, hrun ?_⟩
    · rw [hparts]
      exact Ascending.offer List.Pairwise.nil
    · rw [hparts, Ascending.lastKey_offer List.Pairwise.nil]
      rfl
    · rw [hblank.last]
      exact hblank.stored slot
  · rw [hstarted.base, Option.getD_some] at hbase hrun
    rw [hstarted.latest] at hlatest
    -- the window keeps its last part, so the greater one stays on top as it does in the head
    refine .inr ⟨first, max head slot, ?_, ?_, hbase, hlatest, ?_, hrun hstarted.contiguous⟩
    · rw [hparts]
      exact hstarted.ascending.offer
    · rw [hparts, hstarted.ascending.lastKey_offer, hstarted.lastPart]
    · exact Nat.le_trans hstarted.first_le (Nat.le_max_left _ _)

end StreamRun

/-! ## §4. A commit. -/

namespace LiveState

variable {s : LiveState} {streamId : UInt64} {sequence bytes availableUnixUs windowParts : Nat}
  {durationMs : Option Nat} {keyframe keyframeSegments : Bool}

theorem latest_recordPartAvailable :
    (s.recordPartAvailable streamId sequence bytes availableUnixUs durationMs keyframe
      keyframeSegments windowParts).streamLatestCanonicalObject =
      s.streamLatestCanonicalObject := by
  cases durationMs <;> simp only [recordPartAvailable] <;> split <;>
    cases keyframe <;> cases keyframeSegments <;> rfl

/-- A part arrives, whether its sequence is there already or not. -/
theorem parts_recordPartAvailable :
    ∃ part, (s.recordPartAvailable streamId sequence bytes availableUnixUs durationMs keyframe
        keyframeSegments windowParts).parts streamId =
      offer windowParts (s.parts streamId) sequence part := by
  cases hget : (s.parts streamId).get? sequence with
  | some part =>
      have hlookup : List.lookup sequence (s.parts streamId) = some part := hget
      refine ⟨part, ?_⟩
      rw [(recordPartAvailable_known s streamId sequence bytes availableUnixUs durationMs keyframe
        keyframeSegments windowParts hget).1, offer, insertVacant, hlookup]
      rfl
  | none =>
      have hlookup : List.lookup sequence (s.parts streamId) = none := hget
      refine ⟨⟨bytes, availableUnixUs, durationMs, keyframe,
        nextSegment (s.current streamId) keyframe keyframeSegments⟩, ?_⟩
      rw [(recordPartAvailable_new s streamId sequence bytes availableUnixUs durationMs keyframe
        keyframeSegments windowParts hget).1, offer, insertVacant, hlookup]
      rfl

end LiveState

namespace LiveTsCache

section Commit

variable {R : ChunkCacheReads C} {stored : C.Cache → UInt64 → Nat → Bool}
  {cache after : LiveTsCache C} {M : MediaObjectCrate} {K : SoundkitCrate} {streamId : UInt64}
  {payload : Bytes} {clock : CommitClock} {object : MediaObject}
  {reboxed : Option ReboxedLiveAudio}

/-- The chunk cache is read the same. -/
theorem run_of_sameReads {chunkCache : C.Cache}
    (h : (R.whole stored).SameReads streamId cache.chunkCache chunkCache) :
    LiveTsCache.run R stored { cache with chunkCache } streamId =
      cache.run R stored streamId := by
  have hposition : R.position chunkCache streamId = R.position cache.chunkCache streamId :=
    h.position
  have hstored : stored chunkCache streamId = stored cache.chunkCache streamId :=
    funext h.stored
  rw [run, run, hposition, hstored]

/-- The run of another stream. -/
theorem LeavesOthers.run (h : LeavesOthers (R.whole stored) streamId cache after)
    {other : UInt64} (hother : other ≠ streamId) :
    after.run R stored other = cache.run R stored other := by
  have hentries := h.state other hother
  have hparts := congrArg StreamEntries.parts hentries
  have hbase := congrArg StreamEntries.subscriptionBaseObject hentries
  have hlatest := congrArg StreamEntries.latestCanonicalObject hentries
  have hposition : R.position after.chunkCache other = R.position cache.chunkCache other :=
    (h.chunk other hother).position
  have hstored : stored after.chunkCache other = stored cache.chunkCache other :=
    funext (h.chunk other hother).stored
  simp only [LiveState.entries] at hparts hbase hlatest
  simp only [LiveTsCache.run, LiveState.parts, hparts, hbase, hlatest, hposition, hstored]

/-- A new epoch makes the stream blank. -/
theorem tracks_activateEpoch (hR : ContiguousWatermark R stored) {sourceEpoch nowUs : Nat}
    (h : (cache.run R stored streamId).Tracks) :
    ((cache.activateEpoch streamId sourceEpoch nowUs).run R stored streamId).Tracks := by
  rw [activateEpoch]
  dsimp only
  split
  · exact h
  · obtain ⟨hposition, hstored⟩ := hR.zero cache.chunkCache streamId
    refine .inl ⟨?_, ?_, ?_, ?_, hstored⟩
    · simp only [LiveTsCache.run, LiveState.parts]
      split <;> simp only [resetStream, AList.lookup_erase, Option.getD_none]
    · simp only [LiveTsCache.run]
      split <;> simp only [resetStream, AList.lookup_erase]
    · simp only [LiveTsCache.run]
      split <;> simp only [resetStream, AList.lookup_erase]
    · simp only [LiveTsCache.run, hposition, Option.map_none]

theorem run_recordObject {bytes nowMs : Nat} :
    (cache.recordObject streamId bytes nowMs reboxed object).run R stored streamId =
      cache.run R stored streamId := rfl

theorem run_writeInitialization (hR : ContiguousWatermark R stored) {init : Option Bytes}
    {failure : String} :
    (cache.writeInitialization streamId init failure).2.run R stored streamId =
      cache.run R stored streamId := by
  rw [writeInitialization_snd]
  cases init with
  | none => rfl
  | some init => exact run_of_sameReads (hR.init cache.chunkCache streamId init)

theorem latest_finishObject {cachedBytes : Nat} :
    (finishObject cache streamId cachedBytes clock reboxed
      object).state.streamLatestCanonicalObject.lookup streamId =
      some (match cache.state.streamLatestCanonicalObject.lookup streamId with
        | some head => max head object.key.object.toNat
        | none => object.key.object.toNat) := by
  rw [finishObject, LiveState.latest_recordPartAvailable, LiveState.recordCommitted]
  exact AList.lookup_insert _

/-- A put that is accepted, and what is noted of it. -/
theorem tracks_finishObject (hR : ContiguousWatermark R stored) {bytes : Bytes}
    {chunkCache : C.Cache}
    (hput : C.putIfAbsentContiguous cache.chunkCache streamId object.key.object.toNat
      ((cache.state.streamSubscriptionBaseObject.lookup streamId).getD object.key.object.toNat)
      bytes = (.ok .present, chunkCache))
    (h : (cache.run R stored streamId).Tracks) :
    ((finishObject { cache with chunkCache } streamId bytes.length clock reboxed object).run R
      stored streamId).Tracks := by
  obtain ⟨part, hparts⟩ : ∃ part, (finishObject { cache with chunkCache } streamId bytes.length
      clock reboxed object).state.parts streamId =
      offer cache.windowParts (cache.state.parts streamId) object.key.object.toNat part :=
    LiveState.parts_recordPartAvailable
  exact h.store hparts base_finishObject latest_finishObject
    (hR.watermark _ _ _ _ _ _ hput)

theorem tracks_storeObject (hR : ContiguousWatermark R stored)
    (h : (cache.run R stored streamId).Tracks) :
    ((cache.storeObject streamId payload clock reboxed object).2.run R stored streamId).Tracks := by
  rw [storeObject]
  split
  · exact h
  · next bytes _ =>
      have hrefused := hR.refused cache.chunkCache streamId object.key.object.toNat
        ((cache.state.streamSubscriptionBaseObject.lookup streamId).getD
          object.key.object.toNat) bytes
      split
      · next heq =>
          rw [heq] at hrefused
          rw [run_of_sameReads (hrefused (by simp))]
          exact h
      · next heq =>
          rw [heq] at hrefused
          rw [run_of_sameReads (hrefused (by simp))]
          exact h
      · next heq => exact tracks_finishObject hR heq h

theorem tracks_commitReboxed (hR : ContiguousWatermark R stored)
    (h : (cache.run R stored streamId).Tracks) :
    ((cache.commitReboxed streamId payload clock reboxed object).2.run R stored
      streamId).Tracks := by
  rw [commitReboxed]
  have hwritten := @run_writeInitialization C R stored
    (cache.recordObject streamId payload.length clock.nowMs reboxed object) streamId hR
    (objectInit reboxed object) (initFailure reboxed)
  rw [run_recordObject] at hwritten
  rw [← hwritten] at h
  split
  · next heq =>
      rw [heq] at h
      exact h
  · next heq =>
      rw [heq] at h
      split
      · exact h
      · exact tracks_storeObject hR h

/-- The stream that is committed to. -/
theorem tracks_commitObject (hR : ContiguousWatermark R stored)
    (h : (cache.run R stored streamId).Tracks) :
    ((cache.commitObject K streamId payload clock object).2.run R stored streamId).Tracks := by
  rw [commitObject]
  split
  · exact h
  · dsimp only
    split
    · exact tracks_activateEpoch hR h
    · exact tracks_commitReboxed hR (tracks_activateEpoch hR h)

/-- **A canonical commit keeps every stream on track.** -/
theorem tracks_commit (hR : ContiguousWatermark R stored) {validatedObject : Option MediaObject}
    (hcanonical : canonicalObject M payload validatedObject ≠ .ok none)
    (h : ∀ streamId, (cache.run R stored streamId).Tracks) (other : UInt64) :
    ((cache.commitStreamPayloadInner M K streamId payload validatedObject clock).2.run R stored
      other).Tracks := by
  by_cases hother : other = streamId
  · subst hother
    rw [commitStreamPayloadInner]
    split
    · exact h other
    · exact tracks_commitObject hR (h other)
    · next hplain => exact absurd hplain hcanonical
  · rw [(leavesOthers_commit hR.apart).run hother]
    exact h other

end Commit

end LiveTsCache

/-! ## §5. What the checks say. -/

namespace HlsCache

section Checks

variable {R : ChunkCacheReads C} {stored : C.Cache → UInt64 → Nat → Bool} {cache : HlsCache C}
  {streamId : UInt64} {nowMs : Nat}

/-- No object is missing from the first one to the latest. -/
def HoleFree (stored : C.Cache → UInt64 → Nat → Bool) (cache : HlsCache C) (streamId : UInt64) :
    Prop :=
  ∀ base head, cache.state.streamSubscriptionBaseObject.lookup streamId = some base →
    cache.state.streamLatestCanonicalObject.lookup streamId = some head →
    ∀ q, base ≤ q → q ≤ head → stored cache.chunkCache streamId q = true

/-- The single check, cut at the ingest. -/
theorem streamIsLocallyFresh_eq :
    cache.streamIsLocallyFresh R streamId nowMs =
      (cache.recentlyFed streamId nowMs &&
        (cache.state.streamLatestCanonicalObject.lookup streamId).all fun head =>
          (cache.streamPosition R streamId).any fun position => head ≤ position.2) := by
  unfold streamIsLocallyFresh recentlyFed
  cases cache.state.streamLastIngestUnixMs.lookup streamId with
  | none => rfl
  | some lastIngestUnixMs =>
      dsimp only
      rw [Option.any_some]
      split
      · next hstale =>
          rw [decide_eq_false (by omega), Bool.false_and]
      · next hfed =>
          rw [decide_eq_true (by omega), Bool.true_and]
          cases cache.state.streamLatestCanonicalObject.lookup streamId <;> rfl

/-- **The single check** sees whether an object is missing. -/
theorem streamIsLocallyFresh_iff (h : (cache.run R stored streamId).Tracks) :
    cache.streamIsLocallyFresh R streamId nowMs = true ↔
      cache.recentlyFed streamId nowMs = true ∧ cache.HoleFree stored streamId := by
  rw [streamIsLocallyFresh_eq, Bool.and_eq_true]
  refine and_congr_right fun _ => ?_
  rcases h with hblank | ⟨first, head, hstarted⟩
  · have hbase : cache.state.streamSubscriptionBaseObject.lookup streamId = none := hblank.base
    have hlatest : cache.state.streamLatestCanonicalObject.lookup streamId = none := hblank.latest
    rw [hlatest]
    refine iff_of_true rfl fun base head hsome => ?_
    rw [hbase] at hsome
    cases hsome
  · have hbase : cache.state.streamSubscriptionBaseObject.lookup streamId = some first :=
      hstarted.base
    have hlatest : cache.state.streamLatestCanonicalObject.lookup streamId = some head :=
      hstarted.latest
    have hreach := hstarted.contiguous.any_le_iff hstarted.first_le
    have hposition : ((cache.streamPosition R streamId).any fun position => head ≤ position.2) =
        (cache.run R stored streamId).last.any fun last => head ≤ last := by
      show _ = ((cache.streamPosition R streamId).map (·.2)).any _
      rw [Option.any_map]
    rw [hlatest, Option.all_some, hposition, hreach]
    constructor
    · intro hall base head' hsome hsome'
      rw [hbase] at hsome
      rw [hlatest] at hsome'
      cases hsome
      cases hsome'
      exact hall
    · intro hfree
      exact hfree first head hbase hlatest

/-- **The check of the list** sees the ingest only. -/
theorem streamsAreLocallyFresh_iff {streamIds : List UInt64}
    (h : ∀ streamId, (cache.run R stored streamId).Tracks) :
    cache.streamsAreLocallyFresh streamIds nowMs = true ↔
      streamIds ≠ [] ∧ ∀ streamId ∈ streamIds, cache.recentlyFed streamId nowMs = true := by
  have hpart : ∀ streamId,
      ((cache.state.streamLatestCanonicalObject.lookup streamId).all fun head =>
        ((cache.state.streamParts.lookup streamId).bind RetainedParts.lastKey).any
          fun contiguous => head ≤ contiguous) = true := by
    intro streamId
    rcases h streamId with hblank | ⟨first, head, hstarted⟩
    · have hlatest : cache.state.streamLatestCanonicalObject.lookup streamId = none :=
        hblank.latest
      rw [hlatest]
      rfl
    · have hlatest : cache.state.streamLatestCanonicalObject.lookup streamId = some head :=
        hstarted.latest
      have hlast : lastKey ((cache.state.streamParts.lookup streamId).getD []) = some head :=
        hstarted.lastPart
      rw [hlatest, Option.all_some]
      cases hparts : cache.state.streamParts.lookup streamId with
      | none =>
          rw [hparts] at hlast
          cases hlast
      | some parts =>
          rw [hparts, Option.getD_some] at hlast
          have hkey : RetainedParts.lastKey parts = some head := hlast
          rw [Option.bind_some, hkey, Option.any_some]
          exact decide_eq_true (Nat.le_refl _)
  unfold streamsAreLocallyFresh
  cases streamIds with
  | nil => simp
  | cons streamId rest =>
      simp only [hpart, Bool.and_true, List.isEmpty_cons, Bool.false_eq_true, if_false,
        List.all_eq_true]
      exact (and_iff_right (List.cons_ne_nil _ _)).symm

end Checks

end HlsCache

/-- The check of a list says that it is not empty and that the single check holds of each. -/
def FreshChecksAgree (R : ChunkCacheReads C) (cache : HlsCache C) (streamIds : List UInt64)
    (nowMs : Nat) : Prop :=
  cache.streamsAreLocallyFresh streamIds nowMs = true ↔
    streamIds ≠ [] ∧ ∀ streamId ∈ streamIds, cache.streamIsLocallyFresh R streamId nowMs = true

/-- A cache that has seen nothing. -/
structure Unfed (R : ChunkCacheReads C) (stored : C.Cache → UInt64 → Nat → Bool)
    (cache : HlsCache C) (startedUnixUs : Nat) : Prop where
  state : cache.state = LiveState.new startedUnixUs
  position : ∀ streamId, R.position cache.chunkCache streamId = none
  stored : ∀ streamId slot, stored cache.chunkCache streamId slot = false

section Main

variable {R : ChunkCacheReads C} {stored : C.Cache → UInt64 → Nat → Bool} {M : MediaObjectCrate}
  {K : SoundkitCrate} {cache : HlsCache C}

theorem Unfed.tracks {startedUnixUs : Nat} (h : Unfed R stored cache startedUnixUs)
    (streamId : UInt64) : (cache.run R stored streamId).Tracks := by
  refine .inl ⟨?_, ?_, ?_, ?_, h.stored streamId⟩
  · simp only [LiveTsCache.run, LiveState.parts, h.state]
    rfl
  · simp only [LiveTsCache.run, h.state]
    rfl
  · simp only [LiveTsCache.run, h.state]
    rfl
  · simp only [LiveTsCache.run, h.position, Option.map_none]

/-- **Every stream stays on track**, whatever canonical commits arrive. -/
theorem tracks_exec (hR : ContiguousWatermark R stored) {ops : List CommitOp}
    (hops : ∀ op ∈ ops, op.Canonical M)
    (h : ∀ streamId, (cache.run R stored streamId).Tracks) :
    ∀ streamId, ((exec (commitStep M K) cache ops).run R stored streamId).Tracks := by
  induction ops generalizing cache with
  | nil => exact h
  | cons op ops ih =>
      refine ih (fun op' hop' => hops op' (List.mem_cons_of_mem _ hop')) ?_
      intro streamId
      exact LiveTsCache.tracks_commit hR (hops op List.mem_cons_self) h streamId

/-- **The checks agree** in the state after canonical commits in any order exactly if the list is
empty, one of its streams was not fed recently, or none of them misses an object. -/
theorem fresh_checks_agree_iff {C : ChunkCacheCrate} {R : ChunkCacheReads C}
    {stored : C.Cache → UInt64 → Nat → Bool} (hR : ContiguousWatermark R stored)
    (M : MediaObjectCrate) (K : SoundkitCrate) {start : HlsCache C} {startedUnixUs : Nat}
    (hstart : Unfed R stored start startedUnixUs) {ops : List CommitOp}
    (hops : ∀ op ∈ ops, op.Canonical M) (streamIds : List UInt64) (nowMs : Nat) :
    let reached := exec (commitStep M K) start ops
    FreshChecksAgree R reached streamIds nowMs ↔
      streamIds = [] ∨ (∃ streamId ∈ streamIds, reached.recentlyFed streamId nowMs = false) ∨
        ∀ streamId ∈ streamIds, reached.HoleFree stored streamId := by
  intro reached
  have htracks : ∀ streamId, (reached.run R stored streamId).Tracks :=
    tracks_exec hR hops hstart.tracks
  have hsingle := fun streamId => @HlsCache.streamIsLocallyFresh_iff C R stored reached streamId
    nowMs (htracks streamId)
  unfold FreshChecksAgree
  rw [HlsCache.streamsAreLocallyFresh_iff htracks]
  simp only [hsingle]
  constructor
  · intro hagree
    by_cases hempty : streamIds = []
    · exact .inl hempty
    · by_cases hfed : ∀ streamId ∈ streamIds, reached.recentlyFed streamId nowMs = true
      · have hboth := (hagree.1 ⟨hempty, hfed⟩).2
        exact .inr (.inr fun streamId hmem => (hboth streamId hmem).2)
      · push Not at hfed
        obtain ⟨streamId, hmem, hstale⟩ := hfed
        exact .inr (.inl ⟨streamId, hmem, Bool.eq_false_iff.2 hstale⟩)
  · rintro (rfl | ⟨streamId, hmem, hstale⟩ | hfree)
    · simp
    · -- a stream that was not fed recently fails both checks
      constructor
      · rintro ⟨_, hfed⟩
        rw [hfed streamId hmem] at hstale
        cases hstale
      · rintro ⟨_, hfresh⟩
        rw [(hfresh streamId hmem).1] at hstale
        cases hstale
    · refine and_congr_right fun _ => forall₂_congr fun streamId hmem => ?_
      exact (and_iff_left (hfree streamId hmem)).symm

end Main

/-! ## §6. The sample store. -/

/-- A list holds no run that is longer than itself, so the search of it ends at a vacant slot. -/
theorem contiguousRun_runEnd {slots : List (Nat × Bytes)} {base q : Nat} (hbase : base ≤ q)
    (hrun : ∀ p, base ≤ p → p ≤ q → (slots.lookup p).isSome = true) :
    ContiguousRun (fun slot => (slots.lookup slot).isSome) base
      (some (runEnd slots slots.length q)) := by
  obtain ⟨hle, hall, hend⟩ := runEnd_spec slots slots.length q
  have hwhole : ∀ p, base ≤ p → p ≤ runEnd slots slots.length q →
      (slots.lookup p).isSome = true := by
    intro p hp hpe
    rcases Nat.lt_or_ge q p with hlt | hge
    · exact hall p hlt hpe
    · exact hrun p hp hge
  refine ⟨Nat.le_trans hbase hle, hwhole, ?_⟩
  rcases hend with hvacant | hspent
  · show (slots.lookup _).isSome = false
    rw [hvacant]
    rfl
  · exfalso
    -- the fuel is spent: the run would hold more slots than the list
    have hsub : List.range' q (slots.length + 1) ⊆ slots.map (·.1) := by
      intro p hp
      rw [List.mem_range'_1] at hp
      have hsome := hwhole p (by omega) (by omega)
      by_contra hnot
      rw [List.lookup_eq_none_iff.2] at hsome
      · cases hsome
      · intro entry hentry
        have hne : p ≠ entry.1 := fun heq => hnot (heq ▸ List.mem_map_of_mem hentry)
        simpa using hne
    have hlength := (List.subperm_of_subset List.nodup_range' hsub).length_le
    rw [List.length_range', List.length_map] at hlength
    omega

/-- The slots of the sample store are never evicted. -/
def sampleStored (chunk : sampleStore.Cache) (streamId : UInt64) (slot : Nat) : Bool :=
  ((chunk streamId).slots.lookup slot).isSome

theorem ChunkCacheReads.SameReads.sampleWhole {chunk chunk' : sampleStore.Cache}
    {streamId : UInt64} (h : sampleReads.SameReads streamId chunk chunk') :
    (sampleReads.whole sampleStored).SameReads streamId chunk chunk' := by
  refine ⟨h.position, fun slot => ?_⟩
  have hslot : (chunk' streamId).slots.lookup slot = (chunk streamId).slots.lookup slot :=
    h.slots slot
  show (if sampleStored chunk' streamId slot then some [] else none) =
    if sampleStored chunk streamId slot then some [] else none
  rw [sampleStored, sampleStored, hslot]

theorem sampleReads_watermark : ContiguousWatermark sampleReads sampleStored where
  apart :=
    { zero := fun _ _ _ h => (sameReads_update h).sampleWhole
      init := fun _ _ _ _ h => (sameReads_update h).sampleWhole
      put := fun _ _ _ _ _ _ h => (sampleReads_apart.put _ _ _ _ _ _ h).sampleWhole
      add := fun _ _ _ _ _ h => (sameReads_update h).sampleWhole }
  zero := by
    intro chunk streamId
    refine ⟨?_, fun slot => ?_⟩
    · exact ((sampleReads_lawful 0).zero_empty chunk streamId).1
    · simp [sampleStored]
  init := by
    intro chunk streamId init
    refine ChunkCacheReads.SameReads.sampleWhole ⟨?_, fun slot => ?_⟩
    · exact (sampleReads_lawful 0).init_position chunk streamId init
    · exact (sampleReads_lawful 0).init_slots chunk streamId init slot
  refused := by
    intro chunk streamId slot base bytes hrefused
    simp only [sampleStore] at hrefused ⊢
    split at hrefused
    · exact ⟨rfl, fun _ => rfl⟩
    · exact absurd rfl hrefused
  put := by
    intro chunk streamId slot base bytes chunk' hput q
    rcases put_sampleStore hput with ⟨hfound, rfl⟩ | ⟨_, rfl⟩
    · by_cases hq : q = slot
      · subst hq
        rw [sampleStored, hfound]
        simp
      · rw [decide_eq_false hq, Bool.false_or]
    · rw [sampleStored, Function.update_self, SampleStream.put, lookup_cons_ite]
      by_cases hq : q = slot
      · rw [if_pos hq, decide_eq_true hq]
        rfl
      · rw [if_neg hq, decide_eq_false hq, Bool.false_or]
        rfl
  watermark := by
    intro chunk streamId slot base bytes chunk' hput hrun
    rcases put_sampleStore hput with ⟨_, rfl⟩ | ⟨hvacant, rfl⟩
    · exact hrun
    · rw [position_sampleReads, Option.map_map] at hrun ⊢
      have hstored : sampleStored (Function.update chunk streamId
          ((chunk streamId).put slot base bytes)) streamId =
          fun q => (List.lookup q ((slot, bytes) :: (chunk streamId).slots)).isSome := by
        funext q
        rw [sampleStored, Function.update_self]
        rfl
      rw [hstored, Function.update_self, SampleStream.put]
      have hold : ∀ q, ((chunk streamId).slots.lookup q).isSome = true →
          (List.lookup q ((slot, bytes) :: (chunk streamId).slots)).isSome = true := by
        intro q hq
        rw [lookup_cons_ite]
        split
        · rfl
        · exact hq
      have hnew : (List.lookup slot ((slot, bytes) :: (chunk streamId).slots)).isSome = true := by
        rw [lookup_cons_ite, if_pos rfl]
        rfl
      cases hlast : (chunk streamId).last with
      | none =>
          rw [hlast] at hrun
          have hmissing : sampleStored chunk streamId base = false := hrun
          by_cases hslot : slot = base
          · subst hslot
            simp only [if_true]
            refine contiguousRun_runEnd (Nat.le_refl _) fun p hp hpe => ?_
            obtain rfl : p = slot := by omega
            exact hnew
          · simp only [if_neg hslot]
            show (List.lookup base _).isSome = false
            rw [lookup_cons_ite, if_neg fun heq => hslot heq.symm]
            exact hmissing
      | some last =>
          rw [hlast] at hrun
          obtain ⟨hle, hall, _⟩ := hrun
          exact contiguousRun_runEnd hle fun p hp hpe => hold p (hall p hp hpe)

/-- A cache on the sample store that has seen nothing. -/
def unfedCache : HlsCache sampleStore :=
  { emptyHlsCache 2 6 with state := LiveState.new 0 }

/-- Commits of these parts to stream 3. -/
def feedOps (sequences : List UInt8) : List CommitOp :=
  sequences.map fun sequence =>
    ⟨3, (feedCommit sequence false false).payload, none, ⟨0, 0, 0⟩⟩

theorem unfedCache_unfed : Unfed sampleReads sampleStored unfedCache 0 :=
  ⟨rfl, fun _ => rfl, fun _ _ => rfl⟩

/-- Parts 0, 2 and 1: the hole is filled, and both checks say that the stream is fresh. -/
theorem fresh_checks_agree_filled :
    FreshChecksAgree sampleReads
      (exec (commitStep feedCrate sampleSoundkit) unfedCache (feedOps [0, 2, 1])) [3] 0 := by
  refine (fresh_checks_agree_iff sampleReads_watermark feedCrate sampleSoundkit unfedCache_unfed
    ?_ [3] 0).2 (.inr (.inr ?_))
  · intro op hop hplain
    obtain ⟨sequence, _, rfl⟩ := List.mem_map.1 hop
    have hobject : LiveTsCache.canonicalObject feedCrate (feedCommit sequence false false).payload
        none = .ok (some (feedCommit sequence false false).object) := rfl
    rw [hobject] at hplain
    cases hplain
  · intro streamId hmem base head hbase hhead q hq hqhead
    obtain rfl := List.mem_singleton.1 hmem
    obtain rfl : 2 = head := Option.some.inj hhead
    obtain rfl | rfl | rfl : q = 0 ∨ q = 1 ∨ q = 2 := by omega
    all_goals rfl

/-- Parts 0 and 2: the check of the list does not see that part 1 is missing. -/
theorem hole_passes_list_check :
    let reached := exec (commitStep feedCrate sampleSoundkit) unfedCache (feedOps [0, 2])
    reached.streamsAreLocallyFresh [3] 0 = true ∧
      reached.streamIsLocallyFresh sampleReads 3 0 = false ∧
      ¬ FreshChecksAgree sampleReads reached [3] 0 := by
  intro reached
  have hlist : reached.streamsAreLocallyFresh [3] 0 = true := by rfl
  have hsingle : reached.streamIsLocallyFresh sampleReads 3 0 = false := by rfl
  refine ⟨hlist, hsingle, fun hagree => ?_⟩
  have hfresh := (hagree.1 hlist).2 3 (List.mem_singleton.2 rfl)
  rw [hsingle] at hfresh
  cases hfresh

end AvMesh.LiveCache
