/-
  AvMesh.LiveCache.Published
  ──────────────────────────
  **WHAT THE COMMIT OF A MEDIA PART LEAVES BEHIND.**

  A source publishes the parts `first, first + 1, …` of one epoch of a stream
  (`Feed`).  A part that is committed leaves

      chunk cache   its slot, which reads as the part (`decode_slotBytes`)
      live state    the part, with its segment, and the base of the stream

  `Committed` says so, for whatever the cache held before.

  The chunk cache is not in the repository.  `LawfulReads` is what the code
  relies on: slots are kept for `retained` parts, `last` is the end of the
  contiguous run, and the version of a stream grows with every new slot.
-/
import AvMesh.LiveCache.Indexed
import AvMesh.LiveCache.Intact
import AvMesh.LiveCache.Window

namespace AvMesh.LiveCache

open AvMesh.Lib

/-! ## §1. The chunk cache. -/

variable {C : ChunkCacheCrate}

/-- The index of a stream and the end of its contiguous run. -/
def ChunkCacheReads.position (R : ChunkCacheReads C) (chunk : C.Cache) (streamId : UInt64) :
    Option (Nat × Nat) :=
  (R.getStreamIdx chunk streamId).bind fun streamIdx =>
    (R.last chunk streamIdx).map fun last => (streamIdx, last)

/-- The versions of one chunk cache are those of another, or later ones. -/
def ChunkCacheReads.VersionsGrow (R : ChunkCacheReads C) (chunk chunk' : C.Cache) : Prop :=
  ∀ idx version, R.version chunk idx = some version →
    ∃ version', R.version chunk' idx = some version' ∧ version ≤ version'

/-- The laws of the chunk cache that reading relies on. -/
structure LawfulReads (R : ChunkCacheReads C) (retained : Nat) : Prop where
  for_stream : ∀ chunk streamId slot, R.getForStreamId chunk streamId slot =
    (R.getStreamIdx chunk streamId).bind fun idx => R.get chunk idx slot
  zero_empty : ∀ chunk streamId, R.position (C.zeroStreamId chunk streamId) streamId = none ∧
    ∀ slot, R.getForStreamId (C.zeroStreamId chunk streamId) streamId slot = none
  zero_versions : ∀ chunk streamId, R.VersionsGrow chunk (C.zeroStreamId chunk streamId)
  init_position : ∀ chunk streamId init,
    R.position (C.setStreamInitialization chunk streamId init).2 streamId =
      R.position chunk streamId
  init_slots : ∀ chunk streamId init slot,
    R.getForStreamId (C.setStreamInitialization chunk streamId init).2 streamId slot =
      R.getForStreamId chunk streamId slot
  init_versions : ∀ chunk streamId init,
    R.VersionsGrow chunk (C.setStreamInitialization chunk streamId init).2
  put_slot : ∀ chunk streamId slot base bytes chunk',
    C.putIfAbsentContiguous chunk streamId slot base bytes = (.ok .present, chunk') →
      R.getForStreamId chunk' streamId slot = some bytes
  put_others : ∀ chunk streamId slot base bytes chunk',
    C.putIfAbsentContiguous chunk streamId slot base bytes = (.ok .present, chunk') →
      ∀ other, other ≠ slot →
        R.getForStreamId chunk' streamId other = R.getForStreamId chunk streamId other ∨
          other + retained ≤ slot ∧ R.getForStreamId chunk' streamId other = none
  put_first : ∀ chunk streamId slot bytes chunk',
    C.putIfAbsentContiguous chunk streamId slot slot bytes = (.ok .present, chunk') →
      R.position chunk streamId = none → (∀ other, R.getForStreamId chunk streamId other = none) →
      ∃ idx, R.position chunk' streamId = some (idx, slot)
  put_next : ∀ chunk streamId base bytes chunk' idx last,
    C.putIfAbsentContiguous chunk streamId (last + 1) base bytes = (.ok .present, chunk') →
      R.position chunk streamId = some (idx, last) →
      R.getForStreamId chunk streamId (last + 1) = none →
      R.getForStreamId chunk streamId (last + 2) = none →
      R.position chunk' streamId = some (idx, last + 1)
  put_versions : ∀ chunk streamId slot base bytes chunk',
    C.putIfAbsentContiguous chunk streamId slot base bytes = (.ok .present, chunk') →
      R.VersionsGrow chunk chunk'
  put_version : ∀ chunk streamId slot base bytes chunk' idx last version,
    C.putIfAbsentContiguous chunk streamId slot base bytes = (.ok .present, chunk') →
      R.getForStreamId chunk streamId slot = none →
      R.position chunk' streamId = some (idx, last) → R.version chunk idx = some version →
      ∃ version', R.version chunk' idx = some version' ∧ version < version'
  version_some : ∀ chunk streamId idx last, R.position chunk streamId = some (idx, last) →
    ∃ version, R.version chunk idx = some version

/-! ## §2. The state after a media commit. -/

namespace LiveState

variable (s : LiveState) (streamId : UInt64) (sequence bytes availableUnixUs : Nat)
  (durationMs : Option Nat) (keyframe keyframeSegments : Bool) (windowParts : Nat)

theorem epoch_recordPartAvailable :
    (s.recordPartAvailable streamId sequence bytes availableUnixUs durationMs keyframe
      keyframeSegments windowParts).streamCanonicalEpoch = s.streamCanonicalEpoch := by
  cases durationMs <;> simp only [recordPartAvailable] <;> split <;>
    cases keyframe <;> cases keyframeSegments <;> rfl

theorem base_recordPartAvailable :
    (s.recordPartAvailable streamId sequence bytes availableUnixUs durationMs keyframe
      keyframeSegments windowParts).streamSubscriptionBaseObject =
      s.streamSubscriptionBaseObject := by
  cases durationMs <;> simp only [recordPartAvailable] <;> split <;>
    cases keyframe <;> cases keyframeSegments <;> rfl

end LiveState

namespace LiveTsCache

variable {cache : LiveTsCache C} {K : SoundkitCrate} {streamId : UInt64} {payload : Bytes}
  {clock : CommitClock} {object : MediaObject}

section Finish

variable {reboxed : Option ReboxedLiveAudio} {cachedBytes : Nat}

theorem epoch_finishObject :
    (finishObject cache streamId cachedBytes clock reboxed object).state.streamCanonicalEpoch =
      cache.state.streamCanonicalEpoch := by
  rw [finishObject]
  exact LiveState.epoch_recordPartAvailable ..

/-- The first part that is committed becomes the base. -/
theorem base_finishObject :
    (finishObject cache streamId cachedBytes clock reboxed
      object).state.streamSubscriptionBaseObject.lookup streamId =
      some ((cache.state.streamSubscriptionBaseObject.lookup streamId).getD
        object.key.object.toNat) := by
  rw [finishObject, LiveState.base_recordPartAvailable, LiveState.recordCommitted]
  cases hbase : cache.state.streamSubscriptionBaseObject.lookup streamId with
  | some base => simp [hbase]
  | none => simp

/-- A new part is recorded with the segment that is open, or that it opens. -/
theorem parts_finishObject
    (h : (cache.state.parts streamId).get? object.key.object.toNat = none) :
    ∃ part : RetainedPartObservation, part.keyframe = object.isKeyframe ∧
      part.fmp4SegmentId = nextSegment (cache.state.current streamId) object.isKeyframe
        (commitMediaKind reboxed object = .fmp4) ∧
      (finishObject cache streamId cachedBytes clock reboxed object).state.parts streamId =
        LiveState.retain ((cache.state.parts streamId).insert object.key.object.toNat part)
          object.key.object.toNat cache.windowParts ∧
      (finishObject cache streamId cachedBytes clock reboxed object).state.current streamId =
        if decide (commitMediaKind reboxed object = .fmp4) && object.isKeyframe then
          nextSegment (cache.state.current streamId) object.isKeyframe
            (commitMediaKind reboxed object = .fmp4)
        else cache.state.current streamId := by
  rw [finishObject]
  refine ⟨⟨cachedBytes, clock.availableUs, mediaDurationMs reboxed object, object.isKeyframe,
    nextSegment (cache.state.current streamId) object.isKeyframe
      (commitMediaKind reboxed object = .fmp4)⟩, rfl, rfl, ?_⟩
  exact LiveState.recordPartAvailable_new _ streamId _ _ _ _ _ _ _ h

end Finish

theorem storeObject_stored {reboxed : Option ReboxedLiveAudio} {seq : Nat}
    (h : (cache.storeObject streamId payload clock reboxed object).1 = .ok seq) :
    ∃ bytes chunk, slotBytes streamId payload reboxed object = .ok bytes ∧
      C.putIfAbsentContiguous cache.chunkCache streamId object.key.object.toNat
        ((cache.state.streamSubscriptionBaseObject.lookup streamId).getD object.key.object.toNat)
        bytes = (.ok .present, chunk) ∧
      (cache.storeObject streamId payload clock reboxed object).2 =
        finishObject { cache with chunkCache := chunk } streamId bytes.length clock reboxed
          object := by
  rw [storeObject] at h ⊢
  cases hbytes : slotBytes streamId payload reboxed object with
  | error error =>
      simp only [hbytes] at h
      cases h
  | ok bytes =>
      simp only [hbytes] at h ⊢
      split at h
      · cases h
      · cases h
      · next chunk hput => exact ⟨bytes, chunk, rfl, hput, rfl⟩

theorem commitReboxed_stored {reboxed : Option ReboxedLiveAudio} {seq : Nat}
    (h : (cache.commitReboxed streamId payload clock reboxed object).1 = .ok seq)
    (hkind : object.kind = .media) :
    ∃ bytes chunk, slotBytes streamId payload reboxed object = .ok bytes ∧
      C.putIfAbsentContiguous (chunkAfterInit cache.chunkCache streamId (objectInit reboxed object))
        streamId object.key.object.toNat
        ((cache.state.streamSubscriptionBaseObject.lookup streamId).getD object.key.object.toNat)
        bytes = (.ok .present, chunk) ∧
      (cache.commitReboxed streamId payload clock reboxed object).2 =
        finishObject { cache.recordObject streamId payload.length clock.nowMs reboxed object with
          chunkCache := chunk } streamId bytes.length clock reboxed object := by
  rw [commitReboxed] at h ⊢
  have hwrite := @writeInitialization_snd C
    (cache.recordObject streamId payload.length clock.nowMs reboxed object) streamId
    (objectInit reboxed object) (initFailure reboxed)
  generalize (cache.recordObject streamId payload.length clock.nowMs reboxed
    object).writeInitialization streamId (objectInit reboxed object) (initFailure reboxed) =
    written at h hwrite ⊢
  obtain ⟨result, written⟩ := written
  cases result with
  | error error => cases h
  | ok _ =>
      obtain rfl := hwrite
      simp only [hkind, ne_eq, not_true_eq_false, if_false] at h ⊢
      exact storeObject_stored h

/-- What a media object that is committed has gone through. -/
theorem commitObject_stored {seq : Nat}
    (h : (cache.commitObject K streamId payload clock object).1 = .ok seq)
    (hkind : object.kind = .media) :
    let opened := cache.activateEpoch streamId object.key.epoch.toNat clock.activationUs
    ∃ reboxed bytes chunk, reboxedAudio K object = .ok reboxed ∧
      slotBytes streamId payload reboxed object = .ok bytes ∧
      C.putIfAbsentContiguous
        (chunkAfterInit opened.chunkCache streamId (objectInit reboxed object)) streamId
        object.key.object.toNat
        ((opened.state.streamSubscriptionBaseObject.lookup streamId).getD object.key.object.toNat)
        bytes = (.ok .present, chunk) ∧
      (cache.commitObject K streamId payload clock object).2 =
        finishObject { opened.recordObject streamId payload.length clock.nowMs reboxed object with
          chunkCache := chunk } streamId bytes.length clock reboxed object := by
  intro opened
  rw [commitObject] at h ⊢
  cases hadmitted : cache.admitObject streamId object with
  | error error =>
      simp only [hadmitted] at h
      cases h
  | ok _ =>
      simp only [hadmitted] at h ⊢
      cases hreboxed : reboxedAudio K object with
      | error error =>
          simp only [hreboxed] at h
          cases h
      | ok reboxed =>
          simp only [hreboxed] at h ⊢
          obtain ⟨bytes, chunk, hbytes, hput, hcommit⟩ := commitReboxed_stored h hkind
          exact ⟨reboxed, bytes, chunk, rfl, hbytes, hput, hcommit⟩

end LiveTsCache

/-! ## §3. The slot of a committed object. -/

/-- What a reader of the slot of a committed object gets. -/
def committedSlot (reboxed : Option ReboxedLiveAudio) (object : MediaObject) : LiveSlotPayload :=
  match reboxed with
  | some reboxed => .fmp4 (if reboxed.init = [] then none else some reboxed.init) reboxed.media
  | none => LiveSlotPayload.ofObject object

/-- No slot of one format begins like a slot of another. -/
def SlotMagicsDiffer (M : MediaObjectCrate) : Prop :=
  MagicsDiffer M ∧
    ∀ init media bytes, encodeFmp4Slot init media = .ok bytes → ¬ M.wireMagic <+: bytes

theorem encodeFmp4Slot_eq_ok {init media bytes : Bytes}
    (h : encodeFmp4Slot init media = .ok bytes) :
    init.length < 2 ^ 32 ∧ media.length < 2 ^ 32 ∧
      bytes = meshFmp4SlotMagic ++ (toBeBytes 4 init.length ++ (toBeBytes 4 media.length ++
        (init ++ media))) := by
  rw [encodeFmp4Slot] at h
  obtain ⟨initLen, hinit, h⟩ := except_bind_eq_ok.mp h
  obtain ⟨mediaLen, hmedia, h⟩ := except_bind_eq_ok.mp h
  obtain ⟨hinitLen, rfl⟩ := tryFrom_eq_some (context_eq_ok.mp hinit)
  obtain ⟨hmediaLen, rfl⟩ := tryFrom_eq_some (context_eq_ok.mp hmedia)
  cases h
  refine ⟨hinitLen, hmediaLen, ?_⟩
  simp only [List.append_assoc]

section Slots

variable {M : MediaObjectCrate} {K : SoundkitCrate} {streamId : UInt64} {payload bytes : Bytes}
  {reboxed : Option ReboxedLiveAudio} {object : MediaObject}

theorem slotMagicsDiffer_of_apart (hM : MagicsDiffer M)
    (hwire : ¬ M.wireMagic <+: meshFmp4SlotMagic) (hslot : ¬ meshFmp4SlotMagic <+: M.wireMagic) :
    SlotMagicsDiffer M := by
  refine ⟨hM, fun init media bytes hbytes hbegins => ?_⟩
  obtain ⟨-, -, rfl⟩ := encodeFmp4Slot_eq_ok hbytes
  rcases List.prefix_or_prefix_of_prefix (List.prefix_append meshFmp4SlotMagic _) hbegins with
    hle | hle
  · exact hslot hle
  · exact hwire hle

theorem decode_encodeFmp4Slot (hM : SlotMagicsDiffer M) {init media : Bytes}
    (h : encodeFmp4Slot init media = .ok bytes) :
    LiveSlotPayload.decodeForStream M bytes streamId =
      .fmp4 (if init = [] then none else some init) media := by
  have hwire := hM.2 init media bytes h
  obtain ⟨hinit, hmedia, rfl⟩ := encodeFmp4Slot_eq_ok h
  have hmagic : meshFmp4SlotMagic.length = 8 := by decide
  set slot := meshFmp4SlotMagic ++ (toBeBytes 4 init.length ++ (toBeBytes 4 media.length ++
    (init ++ media))) with hslot
  have hheads : meshFmp4SlotMagic <+: slot := List.prefix_append _ _
  have hlength : slot.length = 16 + init.length + media.length := by
    simp only [hslot, List.length_append, length_toBeBytes, hmagic]
    omega
  have hnested : Fmp4Slot slot init.length media.length := by
    refine ⟨hheads, ?_, ?_, hlength⟩
    · rw [hslot, slice_skip hmagic (by omega), slice_field (length_toBeBytes _ _),
        fromBeBytes_toBeBytes hinit]
    · rw [hslot, slice_skip hmagic (by omega), slice_skip (length_toBeBytes _ _) (by omega),
        slice_field (length_toBeBytes _ _), fromBeBytes_toBeBytes hmedia]
  have hheader : slot.drop 16 = init ++ media := by
    rw [hslot, ← List.append_assoc, ← List.append_assoc]
    refine List.drop_left' ?_
    simp only [List.length_append, length_toBeBytes, hmagic]
  have hfirst : slice slot 16 (16 + init.length) = init := by
    rw [slice, hheader, Nat.add_sub_cancel_left, List.take_left]
  have hsecond : slice slot (16 + init.length) slot.length = media := by
    rw [slice_to_length, ← List.drop_drop, hheader, List.drop_left]
  -- an indexed slot does not begin like this one either
  have hindexed : ¬ canonicalLiveSlotMagic <+: slot := by
    intro hindexed
    rcases List.prefix_or_prefix_of_prefix hheads hindexed with hle | hle
    · exact absurd hle (by decide)
    · exact absurd hle (by decide)
  rw [LiveSlotPayload.decodeForStream, LiveSlotPayload.decodeInner, if_neg hindexed, if_neg hwire,
    hnested.decode (by rw [hlength, u64Max]; omega), Option.getD_some, hfirst, hsecond]
  cases init with
  | nil => rfl
  | cons byte init => rfl

/-- The slot written for an object reads as `committedSlot`. -/
theorem decode_slotBytes (hM : SlotMagicsDiffer M) (henvelope : CanonicalEnvelope M object payload)
    (hkind : object.kind = .media) (hslot : slotBytes streamId payload reboxed object = .ok bytes) :
    LiveSlotPayload.decodeForStream M bytes streamId = committedSlot reboxed object := by
  cases reboxed with
  | some reboxed => exact decode_encodeFmp4Slot hM hslot
  | none =>
      obtain ⟨index, hindex, hlen, hio, hil, hmo, hml, rfl⟩ := encodeCanonicalLiveSlot_eq_ok hslot
      obtain ⟨front, rfl⟩ := henvelope.tail
      obtain ⟨hown, _⟩ := @decode_indexedSlot M streamId object front index hkind henvelope.magic
        hindex hlen hio hil hmo hml
      rw [decodeForStream_indexedSlot, hown]
      rfl

/-- A slot with media has the kind that the commit gives the object. -/
theorem mediaKind_committedSlot (hkind : object.kind = .media)
    (hmedia : (committedSlot reboxed object).hasMedia = true) :
    (committedSlot reboxed object).mediaKind = commitMediaKind reboxed object := by
  cases reboxed with
  | some reboxed => rfl
  | none =>
      rw [committedSlot, ofObject_media hkind] at hmedia ⊢
      by_cases hslot : commitMediaKind none object = .fmp4 ∧
          object.metadataIs "payload-format" "fmp4-slot-v1" = true
      · rw [if_pos hslot] at hmedia ⊢
        rw [hslot.1]
        by_cases hnested : ∃ initLen mediaLen, Fmp4Slot object.payload initLen mediaLen
        · obtain ⟨initLen, mediaLen, hnested⟩ := hnested
          have hinit : initLen < 2 ^ 32 := hnested.init ▸ word_lt object.payload 8
          have hmedia : mediaLen < 2 ^ 32 := hnested.media ▸ word_lt object.payload 12
          rw [hnested.decode (by rw [hnested.length, u64Max]; omega)]
          rfl
        · rw [decodeFmp4Slot_eq_none fun initLen mediaLen h => hnested ⟨initLen, mediaLen, h⟩]
            at hmedia
          cases hmedia
      · rw [if_neg hslot] at hmedia ⊢
        cases hkind : commitMediaKind none object <;> rfl

end Slots

/-! ## §4. Parts published in order. -/

/-- A media object as a source sends it, and the clock when it is committed. -/
structure MediaCommit where
  payload : Bytes
  object : MediaObject
  clock : CommitClock

def HlsCache.commit (cache : HlsCache C) (M : MediaObjectCrate) (K : SoundkitCrate)
    (streamId : UInt64) (commit : MediaCommit) : CacheResult Nat × HlsCache C :=
  let (result, live) := cache.toLiveTsCache.commitStreamPayload M K streamId commit.payload
    commit.clock
  (result, { cache with toLiveTsCache := live })

/-- What a source publishes: the parts `first, first + 1, …` of one epoch of a stream. -/
structure Feed where
  streamId : UInt64
  epoch : Nat
  fmp4 : Bool
  first : Nat
  keyframe : Nat → Bool
  slot : Nat → LiveSlotPayload

namespace Feed

/-- A commit of part `q`, with media in it. -/
structure Part (f : Feed) (M : MediaObjectCrate) (K : SoundkitCrate) (q : Nat)
    (commit : MediaCommit) : Prop where
  envelope : CanonicalEnvelope M commit.object commit.payload
  kind : commit.object.kind = .media
  epoch : commit.object.key.epoch.toNat = f.epoch
  sequence : commit.object.key.object.toNat = q
  keyframe : commit.object.isKeyframe = f.keyframe q
  slot : ∀ reboxed, reboxedAudio K commit.object = .ok reboxed →
    committedSlot reboxed commit.object = f.slot q
  media : (f.slot q).hasMedia = true
  fmp4 : (f.slot q).mediaKind = .fmp4 ↔ f.fmp4 = true

/-- The first part of the window that ends with part `l`. -/
def windowStart (f : Feed) (windowParts l : Nat) : Nat := max f.first (l - (max windowParts 1 - 1))

end Feed

/-- What a commit of part `q` has done to the cache in which its epoch is current. -/
structure Committed (M : MediaObjectCrate) (f : Feed) (q : Nat) (opened after : LiveTsCache C) :
    Prop where
  epoch : after.state.streamCanonicalEpoch = opened.state.streamCanonicalEpoch
  base : after.state.streamSubscriptionBaseObject.lookup f.streamId =
    some ((opened.state.streamSubscriptionBaseObject.lookup f.streamId).getD q)
  windowParts : after.windowParts = opened.windowParts
  put : ∃ init bytes, C.putIfAbsentContiguous
      (LiveTsCache.chunkAfterInit opened.chunkCache f.streamId init) f.streamId q
      ((opened.state.streamSubscriptionBaseObject.lookup f.streamId).getD q) bytes =
        (.ok .present, after.chunkCache) ∧
    LiveSlotPayload.decodeForStream M bytes f.streamId = f.slot q
  parts : (opened.state.parts f.streamId).get? q = none → ∃ part : RetainedPartObservation,
    part.keyframe = f.keyframe q ∧
    part.fmp4SegmentId = nextSegment (opened.state.current f.streamId) (f.keyframe q) f.fmp4 ∧
    after.state.parts f.streamId =
      LiveState.retain ((opened.state.parts f.streamId).insert q part) q opened.windowParts ∧
    after.state.current f.streamId =
      if f.fmp4 && f.keyframe q then
        nextSegment (opened.state.current f.streamId) (f.keyframe q) f.fmp4
      else opened.state.current f.streamId

section Commits

variable {M : MediaObjectCrate} {K : SoundkitCrate} {f : Feed} {q : Nat} {cache : HlsCache C}
  {c : MediaCommit}

theorem commit_eq (hpart : f.Part M K q c) :
    (cache.commit M K f.streamId c).1 =
        (cache.toLiveTsCache.commitObject K f.streamId c.payload c.clock c.object).1 ∧
    (cache.commit M K f.streamId c).2 = { cache with
      toLiveTsCache :=
        (cache.toLiveTsCache.commitObject K f.streamId c.payload c.clock c.object).2 } := by
  have hobject : LiveTsCache.canonicalObject M c.payload none = .ok (some c.object) := by
    rw [LiveTsCache.canonicalObject, decodeCanonicalStreamObject,
      if_neg (not_not.2 hpart.envelope.magic), hpart.envelope.decodes]
  rw [HlsCache.commit, LiveTsCache.commitStreamPayload, LiveTsCache.commitStreamPayloadInner,
    hobject]
  exact ⟨rfl, rfl⟩

theorem commit_committed (hM : SlotMagicsDiffer M) (hpart : f.Part M K q c) {seq : Nat}
    (hok : (cache.commit M K f.streamId c).1 = .ok seq) :
    Committed M f q (cache.toLiveTsCache.activateEpoch f.streamId f.epoch c.clock.activationUs)
      (cache.commit M K f.streamId c).2.toLiveTsCache := by
  obtain ⟨hresult, hafter⟩ := @commit_eq C M K f q cache c hpart
  rw [hresult] at hok
  rw [hafter]
  obtain ⟨reboxed, bytes, chunk, hreboxed, hbytes, hput, hstate⟩ :=
    LiveTsCache.commitObject_stored hok hpart.kind
  rw [hpart.epoch, hpart.sequence] at hput
  rw [hpart.epoch] at hstate
  have hslot : committedSlot reboxed c.object = f.slot q := hpart.slot reboxed hreboxed
  have hfmp4 : decide (commitMediaKind reboxed c.object = .fmp4) = f.fmp4 := by
    have hmedia := hpart.media
    rw [← hslot] at hmedia
    rw [← mediaKind_committedSlot hpart.kind hmedia, hslot]
    exact Bool.eq_iff_iff.2 (decide_eq_true_iff.trans hpart.fmp4)
  show Committed M f q _ (cache.toLiveTsCache.commitObject K f.streamId c.payload c.clock c.object).2
  rw [hstate]
  refine ⟨LiveTsCache.epoch_finishObject, ?_, rfl, ⟨_, bytes, hput, ?_⟩, fun hnew => ?_⟩
  · rw [LiveTsCache.base_finishObject, hpart.sequence]
    rfl
  · rw [decode_slotBytes hM hpart.envelope hpart.kind hbytes, hslot]
  · obtain ⟨part, hkey, hsegment, hparts, hcurrent⟩ := @LiveTsCache.parts_finishObject C
      { (cache.toLiveTsCache.activateEpoch f.streamId f.epoch c.clock.activationUs).recordObject
          f.streamId c.payload.length c.clock.nowMs reboxed c.object with chunkCache := chunk }
      f.streamId c.clock c.object reboxed bytes.length (by rw [hpart.sequence]; exact hnew)
    rw [hpart.keyframe] at hkey hsegment hcurrent
    rw [hfmp4] at hsegment hcurrent
    rw [hpart.sequence] at hparts
    exact ⟨part, hkey, hsegment, hparts, hcurrent⟩

/-- A commit does not touch the configuration. -/
theorem commit_config (hM : SlotMagicsDiffer M) (hpart : f.Part M K q c) {seq : Nat}
    (hok : (cache.commit M K f.streamId c).1 = .ok seq) :
    (cache.commit M K f.streamId c).2.windowParts = cache.windowParts ∧
      (cache.commit M K f.streamId c).2.partsPerSegment = cache.partsPerSegment := by
  refine ⟨?_, ?_⟩
  · rw [(commit_committed hM hpart hok).windowParts, LiveTsCache.activateEpoch]
    dsimp only
    split <;> rfl
  · rw [(@commit_eq C M K f q cache c hpart).2]

end Commits

end AvMesh.LiveCache
