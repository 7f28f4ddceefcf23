/-
  AvMesh.LiveCache.InOrder
  ────────────────────────
  **A STREAM COMMITTED IN ORDER.**

  The parts of a feed are committed one after the other: `a, a+1, …, l`.  Then
  the chunk cache and the live state agree on the stream:

      chunk cache   `last` is `l`; the slots of the last `retained` parts
      live state    the parts of the window, with their segments
      playlists     a cached one of the current version shows this window

  `InOrder` says so.  A commit of part `l+1` and a playlist request keep it,
  and under it a playlist shows the segments of the window (`Shows`).
-/
import AvMesh.LiveCache.Published
import AvMesh.Lib.StepSystem

namespace AvMesh.LiveCache

open AvMesh.Lib

variable {C : ChunkCacheCrate}

/-! ## §1. What a playlist shows. -/

/-- The first segment whose parts a playlist writes out: about three target durations of segments
up to the last one. -/
def firstParted (groups : List (Nat × List ObservedPart)) (segmentTargetMs : Nat) : Nat :=
  (groups.getLast?.map (·.1)).getD 0 -
    (max ((satMul (hlsTargetDurationFromMillis segmentTargetMs) 3000 + max segmentTargetMs 1 - 1)
      / max segmentTargetMs 1) 1 - 1)

namespace Feed

/-- The segments of these parts are those of the keyframes. -/
def aligned (f : Feed) (available : List ObservedPart) : Bool :=
  f.fmp4 && available.any (·.fmp4SegmentId.isSome)

/-- The segments of a playlist of these parts. -/
def segments (f : Feed) (partsPerSegment : Nat) (available : List ObservedPart) :
    List (Nat × List ObservedPart) :=
  playlistGroups (f.aligned available) partsPerSegment available

/-- A segment is complete in a playlist of these parts. -/
def complete (f : Feed) (partsPerSegment : Nat) (available : List ObservedPart)
    (segment : Nat × List ObservedPart) : Bool :=
  segmentIsComplete (f.aligned available) partsPerSegment (f.segments partsPerSegment available)
    segment

/-- A playlist of these parts, the last of which is `l`. -/
def Shows (f : Feed) (partsPerSegment l : Nat) (available : List ObservedPart)
    (body : List PlaylistLine) : Prop :=
  ∃ head kind audioOnly segmentTargetMs,
    head.targetDuration = hlsTargetDurationFromMillis segmentTargetMs ∧
    body = renderPlaylist head kind audioOnly
      (firstParted (f.segments partsPerSegment available) segmentTargetMs) ((l + 1) % 2 ^ 64)
      (f.complete partsPerSegment available) (f.segments partsPerSegment available)

theorem keyframeAligned_eq {f : Feed} {kind : LiveMediaKind} (h : kind = .fmp4 ↔ f.fmp4 = true)
    (available : List ObservedPart) : keyframeAligned kind available = f.aligned available := by
  have hfmp4 : decide (kind = .fmp4) = f.fmp4 := Bool.eq_iff_iff.2 (decide_eq_true_iff.trans h)
  rw [keyframeAligned, hfmp4]
  rfl

end Feed

/-- The retained parts of a stream as a playlist observes them. -/
def HlsCache.observedParts (cache : HlsCache C) (streamId : UInt64) : List ObservedPart :=
  (cache.state.parts streamId).map (observed cache.nominalPartDurationMs)

/-! ## §2. The invariant. -/

/-- No cached playlist of the stream is ahead of the chunk cache. -/
def CachedBehind (R : ChunkCacheReads C) (streamId : UInt64) (cache : HlsCache C) : Prop :=
  ∀ idx cached, cache.playlistCache[idx]? = some (some cached) → cached.streamId = streamId →
    ∃ version, R.version cache.chunkCache idx = some version ∧ cached.version ≤ version

theorem cachedPlaylist_eq_some {cache : HlsCache C} {streamId : UInt64} {idx version : Nat}
    {body : List PlaylistLine} :
    cache.cachedPlaylist streamId idx version = some body ↔
      cache.playlistCache[idx]? = some (some ⟨streamId, version, body⟩) := by
  rw [HlsCache.cachedPlaylist]
  constructor
  · intro hhit
    obtain ⟨cached, hcached, hcurrent⟩ := Option.bind_eq_some_iff.1 hhit
    obtain ⟨slot, hslot, hsome⟩ := Option.bind_eq_some_iff.1 hcached
    obtain rfl : slot = some cached := hsome
    split at hcurrent
    · next hsame =>
        obtain ⟨rfl, rfl⟩ := hsame
        rw [hslot, ← Option.some.inj hcurrent]
    · cases hcurrent
  · intro hcached
    rw [hcached]
    exact if_pos ⟨rfl, rfl⟩

/-- The parts of the feed up to `l` are committed. -/
structure InOrder (R : ChunkCacheReads C) (M : MediaObjectCrate) (retained : Nat) (f : Feed)
    (l : Nat) (cache : HlsCache C) : Prop where
  start_le : f.first ≤ l
  last_le : l ≤ u64Max
  epoch : cache.state.streamCanonicalEpoch.lookup f.streamId = some f.epoch
  base : cache.state.streamSubscriptionBaseObject.lookup f.streamId = some f.first
  position : ∃ idx, R.position cache.chunkCache f.streamId = some (idx, l)
  stored : ∀ q, f.first ≤ q → q ≤ l → l < q + retained →
    ∃ bytes, R.getForStreamId cache.chunkCache f.streamId q = some bytes ∧
      LiveSlotPayload.decodeForStream M bytes f.streamId = f.slot q
  absent : ∀ q, q < f.first ∨ l < q → R.getForStreamId cache.chunkCache f.streamId q = none
  media : ∀ q, f.first ≤ q → q ≤ l →
    (f.slot q).hasMedia = true ∧ ((f.slot q).mediaKind = .fmp4 ↔ f.fmp4 = true)
  parts : RetainedWindow f.fmp4 f.keyframe f.first (f.windowStart cache.windowParts l) l
    (cache.state.parts f.streamId)
  current : f.fmp4 = true →
    cache.state.current f.streamId = ofCount (keyframesUpTo f.keyframe f.first l)
  behind : CachedBehind R f.streamId cache
  shown : ∀ idx version body, R.position cache.chunkCache f.streamId = some (idx, l) →
    R.version cache.chunkCache idx = some version →
    cache.cachedPlaylist f.streamId idx version = some body →
    f.Shows cache.partsPerSegment l (cache.observedParts f.streamId) body

/-- Nothing of the feed's epoch is committed. -/
structure Fresh (R : ChunkCacheReads C) (f : Feed) (cache : HlsCache C) : Prop where
  empty : cache.state.streamCanonicalEpoch.lookup f.streamId = some f.epoch →
    cache.state.streamSubscriptionBaseObject.lookup f.streamId = none ∧
    R.position cache.chunkCache f.streamId = none ∧
    (∀ q, R.getForStreamId cache.chunkCache f.streamId q = none) ∧
    cache.state.parts f.streamId = [] ∧ cache.state.current f.streamId = none
  behind : CachedBehind R f.streamId cache

/-! ## §3. A commit keeps it. -/

section Laws

variable {R : ChunkCacheReads C} {retained : Nat} {chunk chunk' chunk'' : C.Cache}
  {streamId : UInt64}

theorem ChunkCacheReads.VersionsGrow.refl : R.VersionsGrow chunk chunk :=
  fun _ version hversion => ⟨version, hversion, Nat.le_refl _⟩

theorem ChunkCacheReads.VersionsGrow.trans (h : R.VersionsGrow chunk chunk')
    (h' : R.VersionsGrow chunk' chunk'') : R.VersionsGrow chunk chunk'' := by
  intro idx version hversion
  obtain ⟨version', hversion', hle⟩ := h idx version hversion
  obtain ⟨version'', hversion'', hle'⟩ := h' idx version' hversion'
  exact ⟨version'', hversion'', by omega⟩

/-- Writing an initialization leaves the slots alone. -/
theorem LawfulReads.after_init (hR : LawfulReads R retained) (init : Option Bytes) :
    R.position (LiveTsCache.chunkAfterInit chunk streamId init) streamId =
        R.position chunk streamId ∧
    (∀ slot, R.getForStreamId (LiveTsCache.chunkAfterInit chunk streamId init) streamId slot =
      R.getForStreamId chunk streamId slot) ∧
    R.VersionsGrow chunk (LiveTsCache.chunkAfterInit chunk streamId init) := by
  cases init with
  | none => exact ⟨rfl, fun _ => rfl, ChunkCacheReads.VersionsGrow.refl⟩
  | some init =>
      exact ⟨hR.init_position chunk streamId init, hR.init_slots chunk streamId init,
        hR.init_versions chunk streamId init⟩

end Laws

section Commits

variable {R : ChunkCacheReads C} {M : MediaObjectCrate} {K : SoundkitCrate} {retained : Nat}
  {f : Feed} {l q : Nat} {cache after : HlsCache C} {opened : LiveTsCache C} {c : MediaCommit}

/-- The slots after the commit of a part that was not there. -/
theorem Committed.slots (hR : LawfulReads R retained)
    (h : Committed M f q opened after.toLiveTsCache) :
    (∃ bytes, R.getForStreamId after.chunkCache f.streamId q = some bytes ∧
      LiveSlotPayload.decodeForStream M bytes f.streamId = f.slot q) ∧
    ∀ other, other ≠ q →
      R.getForStreamId after.chunkCache f.streamId other =
          R.getForStreamId opened.chunkCache f.streamId other ∨
        other + retained ≤ q ∧ R.getForStreamId after.chunkCache f.streamId other = none := by
  obtain ⟨init, bytes, hput, hslot⟩ := h.put
  obtain ⟨_, hslots, _⟩ := @LawfulReads.after_init C R retained opened.chunkCache f.streamId hR init
  refine ⟨⟨bytes, hR.put_slot _ _ _ _ _ _ hput, hslot⟩, fun other hne => ?_⟩
  rw [← hslots other]
  exact hR.put_others _ _ _ _ _ _ hput other hne

/-- A new slot puts every cached playlist of the stream out of date. -/
theorem Committed.versions (hR : LawfulReads R retained)
    (h : Committed M f q opened after.toLiveTsCache)
    (habsent : R.getForStreamId opened.chunkCache f.streamId q = none)
    (hgrow : R.VersionsGrow cache.chunkCache opened.chunkCache)
    (hbehind : CachedBehind R f.streamId cache)
    (hplaylists : after.playlistCache = cache.playlistCache) :
    CachedBehind R f.streamId after ∧
    ∀ idx last version body, R.position after.chunkCache f.streamId = some (idx, last) →
      R.version after.chunkCache idx = some version →
      after.cachedPlaylist f.streamId idx version ≠ some body := by
  obtain ⟨init, bytes, hput, _⟩ := h.put
  obtain ⟨_, hslots, hinit⟩ :=
    @LawfulReads.after_init C R retained opened.chunkCache f.streamId hR init
  have hbefore := hgrow.trans hinit
  refine ⟨fun idx cached hcached hstream => ?_, ?_⟩
  · rw [hplaylists] at hcached
    obtain ⟨version, hversion, hle⟩ := hbehind idx cached hcached hstream
    obtain ⟨version', hversion', hle'⟩ :=
      hbefore.trans (hR.put_versions _ _ _ _ _ _ hput) idx version hversion
    exact ⟨version', hversion', by omega⟩
  · intro idx last version body hposition hversion hhit
    rw [cachedPlaylist_eq_some, hplaylists] at hhit
    obtain ⟨old, hold, hle⟩ := hbehind idx _ hhit rfl
    obtain ⟨old', hold', hle'⟩ := hbefore idx old hold
    obtain ⟨new, hnew, hlt⟩ := hR.put_version _ _ _ _ _ _ idx last old' hput
      (by rw [hslots, habsent]) hposition hold'
    rw [hversion] at hnew
    obtain rfl := Option.some.inj hnew
    simp only at hle
    omega

theorem Feed.Part.le_u64Max (h : f.Part M K q c) : q ≤ u64Max := by
  have hlt := c.object.key.object.toNat_lt
  rw [h.sequence] at hlt
  rw [u64Max]
  omega

/-- The segment of the next part, from the number of keyframes so far. -/
theorem nextSegment_keyframes {key : Nat → Bool} {a : Nat} (hstart : a ≤ l + 1)
    (hlast : l + 1 ≤ u64Max) :
    nextSegment (ofCount (keyframesUpTo key a l)) (key (l + 1)) true =
      ofCount (keyframesUpTo key a (l + 1)) := by
  have hle := @keyframesUpTo_le key a l
  rw [nextSegment_ofCount (by omega), keyframesUpTo_succ hstart]
  split <;> rfl

/-- Once its epoch is current, the stream of a fresh feed is empty. -/
theorem Fresh.activate (hR : LawfulReads R retained) (h : Fresh R f cache) (nowUs : Nat) :
    let opened := cache.toLiveTsCache.activateEpoch f.streamId f.epoch nowUs
    opened.state.streamCanonicalEpoch.lookup f.streamId = some f.epoch ∧
    opened.state.streamSubscriptionBaseObject.lookup f.streamId = none ∧
    R.position opened.chunkCache f.streamId = none ∧
    (∀ q, R.getForStreamId opened.chunkCache f.streamId q = none) ∧
    opened.state.parts f.streamId = [] ∧ opened.state.current f.streamId = none ∧
    R.VersionsGrow cache.chunkCache opened.chunkCache ∧
    opened.windowParts = cache.windowParts := by
  intro opened
  by_cases hepoch : cache.state.streamCanonicalEpoch.lookup f.streamId = some f.epoch
  · have hsame : opened = cache.toLiveTsCache := if_pos hepoch
    obtain ⟨hbase, hposition, hslots, hparts, hcurrent⟩ := h.empty hepoch
    rw [hsame]
    exact ⟨hepoch, hbase, hposition, hslots, hparts, hcurrent, ChunkCacheReads.VersionsGrow.refl,
      rfl⟩
  · obtain ⟨hnow, hbase, hchunk⟩ := @LiveTsCache.epoch_activateEpoch C cache.toLiveTsCache
      f.streamId f.epoch nowUs hepoch
    obtain ⟨hposition, hslots⟩ := hR.zero_empty cache.chunkCache f.streamId
    have hreset : opened.state.parts f.streamId = [] ∧ opened.state.current f.streamId = none ∧
        opened.windowParts = cache.windowParts := by
      simp only [opened, LiveTsCache.activateEpoch, if_neg hepoch]
      split <;> simp [LiveState.parts, LiveState.current, LiveTsCache.resetStream]
    refine ⟨hnow, hbase, ?_, ?_, hreset.1, hreset.2.1, ?_, hreset.2.2⟩
    · rw [hchunk]
      exact hposition
    · intro q
      rw [hchunk]
      exact hslots q
    · rw [hchunk]
      exact hR.zero_versions cache.chunkCache f.streamId

/-- The first part begins the window. -/
theorem Fresh.commit (hR : LawfulReads R retained) (hM : SlotMagicsDiffer M) (h : Fresh R f cache)
    (hpart : f.Part M K f.first c) {seq : Nat}
    (hok : (cache.commit M K f.streamId c).1 = .ok seq) :
    InOrder R M retained f f.first (cache.commit M K f.streamId c).2 := by
  have hcommit := commit_committed hM hpart hok
  have hfixed := (@commit_eq C M K f f.first cache c hpart).2
  have hplaylists : (cache.commit M K f.streamId c).2.playlistCache = cache.playlistCache := by
    rw [hfixed]
  obtain ⟨hepoch, hbase, hposition, hslots, hparts, hcurrent, hgrow, hwindow⟩ :=
    h.activate hR c.clock.activationUs
  generalize (cache.commit M K f.streamId c).2 = after at hcommit hplaylists ⊢
  generalize cache.toLiveTsCache.activateEpoch f.streamId f.epoch c.clock.activationUs =
    opened at *
  obtain ⟨⟨bytes, hstored, hslot⟩, hothers⟩ := hcommit.slots hR
  obtain ⟨hbehind, hnohit⟩ := hcommit.versions hR (hslots f.first) hgrow h.behind hplaylists
  have hlast : f.first ≤ u64Max := hpart.le_u64Max
  obtain ⟨part, hkey, hsegment, hparts', hcurrent'⟩ := hcommit.parts (by rw [hparts]; rfl)
  rw [hcurrent] at hsegment hcurrent'
  have hnext : f.fmp4 = true → nextSegment none (f.keyframe f.first) f.fmp4 =
      ofCount (keyframesUpTo f.keyframe f.first f.first) := by
    intro hfmp4
    rw [hfmp4, keyframesUpTo_self]
    cases f.keyframe f.first <;> rfl
  constructor
  case start_le => exact Nat.le_refl _
  case last_le => exact hlast
  case epoch =>
    rw [hcommit.epoch]
    exact hepoch
  case base =>
    rw [hcommit.base, hbase]
    rfl
  case position =>
    obtain ⟨init, bytes', hput, _⟩ := hcommit.put
    obtain ⟨hposition', hslots', _⟩ :=
      @LawfulReads.after_init C R retained opened.chunkCache f.streamId hR init
    rw [hbase] at hput
    exact hR.put_first _ _ _ _ _ hput (by rw [hposition', hposition])
      fun other => by rw [hslots', hslots]
  case stored =>
    intro q hfirst hle _
    obtain rfl : q = f.first := by omega
    exact ⟨bytes, hstored, hslot⟩
  case absent =>
    intro q hq
    rcases hothers q (by omega) with hsame | ⟨_, hnone⟩
    · rw [hsame]
      exact hslots q
    · exact hnone
  case media =>
    intro q hfirst hle
    obtain rfl : q = f.first := by omega
    exact ⟨hpart.media, hpart.fmp4⟩
  case parts =>
    rw [hparts', hparts, hcommit.windowParts]
    refine RetainedWindow.single hkey ?_
    rw [hsegment]
    split
    · next hfmp4 => exact hnext hfmp4
    · next hfmp4 =>
        rw [Bool.eq_false_iff.2 hfmp4]
        rfl
  case current =>
    intro hfmp4
    rw [hcurrent', hnext hfmp4, hfmp4, Bool.true_and]
    split
    · rfl
    · next hdelta =>
        rw [keyframesUpTo_self, if_neg hdelta]
        rfl
  case behind => exact hbehind
  case shown =>
    intro idx version body hposition' hversion hhit
    exact absurd hhit (hnohit idx f.first version body hposition' hversion)

theorem InOrder.commit (hR : LawfulReads R retained) (hM : SlotMagicsDiffer M)
    (h : InOrder R M retained f l cache) (hpart : f.Part M K (l + 1) c) {seq : Nat}
    (hok : (cache.commit M K f.streamId c).1 = .ok seq) :
    InOrder R M retained f (l + 1) (cache.commit M K f.streamId c).2 := by
  have hcommit := commit_committed hM hpart hok
  have hopened : cache.toLiveTsCache.activateEpoch f.streamId f.epoch c.clock.activationUs =
      cache.toLiveTsCache := if_pos h.epoch
  have hfixed := (@commit_eq C M K f (l + 1) cache c hpart).2
  rw [hopened] at hcommit
  have hplaylists : (cache.commit M K f.streamId c).2.playlistCache = cache.playlistCache := by
    rw [hfixed]
  generalize (cache.commit M K f.streamId c).2 = after at hcommit hplaylists ⊢
  obtain ⟨⟨bytes, hstored, hslot⟩, hothers⟩ := hcommit.slots hR
  obtain ⟨hbehind, hnohit⟩ := hcommit.versions hR (h.absent (l + 1) (Or.inr (by omega)))
    ChunkCacheReads.VersionsGrow.refl h.behind hplaylists
  have hstart := h.start_le
  have hlast : l + 1 ≤ u64Max := hpart.le_u64Max
  have hnew : (cache.state.parts f.streamId).get? (l + 1) = none :=
    h.parts.get?_eq_none (by omega)
  obtain ⟨part, hkey, hsegment, hparts, hcurrent⟩ := hcommit.parts hnew
  have hnext : f.fmp4 = true →
      nextSegment (cache.state.current f.streamId) (f.keyframe (l + 1)) f.fmp4 =
        ofCount (keyframesUpTo f.keyframe f.first (l + 1)) := by
    intro hfmp4
    rw [h.current hfmp4, hfmp4, nextSegment_keyframes (by omega) hlast]
  constructor
  case start_le => omega
  case last_le => exact hlast
  case epoch =>
    rw [hcommit.epoch]
    exact h.epoch
  case base =>
    rw [hcommit.base, h.base]
    rfl
  case position =>
    obtain ⟨idx, hposition⟩ := h.position
    obtain ⟨init, bytes', hput, _⟩ := hcommit.put
    obtain ⟨hposition', hslots, _⟩ :=
      @LawfulReads.after_init C R retained cache.chunkCache f.streamId hR init
    refine ⟨idx, hR.put_next _ _ _ _ _ idx l hput (by rw [hposition', hposition]) ?_ ?_⟩
    · rw [hslots]
      exact h.absent (l + 1) (Or.inr (by omega))
    · rw [hslots]
      exact h.absent (l + 2) (Or.inr (by omega))
  case stored =>
    intro q hfirst hle hretained
    by_cases hq : q = l + 1
    · rw [hq]
      exact ⟨bytes, hstored, hslot⟩
    · rcases hothers q hq with hsame | ⟨hgone, _⟩
      · rw [hsame]
        exact h.stored q hfirst (by omega) (by omega)
      · omega
  case absent =>
    intro q hq
    rcases hothers q (by omega) with hsame | ⟨_, hnone⟩
    · rw [hsame]
      exact h.absent q (hq.imp_right fun hlt => by omega)
    · exact hnone
  case media =>
    intro q hfirst hle
    by_cases hq : q = l + 1
    · rw [hq]
      exact ⟨hpart.media, hpart.fmp4⟩
    · exact h.media q hfirst (by omega)
  case parts =>
    rw [hparts, hcommit.windowParts]
    refine h.parts.record rfl hkey ?_
    rw [hsegment]
    split
    · next hfmp4 => exact hnext hfmp4
    · next hfmp4 =>
        rw [Bool.eq_false_iff.2 hfmp4]
        rfl
  case current =>
    intro hfmp4
    rw [hcurrent, hnext hfmp4, hfmp4, Bool.true_and]
    split
    · rfl
    · next hdelta =>
        rw [h.current hfmp4, keyframesUpTo_succ (by omega), if_neg hdelta]
        rfl
  case behind => exact hbehind
  case shown =>
    intro idx version body hposition hversion hhit
    exact absurd hhit (hnohit idx (l + 1) version body hposition hversion)

end Commits

/-! ## §4. Reading keeps it. -/

/-- A read leaves the stream and the playlists as they were. -/
structure SameStream (R : ChunkCacheReads C) (streamId : UInt64) (cache after : HlsCache C) :
    Prop where
  epoch : after.state.streamCanonicalEpoch = cache.state.streamCanonicalEpoch
  base : after.state.streamSubscriptionBaseObject = cache.state.streamSubscriptionBaseObject
  parts : after.state.streamParts = cache.state.streamParts
  current : after.state.streamCurrentFmp4Segment = cache.state.streamCurrentFmp4Segment
  windowParts : after.windowParts = cache.windowParts
  partTargetMs : after.partTargetMs = cache.partTargetMs
  partsPerSegment : after.partsPerSegment = cache.partsPerSegment
  playlists : after.playlistCache = cache.playlistCache
  position : R.position after.chunkCache streamId = R.position cache.chunkCache streamId
  slots : ∀ q, R.getForStreamId after.chunkCache streamId q =
    R.getForStreamId cache.chunkCache streamId q
  versions : R.VersionsGrow cache.chunkCache after.chunkCache

namespace SameStream

variable {R : ChunkCacheReads C} {streamId : UInt64} {cache after last : HlsCache C}

theorem refl (cache : HlsCache C) : SameStream R streamId cache cache :=
  ⟨rfl, rfl, rfl, rfl, rfl, rfl, rfl, rfl, rfl, fun _ => rfl, ChunkCacheReads.VersionsGrow.refl⟩

theorem trans (h : SameStream R streamId cache after) (h' : SameStream R streamId after last) :
    SameStream R streamId cache last :=
  ⟨h'.epoch.trans h.epoch, h'.base.trans h.base, h'.parts.trans h.parts,
    h'.current.trans h.current, h'.windowParts.trans h.windowParts,
    h'.partTargetMs.trans h.partTargetMs, h'.partsPerSegment.trans h.partsPerSegment,
    h'.playlists.trans h.playlists, h'.position.trans h.position,
    fun q => (h'.slots q).trans (h.slots q), h.versions.trans h'.versions⟩

theorem observedParts (h : SameStream R streamId cache after) :
    after.observedParts streamId = cache.observedParts streamId := by
  rw [HlsCache.observedParts, HlsCache.observedParts, LiveState.parts, LiveState.parts, h.parts,
    HlsCache.nominalPartDurationMs, HlsCache.nominalPartDurationMs, h.partTargetMs]

end SameStream

section Reads

variable {R : ChunkCacheReads C} {M : MediaObjectCrate} {retained : Nat} {f : Feed} {l : Nat}
  {streamId : UInt64} {cache after : HlsCache C}

theorem SameStream.rememberMediaKind (kind : LiveMediaKind) :
    SameStream R streamId cache (cache.rememberMediaKind streamId kind) :=
  ⟨rfl, rfl, rfl, rfl, rfl, rfl, rfl, rfl, rfl, fun _ => rfl, ChunkCacheReads.VersionsGrow.refl⟩

theorem SameStream.rememberStreamInit (hR : LawfulReads R retained) (init : Bytes) :
    SameStream R streamId cache (cache.rememberStreamInit streamId init) :=
  ⟨rfl, rfl, rfl, rfl, rfl, rfl, rfl, rfl, hR.init_position _ _ _, hR.init_slots _ _ _,
    hR.init_versions _ _ _⟩

theorem SameStream.getInitForStreamId (hR : LawfulReads R retained) :
    SameStream R streamId cache (cache.getInitForStreamId R M streamId).2 := by
  rcases @HlsCache.getInitForStreamId_snd C R M cache streamId with hsame | ⟨init, _, hsame⟩
  · rw [hsame]
    exact SameStream.refl cache
  · rw [hsame]
    exact SameStream.rememberStreamInit hR init

theorem SameStream.observeSegmentDuration (observed : Option Nat) :
    SameStream R streamId cache (cache.observeSegmentDuration streamId observed) := by
  cases observed with
  | none => exact SameStream.refl cache
  | some observed =>
      exact ⟨rfl, rfl, rfl, rfl, rfl, rfl, rfl, rfl, rfl, fun _ => rfl,
        ChunkCacheReads.VersionsGrow.refl⟩

theorem InOrder.read (h : InOrder R M retained f l cache)
    (hsame : SameStream R f.streamId cache after) : InOrder R M retained f l after := by
  constructor
  case start_le => exact h.start_le
  case last_le => exact h.last_le
  case epoch =>
    rw [hsame.epoch]
    exact h.epoch
  case base =>
    rw [hsame.base]
    exact h.base
  case position =>
    rw [hsame.position]
    exact h.position
  case stored =>
    intro q
    rw [hsame.slots]
    exact h.stored q
  case absent =>
    intro q
    rw [hsame.slots]
    exact h.absent q
  case media => exact h.media
  case parts =>
    rw [hsame.windowParts, LiveState.parts, hsame.parts]
    exact h.parts
  case current =>
    rw [LiveState.current, hsame.current]
    exact h.current
  case behind =>
    intro idx cached hcached hstream
    rw [hsame.playlists] at hcached
    obtain ⟨version, hversion, hle⟩ := h.behind idx cached hcached hstream
    obtain ⟨version', hversion', hle'⟩ := hsame.versions idx version hversion
    exact ⟨version', hversion', by omega⟩
  case shown =>
    intro idx version body hposition hversion hhit
    rw [hsame.position] at hposition
    rw [hsame.partsPerSegment, hsame.observedParts]
    rw [cachedPlaylist_eq_some, hsame.playlists] at hhit
    -- the version is between that of the playlist and itself
    obtain ⟨old, hold, hle⟩ := h.behind idx _ hhit rfl
    obtain ⟨new, hnew, hle'⟩ := hsame.versions idx old hold
    rw [hversion] at hnew
    obtain rfl := Option.some.inj hnew
    simp only at hle
    obtain rfl : old = version := by omega
    exact h.shown idx old body hposition hold (cachedPlaylist_eq_some.2 hhit)

/-- A playlist of the window may be cached. -/
theorem InOrder.cachePlaylist (h : InOrder R M retained f l cache) {idx version : Nat}
    {body : List PlaylistLine}
    (hbody : f.Shows cache.partsPerSegment l (cache.observedParts f.streamId) body) :
    InOrder R M retained f l (cache.cachePlaylist R f.streamId idx version body) := by
  rw [HlsCache.cachePlaylist]
  split
  · exact h
  next hversion =>
  rw [not_not] at hversion
  -- an entry is the new one, or it was there
  have hentry : ∀ idx' cached,
      (cache.playlistCache.set idx (some ⟨f.streamId, version, body⟩))[idx']? =
        some (some cached) →
      idx = idx' ∧ cached = ⟨f.streamId, version, body⟩ ∨
        cache.playlistCache[idx']? = some (some cached) := by
    intro idx' cached hcached
    rw [List.getElem?_set] at hcached
    split at hcached
    · next hidx =>
        split at hcached
        · exact Or.inl ⟨hidx, (Option.some.inj (Option.some.inj hcached)).symm⟩
        · cases hcached
    · exact Or.inr hcached
  constructor
  case start_le => exact h.start_le
  case last_le => exact h.last_le
  case epoch => exact h.epoch
  case base => exact h.base
  case position => exact h.position
  case stored => exact h.stored
  case absent => exact h.absent
  case media => exact h.media
  case parts => exact h.parts
  case current => exact h.current
  case behind =>
    intro idx' cached hcached hstream
    rcases hentry idx' cached hcached with ⟨rfl, rfl⟩ | hold
    · exact ⟨version, hversion, Nat.le_refl _⟩
    · exact h.behind idx' cached hold hstream
  case shown =>
    intro idx' version' body' hposition hversion' hhit
    rw [cachedPlaylist_eq_some] at hhit
    rcases hentry idx' _ hhit with ⟨_, hnew⟩ | hold
    · obtain rfl := (CachedPlaylist.mk.inj hnew).2.2
      exact hbody
    · exact h.shown idx' version' body' hposition hversion' (cachedPlaylist_eq_some.2 hold)

/-- The slots of the window are those of the feed. -/
theorem InOrder.windowSlots (hR : LawfulReads R retained) (h : InOrder R M retained f l cache)
    (hretained : max cache.windowParts 1 ≤ retained) {idx : Nat}
    (hposition : R.position cache.chunkCache f.streamId = some (idx, l)) :
    cache.windowSlots R M f.streamId idx (l - (cache.windowParts - 1)) l =
      (List.range' (f.windowStart cache.windowParts l)
        (l + 1 - f.windowStart cache.windowParts l)).map fun q => (q, f.slot q) := by
  have hstart := h.start_le
  have hidx : R.getStreamIdx cache.chunkCache f.streamId = some idx := by
    rw [ChunkCacheReads.position] at hposition
    obtain ⟨idx', hidx, hlast⟩ := Option.bind_eq_some_iff.1 hposition
    obtain ⟨last, _, heq⟩ := Option.map_eq_some_iff.1 hlast
    rw [hidx, (Prod.mk.inj heq).1]
  have hget : ∀ q, R.get cache.chunkCache idx q =
      R.getForStreamId cache.chunkCache f.streamId q := by
    intro q
    rw [hR.for_stream, hidx]
    rfl
  have hwindow : f.windowStart cache.windowParts l =
      max f.first (l - (cache.windowParts - 1)) := by
    rw [Feed.windowStart]
    omega
  rw [hwindow, HlsCache.windowSlots]
  generalize hlow : l - (cache.windowParts - 1) = low
  -- slots in front of the first part are empty
  have hsplit : List.range' low (l + 1 - low) =
      List.range' low (max f.first low - low) ++
        List.range' (max f.first low) (l + 1 - max f.first low) := by
    have hle : low + 1 * (max f.first low - low) = max f.first low := by omega
    have hlen : max f.first low - low + (l + 1 - max f.first low) = l + 1 - low := by omega
    rw [← hlen, ← List.range'_append, hle]
  have hfront : (List.range' low (max f.first low - low)).filterMap (fun seq =>
      (R.get cache.chunkCache idx seq).bind fun bytes =>
        if (LiveSlotPayload.decodeForStream M bytes f.streamId).hasMedia then
          some (seq, LiveSlotPayload.decodeForStream M bytes f.streamId) else none) = [] := by
    refine List.filterMap_eq_nil_iff.2 fun q hq => ?_
    rw [List.mem_range'_1] at hq
    rw [hget, h.absent q (Or.inl (by omega))]
    rfl
  rw [hsplit, List.filterMap_append, hfront, List.nil_append]
  rw [← List.filterMap_eq_map']
  refine List.filterMap_congr fun q hq => ?_
  rw [List.mem_range'_1] at hq
  obtain ⟨bytes, hbytes, hslot⟩ := h.stored q (by omega) (by omega) (by omega)
  rw [hget, hbytes, Option.bind_some, hslot]
  exact if_pos (h.media q (by omega) (by omega)).1

theorem InOrder.getLast?_window (h : InOrder R M retained f l cache) :
    (List.range' (f.windowStart cache.windowParts l)
      (l + 1 - f.windowStart cache.windowParts l)).getLast? = some l := by
  have hle := h.parts.le_last
  rw [List.getLast?_range', if_neg (by omega), Option.some.injEq]
  omega

theorem InOrder.getLast?_slots (h : InOrder R M retained f l cache) :
    ((List.range' (f.windowStart cache.windowParts l)
      (l + 1 - f.windowStart cache.windowParts l)).map fun q => (q, f.slot q)).getLast? =
      some (l, f.slot l) := by
  rw [List.getLast?_map, h.getLast?_window]
  rfl

theorem Feed.map_fst_slots (sequences : List Nat) :
    (sequences.map fun q => (q, f.slot q)).map (·.1) = sequences := by
  rw [List.map_map]
  exact List.map_id _

/-- The observed parts are the window that ends with part `l`. -/
theorem InOrder.window (h : InOrder R M retained f l cache) :
    Window f.fmp4 f.keyframe f.first (f.windowStart cache.windowParts l) l
      (cache.observedParts f.streamId) :=
  h.parts.window cache.nominalPartDurationMs

theorem InOrder.windowStart_le (h : InOrder R M retained f l cache) :
    f.windowStart cache.windowParts l ≤ u64Max :=
  Nat.le_trans h.parts.le_last h.last_le

/-- The parts of the window, as rendering observes them. -/
theorem InOrder.available (h : InOrder R M retained f l cache) :
    cache.available f.streamId (List.range' (f.windowStart cache.windowParts l)
      (l + 1 - f.windowStart cache.windowParts l)) = cache.observedParts f.streamId := by
  have hne : cache.state.parts f.streamId ≠ [] := by
    intro hnil
    have hwindow := h.window.ne_nil
    rw [HlsCache.observedParts, hnil] at hwindow
    exact hwindow rfl
  have hlookup : cache.state.streamParts.lookup f.streamId =
      some (cache.state.parts f.streamId) := by
    rw [LiveState.parts] at hne ⊢
    cases hparts : cache.state.streamParts.lookup f.streamId with
    | some parts => rfl
    | none =>
        rw [hparts] at hne
        exact absurd rfl hne
  rw [HlsCache.available, hlookup, h.parts.observe]
  rfl

/-- Rendering the parts of the window. -/
theorem InOrder.renderParts (h : InOrder R M retained f l cache)
    (formatProgramDateTime : Nat → Option String) {kind : LiveMediaKind}
    (hkind : kind = .fmp4 ↔ f.fmp4 = true) (init : Option Bytes) :
    let rendered := cache.renderParts formatProgramDateTime f.streamId kind init
      (List.range' (f.windowStart cache.windowParts l) (l + 1 - f.windowStart cache.windowParts l))
    f.Shows cache.partsPerSegment l (cache.observedParts f.streamId) rendered.1 ∧
      SameStream R f.streamId cache rendered.2 := by
  simp only [HlsCache.renderParts]
  rw [h.available, Feed.keyframeAligned_eq hkind, h.getLast?_window]
  exact ⟨⟨_, _, _, _, rfl, rfl⟩, SameStream.observeSegmentDuration _⟩

/-- An fMP4 stream has its initialization. -/
def InitPresent (R : ChunkCacheReads C) (M : MediaObjectCrate) (f : Feed) (cache : HlsCache C) :
    Prop :=
  f.fmp4 = true → (cache.getInitForStreamId R M f.streamId).1.isSome = true

theorem InitPresent.rememberMediaKind (h : InitPresent R M f cache) (kind : LiveMediaKind) :
    InitPresent R M f (cache.rememberMediaKind f.streamId kind) := by
  intro hfmp4
  rw [HlsCache.getInitForStreamId_rememberMediaKind]
  exact h hfmp4

theorem InitPresent.rememberStreamInit (init : Bytes) :
    InitPresent R M f (cache.rememberStreamInit f.streamId init) := by
  intro _
  rw [HlsCache.getInitForStreamId_rememberStreamInit]
  rfl

/-- Rendering once the kind of the stream is known. -/
theorem InOrder.renderKind (hR : LawfulReads R retained) (h : InOrder R M retained f l cache)
    (hinit : InitPresent R M f cache) (formatProgramDateTime : Nat → Option String)
    {kind : LiveMediaKind} (hkind : kind = .fmp4 ↔ f.fmp4 = true) :
    let asked := if kind = .fmp4 then
        (cache.rememberMediaKind f.streamId kind).getInitForStreamId R M f.streamId
      else (none, cache.rememberMediaKind f.streamId kind)
    let rendered := if kind = .fmp4 ∧ asked.1.isNone = true then
        (asked.2.waitingPlaylist false, asked.2)
      else asked.2.renderParts formatProgramDateTime f.streamId kind asked.1
        (List.range' (f.windowStart cache.windowParts l)
          (l + 1 - f.windowStart cache.windowParts l))
    f.Shows cache.partsPerSegment l (cache.observedParts f.streamId) rendered.1 ∧
      SameStream R f.streamId cache rendered.2 := by
  intro asked rendered
  have hremember : SameStream R f.streamId cache (cache.rememberMediaKind f.streamId kind) :=
    SameStream.rememberMediaKind kind
  have hasked : SameStream R f.streamId cache asked.2 := by
    by_cases hfmp4 : kind = .fmp4
    · rw [show asked = _ from if_pos hfmp4]
      exact hremember.trans (SameStream.getInitForStreamId hR)
    · rw [show asked = _ from if_neg hfmp4]
      exact hremember
  have hpresent : ¬(kind = .fmp4 ∧ asked.1.isNone = true) := by
    rintro ⟨hfmp4, hnone⟩
    have hsome := hinit.rememberMediaKind kind (hkind.1 hfmp4)
    rw [show asked = _ from if_pos hfmp4, Option.isNone_iff_eq_none] at hnone
    rw [hnone] at hsome
    cases hsome
  rw [show rendered = _ from if_neg hpresent]
  obtain ⟨hshows, hsame⟩ := (h.read hasked).renderParts formatProgramDateTime hkind asked.1
  rw [hasked.windowParts] at hshows hsame
  rw [hasked.observedParts, hasked.partsPerSegment] at hshows
  exact ⟨hshows, hasked.trans hsame⟩

theorem InOrder.renderWindow (hR : LawfulReads R retained) (h : InOrder R M retained f l cache)
    (hretained : max cache.windowParts 1 ≤ retained) (hinit : InitPresent R M f cache)
    (formatProgramDateTime : Nat → Option String) {idx : Nat}
    (hposition : R.position cache.chunkCache f.streamId = some (idx, l)) :
    let rendered := cache.renderWindow R M formatProgramDateTime f.streamId idx l
    f.Shows cache.partsPerSegment l (cache.observedParts f.streamId) rendered.1 ∧
      SameStream R f.streamId cache rendered.2 := by
  have hkind := (h.media l h.start_le (Nat.le_refl l)).2
  simp only [HlsCache.renderWindow]
  rw [h.windowSlots hR hretained hposition, h.getLast?_slots]
  simp only [Feed.map_fst_slots]
  cases (List.filterMap (fun slot : Nat × LiveSlotPayload => slot.2.init) _).getLast? with
  | none => exact h.renderKind hR hinit formatProgramDateTime hkind
  | some init =>
      have hsame := @SameStream.rememberStreamInit C R retained f.streamId cache hR init
      obtain ⟨hshows, hrest⟩ := (h.read hsame).renderKind hR (InitPresent.rememberStreamInit init)
        formatProgramDateTime hkind
      rw [hsame.observedParts, hsame.partsPerSegment] at hshows
      exact ⟨hshows, hsame.trans hrest⟩

/-- A playlist request shows the window and leaves the stream as it was. -/
theorem InOrder.playlist (hR : LawfulReads R retained) (h : InOrder R M retained f l cache)
    (hretained : max cache.windowParts 1 ≤ retained) (hinit : InitPresent R M f cache)
    (formatProgramDateTime : Nat → Option String) :
    let asked := cache.playlistForStreamId R M formatProgramDateTime f.streamId
    f.Shows cache.partsPerSegment l (cache.observedParts f.streamId) asked.1 ∧
      InOrder R M retained f l asked.2 ∧ asked.2.windowParts = cache.windowParts ∧
      asked.2.partsPerSegment = cache.partsPerSegment ∧
      asked.2.observedParts f.streamId = cache.observedParts f.streamId := by
  obtain ⟨idx, hposition⟩ := h.position
  obtain ⟨version, hversion⟩ := hR.version_some _ _ _ _ hposition
  have hstream : cache.streamPosition R f.streamId = some (idx, l) := hposition
  simp only [HlsCache.playlistForStreamId, hstream, hversion, Option.getD_some]
  cases hhit : cache.cachedPlaylist f.streamId idx version with
  | some body => exact ⟨h.shown idx version body hposition hversion hhit, h, rfl, rfl, rfl⟩
  | none =>
      obtain ⟨hshows, hsame⟩ := h.renderWindow hR hretained hinit formatProgramDateTime hposition
      have hshows' := hshows
      rw [← hsame.observedParts, ← hsame.partsPerSegment] at hshows'
      refine ⟨hshows, (h.read hsame).cachePlaylist hshows', ?_⟩
      -- caching the playlist changes nothing else
      rw [← hsame.windowParts, ← hsame.partsPerSegment, ← hsame.observedParts]
      simp only [HlsCache.cachePlaylist]
      split
      · exact ⟨rfl, rfl, rfl⟩
      · exact ⟨rfl, rfl, rfl⟩

/-- The segments of the playlist are those of the retained parts. -/
theorem InOrder.listedGroups (hR : LawfulReads R retained) (h : InOrder R M retained f l cache)
    (hretained : max cache.windowParts 1 ≤ retained) :
    cache.listedGroups R M f.streamId =
      f.segments cache.partsPerSegment (cache.observedParts f.streamId) := by
  obtain ⟨idx, hposition⟩ := h.position
  have hstream : cache.streamPosition R f.streamId = some (idx, l) := hposition
  simp only [HlsCache.listedGroups, hstream]
  rw [h.windowSlots hR hretained hposition, h.getLast?_slots, Feed.map_fst_slots]
  simp only
  rw [h.available, Feed.keyframeAligned_eq (h.media l h.start_le (Nat.le_refl l)).2]
  rfl

end Reads

/-! ## §5. Runs. -/

/-- What happens to a stream: a part is committed, or its playlist requested. -/
inductive HlsEvent where
  | commit (commit : MediaCommit)
  | playlist

section Runs

variable (R : ChunkCacheReads C) (M : MediaObjectCrate) (K : SoundkitCrate)
  (formatProgramDateTime : Nat → Option String) (f : Feed)

/-- One event, and the playlist it answers with. -/
def hlsStep (streamId : UInt64) (cache : HlsCache C) (event : HlsEvent) :
    Option (List PlaylistLine) × HlsCache C :=
  match event with
  | .commit commit => (none, (cache.commit M K streamId commit).2)
  | .playlist =>
      let (body, cache) := cache.playlistForStreamId R M formatProgramDateTime streamId
      (some body, cache)

/-- In this run the parts of the feed from `next` on are committed in order, and an fMP4 stream
has its initialization when a playlist is requested. -/
def Feed.Publishes : Nat → HlsCache C → List HlsEvent → Prop
  | _, _, [] => True
  | next, cache, .commit commit :: events =>
      f.Part M K next commit ∧ (cache.commit M K f.streamId commit).1 = .ok next ∧
        Publishes (next + 1) (cache.commit M K f.streamId commit).2 events
  | next, cache, .playlist :: events =>
      InitPresent R M f cache ∧
        Publishes next (cache.playlistForStreamId R M formatProgramDateTime f.streamId).2 events

/-- The caches of which a playlist is requested in a run, in order. -/
def playlistRequests (streamId : UInt64) (cache : HlsCache C) (events : List HlsEvent) :
    List (HlsCache C) :=
  (trace (hlsStep R M K formatProgramDateTime streamId) cache events).filterMap fun visited =>
    match visited.2 with
    | .commit _ => none
    | .playlist => some visited.1

/-- How many parts a run commits. -/
def commitCount (events : List HlsEvent) : Nat :=
  events.countP fun event => match event with
    | .commit _ => true
    | .playlist => false

end Runs

/-- The parts of the feed up to `l` are committed to a cache of this configuration. -/
structure Reached (R : ChunkCacheReads C) (M : MediaObjectCrate) (retained : Nat) (f : Feed)
    (windowParts partsPerSegment l : Nat) (cache : HlsCache C) : Prop where
  inOrder : InOrder R M retained f l cache
  windowParts : cache.windowParts = windowParts
  partsPerSegment : cache.partsPerSegment = partsPerSegment

section Runs

variable {R : ChunkCacheReads C} {M : MediaObjectCrate} {K : SoundkitCrate} {retained : Nat}
  {formatProgramDateTime : Nat → Option String} {f : Feed} {windowParts partsPerSegment l : Nat}
  {cache : HlsCache C} {c : MediaCommit}

theorem Reached.commit (hR : LawfulReads R retained) (hM : SlotMagicsDiffer M)
    (h : Reached R M retained f windowParts partsPerSegment l cache)
    (hpart : f.Part M K (l + 1) c) {seq : Nat}
    (hok : (cache.commit M K f.streamId c).1 = .ok seq) :
    Reached R M retained f windowParts partsPerSegment (l + 1)
      (cache.commit M K f.streamId c).2 := by
  obtain ⟨hwindow, hsegment⟩ := commit_config hM hpart hok
  exact ⟨h.inOrder.commit hR hM hpart hok, hwindow.trans h.windowParts,
    hsegment.trans h.partsPerSegment⟩

theorem Reached.playlist (hR : LawfulReads R retained)
    (h : Reached R M retained f windowParts partsPerSegment l cache)
    (hretained : max windowParts 1 ≤ retained) (hinit : InitPresent R M f cache) :
    Reached R M retained f windowParts partsPerSegment l
      (cache.playlistForStreamId R M formatProgramDateTime f.streamId).2 := by
  obtain ⟨_, hkept, hwindow, hsegment, _⟩ :=
    h.inOrder.playlist hR (by rw [h.windowParts]; exact hretained) hinit formatProgramDateTime
  exact ⟨hkept, hwindow.trans h.windowParts, hsegment.trans h.partsPerSegment⟩

theorem commitCount_commit (events : List HlsEvent) :
    commitCount (.commit c :: events) = commitCount events + 1 := by
  rw [commitCount, List.countP_cons]
  rfl

theorem commitCount_playlist (events : List HlsEvent) :
    commitCount (.playlist :: events) = commitCount events := by
  rw [commitCount, List.countP_cons]
  rfl

/-- A run begins with the first part of a feed of which nothing is there. -/
theorem Fresh.reached (hR : LawfulReads R retained) (hM : SlotMagicsDiffer M) (h : Fresh R f cache)
    {events : List HlsEvent}
    (hrun : f.Publishes R M K formatProgramDateTime f.first cache (.commit c :: events)) :
    Reached R M retained f cache.windowParts cache.partsPerSegment f.first
        (cache.commit M K f.streamId c).2 ∧
      f.Publishes R M K formatProgramDateTime (f.first + 1) (cache.commit M K f.streamId c).2
        events := by
  obtain ⟨hpart, hok, hrest⟩ := hrun
  obtain ⟨hwindow, hsegment⟩ := commit_config hM hpart hok
  exact ⟨⟨h.commit hR hM hpart hok, hwindow, hsegment⟩, hrest⟩

/-- **The run lemma**: along a run the parts are committed one by one. -/
theorem Reached.run (hR : LawfulReads R retained) (hM : SlotMagicsDiffer M)
    (hretained : max windowParts 1 ≤ retained) {events : List HlsEvent}
    (h : Reached R M retained f windowParts partsPerSegment l cache)
    (hrun : f.Publishes R M K formatProgramDateTime (l + 1) cache events) :
    Reached R M retained f windowParts partsPerSegment (l + commitCount events)
      (exec (hlsStep R M K formatProgramDateTime f.streamId) cache events) := by
  induction events generalizing cache l with
  | nil => exact h
  | cons event events ih =>
      cases event with
      | commit c =>
          obtain ⟨hpart, hok, hrest⟩ := hrun
          rw [commitCount_commit, exec_cons, show l + (commitCount events + 1) =
            l + 1 + commitCount events by omega]
          exact ih (h.commit hR hM hpart hok) hrest
      | playlist =>
          obtain ⟨hinit, hrest⟩ := hrun
          rw [commitCount_playlist, exec_cons]
          exact ih (h.playlist hR hretained hinit) hrest

/-- A cache of which a playlist is requested has as many parts as were committed before. -/
theorem Reached.requests (hR : LawfulReads R retained) (hM : SlotMagicsDiffer M)
    (hretained : max windowParts 1 ≤ retained) {events : List HlsEvent}
    (h : Reached R M retained f windowParts partsPerSegment l cache)
    (hrun : f.Publishes R M K formatProgramDateTime (l + 1) cache events) :
    ∀ asked ∈ playlistRequests R M K formatProgramDateTime f.streamId cache events,
      ∃ last, l ≤ last ∧ last ≤ l + commitCount events ∧
        Reached R M retained f windowParts partsPerSegment last asked ∧
        InitPresent R M f asked := by
  induction events generalizing cache l with
  | nil =>
      intro asked hasked
      cases hasked
  | cons event events ih =>
      intro asked hasked
      cases event with
      | commit c =>
          obtain ⟨hpart, hok, hrest⟩ := hrun
          obtain ⟨last, hle, hbound, hreached⟩ := ih (h.commit hR hM hpart hok) hrest asked hasked
          rw [commitCount_commit]
          exact ⟨last, by omega, by omega, hreached⟩
      | playlist =>
          obtain ⟨hinit, hrest⟩ := hrun
          rw [commitCount_playlist]
          rcases List.mem_cons.1 hasked with rfl | hlater
          · exact ⟨l, Nat.le_refl l, by omega, h, hinit⟩
          · exact ih (h.playlist hR hretained hinit) hrest asked hlater

/-- Of two requests, the later one finds no fewer parts. -/
theorem Reached.requests_pairwise (hR : LawfulReads R retained) (hM : SlotMagicsDiffer M)
    (hretained : max windowParts 1 ≤ retained) {events : List HlsEvent}
    (h : Reached R M retained f windowParts partsPerSegment l cache)
    (hrun : f.Publishes R M K formatProgramDateTime (l + 1) cache events) :
    (playlistRequests R M K formatProgramDateTime f.streamId cache events).Pairwise
      fun earlier later => ∃ before after, l ≤ before ∧ before ≤ after ∧
        after ≤ l + commitCount events ∧
        Reached R M retained f windowParts partsPerSegment before earlier ∧
        InitPresent R M f earlier ∧
        Reached R M retained f windowParts partsPerSegment after later ∧
        InitPresent R M f later := by
  induction events generalizing cache l with
  | nil => exact List.Pairwise.nil
  | cons event events ih =>
      cases event with
      | commit c =>
          obtain ⟨hpart, hok, hrest⟩ := hrun
          refine (ih (h.commit hR hM hpart hok) hrest).imp ?_
          rintro earlier later ⟨before, after, hle, hlater, hbound, hreached⟩
          rw [commitCount_commit]
          exact ⟨before, after, by omega, hlater, by omega, hreached⟩
      | playlist =>
          obtain ⟨hinit, hrest⟩ := hrun
          rw [commitCount_playlist]
          refine List.pairwise_cons.2
            ⟨fun later hlater => ?_, ih (h.playlist hR hretained hinit) hrest⟩
          obtain ⟨last, hle, hbound, hreached⟩ :=
            (h.playlist hR hretained hinit).requests hR hM hretained hrest later hlater
          exact ⟨l, last, Nat.le_refl l, hle, hbound, h, hinit, hreached⟩

end Runs

end AvMesh.LiveCache
