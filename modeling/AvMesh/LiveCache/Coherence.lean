/-
  AvMesh.LiveCache.Coherence
  ──────────────────────────
  **THE PLAYLIST CACHE**, for commits and renders that interleave.

  A commit changes the chunk cache with its put, which changes the version of
  the stream, and the live state with its record.  A render looks for a cached
  body of the current version, reads the slots, reads the live state, and
  stores its body unless the version has changed:

      commit   put → record
      render   look → slots → state → store

  The version is the key of the cached body, but the live state changes after
  it, so a body that is rendered between put and record stays
  (`half_updated_body_served`).  While nothing changes under the version of a
  body (`Settled`), a cached body is the one that a render gives (`Coherent`).
-/
import AvMesh.LiveCache.Reload
import AvMesh.LiveCache.Streams

namespace AvMesh.LiveCache

open AvMesh.Lib

variable {C : ChunkCacheCrate}

/-! ## §1. What a rendered playlist depends on. -/

section Render

variable (R : ChunkCacheReads C) (M : MediaObjectCrate)

namespace HlsCache

/-- The latest initialization in the slots. -/
def discoveredInit (slots : List (Nat × LiveSlotPayload)) : Option Bytes :=
  (slots.filterMap fun slot => slot.2.init).getLast?

/-- What a render remembers of slots with media, and the initialization it goes on with. -/
def rememberSlots (cache : HlsCache C) (streamId : UInt64) (slots : List (Nat × LiveSlotPayload))
    (kind : LiveMediaKind) : Option Bytes × HlsCache C :=
  let cache := match discoveredInit slots with
    | some init => cache.rememberStreamInit streamId init
    | none => cache
  let cache := cache.rememberMediaKind streamId kind
  if kind = .fmp4 then cache.getInitForStreamId R M streamId else (none, cache)

/-- `renderWindow`, once the slots have been read. -/
def renderSlots (formatProgramDateTime : Nat → Option String) (cache : HlsCache C)
    (streamId : UInt64) (last : Nat) (slots : List (Nat × LiveSlotPayload)) :
    List PlaylistLine × HlsCache C :=
  match slots.getLast? with
  | none =>
      let kind := (cache.state.streamMediaKinds.lookup streamId).getD .fmp4
      let (hasMap, cache) := cache.includeMap R M streamId kind
      (cache.emptyPlaylist last kind hasMap, cache)
  | some (_, latest) =>
      let kind := latest.mediaKind
      let (init, cache) := cache.rememberSlots R M streamId slots kind
      if kind = .fmp4 ∧ init.isNone then (cache.waitingPlaylist false, cache)
      else cache.renderParts formatProgramDateTime streamId kind init (slots.map (·.1))

/-- The slots of the window that ends here. -/
def readSlots (cache : HlsCache C) (streamId : UInt64) (streamIdx last : Nat) :
    List (Nat × LiveSlotPayload) :=
  cache.windowSlots R M streamId streamIdx (last - (cache.windowParts - 1)) last

theorem renderWindow_eq_renderSlots (formatProgramDateTime : Nat → Option String)
    (cache : HlsCache C) (streamId : UInt64) (streamIdx last : Nat) :
    cache.renderWindow R M formatProgramDateTime streamId streamIdx last =
      cache.renderSlots R M formatProgramDateTime streamId last
        (cache.readSlots R M streamId streamIdx last) := rfl

end HlsCache

variable {R M}

/-- What a rendered playlist takes from the live state, but for the longest segment. -/
structure SameObserved (streamId : UInt64) (cache after : HlsCache C) : Prop where
  partTargetMs : after.partTargetMs = cache.partTargetMs
  partsPerSegment : after.partsPerSegment = cache.partsPerSegment
  windowParts : after.windowParts = cache.windowParts
  parts : after.state.streamParts.lookup streamId = cache.state.streamParts.lookup streamId
  maxPart : after.state.streamMaxPartDurationMs.lookup streamId =
    cache.state.streamMaxPartDurationMs.lookup streamId

/-- Nothing but what is remembered of the stream has changed. -/
structure SameLive (streamId : UInt64) (cache after : HlsCache C) : Prop
    extends SameObserved streamId cache after where
  maxSegment : after.state.streamMaxSegmentDurationMs = cache.state.streamMaxSegmentDurationMs

/-- The longest segment of the stream, once one of this length has been observed. -/
def longestSegment (cache : HlsCache C) (streamId : UInt64) (observed : Option Nat) : Option Nat :=
  (cache.observeSegmentDuration streamId observed).state.streamMaxSegmentDurationMs.lookup streamId

/-- The longest complete segment among these parts. -/
def HlsCache.observedSegment (cache : HlsCache C) (streamId : UInt64) (kind : LiveMediaKind)
    (sequences : List Nat) : Option Nat :=
  let available := cache.available streamId sequences
  let aligned := keyframeAligned kind available
  let groups := playlistGroups aligned cache.partsPerSegment available
  ((groups.filter (segmentIsComplete aligned cache.partsPerSegment groups)).map fun segment =>
    groupDurationMs segment.2).max?

/-- That of the slots a playlist is rendered from. -/
def HlsCache.observedOf (cache : HlsCache C) (streamId : UInt64)
    (slots : List (Nat × LiveSlotPayload)) : Option Nat :=
  slots.getLast?.bind fun (_, latest) =>
    cache.observedSegment streamId latest.mediaKind (slots.map (·.1))

/-- **Two caches render the same** from these slots. -/
structure SameRender (R : ChunkCacheReads C) (M : MediaObjectCrate) (streamId : UInt64)
    (slots : List (Nat × LiveSlotPayload)) (cache after : HlsCache C) : Prop
    extends SameObserved streamId cache after where
  kind : slots = [] → after.state.streamMediaKinds.lookup streamId =
    cache.state.streamMediaKinds.lookup streamId
  init : HlsCache.discoveredInit slots = none →
    (after.getInitForStreamId R M streamId).1 = (cache.getInitForStreamId R M streamId).1
  longest : longestSegment after streamId (cache.observedOf streamId slots) =
    longestSegment cache streamId (cache.observedOf streamId slots)

section Same

variable {cache after last : HlsCache C} {streamId : UInt64}

theorem SameObserved.refl (cache : HlsCache C) : SameObserved streamId cache cache :=
  ⟨rfl, rfl, rfl, rfl, rfl⟩

theorem SameObserved.trans (h : SameObserved streamId cache after)
    (h' : SameObserved streamId after last) : SameObserved streamId cache last :=
  ⟨h'.partTargetMs.trans h.partTargetMs, h'.partsPerSegment.trans h.partsPerSegment,
    h'.windowParts.trans h.windowParts, h'.parts.trans h.parts, h'.maxPart.trans h.maxPart⟩

theorem SameObserved.available (h : SameObserved streamId cache after) (sequences : List Nat) :
    after.available streamId sequences = cache.available streamId sequences := by
  rw [HlsCache.available, HlsCache.available, HlsCache.nominalPartDurationMs,
    HlsCache.nominalPartDurationMs, h.parts, h.partTargetMs]

theorem SameObserved.observedSegment (h : SameObserved streamId cache after) (kind : LiveMediaKind)
    (sequences : List Nat) :
    after.observedSegment streamId kind sequences =
      cache.observedSegment streamId kind sequences := by
  rw [HlsCache.observedSegment, HlsCache.observedSegment, h.available, h.partsPerSegment]

theorem SameObserved.emptyHead (h : SameObserved streamId cache after) (hasMap : Bool) :
    after.emptyHead hasMap = cache.emptyHead hasMap := by
  rw [HlsCache.emptyHead, HlsCache.emptyHead, h.partTargetMs, h.partsPerSegment]

/-- The part of the playlist with the parts. -/
theorem SameObserved.renderParts (h : SameObserved streamId cache after)
    {formatProgramDateTime : Nat → Option String} {kind : LiveMediaKind} {init : Option Bytes}
    {sequences : List Nat}
    (hlongest : longestSegment after streamId (cache.observedSegment streamId kind sequences) =
      longestSegment cache streamId (cache.observedSegment streamId kind sequences)) :
    (after.renderParts formatProgramDateTime streamId kind init sequences).1 =
      (cache.renderParts formatProgramDateTime streamId kind init sequences).1 := by
  have hobserved := h.observedSegment kind sequences
  simp only [HlsCache.observedSegment, longestSegment] at hobserved hlongest
  simp only [HlsCache.renderParts, h.available, h.partsPerSegment, h.maxPart, hlongest,
    HlsCache.nominalPartDurationMs, h.partTargetMs]

theorem SameLive.refl (cache : HlsCache C) : SameLive streamId cache cache :=
  ⟨.refl cache, rfl⟩

theorem SameLive.trans (h : SameLive streamId cache after) (h' : SameLive streamId after last) :
    SameLive streamId cache last :=
  ⟨h.toSameObserved.trans h'.toSameObserved, h'.maxSegment.trans h.maxSegment⟩

theorem SameLive.longest (h : SameLive streamId cache after) (observed : Option Nat) :
    longestSegment after streamId observed = longestSegment cache streamId observed := by
  cases observed with
  | none =>
      show after.state.streamMaxSegmentDurationMs.lookup streamId = _
      rw [h.maxSegment]
      rfl
  | some observed =>
      simp only [longestSegment, HlsCache.observeSegmentDuration, h.maxSegment]

/-- Looking for the initialization again gives the same. -/
theorem getInit_getInit :
    ((cache.getInitForStreamId R M streamId).2.getInitForStreamId R M streamId).1 =
      (cache.getInitForStreamId R M streamId).1 := by
  rcases @HlsCache.getInitForStreamId_snd C R M cache streamId with hsame | ⟨init, hinit, hsame⟩
  · rw [hsame]
  · rw [hsame, hinit]
    exact HlsCache.getInitForStreamId_rememberStreamInit init

section Remember

variable {slots : List (Nat × LiveSlotPayload)} {kind : LiveMediaKind}

section Keeps

variable {P : HlsCache C → Prop}

/-- What every initialization that is remembered keeps, looking for one keeps. -/
theorem getInit_keeps
    (hinit : ∀ cache init, P cache → P (cache.rememberStreamInit streamId init)) (h : P cache) :
    P (cache.getInitForStreamId R M streamId).2 := by
  rcases @HlsCache.getInitForStreamId_snd C R M cache streamId with hsame | ⟨init, _, hsame⟩
  · rw [hsame]
    exact h
  · rw [hsame]
    exact hinit cache init h

theorem includeMap_keeps
    (hinit : ∀ cache init, P cache → P (cache.rememberStreamInit streamId init)) (h : P cache) :
    P (cache.includeMap R M streamId kind).2 := by
  rw [HlsCache.includeMap]
  split
  · exact getInit_keeps hinit h
  · exact h

theorem rememberSlots_keeps
    (hinit : ∀ cache init, P cache → P (cache.rememberStreamInit streamId init))
    (hkind : ∀ cache kind, P cache → P (cache.rememberMediaKind streamId kind)) (h : P cache) :
    P (cache.rememberSlots R M streamId slots kind).2 := by
  have hremember : P ((match HlsCache.discoveredInit slots with
      | some init => cache.rememberStreamInit streamId init
      | none => cache).rememberMediaKind streamId kind) := by
    cases HlsCache.discoveredInit slots with
    | none => exact hkind _ _ h
    | some init => exact hkind _ _ (hinit _ _ h)
  rw [HlsCache.rememberSlots]
  split
  · exact getInit_keeps hinit hremember
  · exact hremember

end Keeps

theorem fst_rememberSlots :
    (cache.rememberSlots R M streamId slots kind).1 =
      if kind = .fmp4 then
        (HlsCache.discoveredInit slots).or (cache.getInitForStreamId R M streamId).1
      else none := by
  rw [HlsCache.rememberSlots]
  by_cases hfmp4 : kind = .fmp4
  · rw [if_pos hfmp4, if_pos hfmp4, HlsCache.getInitForStreamId_fst]
    cases HlsCache.discoveredInit slots with
    | none =>
        rw [HlsCache.getInitForStreamId_fst]
        rfl
    | some init =>
        have hlookup : ((cache.rememberStreamInit streamId init).rememberMediaKind streamId
            kind).state.streamInits.lookup streamId = some init := AList.lookup_insert _
        simp only [hlookup, Option.some_or]
  · rw [if_neg hfmp4, if_neg hfmp4]

theorem sameLive_rememberSlots :
    SameLive streamId cache (cache.rememberSlots R M streamId slots kind).2 := by
  refine rememberSlots_keeps (fun _ _ h => h.trans ?_) (fun _ _ h => h.trans ?_) (.refl cache)
  · exact ⟨⟨rfl, rfl, rfl, rfl, rfl⟩, rfl⟩
  · exact ⟨⟨rfl, rfl, rfl, rfl, rfl⟩, rfl⟩

theorem getInit_rememberSlots (h : HlsCache.discoveredInit slots = none) :
    ((cache.rememberSlots R M streamId slots kind).2.getInitForStreamId R M streamId).1 =
      (cache.getInitForStreamId R M streamId).1 := by
  rw [HlsCache.rememberSlots, h]
  dsimp only
  split
  · rw [getInit_getInit, HlsCache.getInitForStreamId_rememberMediaKind]
  · exact HlsCache.getInitForStreamId_rememberMediaKind kind

end Remember

theorem includeMap_spec {kind : LiveMediaKind} :
    (cache.includeMap R M streamId kind).1 =
        (decide (kind = .fmp4) && (cache.getInitForStreamId R M streamId).1.isSome) ∧
      SameLive streamId cache (cache.includeMap R M streamId kind).2 ∧
      (cache.includeMap R M streamId kind).2.state.streamMediaKinds =
        cache.state.streamMediaKinds ∧
      ((cache.includeMap R M streamId kind).2.getInitForStreamId R M streamId).1 =
        (cache.getInitForStreamId R M streamId).1 := by
  have hlive : SameLive streamId cache (cache.includeMap R M streamId kind).2 :=
    includeMap_keeps (fun _ _ h => h.trans ⟨⟨rfl, rfl, rfl, rfl, rfl⟩, rfl⟩) (.refl cache)
  have hkinds : (cache.includeMap R M streamId kind).2.state.streamMediaKinds =
      cache.state.streamMediaKinds :=
    includeMap_keeps (P := fun after => after.state.streamMediaKinds =
      cache.state.streamMediaKinds) (fun _ _ h => h) rfl
  refine ⟨?_, hlive, hkinds, ?_⟩ <;> rw [HlsCache.includeMap] <;> by_cases hfmp4 : kind = .fmp4
  · rw [if_pos hfmp4, hfmp4]
    rfl
  · rw [if_neg hfmp4, decide_eq_false hfmp4]
    rfl
  · rw [if_pos hfmp4]
    exact getInit_getInit
  · rw [if_neg hfmp4]

section Slots

variable {slots : List (Nat × LiveSlotPayload)} {formatProgramDateTime : Nat → Option String}
  {lastPart : Nat}

/-- The playlist of slots with media, by the initialization it goes on with. -/
theorem renderSlots_some {seq : Nat} {latest : LiveSlotPayload}
    (hlatest : slots.getLast? = some (seq, latest)) :
    cache.renderSlots R M formatProgramDateTime streamId lastPart slots =
      let asked := cache.rememberSlots R M streamId slots latest.mediaKind
      if latest.mediaKind = .fmp4 ∧ asked.1.isNone then (asked.2.waitingPlaylist false, asked.2)
      else asked.2.renderParts formatProgramDateTime streamId latest.mediaKind asked.1
        (slots.map (·.1)) := by
  rw [HlsCache.renderSlots, hlatest]

theorem renderSlots_none (hempty : slots = []) :
    cache.renderSlots R M formatProgramDateTime streamId lastPart slots =
      let kind := (cache.state.streamMediaKinds.lookup streamId).getD .fmp4
      let asked := cache.includeMap R M streamId kind
      (asked.2.emptyPlaylist lastPart kind asked.1, asked.2) := by
  subst hempty
  rfl

/-- What is kept whenever something is remembered, a render keeps. -/
theorem renderSlots_keeps {P : HlsCache C → Prop}
    (hinit : ∀ cache init, P cache → P (cache.rememberStreamInit streamId init))
    (hkind : ∀ cache kind, P cache → P (cache.rememberMediaKind streamId kind))
    (hobserve : ∀ cache observed, P cache → P (cache.observeSegmentDuration streamId observed))
    (h : P cache) :
    P (cache.renderSlots R M formatProgramDateTime streamId lastPart slots).2 := by
  cases hlatest : slots.getLast? with
  | none =>
      rw [renderSlots_none (List.getLast?_eq_none_iff.1 hlatest)]
      exact includeMap_keeps hinit h
  | some entry =>
      obtain ⟨seq, latest⟩ := entry
      have hremember : P (cache.rememberSlots R M streamId slots latest.mediaKind).2 :=
        rememberSlots_keeps hinit hkind h
      rw [renderSlots_some hlatest]
      dsimp only
      split
      · exact hremember
      · exact hobserve _ _ hremember

theorem SameObserved.emptyPlaylist (h : SameObserved streamId cache after) (next : Nat)
    (kind : LiveMediaKind) (hasMap : Bool) :
    after.emptyPlaylist next kind hasMap = cache.emptyPlaylist next kind hasMap := by
  rw [HlsCache.emptyPlaylist, HlsCache.emptyPlaylist, h.emptyHead]

/-- **Caches that agree** on what is rendered render the same playlist. -/
theorem SameRender.body (h : SameRender R M streamId slots cache after) :
    (after.renderSlots R M formatProgramDateTime streamId lastPart slots).1 =
      (cache.renderSlots R M formatProgramDateTime streamId lastPart slots).1 := by
  cases hlatest : slots.getLast? with
  | none =>
      have hempty : slots = [] := List.getLast?_eq_none_iff.1 hlatest
      rw [renderSlots_none hempty, renderSlots_none hempty, h.kind hempty]
      have hinit := h.init (by rw [hempty]; rfl)
      obtain ⟨hmap, hlive, _⟩ := @includeMap_spec C R M cache streamId
        ((cache.state.streamMediaKinds.lookup streamId).getD .fmp4)
      obtain ⟨hmap', hlive', _⟩ := @includeMap_spec C R M after streamId
        ((cache.state.streamMediaKinds.lookup streamId).getD .fmp4)
      simp only
      rw [hmap, hmap', hinit, hlive.emptyPlaylist, hlive'.emptyPlaylist, h.emptyPlaylist]
  | some entry =>
      obtain ⟨seq, latest⟩ := entry
      rw [renderSlots_some hlatest, renderSlots_some hlatest]
      -- an initialization in the slots is taken from there, any other is the same for both
      have hasked : (after.rememberSlots R M streamId slots latest.mediaKind).1 =
          (cache.rememberSlots R M streamId slots latest.mediaKind).1 := by
        rw [fst_rememberSlots, fst_rememberSlots]
        cases hfound : HlsCache.discoveredInit slots with
        | none => rw [h.init hfound]
        | some init => rfl
      have hlive := @sameLive_rememberSlots C R M cache streamId slots latest.mediaKind
      have hlive' := @sameLive_rememberSlots C R M after streamId slots latest.mediaKind
      have hobserved : cache.observedOf streamId slots =
          cache.observedSegment streamId latest.mediaKind (slots.map (·.1)) := by
        rw [HlsCache.observedOf, hlatest]
        rfl
      simp only
      rw [hasked]
      split
      · rw [HlsCache.waitingPlaylist, HlsCache.waitingPlaylist, hlive.emptyHead, hlive'.emptyHead,
          h.emptyHead]
      · have hbase : SameObserved streamId (cache.rememberSlots R M streamId slots
            latest.mediaKind).2 (after.rememberSlots R M streamId slots latest.mediaKind).2 := by
          have hchain := h.toSameObserved.trans hlive'.toSameObserved
          exact ⟨hchain.partTargetMs.trans hlive.partTargetMs.symm,
            hchain.partsPerSegment.trans hlive.partsPerSegment.symm,
            hchain.windowParts.trans hlive.windowParts.symm, hchain.parts.trans hlive.parts.symm,
            hchain.maxPart.trans hlive.maxPart.symm⟩
        -- the longest segment is raised by the same observation on both sides
        refine hbase.renderParts ?_
        rw [hlive.observedSegment, hlive.longest, hlive'.longest, ← hobserved, h.longest]

/-- Observing the longest segment again changes nothing. -/
theorem longestSegment_observe (observed : Option Nat) :
    longestSegment (cache.observeSegmentDuration streamId observed) streamId observed =
      longestSegment cache streamId observed := by
  cases observed with
  | none => rfl
  | some observed =>
      simp only [longestSegment, HlsCache.observeSegmentDuration, AList.lookup_insert]
      cases cache.state.streamMaxSegmentDurationMs.lookup streamId with
      | none => simp
      | some longest => simp

theorem sameObserved_observe (observed : Option Nat) :
    SameObserved streamId cache (cache.observeSegmentDuration streamId observed) := by
  cases observed <;> exact ⟨rfl, rfl, rfl, rfl, rfl⟩

theorem getInit_observe (observed : Option Nat) :
    ((cache.observeSegmentDuration streamId observed).getInitForStreamId R M streamId).1 =
      (cache.getInitForStreamId R M streamId).1 := by
  rw [HlsCache.getInitForStreamId_fst, HlsCache.getInitForStreamId_fst]
  cases observed <;> rfl

/-- **A render leaves what it renders**: from the same slots the same playlist is rendered again. -/
theorem sameRender_renderSlots :
    SameRender R M streamId slots cache
      (cache.renderSlots R M formatProgramDateTime streamId lastPart slots).2 := by
  cases hlatest : slots.getLast? with
  | none =>
      have hempty : slots = [] := List.getLast?_eq_none_iff.1 hlatest
      rw [renderSlots_none hempty]
      obtain ⟨_, hlive, hkinds, hinit⟩ := @includeMap_spec C R M cache streamId
        ((cache.state.streamMediaKinds.lookup streamId).getD .fmp4)
      exact ⟨hlive.toSameObserved, fun _ => congrArg _ hkinds, fun _ => hinit, hlive.longest _⟩
  | some entry =>
      obtain ⟨seq, latest⟩ := entry
      have hne : slots ≠ [] := by
        rintro rfl
        cases hlatest
      have hlive := @sameLive_rememberSlots C R M cache streamId slots latest.mediaKind
      have hobserved : cache.observedOf streamId slots =
          (cache.rememberSlots R M streamId slots latest.mediaKind).2.observedSegment streamId
            latest.mediaKind (slots.map (·.1)) := by
        rw [HlsCache.observedOf, hlatest, hlive.observedSegment]
        rfl
      rw [renderSlots_some hlatest]
      simp only
      split
      · exact ⟨hlive.toSameObserved, fun hempty => absurd hempty hne,
          fun hnone => getInit_rememberSlots hnone, hlive.longest _⟩
      · have hafter : ((cache.rememberSlots R M streamId slots latest.mediaKind).2.renderParts
            formatProgramDateTime streamId latest.mediaKind
            (cache.rememberSlots R M streamId slots latest.mediaKind).1 (slots.map (·.1))).2 =
            (cache.rememberSlots R M streamId slots latest.mediaKind).2.observeSegmentDuration
              streamId (cache.observedOf streamId slots) := by
          rw [hobserved]
          rfl
        rw [hafter]
        refine ⟨hlive.toSameObserved.trans (sameObserved_observe _),
          fun hempty => absurd hempty hne, fun hnone => ?_, ?_⟩
        · rw [getInit_observe, getInit_rememberSlots hnone]
        · rw [longestSegment_observe, hlive.longest]

end Slots

end Same

end Render

/-! ## §2. Versions. -/

section Versions

variable {R : ChunkCacheReads C} {streamId : UInt64} {chunk chunk' chunk'' : C.Cache}

/-- The version of the stream has changed. -/
def ChunkCacheReads.Bumped (R : ChunkCacheReads C) (streamId : UInt64) (chunk chunk' : C.Cache) :
    Prop :=
  ∀ idx last version, R.position chunk' streamId = some (idx, last) →
    R.version chunk idx = some version →
    ∃ version', R.version chunk' idx = some version' ∧ version < version'

/-- Versions grow, and what is read of the stream changes only with its version. -/
structure ChunkCacheReads.Moves (R : ChunkCacheReads C) (streamId : UInt64)
    (chunk chunk' : C.Cache) : Prop where
  grow : R.VersionsGrow chunk chunk'
  seen : R.SameReads streamId chunk chunk' ∨ R.Bumped streamId chunk chunk'

theorem ChunkCacheReads.Moves.refl (chunk : C.Cache) : R.Moves streamId chunk chunk :=
  ⟨fun _ version hversion => ⟨version, hversion, le_refl version⟩, Or.inl ⟨rfl, fun _ => rfl⟩⟩

theorem ChunkCacheReads.Moves.trans (h : R.Moves streamId chunk chunk')
    (h' : R.Moves streamId chunk' chunk'') : R.Moves streamId chunk chunk'' := by
  refine ⟨h.grow.trans h'.grow, ?_⟩
  rcases h'.seen with hsame' | hbumped'
  -- a version that has changed once stays changed, since versions only grow
  · rcases h.seen with hsame | hbumped
    · exact Or.inl ⟨hsame'.position.trans hsame.position,
        fun slot => (hsame'.slots slot).trans (hsame.slots slot)⟩
    · right
      intro idx last version hposition hversion
      rw [hsame'.position] at hposition
      obtain ⟨version', hversion', hlt⟩ := hbumped idx last version hposition hversion
      obtain ⟨version'', hversion'', hle⟩ := h'.grow idx version' hversion'
      exact ⟨version'', hversion'', hlt.trans_le hle⟩
  · right
    intro idx last version hposition hversion
    obtain ⟨version', hversion', hle⟩ := h.grow idx version hversion
    obtain ⟨version'', hversion'', hlt⟩ := hbumped' idx last version' hposition hversion'
    exact ⟨version'', hversion'', hle.trans_lt hlt⟩

/-- What is no newer than the version stays so. -/
theorem ChunkCacheReads.VersionsGrow.bounded (h : R.VersionsGrow chunk chunk') {idx version : Nat}
    (hold : ∃ current, R.version chunk idx = some current ∧ version ≤ current) :
    ∃ current, R.version chunk' idx = some current ∧ version ≤ current := by
  obtain ⟨current, hcurrent, hle⟩ := hold
  obtain ⟨later, hlater, hle'⟩ := h idx current hcurrent
  exact ⟨later, hlater, hle.trans hle'⟩

/-- The laws of the chunk cache about versions. -/
structure LawfulVersions (R : ChunkCacheReads C) : Prop where
  for_stream : ∀ chunk streamId slot, R.getForStreamId chunk streamId slot =
    (R.getStreamIdx chunk streamId).bind fun idx => R.get chunk idx slot
  version_some : ∀ chunk streamId idx last, R.position chunk streamId = some (idx, last) →
    ∃ version, R.version chunk idx = some version
  zero_position : ∀ chunk streamId, R.position (C.zeroStreamId chunk streamId) streamId = none
  zero_versions : ∀ chunk streamId, R.VersionsGrow chunk (C.zeroStreamId chunk streamId)
  init_reads : ∀ chunk streamId init,
    R.SameReads streamId chunk (C.setStreamInitialization chunk streamId init).2
  init_versions : ∀ chunk streamId init,
    R.VersionsGrow chunk (C.setStreamInitialization chunk streamId init).2
  put_moves : ∀ chunk streamId slot base bytes,
    R.Moves streamId chunk (C.putIfAbsentContiguous chunk streamId slot base bytes).2

theorem LawfulVersions.init_moves (hR : LawfulVersions R) (chunk : C.Cache) (init : Bytes) :
    R.Moves streamId chunk (C.setStreamInitialization chunk streamId init).2 :=
  ⟨hR.init_versions chunk streamId init, Or.inl (hR.init_reads chunk streamId init)⟩

/-- A stream that has been zeroed has no position until its version changes. -/
theorem LawfulVersions.zero_moves (hR : LawfulVersions R) (chunk : C.Cache) :
    R.Moves streamId chunk (C.zeroStreamId chunk streamId) := by
  refine ⟨hR.zero_versions chunk streamId, Or.inr fun idx last version hposition => ?_⟩
  rw [hR.zero_position] at hposition
  cases hposition

/-- The windows of two chunk caches that are read the same. -/
theorem readSlots_same (hR : LawfulVersions R) {M : MediaObjectCrate} {cache after : HlsCache C}
    (hreads : R.SameReads streamId cache.chunkCache after.chunkCache)
    (hwindow : after.windowParts = cache.windowParts) {idx last last' : Nat}
    (hposition : R.position cache.chunkCache streamId = some (idx, last)) :
    after.readSlots R M streamId idx last' = cache.readSlots R M streamId idx last' := by
  -- the position names the index under which the slots are read
  have hidx {chunk : C.Cache} (h : R.position chunk streamId = some (idx, last)) :
      R.getStreamIdx chunk streamId = some idx := by
    obtain ⟨idx', hidx', hlast⟩ := Option.bind_eq_some_iff.1 h
    obtain ⟨_, _, hpair⟩ := Option.map_eq_some_iff.1 hlast
    rw [hidx', (Prod.mk.inj hpair).1]
  have hget (seq : Nat) : R.get after.chunkCache idx seq = R.get cache.chunkCache idx seq := by
    have hslots := hreads.slots seq
    rw [hR.for_stream, hR.for_stream, hidx hposition,
      hidx (hreads.position.trans hposition)] at hslots
    exact hslots
  simp only [HlsCache.readSlots, HlsCache.windowSlots, hwindow, hget]

end Versions

/-! ## §3. A commit in two steps. -/

section Commit

variable {R : ChunkCacheReads C} {K : SoundkitCrate} {streamId : UInt64} {c : MediaCommit}
  {cache : LiveTsCache C}

namespace LiveTsCache

/-- A commit up to its put: its result, or what it goes on with to the record. -/
def putObject (cache : LiveTsCache C) (K : SoundkitCrate) (streamId : UInt64) (c : MediaCommit) :
    LiveTsCache C × (CacheResult Nat ⊕ Option ReboxedLiveAudio × Nat) :=
  match cache.admitObject streamId c.object with
  | .error error => (cache, .inl (.error error))
  | .ok _ =>
      let cache := cache.activateEpoch streamId c.object.key.epoch.toNat c.clock.activationUs
      match reboxedAudio K c.object with
      | .error error => (cache, .inl (.error error))
      | .ok reboxed =>
          let cache := cache.recordObject streamId c.payload.length c.clock.nowMs reboxed c.object
          match cache.writeInitialization streamId (objectInit reboxed c.object)
              (initFailure reboxed) with
          | (.error error, cache) => (cache, .inl (.error error))
          | (.ok _, cache) =>
              let seq := c.object.key.object.toNat
              let base := (cache.state.streamSubscriptionBaseObject.lookup streamId).getD seq
              if c.object.kind ≠ .media then (cache, .inl (.ok seq))
              else
                match slotBytes streamId c.payload reboxed c.object with
                | .error error => (cache, .inl (.error error))
                | .ok cachedPayload =>
                    match C.putIfAbsentContiguous cache.chunkCache streamId seq base
                        cachedPayload with
                    | (.error err, chunkCache) =>
                        ({ cache with chunkCache },
                          .inl (.error s!"canonical stream cache write failed: {err}"))
                    | (.ok .hashConflict, chunkCache) =>
                        ({ cache with chunkCache }, .inl (.error
                          s!"canonical media-object identity conflict for stream {streamId} sequence {seq}"))
                    | (.ok .present, chunkCache) =>
                        ({ cache with chunkCache }, .inr (reboxed, cachedPayload.length))

/-- **Put and record make up a commit.** -/
theorem commitObject_eq_put :
    cache.commitObject K streamId c.payload c.clock c.object =
      match cache.putObject K streamId c with
      | (cache, .inl result) => (result, cache)
      | (cache, .inr (reboxed, cachedBytes)) =>
          (.ok c.object.key.object.toNat,
            finishObject cache streamId cachedBytes c.clock reboxed c.object) := by
  rw [commitObject, putObject]
  cases cache.admitObject streamId c.object with
  | error error => rfl
  | ok _ =>
      cases reboxedAudio K c.object with
      | error error => rfl
      | ok reboxed =>
          simp only [commitReboxed]
          generalize (LiveTsCache.recordObject (cache.activateEpoch streamId
            c.object.key.epoch.toNat c.clock.activationUs) streamId c.payload.length c.clock.nowMs
            reboxed c.object).writeInitialization streamId (objectInit reboxed c.object)
            (initFailure reboxed) = written
          obtain ⟨result, written⟩ := written
          cases result with
          | error error => rfl
          | ok _ =>
              by_cases hkind : c.object.kind = .media
              · simp only [hkind, ne_eq, not_true_eq_false, if_false, storeObject]
                cases slotBytes streamId c.payload reboxed c.object with
                | error error => rfl
                | ok bytes =>
                    simp only
                    generalize C.putIfAbsentContiguous written.chunkCache streamId
                      c.object.key.object.toNat
                      ((written.state.streamSubscriptionBaseObject.lookup streamId).getD
                        c.object.key.object.toNat) bytes = put
                    obtain ⟨result, chunk⟩ := put
                    cases result with
                    | error err => rfl
                    | ok result => cases result <;> rfl
              · simp only [hkind, ne_eq, not_false_eq_true, if_true]

/-- What every stage of an admitted commit keeps, its put keeps. -/
theorem putObject_keeps_opened {P : LiveTsCache C → Prop}
    (hrecord : ∀ cache bytes nowMs reboxed, P cache →
      P (cache.recordObject streamId bytes nowMs reboxed c.object))
    (hinit : ∀ cache init, P cache →
      P { cache with chunkCache := chunkAfterInit cache.chunkCache streamId init })
    (hput : ∀ cache slot base bytes, P cache →
      P { cache with
          chunkCache := (C.putIfAbsentContiguous cache.chunkCache streamId slot base bytes).2 })
    (hadmitted : cache.admitObject streamId c.object = .ok ())
    (hopened : P (cache.activateEpoch streamId c.object.key.epoch.toNat c.clock.activationUs)) :
    P (cache.putObject K streamId c).1 := by
  rw [putObject, hadmitted]
  dsimp only
  split
  · exact hopened
  · next reboxed _ =>
      have hwritten := hinit _ (objectInit reboxed c.object)
        (hrecord _ c.payload.length c.clock.nowMs reboxed hopened)
      rw [← @writeInitialization_snd C _ streamId _ (initFailure reboxed)] at hwritten
      split
      · next heq =>
          rw [heq] at hwritten
          exact hwritten
      · next written heq =>
          rw [heq] at hwritten
          split
          · exact hwritten
          · split
            · exact hwritten
            · next bytes _ =>
                have hstored := hput written c.object.key.object.toNat
                  ((written.state.streamSubscriptionBaseObject.lookup streamId).getD
                    c.object.key.object.toNat) bytes hwritten
                split <;> next heq =>
                  rw [heq] at hstored
                  exact hstored

theorem putObject_of_refused {error : String}
    (h : cache.admitObject streamId c.object = .error error) :
    cache.putObject K streamId c = (cache, .inl (.error error)) := by
  rw [putObject, h]

/-- What every stage of a commit keeps, its put keeps. -/
theorem putObject_keeps {P : LiveTsCache C → Prop}
    (hactivate : ∀ cache sourceEpoch nowUs, P cache →
      P (cache.activateEpoch streamId sourceEpoch nowUs))
    (hrecord : ∀ cache bytes nowMs reboxed, P cache →
      P (cache.recordObject streamId bytes nowMs reboxed c.object))
    (hinit : ∀ cache init, P cache →
      P { cache with chunkCache := chunkAfterInit cache.chunkCache streamId init })
    (hput : ∀ cache slot base bytes, P cache →
      P { cache with
          chunkCache := (C.putIfAbsentContiguous cache.chunkCache streamId slot base bytes).2 })
    (h : P cache) : P (cache.putObject K streamId c).1 := by
  cases hadmitted : cache.admitObject streamId c.object with
  | error error =>
      rw [putObject_of_refused hadmitted]
      exact h
  | ok _ =>
      exact putObject_keeps_opened hrecord hinit hput hadmitted
        (hactivate cache c.object.key.epoch.toNat c.clock.activationUs h)

theorem moves_activateEpoch (hR : LawfulVersions R) {sourceEpoch nowUs : Nat} :
    R.Moves streamId cache.chunkCache
      (cache.activateEpoch streamId sourceEpoch nowUs).chunkCache := by
  rw [activateEpoch]
  dsimp only
  split
  · exact .refl _
  · exact hR.zero_moves _

/-- Up to its put a commit changes what is read of its stream only with the version. -/
theorem moves_putObject (hR : LawfulVersions R) :
    R.Moves streamId cache.chunkCache (cache.putObject K streamId c).1.chunkCache := by
  refine putObject_keeps (P := fun after => R.Moves streamId cache.chunkCache after.chunkCache)
    (fun _ _ _ h => h.trans (moves_activateEpoch hR)) (fun _ _ _ _ h => h)
    (fun before init h => h.trans ?_)
    (fun _ slot base bytes h => h.trans (hR.put_moves _ streamId slot base bytes)) (.refl _)
  cases init with
  | none => exact .refl _
  | some init => exact hR.init_moves _ init

end LiveTsCache

end Commit

/-! ## §4. Commits and renders of one stream. -/

/-- How far a render is: the end of the window, then its slots, then the body. -/
inductive RenderPoint where
  | looked (last : Nat)
  | read (last : Nat) (slots : List (Nat × LiveSlotPayload))
  | rendered (body : List PlaylistLine)

/-- A render that found no cached body, with the index and the version it has read. -/
structure RenderTask where
  streamIdx : Nat
  version : Nat
  point : RenderPoint

/-- A commit that has put its part and has yet to record it. -/
structure PendingRecord where
  commit : MediaCommit
  reboxed : Option ReboxedLiveAudio
  cachedBytes : Nat

structure PlaylistTasks (C : ChunkCacheCrate) where
  cache : HlsCache C
  commit : Option PendingRecord
  renders : Table Nat RenderTask

inductive PlaylistEvent where
  | put (commit : MediaCommit)
  | record
  | look (render : Nat)
  | slots (render : Nat)
  | state (render : Nat)
  | store (render : Nat)

section Step

variable (R : ChunkCacheReads C) (M : MediaObjectCrate) (K : SoundkitCrate)
  (formatProgramDateTime : Nat → Option String) (streamId : UInt64)

/-- A render begins: it is served at once when there is a cached body, or no position. -/
def lookStep (sys : PlaylistTasks C) (render : Nat) :
    Option (List PlaylistLine) × PlaylistTasks C :=
  match sys.cache.streamPosition R streamId with
  | none =>
      let kind := (sys.cache.state.streamMediaKinds.lookup streamId).getD .fmp4
      let (hasMap, cache) := sys.cache.includeMap R M streamId kind
      (some (cache.emptyPlaylist 0 kind hasMap), { sys with cache })
  | some (streamIdx, last) =>
      let version := (R.version sys.cache.chunkCache streamIdx).getD 0
      match sys.cache.cachedPlaylist streamId streamIdx version with
      | some body => (some body, sys)
      | none => (none, { sys with
          renders := sys.renders.insert render ⟨streamIdx, version, .looked last⟩ })

/-- One step; it returns the body of a render that is served. -/
def playlistStep (sys : PlaylistTasks C) : PlaylistEvent →
    Option (List PlaylistLine) × PlaylistTasks C
  | .put c =>
      if sys.commit.isSome then (none, sys)
      else
        let (live, outcome) := sys.cache.toLiveTsCache.putObject K streamId c
        (none, { sys with
          cache := { sys.cache with toLiveTsCache := live }
          commit := match outcome with
            | .inl _ => none
            | .inr (reboxed, cachedBytes) => some ⟨c, reboxed, cachedBytes⟩ })
  | .record =>
      match sys.commit with
      | none => (none, sys)
      | some ⟨c, reboxed, cachedBytes⟩ =>
          (none, { sys with
            cache := { sys.cache with
              toLiveTsCache := LiveTsCache.finishObject sys.cache.toLiveTsCache streamId cachedBytes
                c.clock reboxed c.object }
            commit := none })
  | .look render =>
      if render ∈ sys.renders then (none, sys) else lookStep R M streamId sys render
  | .slots render =>
      match sys.renders.lookup render with
      | some ⟨streamIdx, version, .looked last⟩ =>
          let slots := sys.cache.readSlots R M streamId streamIdx last
          (none, { sys with
            renders := sys.renders.replace render ⟨streamIdx, version, .read last slots⟩ })
      | _ => (none, sys)
  | .state render =>
      match sys.renders.lookup render with
      | some ⟨streamIdx, version, .read last slots⟩ =>
          let (body, cache) :=
            sys.cache.renderSlots R M formatProgramDateTime streamId last slots
          (none, { sys with
            cache
            renders := sys.renders.replace render ⟨streamIdx, version, .rendered body⟩ })
      | _ => (none, sys)
  | .store render =>
      match sys.renders.lookup render with
      | some ⟨streamIdx, version, .rendered body⟩ =>
          (some body, { sys with
            cache := sys.cache.cachePlaylist R streamId streamIdx version body
            renders := sys.renders.erase render })
      | _ => (none, sys)

end Step

/-! ## §5. The invariant. -/

section Coherent

variable (R : ChunkCacheReads C) (M : MediaObjectCrate) (K : SoundkitCrate)
  (formatProgramDateTime : Nat → Option String) (streamId : UInt64)

/-- The stream has this index, this end and this version. -/
def HlsCache.At (cache : HlsCache C) (streamIdx last version : Nat) : Prop :=
  R.position cache.chunkCache streamId = some (streamIdx, last) ∧
    R.version cache.chunkCache streamIdx = some version

/-- What the render has read so far is what it would read now. -/
def RenderTask.UpToDate (cache : HlsCache C) (task : RenderTask) (last : Nat) : Prop :=
  match task.point with
  | .looked last' => last' = last
  | .read last' slots => last' = last ∧ slots = cache.readSlots R M streamId task.streamIdx last
  | .rendered body => body = cache.renderedPlaylist R M formatProgramDateTime streamId

/-- **Coherence**: a body of the current version, in the cache or with a render, is the playlist
that is rendered now. -/
structure PlaylistTasks.Coherent (sys : PlaylistTasks C) : Prop where
  behind : CachedBehind R streamId sys.cache
  bounded : ∀ render task, sys.renders.lookup render = some task →
    ∃ version, R.version sys.cache.chunkCache task.streamIdx = some version ∧
      task.version ≤ version
  cached : ∀ idx last version body, sys.cache.At R streamId idx last version →
    sys.cache.playlistCache[idx]? = some (some ⟨streamId, version, body⟩) →
    body = sys.cache.renderedPlaylist R M formatProgramDateTime streamId
  renders : ∀ render task last, sys.renders.lookup render = some task →
    sys.cache.At R streamId task.streamIdx last task.version →
    task.UpToDate R M formatProgramDateTime streamId sys.cache last

/-- There is no body of the current version, neither in the cache nor with a render. -/
def PlaylistTasks.NoBody (sys : PlaylistTasks C) : Prop :=
  ∀ idx last version, sys.cache.At R streamId idx last version →
    (∀ body, sys.cache.playlistCache[idx]? ≠ some (some ⟨streamId, version, body⟩)) ∧
    ∀ render body, sys.renders.lookup render ≠ some ⟨idx, version, .rendered body⟩

/-- The kind, the initialization and the longest segment of the stream are what they were. -/
def SameRemembered (cache after : HlsCache C) : Prop :=
  after.state.streamMediaKinds.lookup streamId = cache.state.streamMediaKinds.lookup streamId ∧
    (after.getInitForStreamId R M streamId).1 = (cache.getInitForStreamId R M streamId).1 ∧
    after.state.streamMaxSegmentDurationMs.lookup streamId =
      cache.state.streamMaxSegmentDurationMs.lookup streamId

/-- A step that changes what is rendered comes before any body of the current version: a put changes
the version, a record comes before the first render of its version reads the live state, and a
render that reads the live state with slots of an older version remembers nothing new. -/
def PlaylistTasks.Settled (sys : PlaylistTasks C) : PlaylistEvent → Prop
  | .put c => sys.commit = none → R.Bumped streamId sys.cache.chunkCache
      (sys.cache.toLiveTsCache.putObject K streamId c).1.chunkCache ∨ sys.NoBody R streamId
  | .record => sys.commit ≠ none → sys.NoBody R streamId
  | .state render => ∀ idx version last slots,
      sys.renders.lookup render = some ⟨idx, version, .read last slots⟩ →
      (R.position sys.cache.chunkCache streamId = some (idx, last) ∧
        slots = sys.cache.readSlots R M streamId idx last) ∨
      sys.NoBody R streamId ∨
      SameRemembered R M streamId sys.cache
        (sys.cache.renderSlots R M formatProgramDateTime streamId last slots).2
  | _ => True

end Coherent

section Steps

variable {R : ChunkCacheReads C} {M : MediaObjectCrate} {K : SoundkitCrate}
  {formatProgramDateTime : Nat → Option String} {streamId : UInt64} {cache after : HlsCache C}

/-- The chunk cache is read the same, at the same versions or later ones. -/
def ReadsOn (R : ChunkCacheReads C) (streamId : UInt64) (cache after : HlsCache C) : Prop :=
  R.SameReads streamId cache.chunkCache after.chunkCache ∧
    R.VersionsGrow cache.chunkCache after.chunkCache

theorem ReadsOn.of_chunk (h : after.chunkCache = cache.chunkCache) :
    ReadsOn R streamId cache after := by
  rw [ReadsOn, h]
  exact ⟨⟨rfl, fun _ => rfl⟩, fun _ version hversion => ⟨version, hversion, le_refl version⟩⟩

theorem ReadsOn.trans {last : HlsCache C} (h : ReadsOn R streamId cache after)
    (h' : ReadsOn R streamId after last) : ReadsOn R streamId cache last :=
  ⟨⟨h'.1.position.trans h.1.position, fun slot => (h'.1.slots slot).trans (h.1.slots slot)⟩,
    h.2.trans h'.2⟩

theorem readsOn_rememberStreamInit (hR : LawfulVersions R) (init : Bytes) :
    ReadsOn R streamId cache (cache.rememberStreamInit streamId init) :=
  ⟨hR.init_reads _ _ _, hR.init_versions _ _ _⟩

theorem readsOn_includeMap (hR : LawfulVersions R) (kind : LiveMediaKind) :
    ReadsOn R streamId cache (cache.includeMap R M streamId kind).2 :=
  includeMap_keeps (fun _ init h => h.trans (readsOn_rememberStreamInit hR init)) (.of_chunk rfl)

theorem readsOn_renderSlots (hR : LawfulVersions R) {last : Nat}
    {slots : List (Nat × LiveSlotPayload)} :
    ReadsOn R streamId cache
      (cache.renderSlots R M formatProgramDateTime streamId last slots).2 := by
  refine renderSlots_keeps (fun _ init h => h.trans (readsOn_rememberStreamInit hR init))
    (fun _ _ h => h.trans (.of_chunk rfl)) (fun _ observed h => h.trans (.of_chunk ?_))
    (.of_chunk rfl)
  cases observed <;> rfl

/-- The playlist of a stream with a position. -/
theorem renderedPlaylist_of_position {idx last : Nat}
    (hposition : R.position cache.chunkCache streamId = some (idx, last)) :
    cache.renderedPlaylist R M formatProgramDateTime streamId =
      (cache.renderSlots R M formatProgramDateTime streamId last
        (cache.readSlots R M streamId idx last)).1 := by
  have hsame : SameRender R M streamId (cache.readSlots R M streamId idx last) cache
      { cache with playlistCache := [] } :=
    ⟨⟨rfl, rfl, rfl, rfl, rfl⟩, fun _ => rfl, fun _ => by
      rw [HlsCache.getInitForStreamId_fst, HlsCache.getInitForStreamId_fst]
      rfl, by
        cases cache.observedOf streamId (cache.readSlots R M streamId idx last) <;> rfl⟩
  have hstream : HlsCache.streamPosition R { cache with playlistCache := [] } streamId =
      some (idx, last) := hposition
  rw [HlsCache.renderedPlaylist, HlsCache.playlistForStreamId, hstream]
  exact hsame.body

/-- The playlist stays when the slots are read the same and what is remembered renders the same. -/
theorem renderedPlaylist_congr (hR : LawfulVersions R) (hreads : ReadsOn R streamId cache after)
    {idx last : Nat} (hposition : R.position cache.chunkCache streamId = some (idx, last))
    (hrender : SameRender R M streamId (cache.readSlots R M streamId idx last) cache after) :
    after.renderedPlaylist R M formatProgramDateTime streamId =
      cache.renderedPlaylist R M formatProgramDateTime streamId := by
  rw [renderedPlaylist_of_position hposition,
    renderedPlaylist_of_position (hreads.1.position.trans hposition),
    readSlots_same hR hreads.1 hrender.windowParts hposition, hrender.body]

/-- What was there at a version that is current now was there at the current version. -/
theorem ReadsOn.at_before (h : ReadsOn R streamId cache after) {idx last version : Nat}
    (hafter : after.At R streamId idx last version)
    (hold : ∃ version', R.version cache.chunkCache idx = some version' ∧ version ≤ version') :
    cache.At R streamId idx last version := by
  obtain ⟨version', hversion', hle⟩ := hold
  obtain ⟨version'', hversion'', hle'⟩ := h.2 idx version' hversion'
  rw [hafter.2] at hversion''
  have hsame : version' = version := by
    have := Option.some.inj hversion''
    omega
  exact ⟨h.1.position.symm.trans hafter.1, by rw [hversion', hsame]⟩

variable {sys : PlaylistTasks C}

/-- A step under which the slots are read the same, and which changes one render at most. -/
theorem PlaylistTasks.Coherent.carry (hR : LawfulVersions R)
    (h : sys.Coherent R M formatProgramDateTime streamId) {cache : HlsCache C}
    {commit : Option PendingRecord} {renders : Table Nat RenderTask}
    (hreads : ReadsOn R streamId sys.cache cache)
    (hplaylists : cache.playlistCache = sys.cache.playlistCache)
    (hwindow : cache.windowParts = sys.cache.windowParts)
    (hbody : sys.NoBody R streamId ∨
      ∀ idx last, R.position sys.cache.chunkCache streamId = some (idx, last) →
        cache.renderedPlaylist R M formatProgramDateTime streamId =
          sys.cache.renderedPlaylist R M formatProgramDateTime streamId)
    (hrenders : ∀ render task, renders.lookup render = some task →
      sys.renders.lookup render = some task ∨
      (∃ version, R.version cache.chunkCache task.streamIdx = some version ∧
        task.version ≤ version) ∧
      ∀ last, cache.At R streamId task.streamIdx last task.version →
        task.UpToDate R M formatProgramDateTime streamId cache last) :
    PlaylistTasks.Coherent R M formatProgramDateTime streamId ⟨cache, commit, renders⟩ := by
  refine ⟨fun idx cached hcached hstream => ?_, fun render task hrender => ?_,
    fun idx last version body hat hcached => ?_, fun render task last hrender hat => ?_⟩
  · rw [hplaylists] at hcached
    exact hreads.2.bounded (h.behind idx cached hcached hstream)
  · rcases hrenders render task hrender with hold | hnew
    · exact hreads.2.bounded (h.bounded render task hold)
    · exact hnew.1
  · rw [hplaylists] at hcached
    -- a body of the current version was one of the current version before the step
    have hbefore := hreads.at_before hat (h.behind idx _ hcached rfl)
    rcases hbody with hnone | hsame
    · exact absurd hcached ((hnone idx last version hbefore).1 body)
    · exact (h.cached idx last version body hbefore hcached).trans (hsame idx last hbefore.1).symm
  · rcases hrenders render task hrender with hold | hnew
    · have hbefore := hreads.at_before hat (h.bounded render task hold)
      have hdate := h.renders render task last hold hbefore
      obtain ⟨streamIdx, version, point⟩ := task
      cases point with
      | looked last' => exact hdate
      | read last' slots =>
          exact ⟨hdate.1, hdate.2.trans (readSlots_same hR hreads.1 hwindow hbefore.1).symm⟩
      | rendered body =>
          rcases hbody with hnone | hsame
          · exact absurd hold ((hnone streamIdx last version hbefore).2 render body)
          · exact hdate.trans (hsame streamIdx last hbefore.1).symm
    · exact hnew.2 last hat

/-- A put that changes the version. -/
theorem PlaylistTasks.Coherent.bump (h : sys.Coherent R M formatProgramDateTime streamId)
    {cache : HlsCache C} {commit : Option PendingRecord}
    (hgrow : R.VersionsGrow sys.cache.chunkCache cache.chunkCache)
    (hbumped : R.Bumped streamId sys.cache.chunkCache cache.chunkCache)
    (hplaylists : cache.playlistCache = sys.cache.playlistCache) :
    PlaylistTasks.Coherent R M formatProgramDateTime streamId ⟨cache, commit, sys.renders⟩ := by
  -- nothing is of the new version
  have hnone {idx last version : Nat} (hat : cache.At R streamId idx last version)
      (hold : ∃ version', R.version sys.cache.chunkCache idx = some version' ∧
        version ≤ version') : False := by
    obtain ⟨version', hversion', hle⟩ := hold
    obtain ⟨version'', hversion'', hlt⟩ := hbumped idx last version' hat.1 hversion'
    rw [hat.2] at hversion''
    have := Option.some.inj hversion''
    omega
  refine ⟨fun idx cached hcached hstream => ?_, fun render task hrender => ?_,
    fun idx last version body hat hcached => ?_, fun render task last hrender hat => ?_⟩
  · rw [hplaylists] at hcached
    exact hgrow.bounded (h.behind idx cached hcached hstream)
  · exact hgrow.bounded (h.bounded render task hrender)
  · rw [hplaylists] at hcached
    exact (hnone hat (h.behind idx _ hcached rfl)).elim
  · exact (hnone hat (h.bounded render task hrender)).elim

theorem windowParts_putObject {live : LiveTsCache C} {c : MediaCommit} :
    (live.putObject K streamId c).1.windowParts = live.windowParts := by
  refine LiveTsCache.putObject_keeps (P := fun after => after.windowParts = live.windowParts)
    (fun _ _ _ h => ?_) (fun _ _ _ _ h => h) (fun _ _ h => h) (fun _ _ _ _ h => h) rfl
  rw [LiveTsCache.activateEpoch]
  dsimp only
  split <;> exact h

theorem playlistCache_includeMap (kind : LiveMediaKind) :
    (cache.includeMap R M streamId kind).2.playlistCache = cache.playlistCache :=
  includeMap_keeps (P := fun after => after.playlistCache = cache.playlistCache)
    (fun _ _ h => h) rfl

/-- Rendering stores nothing yet. -/
theorem playlistCache_renderSlots {last : Nat} {slots : List (Nat × LiveSlotPayload)} :
    (cache.renderSlots R M formatProgramDateTime streamId last slots).2.playlistCache =
      cache.playlistCache := by
  refine renderSlots_keeps (P := fun after => after.playlistCache = cache.playlistCache)
    (fun _ _ h => h) (fun _ _ h => h) (fun _ observed h => ?_) rfl
  cases observed <;> exact h

/-- A put. -/
theorem PlaylistTasks.Coherent.put (hR : LawfulVersions R)
    (h : sys.Coherent R M formatProgramDateTime streamId) {c : MediaCommit}
    (hsettled : sys.Settled R M K formatProgramDateTime streamId (.put c)) :
    (playlistStep R M K formatProgramDateTime streamId sys (.put c)).2.Coherent R M
      formatProgramDateTime streamId := by
  rw [playlistStep]
  split
  · exact h
  · next hfree =>
      have hmoves := @LiveTsCache.moves_putObject C R K streamId c sys.cache.toLiveTsCache hR
      have hcommit : sys.commit = none := by simpa using hfree
      -- a put that stores nothing new leaves the version, and then there must be no body of it
      by_cases hbumped : R.Bumped streamId sys.cache.chunkCache
          (sys.cache.toLiveTsCache.putObject K streamId c).1.chunkCache
      · exact h.bump hmoves.grow hbumped rfl
      · refine h.carry hR ⟨hmoves.seen.resolve_right hbumped, hmoves.grow⟩ rfl
          windowParts_putObject (Or.inl ((hsettled hcommit).resolve_left hbumped))
          fun _ _ hrender => Or.inl hrender

/-- A record. -/
theorem PlaylistTasks.Coherent.record (hR : LawfulVersions R)
    (h : sys.Coherent R M formatProgramDateTime streamId)
    (hsettled : sys.Settled R M K formatProgramDateTime streamId .record) :
    (playlistStep R M K formatProgramDateTime streamId sys .record).2.Coherent R M
      formatProgramDateTime streamId := by
  rw [playlistStep]
  cases hcommit : sys.commit with
  | none => exact h
  | some pending =>
      refine h.carry hR (.of_chunk rfl) rfl rfl (Or.inl (hsettled ?_))
        fun _ _ hrender => Or.inl hrender
      rw [hcommit]
      nofun

/-- A render begins. -/
theorem PlaylistTasks.Coherent.look (hR : LawfulVersions R)
    (h : sys.Coherent R M formatProgramDateTime streamId) (render : Nat) :
    (playlistStep R M K formatProgramDateTime streamId sys (.look render)).2.Coherent R M
      formatProgramDateTime streamId := by
  rw [playlistStep]
  split
  · exact h
  · rw [lookStep]
    cases hposition : sys.cache.streamPosition R streamId with
    | none =>
        have hnone : R.position sys.cache.chunkCache streamId = none := hposition
        -- without a position nothing is cached and no render is under way for the version
        refine h.carry hR (readsOn_includeMap hR _) (playlistCache_includeMap _)
          includeMap_spec.2.1.windowParts (Or.inr fun idx last hat => ?_)
          fun _ _ hrender => Or.inl hrender
        rw [hnone] at hat
        cases hat
    | some entry =>
        obtain ⟨streamIdx, last⟩ := entry
        have hat : R.position sys.cache.chunkCache streamId = some (streamIdx, last) := hposition
        obtain ⟨version, hversion⟩ := hR.version_some _ _ _ _ hat
        dsimp only
        split
        · exact h
        · refine h.carry hR (.of_chunk rfl) rfl rfl (Or.inr fun _ _ _ => rfl)
            fun render' task hrender => ?_
          rcases AList.lookup_of_insert hrender with ⟨_, rfl⟩ | ⟨_, hold⟩
          · right
            simp only [hversion, Option.getD_some]
            refine ⟨⟨version, rfl, le_refl version⟩, fun last' hlater => ?_⟩
            have hboth := hat.symm.trans hlater.1
            exact (Prod.mk.inj (Option.some.inj hboth)).2
          · exact Or.inl hold

/-- A render reads the slots. -/
theorem PlaylistTasks.Coherent.slots (hR : LawfulVersions R)
    (h : sys.Coherent R M formatProgramDateTime streamId) (render : Nat) :
    (playlistStep R M K formatProgramDateTime streamId sys (.slots render)).2.Coherent R M
      formatProgramDateTime streamId := by
  rw [playlistStep]
  split
  · next streamIdx version last hlookup =>
      have hbounded := h.bounded render _ hlookup
      refine h.carry hR (.of_chunk rfl) rfl rfl (Or.inr fun _ _ _ => rfl)
        fun render' task hrender => ?_
      rcases AList.lookup_of_replace hlookup hrender with ⟨_, rfl⟩ | ⟨_, hold⟩
      · right
        refine ⟨hbounded, fun last' hat => ?_⟩
        have hlast : last = last' := h.renders render _ last' hlookup hat
        exact ⟨hlast, by rw [hlast]⟩
      · exact Or.inl hold
  · exact h

/-- A render reads the live state. -/
theorem PlaylistTasks.Coherent.state (hR : LawfulVersions R)
    (h : sys.Coherent R M formatProgramDateTime streamId) {render : Nat}
    (hsettled : sys.Settled R M K formatProgramDateTime streamId (.state render)) :
    (playlistStep R M K formatProgramDateTime streamId sys (.state render)).2.Coherent R M
      formatProgramDateTime streamId := by
  rw [playlistStep]
  split
  · next streamIdx version last slots hlookup =>
      have hbounded := h.bounded render _ hlookup
      have hreads : ReadsOn R streamId sys.cache
          (sys.cache.renderSlots R M formatProgramDateTime streamId last slots).2 :=
        readsOn_renderSlots hR
      have hsame : SameRender R M streamId slots sys.cache
          (sys.cache.renderSlots R M formatProgramDateTime streamId last slots).2 :=
        sameRender_renderSlots
      -- from the slots that are in the cache it renders the playlist that stays
      have hfresh (idx last' : Nat)
          (hposition : R.position sys.cache.chunkCache streamId = some (idx, last'))
          (hlast : last = last') (hslots : slots = sys.cache.readSlots R M streamId idx last') :
          (sys.cache.renderSlots R M formatProgramDateTime streamId last slots).2.renderedPlaylist R
              M formatProgramDateTime streamId =
            sys.cache.renderedPlaylist R M formatProgramDateTime streamId ∧
          (sys.cache.renderSlots R M formatProgramDateTime streamId last slots).1 =
            sys.cache.renderedPlaylist R M formatProgramDateTime streamId := by
        refine ⟨renderedPlaylist_congr hR hreads hposition (hslots ▸ hsame), ?_⟩
        rw [renderedPlaylist_of_position hposition, ← hslots, hlast]
      refine h.carry hR hreads playlistCache_renderSlots hsame.windowParts ?_
        fun render' task hrender => ?_
      · rcases hsettled streamIdx version last slots hlookup with
          ⟨hposition, hslots⟩ | hnone | ⟨hkind, hinit, hlongest⟩
        -- the slots it has read are still those of the window
        · right
          intro idx last' hat
          obtain ⟨rfl, rfl⟩ := Prod.mk.inj (Option.some.inj (hposition.symm.trans hat))
          exact (hfresh streamIdx last hat rfl hslots).1
        · exact Or.inl hnone
        -- its slots are old ones, but what it remembers of them was known before
        · right
          intro idx last' hat
          refine renderedPlaylist_congr hR hreads hat
            ⟨hsame.toSameObserved, fun _ => hkind, fun _ => hinit, ?_⟩
          cases sys.cache.observedOf streamId (sys.cache.readSlots R M streamId idx last') with
          | none => exact hlongest
          | some observed =>
              simp only [longestSegment, HlsCache.observeSegmentDuration, AList.lookup_insert]
              rw [hlongest]
      · rcases AList.lookup_of_replace hlookup hrender with ⟨_, rfl⟩ | ⟨_, hold⟩
        · right
          refine ⟨?_, fun last' hat => ?_⟩
          · exact hreads.2.bounded hbounded
          -- the version is still the one it began with, so its slots are the current ones
          · have hbefore := hreads.at_before hat hbounded
            obtain ⟨hlast, hslots⟩ := h.renders render _ last' hlookup hbefore
            obtain ⟨hstays, hbody⟩ := hfresh streamIdx last' hbefore.1 hlast hslots
            exact hbody.trans hstays.symm
        · exact Or.inl hold
  · exact h

/-- A render stores its body. -/
theorem PlaylistTasks.Coherent.store (h : sys.Coherent R M formatProgramDateTime streamId)
    (render : Nat) :
    (playlistStep R M K formatProgramDateTime streamId sys (.store render)).2.Coherent R M
      formatProgramDateTime streamId := by
  rw [playlistStep]
  split
  · next streamIdx version body hlookup =>
      have hmine := fun last => h.renders render _ last hlookup
      have hrenders (render' : Nat) (task : RenderTask)
          (hrender : (sys.renders.erase render).lookup render' = some task) :=
        (AList.lookup_of_erase hrender).2
      rw [HlsCache.cachePlaylist]
      split
      · exact ⟨h.behind, fun render' task hrender => h.bounded render' task (hrenders _ _ hrender),
          h.cached, fun render' task last hrender => h.renders render' task last
            (hrenders _ _ hrender)⟩
      · next hversion =>
          have hcurrent : R.version sys.cache.chunkCache streamIdx = some version := by
            simpa using hversion
          refine ⟨fun idx cached hcached hstream => ?_,
            fun render' task hrender => h.bounded render' task (hrenders _ _ hrender),
            fun idx last version' body' hat hcached => ?_,
            fun render' task last hrender => h.renders render' task last (hrenders _ _ hrender)⟩
          · rw [List.getElem?_set] at hcached
            split at hcached
            · next hidx =>
                split at hcached
                · cases hcached
                  exact ⟨version, hidx ▸ hcurrent, le_refl version⟩
                · cases hcached
            · exact h.behind idx cached hcached hstream
          · rw [List.getElem?_set] at hcached
            split at hcached
            · next hidx =>
                subst hidx
                split at hcached
                · cases hcached
                  exact hmine last hat
                · cases hcached
            · exact h.cached idx last version' body' hat hcached
  · exact h

/-- **Every settled step keeps the playlist cache coherent.** -/
theorem PlaylistTasks.Coherent.step (hR : LawfulVersions R)
    (h : sys.Coherent R M formatProgramDateTime streamId) {event : PlaylistEvent}
    (hsettled : sys.Settled R M K formatProgramDateTime streamId event) :
    (playlistStep R M K formatProgramDateTime streamId sys event).2.Coherent R M
      formatProgramDateTime streamId := by
  cases event with
  | put c => exact h.put hR hsettled
  | record => exact h.record hR hsettled
  | look render => exact h.look hR render
  | slots render => exact h.slots hR render
  | state render => exact h.state hR hsettled
  | store render => exact h.store render

/-! ## §6. What is served. -/

/-- The playlist of a stream without a position. -/
theorem renderedPlaylist_of_none (hposition : sys.cache.streamPosition R streamId = none)
    (render : Nat) :
    (lookStep R M streamId sys render).1 =
      some (sys.cache.renderedPlaylist R M formatProgramDateTime streamId) := by
  have hstream : HlsCache.streamPosition R { sys.cache with playlistCache := [] } streamId = none :=
    hposition
  rw [HlsCache.renderedPlaylist, HlsCache.playlistForStreamId, lookStep, hposition, hstream]
  have hsame : (HlsCache.getInitForStreamId R M { sys.cache with playlistCache := [] } streamId).1 =
      (sys.cache.getInitForStreamId R M streamId).1 := by
    rw [HlsCache.getInitForStreamId_fst, HlsCache.getInitForStreamId_fst]
    rfl
  obtain ⟨hmap, hlive, _⟩ := @includeMap_spec C R M sys.cache streamId
    ((sys.cache.state.streamMediaKinds.lookup streamId).getD .fmp4)
  obtain ⟨hmap', hlive', _⟩ := @includeMap_spec C R M { sys.cache with playlistCache := [] }
    streamId ((sys.cache.state.streamMediaKinds.lookup streamId).getD .fmp4)
  simp only
  rw [hmap, hmap', hsame, hlive.emptyPlaylist, hlive'.emptyPlaylist]
  rfl

/-- **A render that is served at once** gets the playlist that is rendered now. -/
theorem PlaylistTasks.Coherent.served (hR : LawfulVersions R)
    (h : sys.Coherent R M formatProgramDateTime streamId) {render : Nat}
    {body : List PlaylistLine} (hserved : (lookStep R M streamId sys render).1 = some body) :
    body = sys.cache.renderedPlaylist R M formatProgramDateTime streamId := by
  cases hposition : sys.cache.streamPosition R streamId with
  | none =>
      rw [renderedPlaylist_of_none hposition] at hserved
      exact (Option.some.inj hserved).symm
  | some entry =>
      obtain ⟨streamIdx, last⟩ := entry
      obtain ⟨version, hversion⟩ := hR.version_some _ _ _ _ hposition
      rw [lookStep, hposition] at hserved
      simp only [hversion, Option.getD_some] at hserved
      split at hserved
      · next cached hhit =>
          cases hserved
          exact h.cached streamIdx last version _ ⟨hposition, hversion⟩
            (cachedPlaylist_eq_some.1 hhit)
      · cases hserved

/-- A render that runs through without a break. -/
theorem playlistForStreamId_of_look (render : Nat) :
    (sys.cache.playlistForStreamId R M formatProgramDateTime streamId).1 =
      (lookStep R M streamId sys render).1.getD
        (sys.cache.renderedPlaylist R M formatProgramDateTime streamId) := by
  cases hposition : sys.cache.streamPosition R streamId with
  | none =>
      rw [HlsCache.playlistForStreamId, lookStep, hposition]
      rfl
  | some entry =>
      obtain ⟨streamIdx, last⟩ := entry
      rw [HlsCache.playlistForStreamId, lookStep, hposition]
      dsimp only
      cases sys.cache.cachedPlaylist streamId streamIdx
          ((R.version sys.cache.chunkCache streamIdx).getD 0) with
      | some body => rfl
      | none => exact (renderedPlaylist_of_position hposition).symm

/-- The body a render comes to with this step: it is served at once, or reads the live state. -/
def PlaylistTasks.yielded (R : ChunkCacheReads C) (M : MediaObjectCrate)
    (formatProgramDateTime : Nat → Option String) (streamId : UInt64) (sys : PlaylistTasks C) :
    PlaylistEvent → Option (Nat × List PlaylistLine)
  | .look render =>
      if render ∈ sys.renders then none
      else (lookStep R M streamId sys render).1.map fun body => (render, body)
  | .state render =>
      match sys.renders.lookup render with
      | some ⟨_, _, .read last slots⟩ => some (render,
          (sys.cache.renderSlots R M formatProgramDateTime streamId last slots).1)
      | _ => none
  | _ => none

def PlaylistEvent.isRender : PlaylistEvent → Bool
  | .put _ | .record => false
  | _ => true

/-- Renders that began after this moment have read the slots of this moment. -/
structure Since (R : ChunkCacheReads C) (M : MediaObjectCrate) (streamId : UInt64)
    (sys now : PlaylistTasks C) : Prop where
  reads : ReadsOn R streamId sys.cache now.cache
  window : now.cache.windowParts = sys.cache.windowParts
  begun : ∀ render task, render ∉ sys.renders → now.renders.lookup render = some task →
    match task.point with
    | .looked last => R.position sys.cache.chunkCache streamId = some (task.streamIdx, last)
    | .read last slots => R.position sys.cache.chunkCache streamId = some (task.streamIdx, last) ∧
        slots = sys.cache.readSlots R M streamId task.streamIdx last
    | .rendered _ => True

theorem Since.refl (sys : PlaylistTasks C) : Since R M streamId sys sys :=
  ⟨.of_chunk rfl, rfl, fun _ _ hnew hlookup => absurd (AList.mem_of_lookup hlookup) hnew⟩

/-- A step of a render. -/
theorem Since.step (hR : LawfulVersions R) {now : PlaylistTasks C}
    (h : Since R M streamId sys now) {event : PlaylistEvent} (hevent : event.isRender = true) :
    Since R M streamId sys (playlistStep R M K formatProgramDateTime streamId now event).2 := by
  cases event with
  | put c => cases hevent
  | record => cases hevent
  | look render =>
      rw [playlistStep]
      split
      · exact h
      · rw [lookStep]
        cases hposition : now.cache.streamPosition R streamId with
        | none =>
            exact ⟨h.reads.trans (readsOn_includeMap hR _),
              includeMap_spec.2.1.windowParts.trans h.window, h.begun⟩
        | some entry =>
            obtain ⟨streamIdx, last⟩ := entry
            dsimp only
            split
            · exact h
            · refine ⟨h.reads, h.window, fun render' task hnew hlookup => ?_⟩
              rcases AList.lookup_of_insert hlookup with ⟨_, rfl⟩ | ⟨_, hold⟩
              · exact h.reads.1.position.symm.trans hposition
              · exact h.begun render' task hnew hold
  | slots render =>
      rw [playlistStep]
      split
      · next streamIdx version last hlookup =>
          have hmine := fun hnew => h.begun render _ hnew hlookup
          refine ⟨h.reads, h.window, fun render' task hnew hlater => ?_⟩
          rcases AList.lookup_of_replace hlookup hlater with ⟨rfl, rfl⟩ | ⟨_, hold⟩
          · have hposition : R.position sys.cache.chunkCache streamId = some (streamIdx, last) :=
              hmine hnew
            exact ⟨hposition, readSlots_same hR h.reads.1 h.window hposition⟩
          · exact h.begun render' task hnew hold
      · exact h
  | state render =>
      rw [playlistStep]
      split
      · next streamIdx version last slots hlookup =>
          have hsame : SameRender R M streamId slots now.cache
              (now.cache.renderSlots R M formatProgramDateTime streamId last slots).2 :=
            sameRender_renderSlots
          refine ⟨h.reads.trans (readsOn_renderSlots hR), hsame.windowParts.trans h.window,
            fun render' task hnew hlater => ?_⟩
          rcases AList.lookup_of_replace hlookup hlater with ⟨_, rfl⟩ | ⟨_, hold⟩
          · trivial
          · exact h.begun render' task hnew hold
      · exact h
  | store render =>
      rw [playlistStep]
      split
      · next streamIdx version body hlookup =>
          have hchunk : (now.cache.cachePlaylist R streamId streamIdx version body).chunkCache =
              now.cache.chunkCache ∧
              (now.cache.cachePlaylist R streamId streamIdx version body).windowParts =
                now.cache.windowParts := by
            rw [HlsCache.cachePlaylist]
            split <;> exact ⟨rfl, rfl⟩
          exact ⟨h.reads.trans (.of_chunk hchunk.1), hchunk.2.trans h.window,
            fun render' task hnew hlater =>
              h.begun render' task hnew (AList.lookup_of_erase hlater).2⟩
      · exact h

/-- A render that began since comes to the playlist that is rendered now. -/
theorem Since.yielded (hR : LawfulVersions R) {now : PlaylistTasks C}
    (h : Since R M streamId sys now)
    (hcoherent : now.Coherent R M formatProgramDateTime streamId) {event : PlaylistEvent}
    {render : Nat} {body : List PlaylistLine}
    (hyielded : now.yielded R M formatProgramDateTime streamId event = some (render, body))
    (hnew : render ∉ sys.renders) :
    body = now.cache.renderedPlaylist R M formatProgramDateTime streamId := by
  cases event with
  | look render' =>
      rw [PlaylistTasks.yielded] at hyielded
      split at hyielded
      · cases hyielded
      · obtain ⟨body', hbody, hpair⟩ := Option.map_eq_some_iff.1 hyielded
        rw [← (Prod.mk.inj hpair).2]
        exact hcoherent.served hR hbody
  | state render' =>
      rw [PlaylistTasks.yielded] at hyielded
      split at hyielded
      · next idx version last slots hlookup =>
          obtain ⟨rfl, rfl⟩ := Prod.mk.inj (Option.some.inj hyielded)
          obtain ⟨hposition, hslots⟩ := h.begun render' _ hnew hlookup
          rw [renderedPlaylist_of_position (h.reads.1.position.trans hposition), hslots,
            readSlots_same hR h.reads.1 h.window hposition]
      · cases hyielded
  | put c => cases hyielded
  | record => cases hyielded
  | slots render' => cases hyielded
  | store render' => cases hyielded

/-- **The playlist cache is coherent** in a run in which every step is settled.  A render that runs
through gives the playlist that is rendered without the cache; and from every moment on, as long as
there are only renders, one that begins comes to the playlist that is rendered when it comes to
it. -/
theorem playlist_cache_coherent (hR : LawfulVersions R) {start : PlaylistTasks C}
    (hstart : start.cache.playlistCache.all (·.isNone) = true ∧ start.renders = ∅)
    (events : List PlaylistEvent)
    (hsettled : ∀ visit ∈ trace (playlistStep R M K formatProgramDateTime streamId) start events,
      visit.1.Settled R M K formatProgramDateTime streamId visit.2) :
    let sys := exec (playlistStep R M K formatProgramDateTime streamId) start events
    (sys.cache.playlistForStreamId R M formatProgramDateTime streamId).1 =
        sys.cache.renderedPlaylist R M formatProgramDateTime streamId ∧
      ∀ later : List PlaylistEvent, (∀ event ∈ later, event.isRender = true) →
        (∀ visit ∈ trace (playlistStep R M K formatProgramDateTime streamId) sys later,
          visit.1.Settled R M K formatProgramDateTime streamId visit.2) →
        ∀ visit ∈ trace (playlistStep R M K formatProgramDateTime streamId) sys later,
          ∀ render body,
            visit.1.yielded R M formatProgramDateTime streamId visit.2 = some (render, body) →
            render ∉ sys.renders →
            body = visit.1.cache.renderedPlaylist R M formatProgramDateTime streamId := by
  intro sys
  -- nothing is cached and no render is under way
  have hbegin : start.Coherent R M formatProgramDateTime streamId := by
    obtain ⟨hempty, hrenders⟩ := hstart
    have hnone {idx : Nat} {cached : CachedPlaylist}
        (h : start.cache.playlistCache[idx]? = some (some cached)) : False := by
      have hslot := List.all_eq_true.1 hempty _ (List.mem_of_getElem? h)
      cases hslot
    have hidle {render : Nat} {task : RenderTask}
        (h : start.renders.lookup render = some task) : False := by
      rw [hrenders] at h
      cases h
    exact ⟨fun _ _ h _ => (hnone h).elim, fun _ _ h => (hidle h).elim,
      fun _ _ _ _ _ h => (hnone h).elim, fun _ _ _ h => (hidle h).elim⟩
  have hcoherent : sys.Coherent R M formatProgramDateTime streamId :=
    exec_invariant_along _ (PlaylistTasks.Coherent R M formatProgramDateTime streamId)
      (PlaylistTasks.Settled R M K formatProgramDateTime streamId)
      (fun _ _ hsettled h => h.step hR hsettled) events start hsettled hbegin
  refine ⟨?_, fun later hrenders hlater visit hvisit render body hyielded hnew => ?_⟩
  · have hlooked : (sys.cache.playlistForStreamId R M formatProgramDateTime streamId).1 = _ :=
      playlistForStreamId_of_look 0
    rw [hlooked]
    cases hlook : (lookStep R M streamId sys 0).1 with
    | none => rfl
    | some body => exact hcoherent.served hR hlook
  -- induction on the renders up to this step, from the moment `sys`
  · obtain ⟨before, after, hops, hstate⟩ := exists_exec_of_mem_trace _ hvisit
    rw [hops] at hlater hrenders
    rw [trace_append] at hlater
    have hboth := exec_invariant_along (playlistStep R M K formatProgramDateTime streamId)
      (fun now => now.Coherent R M formatProgramDateTime streamId ∧ Since R M streamId sys now)
      (fun now event => now.Settled R M K formatProgramDateTime streamId event ∧
        event.isRender = true)
      (fun _ _ hstep h => ⟨h.1.step hR hstep.1, h.2.step hR hstep.2⟩) before sys
      (fun e he => ⟨hlater e (List.mem_append_left _ he), by
        obtain ⟨first, rest, hbefore, _⟩ := exists_exec_of_mem_trace _ he
        refine hrenders e.2 (List.mem_append_left _ ?_)
        rw [hbefore]
        exact List.mem_append_right _ List.mem_cons_self⟩)
      ⟨hcoherent, .refl sys⟩
    rw [← hstate] at hboth
    exact hboth.2.yielded hR hboth.1 hyielded hnew

end Steps

theorem sampleReads_versions : LawfulVersions sampleReads where
  for_stream := (sampleReads_lawful 0).for_stream
  version_some := fun chunk _ idx _ _ => ⟨(chunk (UInt64.ofNat idx)).version, rfl⟩
  zero_position := by
    intro chunk streamId
    rw [position_sampleReads]
    simp
  zero_versions := fun chunk streamId => versionsGrow_update (Nat.le_succ _)
  init_reads := by
    intro chunk streamId init
    refine ⟨?_, fun slot => ?_⟩
    · rw [position_sampleReads, position_sampleReads]
      simp
    · simp
  init_versions := fun chunk streamId init => versionsGrow_update (Nat.le_refl _)
  put_moves := by
    intro chunk streamId slot base bytes
    simp only [sampleStore]
    split
    · exact .refl _
    · refine ⟨versionsGrow_update (Nat.le_succ _), Or.inr fun idx last version hposition hversion => ?_⟩
      rw [position_sampleReads, Option.map_eq_some_iff] at hposition
      obtain ⟨_, _, hpair⟩ := hposition
      obtain rfl := (Prod.mk.inj hpair).1
      obtain rfl := Option.some.inj hversion
      refine ⟨_, rfl, ?_⟩
      simp only [UInt64.ofNat_toNat, Function.update_self]
      exact Nat.lt_succ_self _

/-- Stream 3 has an initialization and no parts. -/
def freshPlaylists : PlaylistTasks sampleStore where
  cache := emptyHlsCache 2 6
  commit := none
  renders := ∅

/-- The steps of a render. -/
def renderRun (render : Nat) : List PlaylistEvent :=
  [.look render, .slots render, .state render, .store render]

/-- A render after the record of a part. -/
def recordedRun : List PlaylistEvent :=
  [.put (feedCommit 0 true true), .record] ++ renderRun 0

/-- Its body is cached, and it is the playlist of the state. -/
theorem playlist_cache_coherent_recorded :
    let sys := exec (playlistStep sampleReads feedCrate sampleSoundkit (fun _ => none) 3)
      freshPlaylists recordedRun
    (sys.cache.cachedPlaylist 3 3 1).isSome = true ∧
      (sys.cache.playlistForStreamId sampleReads feedCrate (fun _ => none) 3).1 =
        sys.cache.renderedPlaylist sampleReads feedCrate (fun _ => none) 3 := by
  intro sys
  refine ⟨by decide +kernel, (@playlist_cache_coherent sampleStore sampleReads feedCrate
    sampleSoundkit (fun _ => none) 3 sampleReads_versions freshPlaylists ⟨rfl, rfl⟩ recordedRun
    fun visit hvisit => ?_).1⟩
  simp only [recordedRun, renderRun, List.cons_append, List.nil_append, trace_cons, trace_nil,
    List.mem_cons, List.not_mem_nil, or_false] at hvisit
  rcases hvisit with rfl | rfl | rfl | rfl | rfl | rfl
  · intro _
    refine Or.inl fun idx last version hposition hversion => ?_
    cases hposition
    cases hversion
    exact ⟨1, rfl, Nat.one_pos⟩
  · intro _ idx last version hat
    obtain ⟨hposition, _⟩ := hat
    cases hposition
    exact ⟨nofun, nofun⟩
  · trivial
  · trivial
  · intro idx version last slots hlookup
    cases hlookup
    exact Or.inl ⟨rfl, rfl⟩
  · trivial

/-- A render between the put and the record of a part: its body, for which the part is not
independent, is served after the record. -/
theorem half_updated_body_served :
    let sys := exec (playlistStep sampleReads feedCrate sampleSoundkit (fun _ => none) 3)
      freshPlaylists (.put (feedCommit 0 true true) :: renderRun 0 ++ [.record])
    sys.commit.isNone = true ∧ sys.renders.entries.isEmpty = true ∧
      (sys.cache.playlistForStreamId sampleReads feedCrate (fun _ => none) 3).1 ≠
        sys.cache.renderedPlaylist sampleReads feedCrate (fun _ => none) 3 := by
  decide +kernel

end AvMesh.LiveCache
