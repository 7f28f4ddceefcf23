/-
  AvMesh.LiveCache.Timing
  ───────────────────────
  **THE TIMING TAGS OF A PLAYLIST** (`playlist_for_stream_id`, src/main.rs).

  `EXT-X-PART-INF` and `EXT-X-TARGETDURATION` come from two running maxima:

      longest part       raised by a commit, in `record_part_available`
      longest segment    raised by a render, which groups the window anew

  `StreamTimes` is what of a stream they depend on.  A playlist rendered from
  it states its bounds (`renderParts_tags`), the bounds of the state never fall
  within an epoch (`Grows`), and a cached playlist is served again only while
  nothing newer has been.

  Main result: `timing_tags_bound`, for every run of commits of one epoch and
  playlist requests.
-/
import AvMesh.Lib.Rising
import AvMesh.LiveCache.Coherence

namespace AvMesh.LiveCache

open AvMesh.Lib

/-! ## §1. The tags of a playlist. -/

/-- The part targets of the `EXT-X-PART-INF` lines. -/
def partTargets (body : List PlaylistLine) : List Nat :=
  body.filterMap fun line => match line with
    | .partInf partTargetMs => some partTargetMs
    | _ => none

/-- The numbers of the `EXT-X-TARGETDURATION` lines. -/
def targetDurations (body : List PlaylistLine) : List Nat :=
  body.filterMap fun line => match line with
    | .targetDuration seconds => some seconds
    | _ => none

/-- The part target and the target duration. -/
def timingTags (body : List PlaylistLine) : Nat × Nat :=
  ((partTargets body).headD 0, (targetDurations body).headD 0)

/-- There is a part or a segment in the playlist. -/
def listsMedia (body : List PlaylistLine) : Bool :=
  body.any fun line => match line with
    | .part _ _ _ _ | .segment _ _ => true
    | _ => false

/-- **The tags bound what is listed.**  Seconds are rounded in `u64`, as the code
does it; in a window of up to 2^32 parts the rounding does not saturate. -/
structure TagsBound (windowParts : Nat) (body : List PlaylistLine) : Prop where
  partTarget : partTargets body = [(timingTags body).1]
  targetDuration : targetDurations body = [(timingTags body).2]
  parts : ∀ durationMs sequence kind independent,
    .part durationMs sequence kind independent ∈ body → durationMs ≤ (timingTags body).1
  segments : ∀ durationMs, .extInf durationMs ∈ body →
    satAdd durationMs 500 / 1000 ≤ (timingTags body).2
  exact : windowParts ≤ 2 ^ 32 → ∀ durationMs, .extInf durationMs ∈ body →
    satAdd durationMs 500 = durationMs + 500

section Lines

variable {head : PlaylistHead} {kind : LiveMediaKind} {audioOnly : Bool}
  {firstParted next mediaSequence : Nat} {complete : Nat × List ObservedPart → Bool}
  {groups : List (Nat × List ObservedPart)}

/-- What is read off the lines in front of the segments only. -/
theorem filterMap_renderPlaylist_head (read : PlaylistLine → Option Nat)
    (h : ∀ line, line.isHead = false → read line = none) :
    (renderPlaylist head kind audioOnly firstParted next complete groups).filterMap read =
      (renderHead head ((groups.head?.map (·.1)).getD 0)).filterMap read := by
  have hsegments : (groups.flatMap fun segment =>
      renderSegment kind audioOnly firstParted (complete segment) segment).filterMap read = [] := by
    refine List.filterMap_eq_nil_iff.2 fun line hline => h line ?_
    obtain ⟨segment, -, hline⟩ := List.mem_flatMap.1 hline
    rcases List.mem_append.1 hline with hpart | hend
    · split at hpart
      · cases hpart
      · obtain ⟨part, -, rfl⟩ := List.mem_map.1 hpart
        rfl
    · split at hend
      · rcases List.mem_cons.1 hend with rfl | hend
        · rfl
        · rw [List.mem_singleton.1 hend]
          rfl
      · cases hend
  rw [renderPlaylist, List.filterMap_append, List.filterMap_append, hsegments, List.append_nil,
    List.filterMap_cons_none (h _ rfl), List.filterMap_nil, List.append_nil]

theorem partTargets_renderPlaylist :
    partTargets (renderPlaylist head kind audioOnly firstParted next complete groups) =
      [head.partTargetMs] := by
  rw [partTargets, filterMap_renderPlaylist_head]
  · obtain ⟨_, independentSegments, hasMap, _, programDateTime⟩ := head
    cases independentSegments <;> cases hasMap <;> cases programDateTime <;> rfl
  · intro line hline
    cases line <;> first | rfl | cases hline

theorem targetDurations_renderPlaylist :
    targetDurations (renderPlaylist head kind audioOnly firstParted next complete groups) =
      [head.targetDuration] := by
  rw [targetDurations, filterMap_renderPlaylist_head]
  · obtain ⟨_, independentSegments, hasMap, _, programDateTime⟩ := head
    cases independentSegments <;> cases hasMap <;> cases programDateTime <;> rfl
  · intro line hline
    cases line <;> first | rfl | cases hline

theorem timingTags_renderPlaylist :
    timingTags (renderPlaylist head kind audioOnly firstParted next complete groups) =
      (head.partTargetMs, head.targetDuration) := by
  rw [timingTags, partTargets_renderPlaylist, targetDurations_renderPlaylist]
  rfl

/-- A line that does not stand in front is of a segment, or it is the last one. -/
theorem mem_renderPlaylist {line : PlaylistLine}
    (hmem : line ∈ renderPlaylist head kind audioOnly firstParted next complete groups)
    (hhead : line.isHead = false) (hmedia : ∀ number, line ≠ .mediaSequence number) :
    (∃ segment ∈ groups,
      line ∈ renderSegment kind audioOnly firstParted (complete segment) segment) ∨
    line = .preloadHint next kind := by
  rcases List.mem_append.1 hmem with hfront | hhint
  · rcases List.mem_append.1 hfront with hfront | hsegment
    · obtain ⟨_, independentSegments, hasMap, _, programDateTime⟩ := head
      cases independentSegments <;> cases hasMap <;> cases programDateTime <;>
        simp [renderHead] at hfront <;> grind [PlaylistLine.isHead]
    · exact .inl (List.mem_flatMap.1 hsegment)
  · exact .inr (List.mem_singleton.1 hhint)

/-- A part that is listed is one of a group. -/
theorem mem_part_renderPlaylist {durationMs sequence : Nat} {kind' : LiveMediaKind}
    {independent : Bool}
    (hmem : .part durationMs sequence kind' independent ∈
      renderPlaylist head kind audioOnly firstParted next complete groups) :
    ∃ segment ∈ groups, ∃ part ∈ segment.2, part.durationMs = durationMs := by
  rcases mem_renderPlaylist hmem rfl (fun _ => nofun) with ⟨segment, hsegment, hline⟩ | hhint
  · refine ⟨segment, hsegment, ?_⟩
    rcases List.mem_append.1 hline with hpart | hend
    · split at hpart
      · cases hpart
      · obtain ⟨part, hmember, heq⟩ := List.mem_map.1 hpart
        cases heq
        exact ⟨part, hmember, rfl⟩
    · split at hend
      · simp at hend
      · cases hend
  · cases hhint

/-- A duration that is listed is that of a complete group. -/
theorem mem_extInf_renderPlaylist {durationMs : Nat}
    (hmem : .extInf durationMs ∈
      renderPlaylist head kind audioOnly firstParted next complete groups) :
    ∃ segment ∈ groups, complete segment = true ∧ durationMs = groupDurationMs segment.2 := by
  rcases mem_renderPlaylist hmem rfl (fun _ => nofun) with ⟨segment, hsegment, hline⟩ | hhint
  · refine ⟨segment, hsegment, ?_⟩
    rcases List.mem_append.1 hline with hpart | hend
    · split at hpart
      · cases hpart
      · obtain ⟨part, _, heq⟩ := List.mem_map.1 hpart
        cases heq
    · split at hend
      · next hcomplete =>
          refine ⟨hcomplete, ?_⟩
          simpa using hend
      · cases hend
  · cases hhint

end Lines

/-! ## §2. What the tags are computed from. -/

/-- What of a stream its timing tags depend on. -/
structure StreamTimes where
  parts : RetainedParts
  maxPart : Option Nat
  maxSegment : Option Nat

def LiveState.times (s : LiveState) (streamId : UInt64) : StreamTimes where
  parts := s.parts streamId
  maxPart := s.streamMaxPartDurationMs.lookup streamId
  maxSegment := s.streamMaxSegmentDurationMs.lookup streamId

namespace StreamTimes

/-- `fallback_segment_duration_ms` is that of nominal parts. -/
def tags (t : StreamTimes) (nominal partsPerSegment : Nat) : Nat × Nat :=
  (max (t.maxPart.getD nominal) nominal,
    hlsTargetDurationFromMillis
      (max (t.maxSegment.getD (nominal * partsPerSegment)) (nominal * partsPerSegment)))

/-- Every retained part is a `u32` of milliseconds, and no longer than the longest one. -/
def Measured (t : StreamTimes) : Prop :=
  ∀ entry ∈ t.parts, ∀ durationMs, entry.2.durationMs = some durationMs →
    durationMs < 2 ^ 32 ∧ ∃ maximum, t.maxPart = some maximum ∧ durationMs ≤ maximum

/-- A maximum, once there, stays and does not fall. -/
def Rises (before after : Option Nat) : Prop :=
  ∀ maximum, before = some maximum → ∃ maximum', after = some maximum' ∧ maximum ≤ maximum'

structure Grows (t t' : StreamTimes) : Prop where
  maxPart : Rises t.maxPart t'.maxPart
  maxSegment : Rises t.maxSegment t'.maxSegment

theorem Rises.refl (before : Option Nat) : Rises before before :=
  fun maximum h => ⟨maximum, h, Nat.le_refl _⟩

theorem Rises.trans {before middle after : Option Nat} (h : Rises before middle)
    (h' : Rises middle after) : Rises before after := by
  intro maximum hmaximum
  obtain ⟨maximum', hmaximum', hle⟩ := h maximum hmaximum
  obtain ⟨maximum'', hmaximum'', hle'⟩ := h' maximum' hmaximum'
  exact ⟨maximum'', hmaximum'', Nat.le_trans hle hle'⟩

/-- The two ways a maximum is noted. -/
theorem Rises.noted (before : Option Nat) (durationMs : Nat) :
    Rises before (some (match before with
      | some maximum => max maximum durationMs
      | none => durationMs)) := by
  rintro maximum rfl
  exact ⟨_, rfl, Nat.le_max_left _ _⟩

/-- With its default for a stream without one. -/
theorem Rises.getD_le {before after : Option Nat} (h : Rises before after) (fallback : Nat) :
    max (before.getD fallback) fallback ≤ max (after.getD fallback) fallback := by
  cases before with
  | none =>
      rw [Option.getD_none]
      omega
  | some maximum =>
      obtain ⟨maximum', rfl, hle⟩ := h maximum rfl
      show max maximum fallback ≤ max maximum' fallback
      omega

theorem hlsTargetDurationFromMillis_mono {a b : Nat} (h : a ≤ b) :
    hlsTargetDurationFromMillis a ≤ hlsTargetDurationFromMillis b := by
  unfold hlsTargetDurationFromMillis satAdd
  omega

/-- **The bounds never fall.** -/
theorem Grows.tags_le {t t' : StreamTimes} (h : t.Grows t') (nominal partsPerSegment : Nat) :
    t.tags nominal partsPerSegment ≤ t'.tags nominal partsPerSegment :=
  ⟨h.maxPart.getD_le nominal,
    hlsTargetDurationFromMillis_mono (h.maxSegment.getD_le (nominal * partsPerSegment))⟩

end StreamTimes

variable {C : ChunkCacheCrate}

/-- The bounds a playlist rendered from this state states. -/
def HlsCache.tags (cache : HlsCache C) (streamId : UInt64) : Nat × Nat :=
  (cache.state.times streamId).tags cache.nominalPartDurationMs cache.partsPerSegment

/-! ## §3. A rendered playlist. -/

section Groups

variable {aligned : Bool} {partsPerSegment : Nat} {available : List ObservedPart}

/-- The parts of a listed segment are some of the parts. -/
theorem playlistGroups_sublist {segment : Nat × List ObservedPart}
    (h : segment ∈ playlistGroups aligned partsPerSegment available) :
    segment.2.Sublist available := by
  have hgroup := ((groupEntries_spec (playlistSegment aligned partsPerSegment) available).2
    segment.1 segment.2).1 (retainWholeSegments_sublist.subset h)
  rw [hgroup.1]
  exact List.filter_sublist

theorem groupDurationMs_le {group : List ObservedPart}
    (h : ∀ part ∈ group, part.durationMs < 2 ^ 32) :
    groupDurationMs group ≤ group.length * (2 ^ 32 - 1) := by
  induction group with
  | nil => exact Nat.le_refl _
  | cons part group ih =>
      have hfirst := h part List.mem_cons_self
      have hrest := ih fun other hother => h other (List.mem_cons_of_mem part hother)
      unfold groupDurationMs at hrest ⊢
      rw [List.map_cons, List.sum_cons, List.length_cons, Nat.succ_mul]
      omega

end Groups

section Render

variable {cache : HlsCache C} {streamId : UInt64}

theorem nominalPartDurationMs_lt : cache.nominalPartDurationMs < 2 ^ 32 := by
  unfold HlsCache.nominalPartDurationMs
  omega

/-- The duration of a part is one that was recorded, or the nominal one. -/
theorem available_bounded (h : (cache.state.times streamId).Measured) {sequences : List Nat}
    {part : ObservedPart} (hpart : part ∈ cache.available streamId sequences) :
    part.durationMs < 2 ^ 32 ∧ part.durationMs ≤ (cache.tags streamId).1 := by
  obtain ⟨sequence, -, rfl⟩ := List.mem_map.1 hpart
  show ((_ : Option Nat).getD _) < _ ∧ ((_ : Option Nat).getD _) ≤ max _ _
  cases hduration : ((cache.state.streamParts.lookup streamId).bind fun parts =>
      parts.get? sequence).bind (·.durationMs) with
  -- no duration was recorded: the nominal one is in the maximum of the tag
  | none => exact ⟨nominalPartDurationMs_lt, Nat.le_max_right _ _⟩
  | some durationMs =>
      obtain ⟨observed, hobserved, hrecorded⟩ := Option.bind_eq_some_iff.1 hduration
      obtain ⟨parts, hparts, hget⟩ := Option.bind_eq_some_iff.1 hobserved
      obtain ⟨front, rest, hsplit, -⟩ := List.lookup_eq_some_iff.1 hget
      have hentry : (sequence, observed) ∈ (cache.state.times streamId).parts := by
        show (sequence, observed) ∈ (cache.state.streamParts.lookup streamId).getD []
        rw [hparts, Option.getD_some, hsplit]
        exact List.mem_append_right _ List.mem_cons_self
      -- the recorded duration was noted, so it is within the longest part
      obtain ⟨hlt, maximum, hmaximum, hle⟩ := h _ hentry durationMs hrecorded
      refine ⟨hlt, ?_⟩
      rw [hmaximum]
      exact Nat.le_trans hle (Nat.le_max_left _ _)

/-- Observing the longest segment changes nothing else of the times. -/
theorem times_observeSegmentDuration (observed : Option Nat) :
    ((cache.observeSegmentDuration streamId observed).state.times streamId).parts =
        (cache.state.times streamId).parts ∧
      ((cache.observeSegmentDuration streamId observed).state.times streamId).maxPart =
        (cache.state.times streamId).maxPart ∧
      (cache.state.times streamId).Grows
        ((cache.observeSegmentDuration streamId observed).state.times streamId) ∧
      ∀ durationMs, observed = some durationMs → ∃ maximum,
        ((cache.observeSegmentDuration streamId observed).state.times streamId).maxSegment =
          some maximum ∧ durationMs ≤ maximum := by
  cases observed with
  | none => exact ⟨rfl, rfl, ⟨.refl _, .refl _⟩, nofun⟩
  | some observed =>
      have hlookup : ((cache.observeSegmentDuration streamId (some observed)).state.times
          streamId).maxSegment =
          some (match (cache.state.times streamId).maxSegment with
            | some durationMs => max durationMs observed
            | none => observed) := AList.lookup_insert _
      refine ⟨rfl, rfl, ⟨.refl _, ?_⟩, ?_⟩
      · rw [hlookup]
        exact StreamTimes.Rises.noted _ _
      · rintro _ ⟨⟩
        rw [hlookup]
        refine ⟨_, rfl, ?_⟩
        split
        · exact Nat.le_max_right _ _
        · exact Nat.le_refl _

theorem tags_observeSegmentDuration (observed : Option Nat) :
    (cache.observeSegmentDuration streamId observed).tags streamId =
      (max ((cache.state.streamMaxPartDurationMs.lookup streamId).getD cache.nominalPartDurationMs)
        cache.nominalPartDurationMs,
      hlsTargetDurationFromMillis
        (max (((cache.observeSegmentDuration streamId
            observed).state.streamMaxSegmentDurationMs.lookup streamId).getD
            (cache.nominalPartDurationMs * cache.partsPerSegment))
          (cache.nominalPartDurationMs * cache.partsPerSegment))) := by
  cases observed with
  | none => rfl
  | some _ => rfl

/-- A complete segment is no longer than the longest one that is observed. -/
theorem longest_le_tags {observed : Option Nat} {durationMs : Nat}
    (h : ∃ longest, observed = some longest ∧ durationMs ≤ longest) :
    satAdd durationMs 500 / 1000 ≤
      ((cache.observeSegmentDuration streamId observed).tags streamId).2 := by
  obtain ⟨longest, hlongest, hle⟩ := h
  obtain ⟨-, -, -, hmaximum⟩ := @times_observeSegmentDuration C cache streamId observed
  obtain ⟨maximum, hsome, hle'⟩ := hmaximum longest hlongest
  show _ ≤ hlsTargetDurationFromMillis (max (Option.getD _ _) _)
  rw [hsome, Option.getD_some]
  refine Nat.le_trans ?_ (StreamTimes.hlsTargetDurationFromMillis_mono
    (Nat.le_trans (Nat.le_trans hle hle') (Nat.le_max_left _ _)))
  exact Nat.le_max_left _ _

/-- **A rendered playlist keeps its own bounds**, and they are those of the state. -/
theorem renderParts_tags (formatProgramDateTime : Nat → Option String)
    (h : (cache.state.times streamId).Measured) (kind : LiveMediaKind) (init : Option Bytes)
    {sequences : List Nat} (hlength : sequences.length ≤ max cache.windowParts 1) :
    let rendered := cache.renderParts formatProgramDateTime streamId kind init sequences
    TagsBound cache.windowParts rendered.1 ∧ timingTags rendered.1 = rendered.2.tags streamId := by
  intro rendered
  set available := cache.available streamId sequences with havailable
  set aligned := keyframeAligned kind available
  set groups := playlistGroups aligned cache.partsPerSegment available with hgroups
  set complete := segmentIsComplete aligned cache.partsPerSegment groups
  set observed := ((groups.filter complete).map fun segment => groupDurationMs segment.2).max?
    with hobserved
  have hstate : rendered.2 = cache.observeSegmentDuration streamId observed := rfl
  obtain ⟨head, audioOnly, firstParted, next, hbody, htags⟩ :
      ∃ head audioOnly firstParted next,
        rendered.1 = renderPlaylist head kind audioOnly firstParted next complete groups ∧
        (head.partTargetMs, head.targetDuration) = rendered.2.tags streamId :=
    ⟨_, _, _, _, rfl, (tags_observeSegmentDuration observed).symm⟩
  have htiming : timingTags rendered.1 = rendered.2.tags streamId := by
    rw [hbody, timingTags_renderPlaylist, htags]
  have hpart : ∀ segment ∈ groups, ∀ part ∈ segment.2,
      part.durationMs < 2 ^ 32 ∧ part.durationMs ≤ (cache.tags streamId).1 :=
    fun segment hsegment part hmember =>
      available_bounded h ((playlistGroups_sublist hsegment).subset hmember)
  -- one tag of each kind, then the parts, then the whole segments
  refine ⟨⟨?_, ?_, ?_, ?_, ?_⟩, htiming⟩
  · rw [hbody, partTargets_renderPlaylist, timingTags_renderPlaylist]
  · rw [hbody, targetDurations_renderPlaylist, timingTags_renderPlaylist]
  · intro durationMs sequence kind' independent hmem
    rw [htiming, hstate, tags_observeSegmentDuration]
    rw [hbody] at hmem
    obtain ⟨segment, hsegment, part, hmember, rfl⟩ := mem_part_renderPlaylist hmem
    exact (hpart segment hsegment part hmember).2
  · intro durationMs hmem
    rw [htiming, hstate]
    rw [hbody] at hmem
    obtain ⟨segment, hsegment, hwhole, rfl⟩ := mem_extInf_renderPlaylist hmem
    -- the longest complete segment is observed before the head is written
    have hlisted : groupDurationMs segment.2 ∈
        (groups.filter complete).map fun segment => groupDurationMs segment.2 :=
      List.mem_map.2 ⟨segment, List.mem_filter.2 ⟨hsegment, hwhole⟩, rfl⟩
    obtain ⟨longest, hlongest⟩ := Option.isSome_iff_exists.1 (List.isSome_max?_of_mem hlisted)
    exact longest_le_tags ⟨longest, hlongest,
      (List.max?_eq_some_iff.1 hlongest).2 _ hlisted⟩
  · intro hwindow durationMs hmem
    rw [hbody] at hmem
    obtain ⟨segment, hsegment, -, rfl⟩ := mem_extInf_renderPlaylist hmem
    -- at most 2^32 parts of less than 2^32 milliseconds
    have hsum := groupDurationMs_le fun part hmember => (hpart segment hsegment part hmember).1
    have hgroup := (playlistGroups_sublist hsegment).length_le
    have hcount : segment.2.length ≤ 2 ^ 32 := by
      rw [havailable, HlsCache.available, List.length_map] at hgroup
      omega
    have hproduct := Nat.mul_le_mul_right (2 ^ 32 - 1) hcount
    refine satAdd_of_le ?_
    unfold u64Max
    omega

end Render

/-! ## §4. A commit. -/

namespace LiveState

variable {s : LiveState} {streamId : UInt64} {sequence bytes availableUnixUs windowParts : Nat}
  {durationMs : Option Nat} {keyframe keyframeSegments : Bool}

/-- A part that is retained was there, or it is the one that is recorded. -/
theorem mem_parts_recordPartAvailable {entry : Nat × RetainedPartObservation}
    (h : entry ∈ (s.recordPartAvailable streamId sequence bytes availableUnixUs durationMs keyframe
      keyframeSegments windowParts).parts streamId) :
    entry ∈ s.parts streamId ∨ entry.2.durationMs = durationMs := by
  cases hget : (s.parts streamId).get? sequence with
  | some part =>
      rw [(recordPartAvailable_known s streamId sequence bytes availableUnixUs durationMs keyframe
        keyframeSegments windowParts hget).1] at h
      -- a known part keeps its record; retention only drops
      exact .inl ((List.dropWhile_sublist _).subset h)
  | none =>
      rw [(recordPartAvailable_new s streamId sequence bytes availableUnixUs durationMs keyframe
        keyframeSegments windowParts hget).1] at h
      have hinserted := (List.dropWhile_sublist _).subset h
      rcases List.mem_append.1 hinserted with hfront | hrest
      · exact .inl ((List.takeWhile_sublist _).subset hfront)
      · rcases List.mem_cons.1 hrest with rfl | hrest
        · exact .inr rfl
        · exact .inl ((List.dropWhile_sublist _).subset hrest)

/-- The longest part is noted, the longest segment is left alone. -/
theorem maxima_recordPartAvailable :
    ((s.recordPartAvailable streamId sequence bytes availableUnixUs durationMs keyframe
        keyframeSegments windowParts).times streamId).maxPart =
      (match durationMs with
        | none => (s.times streamId).maxPart
        | some durationMs => some (match (s.times streamId).maxPart with
            | some maximum => max maximum durationMs
            | none => durationMs)) ∧
    ((s.recordPartAvailable streamId sequence bytes availableUnixUs durationMs keyframe
        keyframeSegments windowParts).times streamId).maxSegment =
      (s.times streamId).maxSegment := by
  cases durationMs with
  | none =>
      simp only [recordPartAvailable, times]
      split <;> cases keyframe <;> cases keyframeSegments <;> exact ⟨rfl, rfl⟩
  | some durationMs =>
      simp only [recordPartAvailable, times]
      split <;> cases keyframe <;> cases keyframeSegments <;>
        exact ⟨AList.lookup_insert _, rfl⟩

/-- **A part that is recorded** is measured, and the maxima do not fall. -/
theorem times_recordPartAvailable (hduration : ∀ duration, durationMs = some duration →
      duration < 2 ^ 32) :
    ((s.times streamId).Measured →
      ((s.recordPartAvailable streamId sequence bytes availableUnixUs durationMs keyframe
        keyframeSegments windowParts).times streamId).Measured) ∧
    (s.times streamId).Grows ((s.recordPartAvailable streamId sequence bytes availableUnixUs
      durationMs keyframe keyframeSegments windowParts).times streamId) := by
  obtain ⟨hmaxPart, hmaxSegment⟩ := @maxima_recordPartAvailable s streamId sequence bytes
    availableUnixUs windowParts durationMs keyframe keyframeSegments
  have hrises : StreamTimes.Rises (s.times streamId).maxPart ((s.recordPartAvailable streamId
      sequence bytes availableUnixUs durationMs keyframe keyframeSegments windowParts).times
      streamId).maxPart := by
    rw [hmaxPart]
    cases durationMs with
    | none => exact .refl _
    | some duration => exact .noted _ _
  refine ⟨fun hmeasured entry hentry duration hrecorded => ?_, hrises, ?_⟩
  · rcases mem_parts_recordPartAvailable hentry with hold | hnew
    · obtain ⟨hlt, maximum, hmaximum, hle⟩ := hmeasured entry hold duration hrecorded
      obtain ⟨maximum', hmaximum', hle'⟩ := hrises maximum hmaximum
      exact ⟨hlt, maximum', hmaximum', Nat.le_trans hle hle'⟩
    · -- the part itself is noted by the call
      rw [hrecorded] at hnew
      subst hnew
      refine ⟨hduration duration rfl, _, hmaxPart, ?_⟩
      split
      · exact Nat.le_max_right _ _
      · exact Nat.le_refl _
  · rw [hmaxSegment]
    exact .refl _

end LiveState

theorem parseU32_lt {text : Bytes} {duration : Nat} (h : parseU32 text = some duration) :
    duration < 2 ^ 32 := by
  unfold parseU32 at h
  dsimp only at h
  split at h
  · split at h
    · cases h
    · obtain ⟨hlt, rfl⟩ := tryFrom_eq_some h
      exact hlt
  · split at h
    · cases h
    · obtain ⟨hlt, rfl⟩ := tryFrom_eq_some h
      exact hlt

/-- A duration is a `u32`, wherever it comes from. -/
theorem mediaDurationMs_lt {reboxed : Option ReboxedLiveAudio} {object : MediaObject}
    {duration : Nat} (h : mediaDurationMs reboxed object = some duration) : duration < 2 ^ 32 := by
  cases reboxed with
  | some reboxed =>
      obtain rfl := Option.some.inj h
      exact reboxed.durationMs.toNat_lt
  | none =>
      unfold mediaDurationMs at h
      obtain ⟨value, -, h⟩ := Option.bind_eq_some_iff.1 h
      obtain ⟨_, -, h⟩ := Option.bind_eq_some_iff.1 h
      obtain ⟨parsed, hparsed, h⟩ := Option.bind_eq_some_iff.1 h
      split at h
      · obtain rfl := Option.some.inj h
        exact parseU32_lt hparsed
      · cases h

/-- The epoch stays, parts stay measured, the maxima do not fall, and what is read of the stream
changes only with its version. -/
structure Advances (R : ChunkCacheReads C) (streamId : UInt64) (live after : LiveTsCache C) :
    Prop where
  windowParts : after.windowParts = live.windowParts
  epoch : after.state.streamCanonicalEpoch.lookup streamId =
    live.state.streamCanonicalEpoch.lookup streamId
  measured : (live.state.times streamId).Measured → (after.state.times streamId).Measured
  grows : (live.state.times streamId).Grows (after.state.times streamId)
  moves : R.Moves streamId live.chunkCache after.chunkCache

section Commit

variable {R : ChunkCacheReads C} {K : SoundkitCrate} {streamId : UInt64} {c : MediaCommit}
  {live after last : LiveTsCache C}

namespace Advances

theorem refl (live : LiveTsCache C) : Advances R streamId live live :=
  ⟨rfl, rfl, id, ⟨.refl _, .refl _⟩, .refl _⟩

theorem trans (h : Advances R streamId live after) (h' : Advances R streamId after last) :
    Advances R streamId live last where
  windowParts := h'.windowParts.trans h.windowParts
  epoch := h'.epoch.trans h.epoch
  measured := fun hmeasured => h'.measured (h.measured hmeasured)
  grows := ⟨h.grows.maxPart.trans h'.grows.maxPart, h.grows.maxSegment.trans h'.grows.maxSegment⟩
  moves := h.moves.trans h'.moves

/-- A step that leaves the state alone, as far as the tags depend on it. -/
theorem of_moves {state : LiveState} {chunkCache : C.Cache}
    (htimes : state.times streamId = live.state.times streamId)
    (hepoch : state.streamCanonicalEpoch = live.state.streamCanonicalEpoch)
    (hmoves : R.Moves streamId live.chunkCache chunkCache) :
    Advances R streamId live { live with chunkCache, state } where
  windowParts := rfl
  epoch := by
    show state.streamCanonicalEpoch.lookup streamId = _
    rw [hepoch]
  measured := by
    show _ → (state.times streamId).Measured
    rw [htimes]
    exact id
  grows := by
    show (live.state.times streamId).Grows (state.times streamId)
    rw [htimes]
    exact ⟨.refl _, .refl _⟩
  moves := hmoves

end Advances

namespace LiveTsCache

theorem advances_finishObject {cachedBytes : Nat} {clock : CommitClock}
    {reboxed : Option ReboxedLiveAudio} {object : MediaObject} :
    Advances R streamId live (finishObject live streamId cachedBytes clock reboxed object) := by
  obtain ⟨hmeasured, hgrows⟩ := @LiveState.times_recordPartAvailable
    ({ live.state with
      streamSubscriptionBaseObject :=
        match live.state.streamSubscriptionBaseObject.lookup streamId with
        | some _ => live.state.streamSubscriptionBaseObject
        | none => live.state.streamSubscriptionBaseObject.insert streamId object.key.object.toNat
      streamLatestCanonicalObject := live.state.streamLatestCanonicalObject.insert streamId
        (match live.state.streamLatestCanonicalObject.lookup streamId with
        | some head => max head object.key.object.toNat
        | none => object.key.object.toNat) }.recordCommitted object.key.object.toNat clock.nowMs
      (commitMediaBytes reboxed object) (mediaDurationMs reboxed object))
    streamId object.key.object.toNat cachedBytes clock.availableUs live.windowParts
    (mediaDurationMs reboxed object) object.isKeyframe
    (decide (commitMediaKind reboxed object = .fmp4)) fun duration => mediaDurationMs_lt
  refine ⟨rfl, ?_, hmeasured, hgrows, .refl _⟩
  rw [epoch_finishObject]

/-- What an admitted commit does once its epoch is current. -/
theorem advances_commitObject (hR : LawfulVersions R)
    (hadmitted : live.admitObject streamId c.object = .ok ()) :
    Advances R streamId
      (live.activateEpoch streamId c.object.key.epoch.toNat c.clock.activationUs)
      (live.commitObject K streamId c.payload c.clock c.object).2 := by
  have hput : Advances R streamId
      (live.activateEpoch streamId c.object.key.epoch.toNat c.clock.activationUs)
      (live.putObject K streamId c).1 := by
    refine putObject_keeps_opened (fun before _ _ _ h => h.trans (.of_moves rfl rfl (.refl _)))
      (fun before init h => h.trans (.of_moves rfl rfl ?_))
      (fun before slot base bytes h =>
        h.trans (.of_moves rfl rfl (hR.put_moves _ streamId slot base bytes)))
      hadmitted (.refl _)
    -- only the write of an initialization moves the chunk cache here
    cases init with
    | none => exact .refl _
    | some init => exact hR.init_moves _ init
  rw [commitObject_eq_put]
  generalize live.putObject K streamId c = put at hput
  obtain ⟨stored, outcome⟩ := put
  cases outcome with
  | inl result => exact hput
  | inr recorded => exact hput.trans advances_finishObject

/-- A new epoch begins without parts and maxima, and without a position. -/
theorem times_activateEpoch {sourceEpoch nowUs : Nat}
    (h : live.state.streamCanonicalEpoch.lookup streamId ≠ some sourceEpoch) :
    let opened := live.activateEpoch streamId sourceEpoch nowUs
    opened.state.times streamId = ⟨[], none, none⟩ ∧
      opened.state.streamCanonicalEpoch.lookup streamId = some sourceEpoch ∧
      opened.chunkCache = C.zeroStreamId live.chunkCache streamId ∧
      opened.windowParts = live.windowParts := by
  intro opened
  simp only [opened, activateEpoch, if_neg h]
  split <;> simp [LiveState.times, LiveState.parts, resetStream]

end LiveTsCache

end Commit

/-! ## §5. A playlist request. -/

section Request

variable {R : ChunkCacheReads C} {M : MediaObjectCrate}
  {formatProgramDateTime : Nat → Option String} {streamId : UInt64} {cache after : HlsCache C}

theorem listsMedia_eq_false {body : List PlaylistLine}
    (h : ∀ line ∈ body, ∀ durationMs sequence kind independent number,
      line ≠ .part durationMs sequence kind independent ∧ line ≠ .segment number kind) :
    listsMedia body = false := by
  refine List.any_eq_false.2 fun line hline => ?_
  cases line <;>
    first
    | exact Bool.false_ne_true
    | exact absurd rfl (h _ hline _ _ _ _ 0).1
    | exact absurd rfl (h _ hline 0 0 _ false _).2

theorem SameLive.times (h : SameLive streamId cache after) :
    after.state.times streamId = cache.state.times streamId := by
  simp only [LiveState.times, LiveState.parts, h.parts, h.maxPart, h.maxSegment]

theorem length_readSlots {streamIdx last : Nat} :
    (cache.readSlots R M streamId streamIdx last).length ≤ max cache.windowParts 1 := by
  refine Nat.le_trans (List.length_filterMap_le _ _) ?_
  rw [List.length_range']
  omega

/-- What is rendered from the slots of a window has no media, or it has its bounds. -/
theorem renderSlots_tags (h : (cache.state.times streamId).Measured) {last : Nat}
    {slots : List (Nat × LiveSlotPayload)} (hlength : slots.length ≤ max cache.windowParts 1) :
    let rendered := cache.renderSlots R M formatProgramDateTime streamId last slots
    listsMedia rendered.1 = true →
      TagsBound cache.windowParts rendered.1 ∧
        timingTags rendered.1 = rendered.2.tags streamId := by
  intro rendered hmedia
  cases hlatest : slots.getLast? with
  | none =>
      have hrendered : rendered = _ := renderSlots_none (List.getLast?_eq_none_iff.1 hlatest)
      rw [hrendered, listsMedia_eq_false fun _ => emptyPlaylist_lines] at hmedia
      cases hmedia
  | some entry =>
      obtain ⟨seq, latest⟩ := entry
      have hrendered : rendered = _ := renderSlots_some hlatest
      have hlive := @sameLive_rememberSlots C R M cache streamId slots latest.mediaKind
      generalize cache.rememberSlots R M streamId slots latest.mediaKind = asked at hrendered hlive
      by_cases hwaiting : latest.mediaKind = .fmp4 ∧ asked.1.isNone
      · -- fMP4 without an initialization: the playlist waits
        rw [hrendered] at hmedia
        simp only [if_pos hwaiting] at hmedia
        rw [HlsCache.waitingPlaylist, listsMedia_eq_false fun _ => emptyHead_lines] at hmedia
        cases hmedia
      · simp only [if_neg hwaiting] at hrendered
        rw [hrendered, ← hlive.windowParts]
        refine renderParts_tags formatProgramDateTime ?_ _ _ ?_
        · rw [hlive.times]
          exact h
        · rw [List.length_map, hlive.windowParts]
          exact hlength

/-- The same with what only HLS reads of the cache. -/
structure Onward (R : ChunkCacheReads C) (streamId : UInt64) (cache after : HlsCache C) : Prop
    extends Advances R streamId cache.toLiveTsCache after.toLiveTsCache where
  partTargetMs : after.partTargetMs = cache.partTargetMs
  partsPerSegment : after.partsPerSegment = cache.partsPerSegment

namespace Onward

theorem refl (cache : HlsCache C) : Onward R streamId cache cache := ⟨.refl _, rfl, rfl⟩

theorem trans {last : HlsCache C} (h : Onward R streamId cache after)
    (h' : Onward R streamId after last) : Onward R streamId cache last :=
  ⟨h.toAdvances.trans h'.toAdvances, h'.partTargetMs.trans h.partTargetMs,
    h'.partsPerSegment.trans h.partsPerSegment⟩

/-- **The bounds never fall.** -/
theorem tags_le (h : Onward R streamId cache after) :
    cache.tags streamId ≤ after.tags streamId := by
  have hnominal : after.nominalPartDurationMs = cache.nominalPartDurationMs := by
    rw [HlsCache.nominalPartDurationMs, HlsCache.nominalPartDurationMs, h.partTargetMs]
  unfold HlsCache.tags
  rw [hnominal, h.partsPerSegment]
  exact h.grows.tags_le _ _

theorem rememberStreamInit (hR : LawfulVersions R) (init : Bytes) :
    Onward R streamId cache (cache.rememberStreamInit streamId init) :=
  ⟨.of_moves rfl rfl (hR.init_moves _ init), rfl, rfl⟩

theorem includeMap (hR : LawfulVersions R) (kind : LiveMediaKind) :
    Onward R streamId cache (cache.includeMap R M streamId kind).2 :=
  includeMap_keeps (fun _ init h => h.trans (rememberStreamInit hR init)) (refl cache)

theorem observeSegmentDuration (observed : Option Nat) :
    Onward R streamId cache (cache.observeSegmentDuration streamId observed) := by
  obtain ⟨hparts, hmaxPart, hgrows, -⟩ := @times_observeSegmentDuration C cache streamId observed
  have hmeasured : (cache.state.times streamId).Measured →
      ((cache.observeSegmentDuration streamId observed).state.times streamId).Measured := by
    intro h
    unfold StreamTimes.Measured
    rw [hparts, hmaxPart]
    exact h
  cases observed with
  | none => exact refl cache
  | some observed => exact ⟨⟨rfl, rfl, hmeasured, hgrows, .refl _⟩, rfl, rfl⟩

theorem renderSlots (hR : LawfulVersions R) {last : Nat} {slots : List (Nat × LiveSlotPayload)} :
    Onward R streamId cache
      (cache.renderSlots R M formatProgramDateTime streamId last slots).2 :=
  renderSlots_keeps (fun _ init h => h.trans (rememberStreamInit hR init))
    (fun _ _ h => h.trans ⟨.of_moves rfl rfl (.refl _), rfl, rfl⟩)
    (fun _ observed h => h.trans (observeSegmentDuration observed)) (refl cache)

theorem cachePlaylist {idx version : Nat} {body : List PlaylistLine} :
    Onward R streamId cache (cache.cachePlaylist R streamId idx version body) := by
  rw [HlsCache.cachePlaylist]
  split
  · exact refl cache
  · exact ⟨.refl _, rfl, rfl⟩

end Onward

/-- There is a body of the version the stream is at. -/
def HlsCache.Holds (R : ChunkCacheReads C) (cache : HlsCache C) (streamId : UInt64)
    (body : List PlaylistLine) : Prop :=
  ∃ idx last version, cache.At R streamId idx last version ∧
    cache.playlistCache[idx]? = some (some ⟨streamId, version, body⟩)

/-- There is at most one. -/
theorem HlsCache.Holds.unique {body body' : List PlaylistLine} (h : cache.Holds R streamId body)
    (h' : cache.Holds R streamId body') : body = body' := by
  obtain ⟨idx, last, version, hat, hcached⟩ := h
  obtain ⟨idx', last', version', hat', hcached'⟩ := h'
  obtain ⟨rfl, -⟩ := Prod.mk.inj (Option.some.inj (hat.1.symm.trans hat'.1))
  obtain rfl := Option.some.inj (hat.2.symm.trans hat'.2)
  exact (CachedPlaylist.mk.inj (Option.some.inj (Option.some.inj
    (hcached.symm.trans hcached')))).2.2

/-- What `cache_playlist` puts into the cache. -/
theorem mem_cachePlaylist {idx version idx' : Nat} {body : List PlaylistLine}
    {cached : CachedPlaylist}
    (h : (cache.cachePlaylist R streamId idx version body).playlistCache[idx']? =
      some (some cached)) :
    cache.playlistCache[idx']? = some (some cached) ∨
      idx = idx' ∧ cached = ⟨streamId, version, body⟩ ∧
        R.version cache.chunkCache idx = some version := by
  rw [HlsCache.cachePlaylist] at h
  split at h
  · exact .inl h
  · next hversion =>
      rw [not_not] at hversion
      simp only [List.getElem?_set] at h
      split at h
      · next hidx =>
          split at h
          · exact .inr ⟨hidx, (Option.some.inj (Option.some.inj h)).symm, hversion⟩
          · cases h
      · exact .inl h

theorem chunkCache_cachePlaylist {idx version : Nat} {body : List PlaylistLine} :
    (cache.cachePlaylist R streamId idx version body).chunkCache = cache.chunkCache := by
  rw [HlsCache.cachePlaylist]
  split <;> rfl

/-- A playlist that is not taken from the cache. -/
structure Rendered (R : ChunkCacheReads C) (streamId : UInt64) (cache : HlsCache C)
    (body : List PlaylistLine) (after : HlsCache C) : Prop where
  onward : Onward R streamId cache after
  reads : ReadsOn R streamId cache after
  miss : ∀ held, ¬ cache.Holds R streamId held
  cached : ∀ idx cached, after.playlistCache[idx]? = some (some cached) →
    cache.playlistCache[idx]? = some (some cached) ∨
      cached.body = body ∧ R.version after.chunkCache idx = some cached.version
  bound : (cache.state.times streamId).Measured → listsMedia body = true →
    TagsBound cache.windowParts body ∧ timingTags body = after.tags streamId

/-- The playlist rendered when none is cached for the version. -/
theorem rendered_of_miss (hR : LawfulVersions R) (formatProgramDateTime : Nat → Option String)
    {streamIdx last version : Nat}
    (hposition : R.position cache.chunkCache streamId = some (streamIdx, last))
    (hversion : R.version cache.chunkCache streamIdx = some version)
    (hmiss : cache.cachedPlaylist streamId streamIdx version = none) :
    let rendered := cache.renderSlots R M formatProgramDateTime streamId last
      (cache.readSlots R M streamId streamIdx last)
    Rendered R streamId cache rendered.1
      (rendered.2.cachePlaylist R streamId streamIdx version rendered.1) := by
  intro rendered
  have honward : Onward R streamId cache rendered.2 := .renderSlots hR
  have hreads : ReadsOn R streamId cache rendered.2 := readsOn_renderSlots hR
  have hplaylists : rendered.2.playlistCache = cache.playlistCache := playlistCache_renderSlots
  constructor
  case onward => exact honward.trans .cachePlaylist
  case reads => exact hreads.trans (.of_chunk chunkCache_cachePlaylist)
  case miss =>
    -- the position and the version are those that were looked up
    rintro held ⟨idx, last', version', hat, hheld⟩
    obtain ⟨rfl, -⟩ := Prod.mk.inj (Option.some.inj (hposition.symm.trans hat.1))
    obtain rfl := Option.some.inj (hversion.symm.trans hat.2)
    rw [cachedPlaylist_eq_some.2 hheld] at hmiss
    cases hmiss
  case cached =>
    intro idx cached hcached
    rcases mem_cachePlaylist hcached with hold | ⟨rfl, rfl, hstored⟩
    · rw [hplaylists] at hold
      exact .inl hold
    · rw [chunkCache_cachePlaylist]
      exact .inr ⟨rfl, hstored⟩
  case bound =>
    intro hmeasured hmedia
    obtain ⟨hkept, htags⟩ := renderSlots_tags hmeasured length_readSlots hmedia
    refine ⟨hkept, ?_⟩
    rw [htags]
    unfold HlsCache.cachePlaylist
    split
    · rfl
    · rfl

/-- **A request** is served from the cache, or a playlist is rendered. -/
theorem playlist_cases (hR : LawfulVersions R) (formatProgramDateTime : Nat → Option String)
    (cache : HlsCache C) :
    let asked := cache.playlistForStreamId R M formatProgramDateTime streamId
    (asked.2 = cache ∧ cache.Holds R streamId asked.1) ∨
      Rendered R streamId cache asked.1 asked.2 := by
  intro asked
  cases hstream : cache.streamPosition R streamId with
  | none =>
      have hposition : R.position cache.chunkCache streamId = none := hstream
      simp only [asked, HlsCache.playlistForStreamId, hstream]
      refine .inr ⟨.includeMap hR _, readsOn_includeMap hR _, ?_, fun idx cached hcached => ?_,
        fun _ hmedia => ?_⟩
      · rintro held ⟨idx, last, version, hat, -⟩
        rw [hat.1] at hposition
        cases hposition
      · rw [playlistCache_includeMap] at hcached
        exact .inl hcached
      · rw [listsMedia_eq_false fun _ => emptyPlaylist_lines] at hmedia
        cases hmedia
  | some entry =>
      obtain ⟨streamIdx, last⟩ := entry
      have hposition : R.position cache.chunkCache streamId = some (streamIdx, last) := hstream
      obtain ⟨version, hversion⟩ := hR.version_some _ _ _ _ hposition
      simp only [asked, HlsCache.playlistForStreamId, hstream, hversion, Option.getD_some]
      cases hhit : cache.cachedPlaylist streamId streamIdx version with
      | some body =>
          exact .inl ⟨rfl, streamIdx, last, version, ⟨hposition, hversion⟩,
            cachedPlaylist_eq_some.1 hhit⟩
      | none =>
          simp only [HlsCache.renderWindow_eq_renderSlots]
          exact .inr (rendered_of_miss hR formatProgramDateTime hposition hversion hhit)

end Request

/-! ## §6. The playlists of one epoch. -/

/-- The epoch is current, and `answers` are its playlists with media so far. -/
structure InEpoch (R : ChunkCacheReads C) (streamId : UInt64) (epoch windowParts : Nat)
    (answers : List (List PlaylistLine)) (cache : HlsCache C) : Prop where
  current : cache.state.streamCanonicalEpoch.lookup streamId = some epoch
  window : cache.windowParts = windowParts
  measured : (cache.state.times streamId).Measured
  bound : ∀ body ∈ answers, TagsBound windowParts body
  rising : Rising timingTags answers (cache.tags streamId)
  held : ∀ body, cache.Holds R streamId body → listsMedia body = true →
    TagsBound windowParts body ∧ CanFollow timingTags answers (cache.tags streamId) body

section Steps

variable {R : ChunkCacheReads C} {M : MediaObjectCrate} {streamId : UInt64}
  {epoch windowParts : Nat} {answers : List (List PlaylistLine)} {cache after : HlsCache C}

theorem CachedBehind.moves (h : CachedBehind R streamId cache)
    (hgrow : R.VersionsGrow cache.chunkCache after.chunkCache)
    (hplaylists : after.playlistCache = cache.playlistCache) : CachedBehind R streamId after := by
  intro idx cached hcached hstream
  rw [hplaylists] at hcached
  exact hgrow.bounded (h idx cached hcached hstream)

/-- A body that is held after a move was held before it: a version that has changed is not that of
any body. -/
theorem HlsCache.Holds.before {body : List PlaylistLine} (h : after.Holds R streamId body)
    (hbehind : CachedBehind R streamId cache)
    (hmoves : R.Moves streamId cache.chunkCache after.chunkCache)
    (hplaylists : after.playlistCache = cache.playlistCache) : cache.Holds R streamId body := by
  obtain ⟨idx, last, version, hat, hcached⟩ := h
  rw [hplaylists] at hcached
  have hold := hbehind idx _ hcached rfl
  -- either nothing was written to the stream, or its version went past every held body
  rcases hmoves.seen with hsame | hbumped
  · have hreads : ReadsOn R streamId cache after := ⟨hsame, hmoves.grow⟩
    exact ⟨idx, last, version, hreads.at_before hat hold, hcached⟩
  · obtain ⟨version', hversion', hle⟩ := hold
    obtain ⟨version'', hversion'', hlt⟩ := hbumped idx last version' hat.1 hversion'
    obtain rfl := Option.some.inj (hat.2.symm.trans hversion'')
    simp only at hle
    omega

/-- **A commit** of the epoch. -/
theorem InEpoch.commit (h : InEpoch R streamId epoch windowParts answers cache)
    (hbehind : CachedBehind R streamId cache) (honward : Onward R streamId cache after)
    (hplaylists : after.playlistCache = cache.playlistCache) :
    InEpoch R streamId epoch windowParts answers after where
  current := honward.epoch.trans h.current
  window := honward.windowParts.trans h.window
  measured := honward.measured h.measured
  bound := h.bound
  rising := h.rising.raise honward.tags_le
  held := by
    intro body hheld hmedia
    obtain ⟨hbound, hfollow⟩ := h.held body (hheld.before hbehind honward.moves hplaylists) hmedia
    exact ⟨hbound, hfollow.raise honward.tags_le⟩

/-- **The commit that begins the epoch.**  The stream had no position when the epoch was opened, so
no body of an older epoch is of the version the stream is at. -/
theorem InEpoch.begin (hR : LawfulVersions R) {nowUs : Nat}
    (hbehind : CachedBehind R streamId cache)
    (hepoch : cache.state.streamCanonicalEpoch.lookup streamId ≠ some epoch)
    (hadvances : Advances R streamId (cache.activateEpoch streamId epoch nowUs)
      after.toLiveTsCache)
    (hplaylists : after.playlistCache = cache.playlistCache) :
    InEpoch R streamId epoch cache.windowParts [] after := by
  obtain ⟨htimes, hcurrent, hchunk, hwindow⟩ := LiveTsCache.times_activateEpoch hepoch
  have hopened : CachedBehind R streamId
      { cache with toLiveTsCache := cache.activateEpoch streamId epoch nowUs } := by
    refine hbehind.moves ?_ rfl
    show R.VersionsGrow cache.chunkCache (cache.activateEpoch streamId epoch nowUs).chunkCache
    rw [hchunk]
    exact hR.zero_versions _ _
  refine ⟨hadvances.epoch.trans hcurrent, hadvances.windowParts.trans hwindow, ?_, nofun, .nil _, ?_⟩
  · refine hadvances.measured ?_
    rw [htimes]
    exact nofun
  -- a body held now would need a position in the emptied stream
  · intro body hheld
    obtain ⟨idx, last, version, hat, -⟩ := hheld.before hopened hadvances.moves hplaylists
    have hposition : R.position (cache.activateEpoch streamId epoch nowUs).chunkCache streamId =
      some (idx, last) := hat.1
    rw [hchunk, hR.zero_position] at hposition
    cases hposition

/-- What is held after a playlist has been rendered is that playlist. -/
theorem Rendered.held {body held : List PlaylistLine} (h : Rendered R streamId cache body after)
    (hbehind : CachedBehind R streamId cache) (hheld : after.Holds R streamId held) :
    held = body := by
  obtain ⟨idx, last, version, hat, hcached⟩ := hheld
  rcases h.cached idx _ hcached with hold | ⟨hbody, -⟩
  -- an older body of this version would have been served instead
  · have hbefore := h.reads.at_before hat (hbehind idx _ hold rfl)
    exact absurd ⟨idx, last, version, hbefore, hold⟩ (h.miss held)
  · exact hbody

theorem Rendered.behind {body : List PlaylistLine} (h : Rendered R streamId cache body after)
    (hbehind : CachedBehind R streamId cache) : CachedBehind R streamId after := by
  intro idx cached hcached hstream
  rcases h.cached idx cached hcached with hold | ⟨-, hversion⟩
  · exact h.reads.2.bounded (hbehind idx cached hold hstream)
  · exact ⟨_, hversion, Nat.le_refl _⟩

/-- The playlists of an epoch, with one that is answered next. -/
def answersWith (answers : List (List PlaylistLine)) (body : List PlaylistLine) :
    List (List PlaylistLine) :=
  if listsMedia body then answers ++ [body] else answers

/-- An answer that has its bounds, may follow, and is what the cache holds afterwards. -/
theorem InEpoch.answer {body : List PlaylistLine}
    (hcurrent : after.state.streamCanonicalEpoch.lookup streamId = some epoch)
    (hwindow : after.windowParts = windowParts) (hmeasured : (after.state.times streamId).Measured)
    (hbound : ∀ body ∈ answers, TagsBound windowParts body)
    (hrising : Rising timingTags answers (after.tags streamId))
    (hheld : ∀ held, after.Holds R streamId held → held = body)
    (hnext : listsMedia body = true →
      TagsBound windowParts body ∧ CanFollow timingTags answers (after.tags streamId) body) :
    InEpoch R streamId epoch windowParts (answersWith answers body) after := by
  unfold answersWith
  split
  · next hmedia =>
      obtain ⟨hbody, hfollow⟩ := hnext hmedia
      refine ⟨hcurrent, hwindow, hmeasured, fun given hgiven => ?_, hrising.give hfollow, ?_⟩
      · rcases List.mem_append.1 hgiven with hold | hnew
        · exact hbound given hold
        · rw [List.mem_singleton.1 hnew]
          exact hbody
      · intro held hagain _
        rw [hheld held hagain]
        exact ⟨hbody, hfollow.again⟩
  · next hempty =>
      refine ⟨hcurrent, hwindow, hmeasured, hbound, hrising, fun held hagain hmedia => ?_⟩
      rw [hheld held hagain] at hmedia
      exact absurd hmedia hempty

/-- **A request** of the epoch. -/
theorem InEpoch.request (hR : LawfulVersions R)
    (h : InEpoch R streamId epoch windowParts answers cache)
    (hbehind : CachedBehind R streamId cache) (formatProgramDateTime : Nat → Option String) :
    let asked := cache.playlistForStreamId R M formatProgramDateTime streamId
    InEpoch R streamId epoch windowParts (answersWith answers asked.1) asked.2 := by
  intro asked
  rcases @playlist_cases C R M streamId hR formatProgramDateTime cache with
    ⟨hsame, hheld⟩ | hrendered
  · -- served again: nothing newer has been served since
    rw [show asked.2 = cache from hsame]
    exact .answer h.current h.window h.measured h.bound h.rising
      (fun held hagain => hagain.unique hheld) (h.held _ hheld)
  -- rendered anew: its tags are those of the state, above all given so far
  · have hrising := h.rising.raise hrendered.onward.tags_le
    refine .answer (hrendered.onward.epoch.trans h.current)
      (hrendered.onward.windowParts.trans h.window) (hrendered.onward.measured h.measured) h.bound
      hrising (fun held hagain => hrendered.held hbehind hagain) fun hmedia => ?_
    obtain ⟨hbound, htags⟩ := hrendered.bound h.measured hmedia
    rw [h.window] at hbound
    exact ⟨hbound, hrising.canFollow htags⟩

end Steps

/-! ## §7. Runs. -/

/-- A call about the stream: a commit through either entry point, or a request. -/
inductive StreamCall where
  | commit (payload : Bytes) (validatedObject : Option MediaObject) (clock : CommitClock)
  | playlist

/-- A commit is of a canonical object, or refused for not being one. -/
def StreamCall.Canonical (M : MediaObjectCrate) : StreamCall → Prop
  | .commit payload validatedObject _ =>
      LiveTsCache.canonicalObject M payload validatedObject ≠ .ok none
  | .playlist => True

section Runs

variable (R : ChunkCacheReads C) (M : MediaObjectCrate) (K : SoundkitCrate)
  (formatProgramDateTime : Nat → Option String) (streamId : UInt64)

/-- One call, and the playlist it answers with. -/
def streamCall (cache : HlsCache C) : StreamCall → Option (List PlaylistLine) × HlsCache C
  | .commit payload validatedObject clock =>
      (none, (cache.commitInner M K streamId payload validatedObject clock).2)
  | .playlist =>
      let (body, cache) := cache.playlistForStreamId R M formatProgramDateTime streamId
      (some body, cache)

/-- The playlist that is answered, if the epoch is current and it lists media. -/
def mediaPlaylist (epoch : Nat) (visit : HlsCache C × StreamCall) : Option (List PlaylistLine) :=
  match (streamCall R M K formatProgramDateTime streamId visit.1 visit.2).1 with
  | none => none
  | some body =>
      if visit.1.state.streamCanonicalEpoch.lookup streamId = some epoch ∧ listsMedia body = true
      then some body else none

/-- The playlists of the epoch that list media, in the order they were answered. -/
def mediaPlaylists (epoch : Nat) (start : HlsCache C) (calls : List StreamCall) :
    List (List PlaylistLine) :=
  (trace (streamCall R M K formatProgramDateTime streamId) start calls).filterMap
    (mediaPlaylist R M K formatProgramDateTime streamId epoch)

/-- The epoch has yet to begin, or it is current, or a later one is. -/
inductive EpochPhase (epoch windowParts : Nat) (answers : List (List PlaylistLine))
    (cache : HlsCache C) : Prop where
  | ahead (hempty : answers = [])
      (hbefore : ∀ current, cache.state.streamCanonicalEpoch.lookup streamId = some current →
        current < epoch)
  | current (h : InEpoch R streamId epoch windowParts answers cache)
  | past (current : Nat)
      (hcurrent : cache.state.streamCanonicalEpoch.lookup streamId = some current)
      (hafter : epoch < current)

/-- What holds along a run, of the playlists of the epoch so far. -/
structure EpochRun (epoch windowParts : Nat) (answers : List (List PlaylistLine))
    (cache : HlsCache C) : Prop where
  behind : CachedBehind R streamId cache
  window : cache.windowParts = windowParts
  bound : ∀ body ∈ answers, TagsBound windowParts body
  sorted : answers.Pairwise fun earlier later => timingTags earlier ≤ timingTags later
  phase : EpochPhase R streamId epoch windowParts answers cache

end Runs

section Runs

variable {R : ChunkCacheReads C} {M : MediaObjectCrate} {K : SoundkitCrate}
  {formatProgramDateTime : Nat → Option String} {streamId : UInt64} {epoch windowParts : Nat}
  {answers : List (List PlaylistLine)} {cache after start : HlsCache C}

theorem EpochRun.of_inEpoch (hbehind : CachedBehind R streamId cache)
    (h : InEpoch R streamId epoch windowParts answers cache) :
    EpochRun R streamId epoch windowParts answers cache :=
  ⟨hbehind, h.window, h.bound, h.rising.sorted, .current h⟩

/-- A request keeps the epoch, whichever it is. -/
theorem playlist_keeps (hR : LawfulVersions R) (hbehind : CachedBehind R streamId cache)
    (formatProgramDateTime : Nat → Option String) :
    let asked := cache.playlistForStreamId R M formatProgramDateTime streamId
    CachedBehind R streamId asked.2 ∧ asked.2.windowParts = cache.windowParts ∧
      asked.2.state.streamCanonicalEpoch.lookup streamId =
        cache.state.streamCanonicalEpoch.lookup streamId := by
  intro asked
  rcases @playlist_cases C R M streamId hR formatProgramDateTime cache with
    ⟨hsame, -⟩ | hrendered
  · rw [show asked.2 = cache from hsame]
    exact ⟨hbehind, rfl, rfl⟩
  · exact ⟨hrendered.behind hbehind, hrendered.onward.windowParts, hrendered.onward.epoch⟩

theorem mediaPlaylist_of_ne {call : StreamCall}
    (h : cache.state.streamCanonicalEpoch.lookup streamId ≠ some epoch) :
    mediaPlaylist R M K formatProgramDateTime streamId epoch (cache, call) = none := by
  unfold mediaPlaylist
  split
  · rfl
  · exact if_neg fun hboth => h hboth.1

/-- In the epoch a request answers with the next of its playlists. -/
theorem append_mediaPlaylist
    (h : cache.state.streamCanonicalEpoch.lookup streamId = some epoch) :
    answers ++ (mediaPlaylist R M K formatProgramDateTime streamId epoch
        (cache, .playlist)).toList =
      answersWith answers (cache.playlistForStreamId R M formatProgramDateTime streamId).1 := by
  simp only [mediaPlaylist, streamCall, answersWith, h, true_and]
  split
  · rfl
  · exact List.append_nil _

/-- **A request.** -/
theorem EpochRun.request (hR : LawfulVersions R)
    (h : EpochRun R streamId epoch windowParts answers cache) :
    EpochRun R streamId epoch windowParts
      (answers ++ (mediaPlaylist R M K formatProgramDateTime streamId epoch
        (cache, .playlist)).toList)
      (cache.playlistForStreamId R M formatProgramDateTime streamId).2 := by
  obtain ⟨hbehind, hwindow, hepoch⟩ :=
    @playlist_keeps C R M streamId cache hR h.behind formatProgramDateTime
  cases h.phase with
  | ahead hempty hbefore =>
      have hother : cache.state.streamCanonicalEpoch.lookup streamId ≠ some epoch :=
        fun hcurrent => Nat.lt_irrefl epoch (hbefore epoch hcurrent)
      -- an answer outside the epoch is not one of its playlists
      rw [mediaPlaylist_of_ne hother, Option.toList_none, List.append_nil]
      refine ⟨hbehind, hwindow.trans h.window, h.bound, h.sorted, .ahead hempty ?_⟩
      rw [hepoch]
      exact hbefore
  | current hin =>
      rw [append_mediaPlaylist hin.current]
      exact .of_inEpoch hbehind (hin.request hR h.behind formatProgramDateTime)
  | past current hcurrent hafter =>
      have hother : cache.state.streamCanonicalEpoch.lookup streamId ≠ some epoch := by
        intro hsame
        rw [hcurrent] at hsame
        obtain rfl := Option.some.inj hsame
        exact Nat.lt_irrefl current hafter
      rw [mediaPlaylist_of_ne hother, Option.toList_none, List.append_nil]
      exact ⟨hbehind, hwindow.trans h.window, h.bound, h.sorted,
        .past current (hepoch.trans hcurrent) hafter⟩

/-- An admitted object is of the current epoch or of a later one. -/
theorem epoch_le_of_admitted {live : LiveTsCache C} {object : MediaObject}
    (h : live.admitObject streamId object = .ok ()) {current : Nat}
    (hcurrent : live.state.streamCanonicalEpoch.lookup streamId = some current) :
    current ≤ object.key.epoch.toNat := by
  unfold LiveTsCache.admitObject at h
  rw [hcurrent] at h
  split at h
  · cases h
  · dsimp only at h
    split at h
    · cases h
    · next hstale => exact Nat.le_of_not_lt hstale

/-- **A canonical commit** changes nothing, or it makes the epoch of its object current, unless it
is, and goes on from there. -/
theorem commitInner_cases (hR : LawfulVersions R) (K : SoundkitCrate) (cache : HlsCache C)
    {payload : Bytes} {validatedObject : Option MediaObject} {clock : CommitClock}
    (hcanonical : LiveTsCache.canonicalObject M payload validatedObject ≠ .ok none) :
    let after := (cache.commitInner M K streamId payload validatedObject clock).2
    after = cache ∨ ∃ sourceEpoch nowUs,
      (∀ current, cache.state.streamCanonicalEpoch.lookup streamId = some current →
        current ≤ sourceEpoch) ∧
      Onward R streamId
        { cache with toLiveTsCache := cache.activateEpoch streamId sourceEpoch nowUs } after ∧
      after.playlistCache = cache.playlistCache := by
  simp only [HlsCache.commitInner, LiveTsCache.commitStreamPayloadInner]
  cases hobject : LiveTsCache.canonicalObject M payload validatedObject with
  | error error => exact .inl rfl
  | ok found =>
      cases found with
      | none => exact absurd hobject hcanonical
      | some object =>
          cases hadmitted : cache.toLiveTsCache.admitObject streamId object with
          | error error =>
              left
              simp only [LiveTsCache.commitObject, hadmitted]
          | ok _ =>
              have hadvances := @LiveTsCache.advances_commitObject C R K streamId
                ⟨payload, object, clock⟩ cache.toLiveTsCache hR hadmitted
              exact .inr ⟨_, _, fun current => epoch_le_of_admitted hadmitted,
                ⟨hadvances, rfl, rfl⟩, trivial⟩

/-- A commit of the epoch that is current. -/
theorem EpochRun.same (h : EpochRun R streamId epoch windowParts answers cache)
    (honward : Onward R streamId cache after)
    (hplaylists : after.playlistCache = cache.playlistCache) :
    EpochRun R streamId epoch windowParts answers after := by
  refine ⟨h.behind.moves honward.moves.grow hplaylists, honward.windowParts.trans h.window,
    h.bound, h.sorted, ?_⟩
  cases h.phase with
  | ahead hempty hbefore =>
      refine .ahead hempty ?_
      rw [honward.epoch]
      exact hbefore
  | current hin => exact .current (hin.commit h.behind honward hplaylists)
  | past current hcurrent hafter => exact .past current (honward.epoch.trans hcurrent) hafter

/-- A commit that makes another epoch current. -/
theorem EpochRun.next (hR : LawfulVersions R)
    (h : EpochRun R streamId epoch windowParts answers cache) {sourceEpoch nowUs : Nat}
    (hother : cache.state.streamCanonicalEpoch.lookup streamId ≠ some sourceEpoch)
    (hadmitted : ∀ current, cache.state.streamCanonicalEpoch.lookup streamId = some current →
      current ≤ sourceEpoch)
    (hadvances : Advances R streamId (cache.activateEpoch streamId sourceEpoch nowUs)
      after.toLiveTsCache)
    (hplaylists : after.playlistCache = cache.playlistCache) :
    EpochRun R streamId epoch windowParts answers after := by
  obtain ⟨-, hcurrent, hchunk, hwindow⟩ := @LiveTsCache.times_activateEpoch C streamId
    cache.toLiveTsCache sourceEpoch nowUs hother
  have hnow := hadvances.epoch.trans hcurrent
  have hgrow : R.VersionsGrow cache.chunkCache after.chunkCache := by
    have hzeroed := hR.zero_versions cache.chunkCache streamId
    rw [← hchunk] at hzeroed
    exact hzeroed.trans hadvances.moves.grow
  refine ⟨h.behind.moves hgrow hplaylists, (hadvances.windowParts.trans hwindow).trans h.window,
    h.bound, h.sorted, ?_⟩
  -- epochs only rise: an earlier one comes while this one is ahead, a later one ends it
  rcases Nat.lt_trichotomy sourceEpoch epoch with hlt | rfl | hgt
  · cases h.phase with
    | ahead hempty hbefore =>
        refine .ahead hempty fun current hsome => ?_
        rw [hnow] at hsome
        obtain rfl := Option.some.inj hsome
        exact hlt
    | current hin => exact absurd (hadmitted _ hin.current) (Nat.not_le_of_lt hlt)
    | past current hsome hafter =>
        have hle := hadmitted current hsome
        omega
  · cases h.phase with
    | ahead hempty hbefore =>
        subst hempty
        have hin := InEpoch.begin hR h.behind hother hadvances hplaylists
        rw [h.window] at hin
        exact .current hin
    | current hin => exact absurd hin.current hother
    | past current hsome hafter =>
        have hle := hadmitted current hsome
        omega
  · exact .past sourceEpoch hnow hgt

/-- **A commit.** -/
theorem EpochRun.commit (hR : LawfulVersions R) (K : SoundkitCrate)
    (h : EpochRun R streamId epoch windowParts answers cache) {payload : Bytes}
    {validatedObject : Option MediaObject} {clock : CommitClock}
    (hcanonical : LiveTsCache.canonicalObject M payload validatedObject ≠ .ok none) :
    EpochRun R streamId epoch windowParts answers
      (cache.commitInner M K streamId payload validatedObject clock).2 := by
  rcases @commitInner_cases C R M streamId hR K cache payload validatedObject clock hcanonical with
    hsame | ⟨sourceEpoch, nowUs, hadmitted, honward, hplaylists⟩
  · rw [hsame]
    exact h
  · by_cases hcurrent : cache.state.streamCanonicalEpoch.lookup streamId = some sourceEpoch
    -- the epoch is current already, so opening it changes nothing
    · have hopened : cache.activateEpoch streamId sourceEpoch nowUs = cache.toLiveTsCache :=
        if_pos hcurrent
      rw [hopened] at honward
      exact h.same honward hplaylists
    · exact h.next hR hcurrent hadmitted honward.toAdvances hplaylists

/-- **The run.** -/
theorem epochRun_exec (hR : LawfulVersions R) (epoch : Nat)
    (hplaylists : start.playlistCache.all (·.isNone) = true)
    (hstate : start.state.streamCanonicalEpoch.lookup streamId = none) (calls : List StreamCall)
    (hcalls : ∀ call ∈ calls, call.Canonical M) :
    EpochRun R streamId epoch start.windowParts
      (mediaPlaylists R M K formatProgramDateTime streamId epoch start calls)
      (exec (streamCall R M K formatProgramDateTime streamId) start calls) := by
  -- on the calls so far: each answers with one playlist of the epoch at most
  refine exec_history (streamCall R M K formatProgramDateTime streamId)
    (fun calls cache => (∀ call ∈ calls, call.Canonical M) →
      EpochRun R streamId epoch start.windowParts
        (mediaPlaylists R M K formatProgramDateTime streamId epoch start calls) cache)
    start (fun _ => ?_) (fun calls call ih hcalls => ?_) calls hcalls
  · refine ⟨fun idx cached hcached _ => ?_, rfl, nofun, List.Pairwise.nil, .ahead rfl ?_⟩
    -- a new cache holds no body
    · have hslot := List.all_eq_true.1 hplaylists _ (List.mem_of_getElem? hcached)
      cases hslot
    · rw [hstate]
      exact nofun
  · have hbefore := ih fun call' hcall' => hcalls call' (List.mem_append_left _ hcall')
    have hcall := hcalls call (List.mem_append_right _ (List.mem_singleton_self _))
    unfold mediaPlaylists
    rw [filterMap_trace_append_singleton]
    cases call with
    | playlist => exact hbefore.request hR
    | commit payload validatedObject clock =>
        show EpochRun _ _ _ _ (_ ++ []) _
        rw [List.append_nil]
        exact hbefore.commit hR K hcall

/-- **The timing tags bound what is listed**, for every run of canonical commits and playlist
requests of one stream on a new cache and for every epoch: each playlist of the epoch that lists
media states bounds for its parts and its complete segments, and neither is smaller than in one
before it. -/
theorem timing_tags_bound (hR : LawfulVersions R) (M : MediaObjectCrate) (K : SoundkitCrate)
    (formatProgramDateTime : Nat → Option String) (streamId : UInt64) (epoch : Nat)
    (start : HlsCache C) (hplaylists : start.playlistCache.all (·.isNone) = true)
    (hstate : start.state.streamCanonicalEpoch.lookup streamId = none) (calls : List StreamCall)
    (hcalls : ∀ call ∈ calls, call.Canonical M) :
    let playlists := mediaPlaylists R M K formatProgramDateTime streamId epoch start calls
    (∀ body ∈ playlists, TagsBound start.windowParts body) ∧
      playlists.Pairwise fun earlier later =>
        (timingTags earlier).1 ≤ (timingTags later).1 ∧
          (timingTags earlier).2 ≤ (timingTags later).2 := by
  have h := @epochRun_exec C R M K formatProgramDateTime streamId start hR epoch hplaylists hstate
    calls hcalls
  exact ⟨h.bound, h.sorted⟩

end Runs

/-- A commit of part `sequence` with this duration, if any. -/
def timedCommit (sequence : UInt8) (durationMs : Option String) : StreamCall :=
  .commit (asBytes "OBJ1" ++ [sequence, 0, 0, sequence])
    (some {
      key := ⟨"3", 42, sequence.toUInt64⟩
      kind := .media
      metadata := match durationMs with
        | some text => AList.insert "duration-ms" (asBytes text) ∅
        | none => ∅
      payload := [sequence]
      isKeyframe := false })
    ⟨0, 0, 0⟩

/-- Segments of two parts.  Part 1 has no duration, part 3 comes before part 2. -/
def timedCalls : List StreamCall :=
  [timedCommit 0 (some "1100"), timedCommit 1 none, .playlist, timedCommit 3 (some "2900"),
    .playlist, timedCommit 2 (some "700"), .playlist]

theorem timing_tags_bound_sample :
    let playlists := mediaPlaylists sampleReads feedCrate sampleSoundkit (fun _ => none) 3 42
      { emptyHlsCache 2 6 with state := LiveState.new 0 } timedCalls
    playlists.map timingTags = [(1100, 2), (2900, 2), (2900, 4)] ∧
      (∀ body ∈ playlists, TagsBound 6 body) ∧
      playlists.Pairwise fun earlier later =>
        (timingTags earlier).1 ≤ (timingTags later).1 ∧
          (timingTags earlier).2 ≤ (timingTags later).2 := by
  refine ⟨by decide +kernel, timing_tags_bound sampleReads_versions feedCrate sampleSoundkit
    (fun _ => none) 3 42 { emptyHlsCache 2 6 with state := LiveState.new 0 } rfl rfl timedCalls ?_⟩
  intro call hcall
  simp only [timedCalls, List.mem_cons, List.not_mem_nil, or_false] at hcall
  rcases hcall with rfl | rfl | rfl | rfl | rfl | rfl | rfl <;> first | trivial | nofun

end AvMesh.LiveCache
