/-
  AvMesh.LiveCache.Reload
  ───────────────────────
  **WHEN A BLOCKING RELOAD AGREES WITH THE PLAYLIST.**

  A client that asks for a playlist with part `p` of segment `m` is to wait
  until the playlist lists it.  Whether it may return is decided from the parts
  that the live state has recorded; the playlist is rendered from the slots up
  to the end of the contiguous run.  Either way only the newest segment counts:

      reload     newest segment of the recorded parts, with their number
      playlist   newest segment it lists, with the number of its parts

  The two agree on every position exactly if they agree on this segment
  (`reload_agrees_iff`).  For parts committed in order they do
  (`InOrder.newestAgrees`); a gap tears them apart (`gap_reload_returns`).
-/
import AvMesh.LiveCache.Served

namespace AvMesh.LiveCache

open AvMesh.Lib

/-! ## §1. What a playlist lists. -/

/-- The body lists the position: the part with that index of segment `msn`, or segment `msn` as
complete, or anything of a segment with a larger number.  The groups say which parts a segment
has. -/
def ListsPosition (groups : List (Nat × List ObservedPart)) (body : List PlaylistLine)
    (position : HlsReloadPosition) : Prop :=
  (match position.part with
    | some index => ∃ group part, (position.msn, group) ∈ groups ∧ group[index]? = some part ∧
        part.sequence ∈ partLines body
    | none => position.msn ∈ segmentLines body) ∨
  (∃ number ∈ segmentLines body, position.msn < number) ∨
  ∃ number group part, (number, group) ∈ groups ∧ part ∈ group ∧ position.msn < number ∧
    part.sequence ∈ partLines body

/-- The positions up to the end of the newest segment: its number, how many parts it has, and
whether it is complete. -/
def Ready (newest : Option (Nat × Nat)) (complete : Bool) (position : HlsReloadPosition) : Prop :=
  ∃ number count, newest = some (number, count) ∧
    (position.msn < number ∨ position.msn = number ∧
      match position.part with
      | some index => index < count
      | none => complete = true)

section Ready

variable {newest newest' : Option (Nat × Nat)} {complete complete' : Bool}

theorem ready_some {number count : Nat} {position : HlsReloadPosition} :
    Ready (some (number, count)) complete position ↔
      position.msn < number ∨ position.msn = number ∧
        match position.part with
        | some index => index < count
        | none => complete = true := by
  constructor
  · rintro ⟨number', count', heq, hready⟩
    obtain ⟨rfl, rfl⟩ := Prod.mk.inj (Option.some.inj heq)
    exact hready
  · exact fun hready => ⟨number, count, rfl, hready⟩

theorem not_ready_none {position : HlsReloadPosition} : ¬ Ready none complete position := by
  rintro ⟨_, _, heq, _⟩
  cases heq

/-- Positions of one newest segment are those of another only if that is as new and as long. -/
theorem ready_le {number count number' count' : Nat} (hpos : 0 < count)
    (h : ∀ position, Ready (some (number, count)) complete position →
      Ready (some (number', count')) complete' position) :
    number < number' ∨ number = number' ∧ count ≤ count' := by
  have hlast := ready_some.1 (h ⟨number, some (count - 1)⟩ (ready_some.2 (Or.inr ⟨rfl, by
    show count - 1 < count
    omega⟩)))
  rcases hlast with hlt | ⟨heq, hcount⟩
  · exact Or.inl hlt
  · simp only at hcount
    exact Or.inr ⟨heq, by omega⟩

/-- The newest segment can be read off the positions. -/
theorem ready_iff_iff (hpos : ∀ number count, newest = some (number, count) → 0 < count)
    (hpos' : ∀ number count, newest' = some (number, count) → 0 < count) :
    (∀ position, Ready newest complete position ↔ Ready newest' complete' position) ↔
      newest = newest' ∧ (newest.isSome → complete = complete') := by
  constructor
  · intro h
    cases newest with
    | none =>
        cases newest' with
        | none => exact ⟨rfl, nofun⟩
        | some segment =>
            obtain ⟨number, count⟩ := segment
            -- the first part of the newest segment is a position of one side only
            have hready := (h ⟨number, some 0⟩).2
              (ready_some.2 (Or.inr ⟨rfl, hpos' number count rfl⟩))
            exact absurd hready not_ready_none
    | some segment =>
        obtain ⟨number, count⟩ := segment
        have hcount := hpos number count rfl
        cases newest' with
        | none =>
            have hready := (h ⟨number, some 0⟩).1 (ready_some.2 (Or.inr ⟨rfl, hcount⟩))
            exact absurd hready not_ready_none
        | some segment' =>
            obtain ⟨number', count'⟩ := segment'
            -- each of the two newest segments is as new and as long as the other
            have hle := ready_le hcount fun position => (h position).1
            have hge := ready_le (hpos' number' count' rfl) fun position => (h position).2
            obtain rfl : number = number' := by omega
            obtain rfl : count = count' := by omega
            refine ⟨rfl, fun _ => Bool.eq_iff_iff.2 ?_⟩
            have hnone := h ⟨number, none⟩
            rw [ready_some, ready_some] at hnone
            simpa using hnone
  · rintro ⟨rfl, hcomplete⟩ position
    cases newest with
    | none => exact iff_of_false not_ready_none not_ready_none
    | some segment => rw [hcomplete rfl]

end Ready

/-! ## §2. The reload. -/

section Reload

variable {C : ChunkCacheCrate}

/-- The recorded parts are in segments of keyframes. -/
def keyframeSegments (parts : RetainedParts) : Bool :=
  parts.any fun entry => entry.2.fmp4SegmentId.isSome

/-- The newest segment of the recorded parts, with their number. -/
def recordedNewest (partsPerSegment : Nat) (parts : RetainedParts) : Option (Nat × Nat) :=
  greatest (HlsCache.reloadSegment (keyframeSegments parts) partsPerSegment) parts

/-- It is complete. -/
def recordedComplete (partsPerSegment : Nat) (parts : RetainedParts) : Bool :=
  !keyframeSegments parts &&
    (recordedNewest partsPerSegment parts).any fun newest => partsPerSegment ≤ newest.2

/-- A reload returns up to the end of the newest segment that is recorded. -/
theorem hlsReloadPositionAvailable_iff {cache : HlsCache C} {streamId : UInt64}
    {position : HlsReloadPosition} :
    cache.hlsReloadPositionAvailable streamId position = true ↔
      Ready (recordedNewest cache.partsPerSegment (cache.state.parts streamId))
        (recordedComplete cache.partsPerSegment (cache.state.parts streamId)) position := by
  rw [HlsCache.hlsReloadPositionAvailable, LiveState.parts]
  cases cache.state.streamParts.lookup streamId with
  | none =>
      refine iff_of_false Bool.false_ne_true ?_
      exact not_ready_none
  | some parts =>
      simp only [Option.getD_some]
      rw [show (parts.any fun entry => entry.2.fmp4SegmentId.isSome) = keyframeSegments parts
        from rfl, recordedComplete, recordedNewest]
      obtain ⟨hasc, hmem⟩ := groupEntries_spec
        (HlsCache.reloadSegment (keyframeSegments parts) cache.partsPerSegment) parts
      have hlast := getLast?_groups hasc hmem
      rw [← hlast, ← List.getLast?_map]
      -- from here on only the numbers of the segments and of their parts matter
      generalize groupEntries (HlsCache.reloadSegment (keyframeSegments parts)
        cache.partsPerSegment) parts = groups at hasc ⊢
      have hcounts : Ascending (groups.map fun group => (group.1, group.2.length)) :=
        List.pairwise_map.2 hasc
      generalize (groups.map fun group => (group.1, group.2.length)) = counts at hcounts ⊢
      cases counts using List.reverseRecOn with
      | nil =>
          refine iff_of_false Bool.false_ne_true ?_
          exact not_ready_none
      | append_singleton front newest =>
          obtain ⟨number, count⟩ := newest
          obtain ⟨first, hfirst⟩ := Option.isSome_iff_exists.1 (List.isSome_head?.2
            (List.append_ne_nil_of_right_ne_nil front (List.cons_ne_nil (number, count) [])))
          have hlast' : (front ++ [(number, count)]).getLast? = some (number, count) :=
            List.getLast?_concat
          have hle : first.1 ≤ number := by
            rcases hcounts.eq_or_lt_last (List.mem_of_head? hfirst) hlast' with rfl | hlt
            · exact Nat.le_refl _
            · exact Nat.le_of_lt hlt
          rw [hfirst, hlast', ready_some]
          simp only
          -- the code compares with the first segment as well, which is no newer than the newest
          by_cases hbefore : position.msn < first.1 ∨ position.msn < number
          · rw [if_pos hbefore]
            exact iff_of_true rfl (Or.inl (by omega))
          · rw [if_neg hbefore]
            by_cases hsame : position.msn = number
            · have hfound : (front ++ [(number, count)]).lookup number = some count :=
                hcounts.lookup_eq_some_iff.2 (by simp)
              rw [hsame, hfound]
              cases position.part with
              | some index => simp
              | none => cases keyframeSegments parts <;> simp
            -- a segment that comes after the newest has no parts yet
            · have hmissing : (front ++ [(number, count)]).lookup position.msn = none := by
                refine Option.eq_none_iff_forall_ne_some.2 fun found hfound => ?_
                rcases hcounts.eq_or_lt_last (hcounts.lookup_eq_some_iff.1 hfound) hlast'
                  with heq | hlt
                · exact hsame (Prod.mk.inj heq).1
                · simp only at hlt
                  omega
              rw [hmissing]
              exact iff_of_false Bool.false_ne_true (by omega)

end Reload

/-! ## §3. The playlist. -/

/-- The segment a playlist lists a part under: none if that does not begin with its keyframe. -/
def listedSegment (aligned : Bool) (partsPerSegment : Nat) (available : List ObservedPart)
    (part : ObservedPart) : Option Nat :=
  if aligned then
    part.fmp4SegmentId.filter fun id =>
      (available.find? fun other => other.fmp4SegmentId = some id).any (·.keyframe)
  else some (part.sequence / partsPerSegment)

section Groups

variable {aligned : Bool} {partsPerSegment : Nat} {available : List ObservedPart}

theorem retainWholeSegments_sublist {groups : List (Nat × List ObservedPart)} :
    (retainWholeSegments aligned partsPerSegment groups).Sublist groups := by
  unfold retainWholeSegments
  split
  · exact List.filter_sublist
  · split
    · split
      · exact List.sublist_cons_self _ _
      · exact List.Sublist.refl _
    · exact List.Sublist.refl _

theorem playlistGroups_ascending : Ascending (playlistGroups aligned partsPerSegment available) :=
  List.Pairwise.sublist retainWholeSegments_sublist
    (groupEntries_spec (playlistSegment aligned partsPerSegment) available).1

theorem ne_nil_of_mem_playlistGroups {segment : Nat × List ObservedPart}
    (h : segment ∈ playlistGroups aligned partsPerSegment available) : segment.2 ≠ [] :=
  (((groupEntries_spec (playlistSegment aligned partsPerSegment) available).2
    segment.1 segment.2).1 (retainWholeSegments_sublist.subset h)).2

/-- In keyframe segments, those that begin with their keyframe are listed. -/
theorem mem_playlistGroups_aligned {k : Nat} {group : List ObservedPart} :
    (k, group) ∈ playlistGroups true partsPerSegment available ↔
      group = available.filter (fun part =>
        listedSegment true partsPerSegment available part = some k) ∧ group ≠ [] := by
  show (k, group) ∈ List.filter _ _ ↔ _
  rw [List.mem_filter, (groupEntries_spec _ _).2]
  -- without its keyframe in the window a segment has no listed parts at all
  have hfilter : available.filter
      (fun part => listedSegment true partsPerSegment available part = some k) =
      if (available.find? fun other => other.fmp4SegmentId = some k).any (·.keyframe) then
        available.filter (fun part => playlistSegment true partsPerSegment part = some k)
      else [] := by
    split
    · next hkey =>
        refine List.filter_congr fun part _ => ?_
        rw [decide_eq_decide]
        show part.fmp4SegmentId.filter _ = some k ↔ part.fmp4SegmentId = some k
        rw [Option.filter_eq_some_iff]
        exact and_iff_left_of_imp fun _ => hkey
    · next hkey =>
        refine List.filter_eq_nil_iff.2 fun part _ hlisted => hkey ?_
        exact (Option.filter_eq_some_iff.1 (of_decide_eq_true hlisted)).2
  have hhead : (available.filter fun part =>
      playlistSegment true partsPerSegment part = some k).head? =
      available.find? fun other => other.fmp4SegmentId = some k := List.head?_filter
  rw [hfilter]
  constructor
  · rintro ⟨⟨rfl, hne⟩, hkey⟩
    rw [hhead] at hkey
    rw [if_pos hkey]
    exact ⟨rfl, hne⟩
  · rintro ⟨hgroup, hne⟩
    split at hgroup
    · next hkey =>
        subst hgroup
        rw [← hhead] at hkey
        exact ⟨⟨rfl, hne⟩, hkey⟩
    · exact absurd hgroup hne

/-- The last segment that a playlist lists. -/
theorem getLast?_playlistGroups :
    (playlistGroups aligned partsPerSegment available).getLast?.map
        (fun segment => (segment.1, segment.2.length)) =
      greatest (listedSegment aligned partsPerSegment available) available := by
  cases aligned with
  | true => exact getLast?_groups playlistGroups_ascending fun _ _ => mem_playlistGroups_aligned
  | false =>
      -- if the first of several segments is left out, the last one stays
      have hlast : (playlistGroups false partsPerSegment available).getLast? =
          (groupEntries (playlistSegment false partsPerSegment) available).getLast? := by
        rw [playlistGroups]
        unfold retainWholeSegments
        rw [if_neg Bool.false_ne_true]
        split
        · split
          · next hgroups _ => rw [hgroups, List.getLast?_cons_cons]
          · rfl
        · rfl
      rw [hlast]
      obtain ⟨hasc, hmem⟩ := groupEntries_spec (playlistSegment false partsPerSegment) available
      exact getLast?_groups hasc hmem

end Groups

/-- A playlist with the segments of these parts. -/
def RendersParts (aligned : Bool) (partsPerSegment : Nat) (available : List ObservedPart)
    (body : List PlaylistLine) : Prop :=
  ∃ head kind audioOnly firstParted next,
    firstParted ≤ ((playlistGroups aligned partsPerSegment available).getLast?.map (·.1)).getD 0 ∧
    body = renderPlaylist head kind audioOnly firstParted next
      (segmentIsComplete aligned partsPerSegment
        (playlistGroups aligned partsPerSegment available))
      (playlistGroups aligned partsPerSegment available)

section Lines

variable {head : PlaylistHead} {kind : LiveMediaKind} {audioOnly : Bool}
  {firstParted next sequence : Nat}

theorem mem_partLines_renderPlaylist {complete : Nat × List ObservedPart → Bool}
    {groups : List (Nat × List ObservedPart)} :
    sequence ∈ partLines (renderPlaylist head kind audioOnly firstParted next complete groups) ↔
      ∃ segment ∈ groups, firstParted ≤ segment.1 ∧
        ∃ part ∈ segment.2, part.sequence = sequence := by
  rw [partLines_renderPlaylist]
  simp only [List.mem_flatMap, List.mem_filter, decide_eq_true_eq, List.mem_map, and_assoc]

end Lines

/-- A playlist lists the positions up to the end of its last segment. -/
theorem RendersParts.lists_iff {aligned : Bool} {partsPerSegment : Nat}
    {available : List ObservedPart} {body : List PlaylistLine} {position : HlsReloadPosition}
    (h : RendersParts aligned partsPerSegment available body) :
    ListsPosition (playlistGroups aligned partsPerSegment available) body position ↔
      Ready (greatest (listedSegment aligned partsPerSegment available) available)
        (!aligned && (greatest (listedSegment aligned partsPerSegment available) available).any
          fun newest => newest.2 = partsPerSegment) position := by
  obtain ⟨head, kind, audioOnly, firstParted, next, hparted, rfl⟩ := h
  obtain ⟨msn, wanted⟩ := position
  have hasc := @playlistGroups_ascending aligned partsPerSegment available
  have hne : ∀ segment ∈ playlistGroups aligned partsPerSegment available, segment.2 ≠ [] :=
    fun _ => ne_nil_of_mem_playlistGroups
  rw [ListsPosition, segmentLines_renderPlaylist, ← getLast?_playlistGroups]
  simp only [mem_partLines_renderPlaylist]
  generalize playlistGroups aligned partsPerSegment available = groups at hasc hne hparted ⊢
  cases hlast : groups.getLast? with
  | none =>
      rw [List.getLast?_eq_none_iff] at hlast
      subst hlast
      refine iff_of_false ?_ not_ready_none
      rintro (hsame | ⟨number, hnumber, _⟩ | ⟨number, group, part, hgroup, _⟩)
      · cases wanted with
        | some index =>
            obtain ⟨_, _, hgroup, _⟩ := hsame
            exact List.not_mem_nil hgroup
        | none => exact List.not_mem_nil hsame
      · exact List.not_mem_nil hnumber
      · exact List.not_mem_nil hgroup
  | some last =>
      rw [hlast, Option.map_some, Option.getD_some] at hparted
      rw [Option.map_some, ready_some]
      have hmem : last ∈ groups := List.mem_of_getLast? hlast
      have hnewest : ∀ segment ∈ groups, segment = last ∨ segment.1 < last.1 :=
        fun segment hsegment => hasc.eq_or_lt_last hsegment hlast
      have hcomplete : segmentIsComplete aligned partsPerSegment groups last =
          (!aligned && (some (last.1, last.2.length)).any
            fun newest => decide (newest.2 = partsPerSegment)) := by
        rw [segmentIsComplete, hlast]
        cases aligned <;> simp
      rw [← hcomplete]
      -- every listed segment is the last one or has a smaller number
      constructor
      · rintro (hsame | ⟨number, hnumber, hlt⟩ | ⟨number, group, part, hgroup, _, hlt, _⟩)
        · cases wanted with
          | some index =>
              obtain ⟨group, part, hgroup, hpart, _⟩ := hsame
              rcases hnewest _ hgroup with heq | hlt
              · refine Or.inr ⟨congrArg Prod.fst heq, ?_⟩
                rw [← heq]
                exact (List.getElem?_eq_some_iff.1 hpart).1
              · exact Or.inl hlt
          | none =>
              obtain ⟨segment, hlisted, heq⟩ := List.mem_map.1 hsame
              obtain ⟨hsegment, hwhole⟩ := List.mem_filter.1 hlisted
              rcases hnewest _ hsegment with rfl | hlt
              · exact Or.inr ⟨heq.symm, hwhole⟩
              · rw [heq] at hlt
                exact Or.inl hlt
        · obtain ⟨segment, hlisted, rfl⟩ := List.mem_map.1 hnumber
          rcases hnewest _ (List.mem_of_mem_filter hlisted) with rfl | hlt'
          · exact Or.inl hlt
          · exact Or.inl (Nat.lt_trans hlt hlt')
        · rcases hnewest _ hgroup with rfl | hlt'
          · exact Or.inl hlt
          · exact Or.inl (Nat.lt_trans hlt hlt')
      -- the parts of the last segment are always written out, since `firstParted` is no later
      · rintro (hlt | ⟨rfl, hpart⟩)
        · obtain ⟨part, hpart⟩ := List.exists_mem_of_ne_nil _ (hne last hmem)
          exact Or.inr (Or.inr ⟨last.1, last.2, part, hmem, hpart, hlt, last, hmem, hparted, part,
            hpart, rfl⟩)
        · refine Or.inl ?_
          cases wanted with
          | some index =>
              have hget : last.2[index]? = some last.2[index] := List.getElem?_eq_getElem hpart
              exact ⟨last.2, last.2[index], hmem, hget, last, hmem, hparted, last.2[index],
                List.getElem_mem hpart, rfl⟩
          | none => exact List.mem_map.2 ⟨last, List.mem_filter.2 ⟨hmem, hpart⟩, rfl⟩

section Rendered

variable {C : ChunkCacheCrate} (R : ChunkCacheReads C) (M : MediaObjectCrate)

/-- The playlist that is rendered from the state the cache is in. -/
def HlsCache.renderedPlaylist (formatProgramDateTime : Nat → Option String) (cache : HlsCache C)
    (streamId : UInt64) : List PlaylistLine :=
  ({ cache with playlistCache := [] }.playlistForStreamId R M formatProgramDateTime streamId).1

/-- The parts a playlist has to list, and whether their segments are those of keyframes: the slots
with media up to the end of the contiguous run, but nothing of fMP4 without an initialization. -/
def HlsCache.listable (cache : HlsCache C) (streamId : UInt64) :
    Option (Bool × List ObservedPart) :=
  (cache.streamPosition R streamId).bind fun (streamIdx, last) =>
    let slots := cache.windowSlots R M streamId streamIdx (last - (cache.windowParts - 1)) last
    slots.getLast?.bind fun (_, latest) =>
      let available := cache.available streamId (slots.map (·.1))
      if latest.mediaKind = .fmp4 ∧ (slots.filterMap fun slot => slot.2.init).getLast?.isNone ∧
          (cache.getInitForStreamId R M streamId).1.isNone then none
      else some (keyframeAligned latest.mediaKind available, available)

/-- The newest segment of these parts, with their number. -/
def HlsCache.listedNewest (cache : HlsCache C) (streamId : UInt64) : Option (Nat × Nat) :=
  (cache.listable R M streamId).bind fun (aligned, available) =>
    greatest (listedSegment aligned cache.partsPerSegment available) available

/-- It is complete. -/
def HlsCache.listedComplete (cache : HlsCache C) (streamId : UInt64) : Bool :=
  (cache.listable R M streamId).any fun (aligned, _) => !aligned &&
    (cache.listedNewest R M streamId).any fun newest => newest.2 = cache.partsPerSegment

end Rendered

section Rendered

variable {C : ChunkCacheCrate} {R : ChunkCacheReads C} {M : MediaObjectCrate}
  {formatProgramDateTime : Nat → Option String} {cache : HlsCache C} {streamId : UInt64}

/-- Looking for an initialization leaves the parts alone. -/
theorem getInitForStreamId_available :
    (cache.getInitForStreamId R M streamId).2.partsPerSegment = cache.partsPerSegment ∧
      ∀ sequences, (cache.getInitForStreamId R M streamId).2.available streamId sequences =
        cache.available streamId sequences := by
  rcases @HlsCache.getInitForStreamId_snd C R M cache streamId with hsame | ⟨init, _, hsame⟩
  · rw [hsame]
    exact ⟨rfl, fun _ => rfl⟩
  · rw [hsame]
    exact ⟨rfl, fun _ => rfl⟩

theorem renderParts_renders {kind : LiveMediaKind} {init : Option Bytes} {sequences : List Nat} :
    RendersParts (keyframeAligned kind (cache.available streamId sequences)) cache.partsPerSegment
      (cache.available streamId sequences)
      (cache.renderParts formatProgramDateTime streamId kind init sequences).1 :=
  ⟨_, _, _, _, _, Nat.sub_le _ _, rfl⟩

/-- Lines that a playlist has without any part. -/
theorem lists_nothing {groups : List (Nat × List ObservedPart)} {body : List PlaylistLine}
    {position : HlsReloadPosition}
    (h : ∀ line ∈ body, ∀ durationMs sequence kind independent number,
      line ≠ .part durationMs sequence kind independent ∧ line ≠ .segment number kind) :
    ¬ ListsPosition groups body position := by
  have hparts : partLines body = [] := by
    refine List.filterMap_eq_nil_iff.2 fun line hline => ?_
    cases line <;> first | rfl | exact absurd rfl (h _ hline _ _ _ _ 0).1
  have hsegments : segmentLines body = [] := by
    refine List.filterMap_eq_nil_iff.2 fun line hline => ?_
    cases line <;> first | rfl | exact absurd rfl (h _ hline 0 0 _ false _).2
  rw [ListsPosition, hparts, hsegments]
  rintro (hsame | ⟨number, hnumber, _⟩ | ⟨number, group, part, _, _, _, hpart⟩)
  · cases hwanted : position.part with
    | some index =>
        rw [hwanted] at hsame
        obtain ⟨_, _, _, _, hpart⟩ := hsame
        exact List.not_mem_nil hpart
    | none =>
        rw [hwanted] at hsame
        exact List.not_mem_nil hsame
  · exact List.not_mem_nil hnumber
  · exact List.not_mem_nil hpart

theorem emptyHead_lines {hasMap : Bool} {line : PlaylistLine}
    (h : line ∈ cache.emptyHead hasMap) :
    ∀ durationMs sequence kind independent number,
      line ≠ .part durationMs sequence kind independent ∧ line ≠ .segment number kind := by
  cases hasMap <;> simp [HlsCache.emptyHead, renderHead] at h <;> grind

theorem emptyPlaylist_lines {next : Nat} {kind : LiveMediaKind} {hasMap : Bool}
    {line : PlaylistLine} (h : line ∈ cache.emptyPlaylist next kind hasMap) :
    ∀ durationMs sequence kind independent number,
      line ≠ .part durationMs sequence kind independent ∧ line ≠ .segment number kind := by
  rcases List.mem_append.1 h with hhead | hhint
  · exact emptyHead_lines hhead
  · split at hhint
    · cases hhint
    · obtain rfl := List.mem_singleton.1 hhint
      exact fun _ _ _ _ _ => ⟨nofun, nofun⟩

/-- Rendering once the kind of the stream is known. -/
theorem renderKind_renders {kind : LiveMediaKind} {sequences : List Nat} {known : Bool}
    (hknown : known = (cache.getInitForStreamId R M streamId).1.isSome) :
    let asked := if kind = .fmp4 then
        (cache.rememberMediaKind streamId kind).getInitForStreamId R M streamId
      else (none, cache.rememberMediaKind streamId kind)
    let body := (if kind = .fmp4 ∧ asked.1.isNone then (asked.2.waitingPlaylist false, asked.2)
      else asked.2.renderParts formatProgramDateTime streamId kind asked.1 sequences).1
    if kind = .fmp4 ∧ known = false then body = asked.2.waitingPlaylist false
    else RendersParts (keyframeAligned kind (cache.available streamId sequences))
      cache.partsPerSegment (cache.available streamId sequences) body := by
  intro asked body
  -- what is remembered on the way changes neither the parts nor the segments
  have hasked : asked.2.partsPerSegment = cache.partsPerSegment ∧
      asked.2.available streamId sequences = cache.available streamId sequences := by
    by_cases hfmp4 : kind = .fmp4
    · rw [show asked = _ from if_pos hfmp4]
      obtain ⟨hcount, havailable⟩ := @getInitForStreamId_available C R M
        (cache.rememberMediaKind streamId kind) streamId
      exact ⟨hcount, havailable sequences⟩
    · rw [show asked = _ from if_neg hfmp4]
      exact ⟨rfl, rfl⟩
  have hinit : kind = .fmp4 → (asked.1.isNone = true ↔ known = false) := by
    intro hfmp4
    have hsame : asked.1 = (cache.getInitForStreamId R M streamId).1 := by
      rw [show asked = _ from if_pos hfmp4]
      exact HlsCache.getInitForStreamId_rememberMediaKind kind
    rw [hsame, hknown]
    cases (cache.getInitForStreamId R M streamId).1 <;> simp
  split
  · next hwaiting => rw [show body = _ from congrArg Prod.fst (if_pos
      (show kind = .fmp4 ∧ asked.1.isNone = true from
        ⟨hwaiting.1, (hinit hwaiting.1).2 hwaiting.2⟩))]
  · next hpresent =>
      have hbody : body = (asked.2.renderParts formatProgramDateTime streamId kind asked.1
          sequences).1 := congrArg Prod.fst (if_neg fun hwaiting =>
        hpresent ⟨hwaiting.1, (hinit hwaiting.1).1 hwaiting.2⟩)
      rw [hbody, ← hasked.1, ← hasked.2]
      exact renderParts_renders

/-- The playlist lists the positions up to the end of the newest segment it can list. -/
theorem renderedPlaylist_lists_iff {position : HlsReloadPosition} :
    ListsPosition (cache.listedGroups R M streamId)
        (cache.renderedPlaylist R M formatProgramDateTime streamId) position ↔
      Ready (cache.listedNewest R M streamId) (cache.listedComplete R M streamId) position := by
  rw [HlsCache.listedComplete, HlsCache.listedNewest, HlsCache.listable, HlsCache.listedGroups,
    HlsCache.renderedPlaylist, HlsCache.playlistForStreamId]
  have hposition : { cache with playlistCache := [] }.streamPosition R streamId =
      cache.streamPosition R streamId := rfl
  rw [hposition]
  cases cache.streamPosition R streamId with
  | none => exact iff_of_false (lists_nothing fun _ => emptyPlaylist_lines) not_ready_none
  | some position =>
      obtain ⟨streamIdx, last⟩ := position
      have hhit : ∀ version, { cache with playlistCache := [] }.cachedPlaylist streamId streamIdx
          version = none := fun _ => rfl
      simp only [hhit, HlsCache.renderWindow, Option.bind_some]
      have hslots : { cache with playlistCache := [] }.windowSlots R M streamId streamIdx
          (last - (cache.windowParts - 1)) last =
          cache.windowSlots R M streamId streamIdx (last - (cache.windowParts - 1)) last := rfl
      rw [hslots]
      generalize cache.windowSlots R M streamId streamIdx (last - (cache.windowParts - 1)) last =
        slots
      cases slots.getLast? with
      | none => exact iff_of_false (lists_nothing fun _ => emptyPlaylist_lines) not_ready_none
      | some latest =>
          obtain ⟨sequence, latest⟩ := latest
          simp only [Option.bind_some]
          generalize slots.map (·.1) = sequences
          -- an initialization in the slots is remembered first, so it is found in any case
          cases (slots.filterMap fun slot => slot.2.init).getLast? with
          | some init =>
              have hrenders := @renderKind_renders C R M formatProgramDateTime
                ({ cache with playlistCache := [] }.rememberStreamInit streamId init) streamId
                latest.mediaKind sequences true
                (by rw [HlsCache.getInitForStreamId_rememberStreamInit]; rfl)
              simp only [Bool.true_eq_false, and_false, if_false] at hrenders
              simp only [Option.isNone_some, Bool.false_eq_true, false_and, and_false, if_false]
              exact hrenders.lists_iff
          | none =>
              have hrenders := @renderKind_renders C R M formatProgramDateTime
                { cache with playlistCache := [] } streamId latest.mediaKind sequences
                (cache.getInitForStreamId R M streamId).1.isSome
                (by rw [HlsCache.getInitForStreamId_fst, HlsCache.getInitForStreamId_fst]; rfl)
              simp only [Option.isSome_eq_false_iff] at hrenders
              simp only [Option.isNone_none, true_and]
              split at hrenders
              · next hwaiting =>
                  rw [hrenders, if_pos hwaiting]
                  exact iff_of_false (lists_nothing fun _ => emptyHead_lines) not_ready_none
              · next hpresent =>
                  rw [if_neg hpresent]
                  exact hrenders.lists_iff

end Rendered

/-! ## §4. Agreement. -/

/-- The newest segment that is recorded is the newest that is listed, with as many parts, and
complete for both or for neither. -/
def NewestAgrees {C : ChunkCacheCrate} (R : ChunkCacheReads C) (M : MediaObjectCrate)
    (cache : HlsCache C) (streamId : UInt64) : Prop :=
  let recorded := recordedNewest cache.partsPerSegment (cache.state.parts streamId)
  recorded = cache.listedNewest R M streamId ∧
    (recorded.isSome → recordedComplete cache.partsPerSegment (cache.state.parts streamId) =
      cache.listedComplete R M streamId)

/-- **A blocking reload agrees with the playlist** of the same state, whatever was committed or
replicated before, exactly if the two have the same newest segment. -/
theorem reload_agrees_iff {C : ChunkCacheCrate} (R : ChunkCacheReads C) (M : MediaObjectCrate)
    (formatProgramDateTime : Nat → Option String) (cache : HlsCache C) (streamId : UInt64) :
    (∀ position, cache.hlsReloadPositionAvailable streamId position = true ↔
      ListsPosition (cache.listedGroups R M streamId)
        (cache.renderedPlaylist R M formatProgramDateTime streamId) position) ↔
      NewestAgrees R M cache streamId := by
  simp only [hlsReloadPositionAvailable_iff, renderedPlaylist_lists_iff]
  refine ready_iff_iff (fun number count hnewest => greatest_pos hnewest) ?_
  intro number count hnewest
  obtain ⟨_, _, hgreatest⟩ := Option.bind_eq_some_iff.1 hnewest
  exact greatest_pos hgreatest

section InOrder

variable {C : ChunkCacheCrate} {R : ChunkCacheReads C} {M : MediaObjectCrate} {retained : Nat}
  {f : Feed} {l : Nat} {cache : HlsCache C}

/-- The last keyframe of a window that has one begins the segment of its last part. -/
theorem exists_last_keyframe {key : Nat → Bool} {a lo : Nat} (hstart : a ≤ lo) {q : Nat}
    (hlo : lo ≤ q) (hle : q ≤ l) (hkey : key q = true) :
    ∃ r, lo ≤ r ∧ r ≤ l ∧ key r = true ∧ keyframesUpTo key a r = keyframesUpTo key a l := by
  induction l, hle using Nat.le_induction with
  | base => exact ⟨q, hlo, Nat.le_refl q, hkey, rfl⟩
  | succ l hle ih =>
      by_cases hlast : key (l + 1) = true
      · exact ⟨l + 1, by omega, Nat.le_refl _, hlast, rfl⟩
      · obtain ⟨r, hlor, hrle, hr, hcount⟩ := ih
        have hsame : keyframesUpTo key a (l + 1) = keyframesUpTo key a l := by
          rw [keyframesUpTo_succ (by omega), if_neg hlast]
          omega
        exact ⟨r, hlor, by omega, hr, by omega⟩

/-- The playlist has the retained parts to list. -/
theorem InOrder.listable (hR : LawfulReads R retained) (h : InOrder R M retained f l cache)
    (hretained : max cache.windowParts 1 ≤ retained) (hinit : InitPresent R M f cache) :
    cache.listable R M f.streamId =
      some (keyframeSegments (cache.state.parts f.streamId), cache.observedParts f.streamId) := by
  obtain ⟨idx, hposition⟩ := h.position
  have hstream : cache.streamPosition R f.streamId = some (idx, l) := hposition
  have hkind := (h.media l h.start_le (Nat.le_refl l)).2
  have haligned : keyframeAligned (f.slot l).mediaKind (cache.observedParts f.streamId) =
      keyframeSegments (cache.state.parts f.streamId) := by
    rw [Feed.keyframeAligned_eq hkind, HlsCache.observedParts, Feed.aligned_observed h.parts]
    rfl
  simp only [HlsCache.listable, hstream, Option.bind_some]
  rw [h.windowSlots hR hretained hposition, h.getLast?_slots, Feed.map_fst_slots]
  simp only [Option.bind_some]
  rw [if_neg, h.available, haligned]
  rintro ⟨hfmp4, _, hnone⟩
  have hsome := hinit (hkind.1 hfmp4)
  rw [Option.isNone_iff_eq_none] at hnone
  rw [hnone] at hsome
  cases hsome

section Retained

variable {key : Nat → Bool} {a lo nominal partsPerSegment : Nat} {parts : RetainedParts}

/-- The segment of the last keyframe is the newest, and it is listed. -/
theorem RetainedWindow.listed_eq_recorded {fmp4 : Bool} (h : RetainedWindow fmp4 key a lo l parts)
    (hkeys : keyframeSegments parts = true)
    (hkeyframe : fmp4 = true → 0 < keyframesUpTo key a l → ∃ q, lo ≤ q ∧ q ≤ l ∧ key q = true) :
    greatest (fun entry => listedSegment true partsPerSegment (parts.map (observed nominal))
        (observed nominal entry)) parts =
      greatest (HlsCache.reloadSegment true partsPerSegment) parts := by
  obtain ⟨entry, hentry, hsome⟩ := List.any_eq_true.1 hkeys
  -- only fMP4 parts are in segments of keyframes
  have hfmp4 : fmp4 = true := by
    by_contra hother
    rw [h.segment entry hentry, if_neg hother] at hsome
    cases hsome
  subst hfmp4
  have hsegment : ∀ entry ∈ parts, entry.2.fmp4SegmentId = ofCount (keyframesUpTo key a entry.1) :=
    fun entry hentry => h.segment entry hentry
  have hwindow := h.window nominal
  have hbound : ∀ entry ∈ parts, keyframesUpTo key a entry.1 ≤ keyframesUpTo key a l := by
    intro entry hentry
    have hin := h.mem_iff.1 ⟨entry, hentry, rfl⟩
    exact keyframesUpTo_mono (Nat.le_trans h.start_le hin.1) hin.2
  obtain ⟨id, hid⟩ := Option.isSome_iff_exists.1 hsome
  rw [hsegment entry hentry, ofCount_eq_some] at hid
  have hle := hbound entry hentry
  obtain ⟨q, hlo, hql, hkey⟩ := hkeyframe rfl (by omega)
  obtain ⟨r, hlor, hrl, hr, hlast⟩ := exists_last_keyframe h.start_le hlo hql hkey
  -- the number of the last segment
  obtain ⟨k, hk⟩ : ∃ k, keyframesUpTo key a l = k + 1 := ⟨keyframesUpTo key a l - 1, by omega⟩
  have hlastid : ∃ entry ∈ parts,
      HlsCache.reloadSegment true partsPerSegment entry = some k := by
    obtain ⟨begins, hbegins, rfl⟩ := h.mem_iff.2 ⟨hlor, hrl⟩
    refine ⟨begins, hbegins, ?_⟩
    show begins.2.fmp4SegmentId = some k
    rw [hsegment begins hbegins, ofCount_eq_some]
    omega
  have hids : ∀ entry ∈ parts, ∀ id,
      HlsCache.reloadSegment true partsPerSegment entry = some id → id ≤ k := by
    intro entry hentry id hid
    have hcount := hbound entry hentry
    rw [HlsCache.reloadSegment, if_pos rfl, hsegment entry hentry, ofCount_eq_some] at hid
    omega
  have hgreatest := greatest_eq_some.2 ⟨⟨hlastid, hids⟩, rfl⟩
  -- segment `k` begins with its keyframe at `r`, which is in the window
  have hlisted := (hwindow.aligned_mem_iff partsPerSegment).2
    ⟨rfl, r, hlor, hrl, hr, hlast.trans hk⟩
  obtain ⟨hgroup, hne⟩ := mem_playlistGroups_aligned.1 hlisted
  rw [hgroup] at hne
  obtain ⟨part, hpart⟩ := List.exists_mem_of_ne_nil _ hne
  obtain ⟨_, hbegins⟩ := Option.filter_eq_some_iff.1 (of_decide_eq_true (List.mem_filter.1 hpart).2)
  rw [hgreatest]
  exact greatest_filter hgreatest hbegins

/-- A segment of a fixed size has no more parts than that. -/
theorem RetainedWindow.fixed_count_le {fmp4 : Bool} (h : RetainedWindow fmp4 key a lo l parts)
    (hpos : 0 < partsPerSegment) {newest : Nat × Nat}
    (hnewest : greatest (HlsCache.reloadSegment false partsPerSegment) parts = some newest) :
    newest.2 ≤ partsPerSegment := by
  obtain ⟨k, count⟩ := newest
  obtain ⟨_, rfl⟩ := greatest_eq_some.1 hnewest
  have hcount : (parts.countP fun entry =>
      HlsCache.reloadSegment false partsPerSegment entry = some k) =
      ((List.range' lo (l + 1 - lo)).filter fun q => q / partsPerSegment = k).length := by
    rw [← h.sequences, ← List.countP_eq_length_filter, List.countP_map]
    refine List.countP_congr fun entry _ => ?_
    show decide (some (entry.1 / partsPerSegment) = some k) = true ↔ _
    rw [decide_eq_true_eq, Option.some.injEq]
    exact decide_eq_true_iff.symm
  -- the parts of segment `k` are among the `partsPerSegment` sequences that it can have
  have hsub : ((List.range' lo (l + 1 - lo)).filter fun q => q / partsPerSegment = k) ⊆
      List.range' (k * partsPerSegment) partsPerSegment := by
    intro q hq
    have hdiv : q / partsPerSegment = k := of_decide_eq_true (List.mem_filter.1 hq).2
    rw [Nat.div_eq_iff hpos] at hdiv
    rw [List.mem_range'_1]
    omega
  have hlength := (List.subperm_of_subset (List.Nodup.filter _ List.nodup_range') hsub).length_le
  rw [List.length_range'] at hlength
  show List.countP _ _ ≤ _
  rw [hcount]
  exact hlength

end Retained

/-- Parts committed in order are recorded and listed alike, as long as an fMP4 stream that has had
a keyframe has one in its window. -/
theorem InOrder.newestAgrees (hR : LawfulReads R retained) (h : InOrder R M retained f l cache)
    (hretained : max cache.windowParts 1 ≤ retained) (hpos : 0 < cache.partsPerSegment)
    (hinit : InitPresent R M f cache)
    (hkeyframe : f.fmp4 = true → 0 < keyframesUpTo f.keyframe f.first l →
      ∃ q, f.windowStart cache.windowParts l ≤ q ∧ q ≤ l ∧ f.keyframe q = true) :
    NewestAgrees R M cache f.streamId := by
  have hlistable := h.listable hR hretained hinit
  have hnewest : cache.listedNewest R M f.streamId =
      recordedNewest cache.partsPerSegment (cache.state.parts f.streamId) := by
    rw [HlsCache.listedNewest, hlistable, recordedNewest, HlsCache.observedParts]
    simp only [Option.bind_some]
    rw [greatest_map]
    cases hkeys : keyframeSegments (cache.state.parts f.streamId) with
    | false => rfl
    | true => exact h.parts.listed_eq_recorded hkeys hkeyframe
  refine ⟨hnewest.symm, fun _ => ?_⟩
  rw [recordedComplete, HlsCache.listedComplete, hlistable, Option.any_some, hnewest]
  cases hkeys : keyframeSegments (cache.state.parts f.streamId) with
  | true => rfl
  | false =>
      simp only [Bool.not_false, Bool.true_and]
      cases hrecorded : recordedNewest cache.partsPerSegment (cache.state.parts f.streamId) with
      | none => rfl
      | some newest =>
          have hle : newest.2 ≤ cache.partsPerSegment := by
            rw [recordedNewest, hkeys] at hrecorded
            exact h.parts.fixed_count_le hpos hrecorded
          show decide (cache.partsPerSegment ≤ newest.2) = decide (newest.2 = _)
          rw [decide_eq_decide]
          omega

end InOrder

/-- Of segments of two parts, parts 0 and 2 are committed: a reload that waits for the first part
of segment 1 returns, with a playlist that ends before part 1. -/
theorem gap_reload_returns :
    let reached := exec (hlsStep sampleReads feedCrate sampleSoundkit (fun _ => none) 3)
      (emptyHlsCache 2 6) [.commit (feedCommit 0 false false), .commit (feedCommit 2 false false)]
    let body := reached.renderedPlaylist sampleReads feedCrate (fun _ => none) 3
    reached.hlsReloadPositionAvailable 3 ⟨1, some 0⟩ = true ∧
      (partLines body, segmentLines body, preloadHintLines body) = ([0], [], [1]) ∧
      ¬ ListsPosition (reached.listedGroups sampleReads feedCrate 3) body ⟨1, some 0⟩ := by
  intro reached body
  have hnewest : reached.listedNewest sampleReads feedCrate 3 = some (0, 1) := by decide +kernel
  refine ⟨by decide +kernel, by decide +kernel, fun hlists => ?_⟩
  have hready := renderedPlaylist_lists_iff.1 hlists
  rw [hnewest, ready_some] at hready
  simp at hready

end AvMesh.LiveCache
