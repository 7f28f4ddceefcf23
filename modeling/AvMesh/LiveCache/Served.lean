/-
  AvMesh.LiveCache.Served
  ───────────────────────
  **EVERY LISTED SEGMENT IS SERVED AS LISTED.**

  The playlist and the segment endpoint find the parts of a segment on their
  own: the playlist from the slots of the window, the endpoint from the parts
  that the live state retains.  For a stream committed in order,

    • the segments a playlist is made of are runs of consecutive parts, with
      consecutive numbers, and end with the window,
    • all but the last of them are complete,
    • a complete one is what the endpoint returns, part after part.

  Main result: `listed_segments_served`.
-/
import AvMesh.LiveCache.InOrder

namespace AvMesh.LiveCache

open AvMesh.Lib

/-! ## §1. The segments of a window. -/

namespace Feed

section Segments

variable {f : Feed} {lo l partsPerSegment : Nat} {available : List ObservedPart}

theorem aligned_iff (h : Window f.fmp4 f.keyframe f.first lo l available) :
    f.aligned available = true ↔ f.fmp4 = true ∧ 0 < keyframesUpTo f.keyframe f.first l := by
  have hkind : (if f.fmp4 then LiveMediaKind.fmp4 else .ts) = .fmp4 ↔ f.fmp4 = true := by
    cases f.fmp4 <;> simp
  rw [← keyframeAligned_eq hkind]
  exact h.aligned_iff hkind

theorem segments_of_aligned (h : f.aligned available = true) :
    f.segments partsPerSegment available = playlistGroups true partsPerSegment available := by
  rw [segments, h]

theorem segments_of_fixed (h : f.aligned available = false) :
    f.segments partsPerSegment available = playlistGroups false partsPerSegment available := by
  rw [segments, h]

/-- The segments are runs of consecutive parts at the end of the window. -/
theorem segments_steps (h : Window f.fmp4 f.keyframe f.first lo l available) (hlo : lo ≤ u64Max) :
    ∃ key listed, listed <:+ available ∧
      StepGroups key listed (f.segments partsPerSegment available) := by
  cases haligned : f.aligned available with
  | true =>
      have hfmp4 := ((aligned_iff h).1 haligned).1
      rw [hfmp4] at h
      rw [segments_of_aligned haligned]
      exact ⟨_, h.aligned_steps partsPerSegment⟩
  | false =>
      rw [segments_of_fixed haligned]
      exact ⟨_, h.fixed_steps hlo⟩

theorem segments_chain (h : Window f.fmp4 f.keyframe f.first lo l available) (hlo : lo ≤ u64Max) :
    ((f.segments partsPerSegment available).map (·.1)).IsChain fun x y => y = x + 1 := by
  obtain ⟨key, listed, _, hsteps⟩ := @segments_steps f lo l partsPerSegment available h hlo
  exact (List.isChain_map _).2 hsteps.chain

theorem segments_suffix (h : Window f.fmp4 f.keyframe f.first lo l available) (hlo : lo ≤ u64Max) :
    ((f.segments partsPerSegment available).flatMap fun segment =>
      segment.2.map (·.sequence)) <:+ List.range' lo (l + 1 - lo) := by
  obtain ⟨key, listed, hsuffix, hsteps⟩ := @segments_steps f lo l partsPerSegment available h hlo
  rw [← h.sequences, ← List.map_flatMap, hsteps.flatten]
  exact hsuffix.map _

/-- The parts of a segment are consecutive. -/
theorem segment_consecutive (h : Window f.fmp4 f.keyframe f.first lo l available)
    (hlo : lo ≤ u64Max) {segment : Nat × List ObservedPart}
    (hsegment : segment ∈ f.segments partsPerSegment available) :
    ∃ first, segment.2.map (·.sequence) = List.range' first segment.2.length := by
  obtain ⟨key, listed, hsuffix, hsteps⟩ := @segments_steps f lo l partsPerSegment available h hlo
  obtain ⟨hne, _⟩ := hsteps.mem segment hsegment
  obtain ⟨first, hfirst⟩ := Option.isSome_iff_exists.1 (List.isSome_head?.2 hne)
  have hinside : segment.2 <:+: listed := by
    rw [← hsteps.flatten, List.flatMap]
    exact List.infix_of_mem_flatten (List.mem_map_of_mem hsegment)
  have hchain := h.chain.infix (hinside.trans hsuffix.isInfix)
  refine ⟨first.sequence, ?_⟩
  have hrange := @eq_range'_of_chain (segment.2.map (·.sequence)) first.sequence
    ((List.isChain_map _).2 hchain) (by rw [List.head?_map, hfirst]; rfl)
  rwa [List.length_map] at hrange

/-- A segment of a fixed size that lies in the window has all its parts there. -/
theorem fixed_full (h : Window f.fmp4 f.keyframe f.first lo l available) {k : Nat}
    (hpos : 0 < partsPerSegment) (hbegin : lo ≤ k * partsPerSegment)
    (hend : (k + 1) * partsPerSegment ≤ l + 1) :
    (available.filter fun part => part.sequence / partsPerSegment = k).map (·.sequence) =
      List.range' (k * partsPerSegment) partsPerSegment := by
  refine List.Pairwise.eq_of_mem_iff (r := (· < ·)) ?_ List.pairwise_lt_range' fun q => ?_
  · rw [List.pairwise_map]
    exact h.ascending.filter _
  · rw [List.mem_map, List.mem_range'_1]
    rw [Nat.add_mul, Nat.one_mul] at hend
    constructor
    · rintro ⟨part, hpart, rfl⟩
      have hdiv := of_decide_eq_true (List.mem_filter.1 hpart).2
      rw [Nat.div_eq_iff hpos] at hdiv
      omega
    · intro hq
      obtain ⟨part, hpart, rfl⟩ := h.mem_iff.2 (show lo ≤ q ∧ q ≤ l by omega)
      refine ⟨part, List.mem_filter.2 ⟨hpart, decide_eq_true ?_⟩, rfl⟩
      rw [Nat.div_eq_iff hpos]
      omega

/-- A complete segment of a fixed size has the parts of its number. -/
theorem fixed_sequences (h : Window f.fmp4 f.keyframe f.first lo l available) (hlo : lo ≤ u64Max)
    (hpos : 0 < partsPerSegment) (haligned : f.aligned available = false) {k : Nat}
    {group : List ObservedPart} (hgroup : (k, group) ∈ f.segments partsPerSegment available)
    (hcomplete : group.length = partsPerSegment) :
    group.map (·.sequence) = List.range' (k * partsPerSegment) partsPerSegment := by
  obtain ⟨first, hrange⟩ := segment_consecutive h hlo hgroup
  simp only [hcomplete] at hrange
  rw [segments_of_fixed haligned, h.fixed_mem_iff hlo] at hgroup
  -- the first and the last of that many consecutive parts lie in the segment
  have hin : ∀ q, first ≤ q → q < first + partsPerSegment → q / partsPerSegment = k := by
    intro q hge hlt
    have hmem : q ∈ group.map (·.sequence) := by
      rw [hrange, List.mem_range'_1]
      exact ⟨hge, hlt⟩
    obtain ⟨part, hpart, rfl⟩ := List.mem_map.1 hmem
    rw [hgroup.1] at hpart
    exact of_decide_eq_true (List.mem_filter.1 hpart).2
  have hfirst := hin first (Nat.le_refl _) (by omega)
  have hlast := hin (first + partsPerSegment - 1) (by omega) (by omega)
  rw [Nat.div_eq_iff hpos] at hfirst hlast
  rw [hrange, show first = k * partsPerSegment by omega]

/-- Only the last segment can be open. -/
theorem complete_of_lt (h : Window f.fmp4 f.keyframe f.first lo l available) (hlo : lo ≤ u64Max)
    (hpos : 0 < partsPerSegment) {segment last : Nat × List ObservedPart}
    (hsegment : segment ∈ f.segments partsPerSegment available)
    (hlast : (f.segments partsPerSegment available).getLast? = some last)
    (hlt : segment.1 < last.1) : f.complete partsPerSegment available segment = true := by
  obtain ⟨k, group⟩ := segment
  rw [complete, segmentIsComplete]
  cases haligned : f.aligned available with
  | true =>
      rw [if_pos rfl, hlast]
      simp only [Option.map_some, ne_eq, Option.some.injEq, decide_eq_true_eq]
      simp only at hlt
      omega
  | false =>
      rw [if_neg Bool.false_ne_true, decide_eq_true_eq]
      have hlastmem := List.mem_of_getLast? hlast
      rw [segments_of_fixed haligned] at hsegment hlastmem
      obtain ⟨hgroup, hne, hwhole⟩ := (h.fixed_mem_iff hlo).1 hsegment
      obtain ⟨hlastgroup, hlastne, _⟩ := (@Window.fixed_mem_iff _ _ _ _ _ _ _ h hlo last.1
        last.2).1 hlastmem
      obtain ⟨part, hpart⟩ := List.exists_mem_of_ne_nil _ hne
      obtain ⟨part', hpart'⟩ := List.exists_mem_of_ne_nil _ hlastne
      rw [hgroup] at hpart
      rw [hlastgroup] at hpart'
      obtain ⟨hmem, hdiv⟩ := List.mem_filter.1 hpart
      obtain ⟨hmem', hdiv'⟩ := List.mem_filter.1 hpart'
      simp only [decide_eq_true_eq] at hdiv hdiv'
      have hin := h.mem_iff.1 ⟨part, hmem, rfl⟩
      have hin' := h.mem_iff.1 ⟨part', hmem', rfl⟩
      simp only at hlt
      -- the window reaches into the last segment
      have hl : last.1 ≤ l / partsPerSegment := by
        rw [← hdiv']
        exact Nat.div_le_div_right hin'.2
      have hend : (k + 1) * partsPerSegment ≤ l :=
        (Nat.le_div_iff_mul_le hpos).1 (by omega)
      have hfront : lo / partsPerSegment ≤ k := by
        rw [← hdiv]
        exact Nat.div_le_div_right hin.1
      have hbegin : lo ≤ k * partsPerSegment := by
        rcases Nat.lt_or_eq_of_le hfront with hbehind | hsame
        · exact Nat.le_of_lt ((Nat.div_lt_iff_lt_mul hpos).1 hbehind)
        · obtain ⟨n, hn⟩ := hwhole hsame.symm (by omega)
          rw [hn, Nat.mul_div_cancel_left n hpos] at hsame
          rw [hn, hsame, Nat.mul_comm]
      have hfull := fixed_full h hpos hbegin (by omega)
      rw [← hgroup] at hfull
      have hlength := congrArg List.length hfull
      rwa [List.length_map, List.length_range'] at hlength

theorem segments_ascending (h : Window f.fmp4 f.keyframe f.first lo l available)
    (hlo : lo ≤ u64Max) : Ascending (f.segments partsPerSegment available) := by
  have hchain := @segments_chain f lo l partsPerSegment available h hlo
  have hlt : ((f.segments partsPerSegment available).map (·.1)).IsChain (· < ·) :=
    hchain.imp fun x y hnext => by omega
  exact List.pairwise_map.1 hlt.pairwise

/-- The complete segments are the first ones. -/
theorem complete_prefix (h : Window f.fmp4 f.keyframe f.first lo l available) (hlo : lo ≤ u64Max)
    (hpos : 0 < partsPerSegment) :
    (f.segments partsPerSegment available).filter (f.complete partsPerSegment available) <+:
      f.segments partsPerSegment available := by
  have hasc := @segments_ascending f lo l partsPerSegment available h hlo
  have hopen := fun segment last => @complete_of_lt f lo l partsPerSegment available h hlo hpos
    segment last
  generalize f.segments partsPerSegment available = segments at *
  cases segments using List.reverseRecOn with
  | nil => exact List.prefix_refl _
  | append_singleton front last =>
      have hfront : front.filter (f.complete partsPerSegment available) = front := by
        refine List.filter_eq_self.2 fun segment hsegment => ?_
        refine hopen segment last (List.mem_append_left _ hsegment) List.getLast?_concat ?_
        exact (List.pairwise_append.1 hasc).2.2 segment hsegment last (List.mem_singleton.2 rfl)
      rw [List.filter_append, hfront]
      by_cases hlast : f.complete partsPerSegment available last = true
      · rw [List.filter_cons_of_pos hlast, List.filter_nil]
      · rw [List.filter_cons_of_neg hlast, List.filter_nil, List.append_nil]
        exact List.prefix_append _ _

/-- The complete segments are numbered from the media sequence on. -/
theorem complete_numbers (h : Window f.fmp4 f.keyframe f.first lo l available) (hlo : lo ≤ u64Max)
    (hpos : 0 < partsPerSegment) :
    let complete :=
      (f.segments partsPerSegment available).filter (f.complete partsPerSegment available)
    complete.map (·.1) =
      List.range' (((f.segments partsPerSegment available).head?.map (·.1)).getD 0)
        (complete.map (·.1)).length := by
  intro complete
  have hchain := @segments_chain f lo l partsPerSegment available h hlo
  obtain ⟨rest, hrest⟩ : complete <+: f.segments partsPerSegment available :=
    complete_prefix h hlo hpos
  rw [← hrest] at hchain ⊢
  generalize complete = front at hchain ⊢
  cases front with
  | nil => rfl
  | cons first front =>
      have hfront := hchain.prefix ((List.prefix_append _ _).map _)
      exact eq_range'_of_chain hfront rfl

end Segments

end Feed

/-! ## §2. The lines of a playlist. -/

/-- A line that stands in front of the segments, other than the media sequence. -/
def PlaylistLine.isHead : PlaylistLine → Bool
  | .extM3u | .version _ | .targetDuration _ | .independentSegments | .map | .partInf _
  | .serverControl _ _ | .programDateTime _ => true
  | _ => false

/-- The segments with an `EXTINF` line. -/
def segmentLines (body : List PlaylistLine) : List Nat :=
  body.filterMap fun line => match line with
    | .segment number _ => some number
    | _ => none

/-- The parts of the `EXT-X-PART` lines. -/
def partLines (body : List PlaylistLine) : List Nat :=
  body.filterMap fun line => match line with
    | .part _ sequence _ _ => some sequence
    | _ => none

/-- The numbers of the `EXT-X-MEDIA-SEQUENCE` lines. -/
def mediaSequenceLines (body : List PlaylistLine) : List Nat :=
  body.filterMap fun line => match line with
    | .mediaSequence number => some number
    | _ => none

/-- The parts of the `EXT-X-PRELOAD-HINT` lines. -/
def preloadHintLines (body : List PlaylistLine) : List Nat :=
  body.filterMap fun line => match line with
    | .preloadHint sequence _ => some sequence
    | _ => none

section Lines

variable {head : PlaylistHead} {kind : LiveMediaKind} {audioOnly : Bool}
  {firstParted next mediaSequence : Nat} {complete : Nat × List ObservedPart → Bool}
  {groups : List (Nat × List ObservedPart)}

theorem filterMap_renderHead {α : Type} (read : PlaylistLine → Option α)
    (h : ∀ line, line.isHead = true → read line = none) :
    (renderHead head mediaSequence).filterMap read = (read (.mediaSequence mediaSequence)).toList := by
  have hquiet : ∀ lines : List PlaylistLine, (∀ line ∈ lines, line.isHead = true) →
      lines.filterMap read = [] := by
    intro lines hlines
    exact List.filterMap_eq_nil_iff.2 fun line hline => h line (hlines line hline)
  have hindependent := hquiet (if head.independentSegments then [.independentSegments] else [])
    (by cases head.independentSegments <;> simp [PlaylistLine.isHead])
  have hmap := hquiet (if head.hasMap then [.map] else [])
    (by cases head.hasMap <;> simp [PlaylistLine.isHead])
  have hcontrol := hquiet [.partInf head.partTargetMs,
    .serverControl (head.partTargetMs * 3) (max (head.targetDuration * 3) 3 * 1000)]
    (by simp [PlaylistLine.isHead])
  have hdate := hquiet (head.programDateTime.map PlaylistLine.programDateTime).toList
    (by cases head.programDateTime <;> simp [PlaylistLine.isHead])
  rw [renderHead, List.filterMap_append, List.filterMap_append, List.filterMap_append,
    List.filterMap_append, hindependent, hmap, hcontrol, hdate]
  simp only [List.append_nil]
  rw [List.filterMap_cons_none (h _ rfl), List.filterMap_cons_none (h _ rfl),
    List.filterMap_cons_none (h _ rfl)]
  rfl

/-- What is read off the lines of a playlist. -/
theorem filterMap_renderPlaylist {α : Type} (read : PlaylistLine → Option α)
    (h : ∀ line, line.isHead = true → read line = none) :
    (renderPlaylist head kind audioOnly firstParted next complete groups).filterMap read =
      (read (.mediaSequence ((groups.head?.map (·.1)).getD 0))).toList ++
      (groups.flatMap fun segment =>
        (renderSegment kind audioOnly firstParted (complete segment) segment).filterMap read) ++
      (read (.preloadHint next kind)).toList := by
  rw [renderPlaylist, List.filterMap_append, List.filterMap_append, filterMap_renderHead read h,
    List.filterMap_flatMap]
  rfl

/-- What is read off the lines of a segment but for its parts. -/
theorem filterMap_renderSegment {α : Type} (read : PlaylistLine → Option α) {complete : Bool}
    {segment : Nat × List ObservedPart}
    (hpart : ∀ durationMs sequence kind independent,
      read (.part durationMs sequence kind independent) = none)
    (hextInf : ∀ durationMs, read (.extInf durationMs) = none) :
    (renderSegment kind audioOnly firstParted complete segment).filterMap read =
      if complete then (read (.segment segment.1 kind)).toList else [] := by
  have hparts : (if segment.1 < firstParted then [] else segment.2.map fun part =>
      PlaylistLine.part part.durationMs part.sequence kind
        ((part.keyframe || audioOnly) && decide (kind = .fmp4))).filterMap read = [] := by
    split
    · rfl
    · rw [List.filterMap_map, List.filterMap_eq_nil_iff]
      exact fun part _ => hpart ..
  rw [renderSegment, List.filterMap_append, hparts, List.nil_append]
  cases complete with
  | false => rfl
  | true =>
      rw [if_pos rfl, if_pos rfl, List.filterMap_cons_none (hextInf _)]
      rfl

theorem segmentLines_renderPlaylist :
    segmentLines (renderPlaylist head kind audioOnly firstParted next complete groups) =
      (groups.filter complete).map (·.1) := by
  rw [segmentLines, filterMap_renderPlaylist]
  · simp only [Option.toList_none, List.nil_append, List.append_nil]
    induction groups with
    | nil => rfl
    | cons segment groups ih =>
        rw [List.flatMap_cons, ih, filterMap_renderSegment _ (fun _ _ _ _ => rfl) fun _ => rfl]
        by_cases hcomplete : complete segment = true
        · rw [if_pos hcomplete, List.filter_cons_of_pos hcomplete]
          rfl
        · rw [if_neg hcomplete, List.filter_cons_of_neg hcomplete]
          rfl
  · intro line hline
    cases line <;> first | rfl | cases hline

theorem partLines_renderPlaylist :
    partLines (renderPlaylist head kind audioOnly firstParted next complete groups) =
      (groups.filter fun segment => decide (firstParted ≤ segment.1)).flatMap fun segment =>
        segment.2.map (·.sequence) := by
  rw [partLines, filterMap_renderPlaylist]
  · simp only [Option.toList_none, List.nil_append, List.append_nil]
    induction groups with
    | nil => rfl
    | cons segment groups ih =>
        have hend : ∀ complete : Bool, partLines (if complete then
            [.extInf (groupDurationMs segment.2), .segment segment.1 kind] else []) = [] := by
          intro complete
          cases complete <;> rfl
        rw [List.flatMap_cons, ih, renderSegment, List.filterMap_append, ← partLines, ← partLines,
          hend, List.append_nil]
        by_cases hparted : firstParted ≤ segment.1
        · have hkept : (segment :: groups).filter (fun segment => decide (firstParted ≤ segment.1)) =
              segment :: groups.filter fun segment => decide (firstParted ≤ segment.1) :=
            List.filter_cons_of_pos (decide_eq_true hparted)
          rw [if_neg (Nat.not_lt.2 hparted), hkept, List.flatMap_cons, partLines,
            List.filterMap_map]
          congr 1
          show segment.2.filterMap (some ∘ fun part => part.sequence) = _
          rw [List.filterMap_eq_map]
        · -- a segment before `firstParted` writes out none of its parts
          have hdropped : (segment :: groups).filter (fun segment => decide (firstParted ≤ segment.1)) =
              groups.filter fun segment => decide (firstParted ≤ segment.1) :=
            List.filter_cons_of_neg (by simpa using hparted)
          rw [if_pos (Nat.not_le.1 hparted), hdropped]
          rfl
  · intro line hline
    cases line <;> first | rfl | cases hline

/-- A reader of neither parts nor segments sees nothing of the segments. -/
theorem flatMap_renderSegment {α : Type} (read : PlaylistLine → Option α)
    (hpart : ∀ durationMs sequence kind independent,
      read (.part durationMs sequence kind independent) = none)
    (hextInf : ∀ durationMs, read (.extInf durationMs) = none)
    (hsegment : ∀ number, read (.segment number kind) = none) :
    (groups.flatMap fun segment =>
      (renderSegment kind audioOnly firstParted (complete segment) segment).filterMap read) =
        [] := by
  refine List.flatMap_eq_nil_iff.2 fun segment _ => ?_
  rw [filterMap_renderSegment read hpart hextInf, hsegment]
  exact ite_self _

theorem mediaSequenceLines_renderPlaylist :
    mediaSequenceLines (renderPlaylist head kind audioOnly firstParted next complete groups) =
      [(groups.head?.map (·.1)).getD 0] := by
  rw [mediaSequenceLines, filterMap_renderPlaylist, flatMap_renderSegment]
  · rfl
  · exact fun _ _ _ _ => rfl
  · exact fun _ => rfl
  · exact fun _ => rfl
  · intro line hline
    cases line <;> first | rfl | cases hline

theorem preloadHintLines_renderPlaylist :
    preloadHintLines (renderPlaylist head kind audioOnly firstParted next complete groups) =
      [next] := by
  rw [preloadHintLines, filterMap_renderPlaylist, flatMap_renderSegment]
  · rfl
  · exact fun _ _ _ _ => rfl
  · exact fun _ => rfl
  · exact fun _ => rfl
  · intro line hline
    cases line <;> first | rfl | cases hline

end Lines

/-! ## §3. The segment endpoint. -/

section Endpoint

variable {f : Feed} {lo l partsPerSegment nominal : Nat} {parts : RetainedParts}

/-- The endpoint and the playlist number segments in the same way. -/
theorem Feed.aligned_observed (h : RetainedWindow f.fmp4 f.keyframe f.first lo l parts) :
    f.aligned (parts.map (observed nominal)) =
      parts.any fun entry => entry.2.fmp4SegmentId.isSome := by
  rw [Feed.aligned, List.any_map]
  cases hfmp4 : f.fmp4 with
  | true => rfl
  | false =>
      rw [Bool.false_and, eq_comm, List.any_eq_false]
      intro entry hentry hsome
      rw [h.segment entry hentry, hfmp4] at hsome
      cases hsome

/-- A complete segment of keyframes is served with the parts the playlist has under it. -/
theorem keyframeAlignedSequences_of_listed
    (h : RetainedWindow f.fmp4 f.keyframe f.first lo l parts) (hlo : lo ≤ u64Max)
    (haligned : f.aligned (parts.map (observed nominal)) = true) {k : Nat}
    {group : List ObservedPart}
    (hgroup : (k, group) ∈ f.segments partsPerSegment (parts.map (observed nominal)))
    (hcomplete : f.complete partsPerSegment (parts.map (observed nominal)) (k, group) = true) :
    HlsCache.keyframeAlignedSequences parts k = some (some (group.map (·.sequence))) := by
  have hwindow := h.window nominal
  have hasc := @Feed.segments_ascending f lo l partsPerSegment _ hwindow hlo
  obtain ⟨hfmp4, _⟩ := (Feed.aligned_iff hwindow).1 haligned
  have hids := haligned
  rw [Feed.aligned_observed h] at hids
  have hsegment : ∀ entry ∈ parts, entry.2.fmp4SegmentId =
      ofCount (keyframesUpTo f.keyframe f.first entry.1) := by
    intro entry hentry
    rw [h.segment entry hentry, if_pos hfmp4]
  rw [hfmp4] at hwindow
  rw [Feed.complete, segmentIsComplete, haligned, if_pos rfl, decide_eq_true_eq] at hcomplete
  rw [Feed.segments_of_aligned haligned] at hgroup hcomplete hasc
  obtain ⟨hparts, _⟩ := (hwindow.aligned_mem_iff partsPerSegment).1 hgroup
  -- the last segment has a greater number
  have hclosed : (parts.any fun entry => entry.2.fmp4SegmentId.any fun id => k < id) = true := by
    obtain ⟨last, hlast⟩ := Option.isSome_iff_exists.1
      (List.getLast?_isSome.2 (List.ne_nil_of_mem hgroup))
    rw [hlast] at hcomplete
    have hlt : k < last.1 := by
      rcases hasc.eq_or_lt_last hgroup hlast with rfl | hlt
      · exact absurd rfl hcomplete
      · exact hlt
    obtain ⟨_, q, hge, hle, _, hcount⟩ := (@Window.aligned_mem_iff _ _ _ _ _ partsPerSegment
      hwindow last.1 last.2).1 (List.mem_of_getLast? hlast)
    obtain ⟨entry, hentry, rfl⟩ := h.mem_iff.2 ⟨hge, hle⟩
    refine List.any_eq_true.2 ⟨entry, hentry, ?_⟩
    rw [hsegment entry hentry, ofCount_eq_some.2 hcount]
    exact decide_eq_true hlt
  have hmembers : group =
      (parts.filter fun entry => entry.2.fmp4SegmentId = some k).map (observed nominal) := by
    rw [hparts, List.filter_map]
    congr 1
    refine List.filter_congr fun entry hentry => ?_
    rw [Function.comp_apply, decide_eq_decide, hsegment entry hentry, ofCount_eq_some]
    rfl
  have hhead : (parts.filter fun entry => entry.2.fmp4SegmentId = some k).head?.any
      (fun entry => entry.2.keyframe) = true := by
    have hkey := (List.mem_filter.1 hgroup).2
    simp only [hmembers, List.head?_map, Option.any_map] at hkey
    exact hkey
  rw [HlsCache.keyframeAlignedSequences, if_pos hids]
  simp only [hclosed, hhead, not_true_eq_false, or_self, if_false]
  rw [hmembers, List.map_map]
  rfl

end Endpoint

section Reads

variable {C : ChunkCacheCrate} {R : ChunkCacheReads C} {M : MediaObjectCrate} {retained : Nat}
  {f : Feed} {l : Nat} {cache : HlsCache C}

theorem InOrder.getPart (hR : LawfulReads R retained) (h : InOrder R M retained f l cache)
    {q : Nat} (hfirst : f.first ≤ q) (hle : q ≤ l) (hkept : l < q + retained) :
    (cache.getPartForStreamId R M f.streamId q).1 = some (f.slot q).media ∧
      SameStream R f.streamId cache (cache.getPartForStreamId R M f.streamId q).2 := by
  obtain ⟨bytes, hbytes, hslot⟩ := h.stored q hfirst hle hkept
  rw [HlsCache.getPartForStreamId, hbytes, Option.map_some, hslot]
  simp only [(h.media q hfirst hle).1, if_true]
  refine ⟨trivial, ?_⟩
  cases (f.slot q).init with
  | none => exact SameStream.rememberMediaKind _
  | some init =>
      exact (SameStream.rememberStreamInit hR init).trans (SameStream.rememberMediaKind _)

/-- Parts that are retained are joined in their order. -/
theorem InOrder.joinParts (hR : LawfulReads R retained) (h : InOrder R M retained f l cache)
    {sequences : List Nat}
    (hsequences : ∀ q ∈ sequences, f.first ≤ q ∧ q ≤ l ∧ l < q + retained) (out : Bytes) :
    (HlsCache.joinParts R M f.streamId cache sequences out).1 =
      some (out ++ sequences.flatMap fun q => (f.slot q).media) := by
  induction sequences generalizing cache out with
  | nil =>
      rw [List.flatMap_nil, List.append_nil]
      rfl
  | cons q sequences ih =>
      obtain ⟨hfirst, hle, hkept⟩ := hsequences q List.mem_cons_self
      obtain ⟨hmedia, hsame⟩ := h.getPart hR hfirst hle hkept
      rw [HlsCache.joinParts]
      generalize cache.getPartForStreamId R M f.streamId q = answer at hmedia hsame ⊢
      obtain ⟨bytes, after⟩ := answer
      obtain rfl : bytes = some (f.slot q).media := hmedia
      rw [List.flatMap_cons, ← List.append_assoc]
      exact ih (h.read hsame) (fun q' hq' => hsequences q' (List.mem_cons_of_mem _ hq')) _

/-- A complete segment of the playlist is served, part after part. -/
theorem InOrder.getSegment (hR : LawfulReads R retained) (h : InOrder R M retained f l cache)
    (hretained : max cache.windowParts 1 ≤ retained) (hpos : 0 < cache.partsPerSegment) {k : Nat}
    {group : List ObservedPart}
    (hgroup : (k, group) ∈ f.segments cache.partsPerSegment (cache.observedParts f.streamId))
    (hcomplete : f.complete cache.partsPerSegment (cache.observedParts f.streamId)
      (k, group) = true) :
    (cache.getSegmentForStreamId R M f.streamId k).1 =
      some (group.flatMap fun part => (f.slot part.sequence).media) := by
  have hlo := h.windowStart_le
  have hwindow := h.window
  -- the parts of the segment are in the window
  have hsequences : ∀ q ∈ group.map (·.sequence), f.first ≤ q ∧ q ≤ l ∧ l < q + retained := by
    intro q hq
    have hin : q ∈ List.range' (f.windowStart cache.windowParts l)
        (l + 1 - f.windowStart cache.windowParts l) :=
      (Feed.segments_suffix hwindow hlo).mem
        (List.mem_flatMap.2 ⟨(k, group), hgroup, hq⟩)
    rw [List.mem_range'_1] at hin
    have hstart : f.windowStart cache.windowParts l =
        max f.first (l - (max cache.windowParts 1 - 1)) := rfl
    have hfirst := h.start_le
    omega
  have hjoin := h.joinParts hR hsequences []
  rw [List.nil_append, List.flatMap_map] at hjoin
  have hlookup : (cache.state.streamParts.lookup f.streamId).getD [] =
      cache.state.parts f.streamId := rfl
  rw [← hjoin, HlsCache.getSegmentForStreamId, hlookup]
  cases haligned : f.aligned (cache.observedParts f.streamId) with
  | true =>
      rw [keyframeAlignedSequences_of_listed h.parts hlo haligned hgroup hcomplete]
  | false =>
      have hids := haligned
      rw [HlsCache.observedParts, Feed.aligned_observed h.parts] at hids
      rw [Feed.complete, segmentIsComplete, haligned, if_neg Bool.false_ne_true,
        decide_eq_true_eq] at hcomplete
      have hfixed := Feed.fixed_sequences hwindow hlo hpos haligned hgroup hcomplete
      have hmul : k * cache.partsPerSegment ≤ u64Max := by
        have hmem : k * cache.partsPerSegment ∈ group.map (·.sequence) := by
          rw [hfixed, List.mem_range'_1]
          omega
        exact Nat.le_trans (hsequences _ hmem).2.1 h.last_le
      rw [HlsCache.keyframeAlignedSequences, if_neg (by rw [hids]; exact Bool.false_ne_true),
        checkedMul, if_pos hmul, hfixed]

end Reads

/-! ## §4. The playlist and the endpoint. -/

/-- What the playlist of a stream lists, and what the segment endpoint makes of it. -/
structure ServedAsListed {C : ChunkCacheCrate} (R : ChunkCacheReads C) (M : MediaObjectCrate)
    (f : Feed) (l : Nat) (cache : HlsCache C) (body : List PlaylistLine) : Prop where
  rendered : ∃ head kind audioOnly segmentTargetMs,
    head.targetDuration = hlsTargetDurationFromMillis segmentTargetMs ∧
    body = renderPlaylist head kind audioOnly
      (firstParted (cache.listedGroups R M f.streamId) segmentTargetMs) ((l + 1) % 2 ^ 64)
      (segmentIsComplete (f.aligned (cache.observedParts f.streamId)) cache.partsPerSegment
        (cache.listedGroups R M f.streamId))
      (cache.listedGroups R M f.streamId)
  /-- The parts are those of the segments from one on, which is no later than the last. -/
  parted : ∃ first ≤ ((cache.listedGroups R M f.streamId).getLast?.map (·.1)).getD 0,
    partLines body = ((cache.listedGroups R M f.streamId).filter fun segment =>
      decide (first ≤ segment.1)).flatMap fun segment => segment.2.map (·.sequence)
  served : ∀ k ∈ segmentLines body, ∃ group,
    (k, group) ∈ cache.listedGroups R M f.streamId ∧
    (cache.getSegmentForStreamId R M f.streamId k).1 =
      some (group.flatMap fun part => (f.slot part.sequence).media)
  numbered : ∃ first, mediaSequenceLines body = [first] ∧
    segmentLines body = List.range' first (segmentLines body).length
  consecutive : ∀ segment ∈ cache.listedGroups R M f.streamId,
    ∃ first, segment.2.map (·.sequence) = List.range' first segment.2.length
  suffix : ((cache.listedGroups R M f.streamId).flatMap fun segment =>
    segment.2.map (·.sequence)) <:+ (cache.state.parts f.streamId).map (·.1)
  hint : preloadHintLines body = [(l + 1) % 2 ^ 64]

section Main

variable {C : ChunkCacheCrate} {R : ChunkCacheReads C} {M : MediaObjectCrate} {retained : Nat}
  {f : Feed} {l : Nat} {cache : HlsCache C}

theorem InOrder.servedAsListed (hR : LawfulReads R retained) (h : InOrder R M retained f l cache)
    (hretained : max cache.windowParts 1 ≤ retained) (hpos : 0 < cache.partsPerSegment)
    {body : List PlaylistLine}
    (hbody : f.Shows cache.partsPerSegment l (cache.observedParts f.streamId) body) :
    ServedAsListed R M f l cache body := by
  have hlo := h.windowStart_le
  have hwindow := h.window
  have hgroups := h.listedGroups hR hretained
  obtain ⟨head, kind, audioOnly, segmentTargetMs, htarget, rfl⟩ := hbody
  constructor
  case rendered => exact ⟨head, kind, audioOnly, segmentTargetMs, htarget, by rw [hgroups]; rfl⟩
  case parted =>
    rw [hgroups]
    exact ⟨_, Nat.sub_le _ _, partLines_renderPlaylist⟩
  case served =>
    intro k hk
    rw [segmentLines_renderPlaylist] at hk
    obtain ⟨⟨k', group⟩, hmem, rfl⟩ := List.mem_map.1 hk
    obtain ⟨hgroup, hcomplete⟩ := List.mem_filter.1 hmem
    rw [hgroups]
    exact ⟨group, hgroup, h.getSegment hR hretained hpos hgroup hcomplete⟩
  case numbered =>
    rw [segmentLines_renderPlaylist, mediaSequenceLines_renderPlaylist]
    exact ⟨_, rfl, Feed.complete_numbers hwindow hlo hpos⟩
  case consecutive =>
    intro segment hsegment
    rw [hgroups] at hsegment
    exact Feed.segment_consecutive hwindow hlo hsegment
  case suffix =>
    rw [hgroups, h.parts.sequences]
    exact Feed.segments_suffix hwindow hlo
  case hint => exact preloadHintLines_renderPlaylist

/-- **Every listed segment is served as listed**, in the state after any run that commits the
parts of a feed in order. -/
theorem listed_segments_served {C : ChunkCacheCrate} {R : ChunkCacheReads C}
    {M : MediaObjectCrate} {K : SoundkitCrate} {formatProgramDateTime : Nat → Option String}
    {retained : Nat} (hR : LawfulReads R retained) (hM : SlotMagicsDiffer M) {f : Feed}
    {cache : HlsCache C} (hfresh : Fresh R f cache)
    (hretained : max cache.windowParts 1 ≤ retained) (hpos : 0 < cache.partsPerSegment)
    {c : MediaCommit} {events : List HlsEvent}
    (hrun : f.Publishes R M K formatProgramDateTime f.first cache (.commit c :: events))
    (hinit : InitPresent R M f
      (exec (hlsStep R M K formatProgramDateTime f.streamId) cache (.commit c :: events))) :
    let reached := exec (hlsStep R M K formatProgramDateTime f.streamId) cache (.commit c :: events)
    ServedAsListed R M f (f.first + commitCount events) reached
      (reached.playlistForStreamId R M formatProgramDateTime f.streamId).1 := by
  intro reached
  obtain ⟨hfirst, hrest⟩ := hfresh.reached hR hM hrun
  have hreached : Reached R M retained f cache.windowParts cache.partsPerSegment
      (f.first + commitCount events) reached := hfirst.run hR hM hretained hrest
  have hwindow : max reached.windowParts 1 ≤ retained := by
    rw [hreached.windowParts]
    exact hretained
  obtain ⟨hshows, _⟩ := hreached.inOrder.playlist hR hwindow hinit formatProgramDateTime
  exact hreached.inOrder.servedAsListed hR hwindow (by rw [hreached.partsPerSegment]; exact hpos)
    hshows

end Main

/-! ## §5. A sample stream. -/

/-- What a sample chunk cache holds of a stream: all slots, and the end of the contiguous run. -/
structure SampleStream where
  slots : List (Nat × Bytes)
  last : Option Nat
  version : Nat
  init : Option Bytes

/-- The end of the run of slots behind `q`. -/
def runEnd (slots : List (Nat × Bytes)) : Nat → Nat → Nat
  | 0, q => q
  | fuel + 1, q => if (slots.lookup (q + 1)).isSome then runEnd slots fuel (q + 1) else q

def SampleStream.put (stream : SampleStream) (slot base : Nat) (bytes : Bytes) : SampleStream :=
  let slots := (slot, bytes) :: stream.slots
  { stream with
    slots
    last := match stream.last with
      | none => if slot = base then some (runEnd slots slots.length slot) else none
      | some last => some (runEnd slots slots.length last)
    version := stream.version + 1 }

@[reducible] def sampleStore : ChunkCacheCrate where
  Cache := UInt64 → SampleStream
  Slots := List (Nat × Bytes)
  slots := fun chunk streamId => (chunk streamId).slots
  initialization := fun chunk streamId => (chunk streamId).init
  zeroStreamId := fun chunk streamId =>
    Function.update chunk streamId ⟨[], none, (chunk streamId).version + 1, none⟩
  setStreamInitialization := fun chunk streamId init =>
    (.ok (), Function.update chunk streamId { chunk streamId with init := some init })
  putIfAbsentContiguous := fun chunk streamId slot base bytes =>
    match (chunk streamId).slots.lookup slot with
    | some existing => (.ok (if existing = bytes then .present else .hashConflict), chunk)
    | none => (.ok .present, Function.update chunk streamId ((chunk streamId).put slot base bytes))
  addForStreamId := fun chunk streamId slot bytes =>
    (.ok (), Function.update chunk streamId ((chunk streamId).put slot slot bytes))

@[reducible] def sampleReads : ChunkCacheReads sampleStore where
  getStreamIdx := fun _ streamId => some streamId.toNat
  last := fun chunk idx => (chunk (UInt64.ofNat idx)).last
  version := fun chunk idx => some (chunk (UInt64.ofNat idx)).version
  get := fun chunk idx slot => (chunk (UInt64.ofNat idx)).slots.lookup slot
  getForStreamId := fun chunk streamId slot => (chunk streamId).slots.lookup slot
  retainedStart := fun _ _ => 0

theorem runEnd_self {slots : List (Nat × Bytes)} {fuel q : Nat}
    (h : slots.lookup (q + 1) = none) : runEnd slots fuel q = q := by
  cases fuel with
  | zero => rfl
  | succ fuel => rw [runEnd, h]; rfl

theorem runEnd_spec (slots : List (Nat × Bytes)) (fuel q : Nat) :
    q ≤ runEnd slots fuel q ∧
      (∀ p, q < p → p ≤ runEnd slots fuel q → (slots.lookup p).isSome = true) ∧
      (slots.lookup (runEnd slots fuel q + 1) = none ∨ runEnd slots fuel q = q + fuel) := by
  induction fuel generalizing q with
  | zero => exact ⟨Nat.le_refl _, fun p hlt hle => by rw [runEnd] at hle; omega, .inr rfl⟩
  | succ fuel ih =>
      obtain ⟨hle, hall, hend⟩ := ih (q + 1)
      rw [runEnd]
      split
      · next hnext =>
          refine ⟨by omega, fun p hlt hp => ?_, ?_⟩
          · rcases Nat.lt_or_eq_of_le hlt with hbehind | rfl
            · exact hall p hbehind hp
            · exact hnext
          · rcases hend with hvacant | hspent
            · exact .inl hvacant
            · exact .inr (by omega)
      · next hvacant =>
          refine ⟨Nat.le_refl _, fun p hlt hp => by omega, .inl ?_⟩
          exact Option.not_isSome_iff_eq_none.1 hvacant

theorem position_sampleReads (chunk : sampleStore.Cache) (streamId : UInt64) :
    sampleReads.position chunk streamId =
      (chunk streamId).last.map fun last => (streamId.toNat, last) := by
  show ((chunk (UInt64.ofNat streamId.toNat)).last).map _ = _
  rw [UInt64.ofNat_toNat]

/-- A put that is accepted finds the slot, or fills it. -/
theorem put_sampleStore {chunk chunk' : sampleStore.Cache} {streamId : UInt64} {slot base : Nat}
    {bytes : Bytes}
    (h : sampleStore.putIfAbsentContiguous chunk streamId slot base bytes =
      (.ok .present, chunk')) :
    ((chunk streamId).slots.lookup slot = some bytes ∧ chunk' = chunk) ∨
    ((chunk streamId).slots.lookup slot = none ∧
      chunk' = Function.update chunk streamId ((chunk streamId).put slot base bytes)) := by
  simp only [sampleStore] at h
  split at h
  · next existing hfound =>
      obtain ⟨hresult, hchunk⟩ := Prod.mk.inj h
      by_cases hsame : existing = bytes
      · exact Or.inl ⟨by rw [hfound, hsame], hchunk.symm⟩
      · rw [if_neg hsame] at hresult
        cases hresult
  · next hvacant => exact Or.inr ⟨hvacant, (Prod.mk.inj h).2.symm⟩

theorem versionsGrow_update {chunk : sampleStore.Cache} {streamId : UInt64} {stream : SampleStream}
    (h : (chunk streamId).version ≤ stream.version) :
    sampleReads.VersionsGrow chunk (Function.update chunk streamId stream) := by
  intro idx version hversion
  obtain rfl := Option.some.inj hversion
  refine ⟨_, rfl, ?_⟩
  by_cases hidx : UInt64.ofNat idx = streamId
  · rw [hidx, Function.update_self]
    exact h
  · rw [Function.update_of_ne hidx]

theorem sampleReads_lawful (retained : Nat) : LawfulReads sampleReads retained where
  for_stream := by
    intro chunk streamId slot
    show _ = (chunk (UInt64.ofNat streamId.toNat)).slots.lookup slot
    rw [UInt64.ofNat_toNat]
  zero_empty := by
    intro chunk streamId
    rw [position_sampleReads]
    simp
  zero_versions := fun chunk streamId => versionsGrow_update (Nat.le_succ _)
  init_position := by
    intro chunk streamId init
    rw [position_sampleReads, position_sampleReads]
    simp
  init_slots := by
    intro chunk streamId init slot
    simp
  init_versions := fun chunk streamId init => versionsGrow_update (Nat.le_refl _)
  put_slot := by
    intro chunk streamId slot base bytes chunk' hput
    rcases put_sampleStore hput with ⟨hfound, rfl⟩ | ⟨_, rfl⟩
    · exact hfound
    · simp [SampleStream.put]
  put_others := by
    intro chunk streamId slot base bytes chunk' hput other hne
    refine Or.inl ?_
    rcases put_sampleStore hput with ⟨_, rfl⟩ | ⟨_, rfl⟩
    · rfl
    · simp only [Function.update_self, SampleStream.put]
      rw [lookup_cons_ite, if_neg hne]
  put_first := by
    intro chunk streamId slot bytes chunk' hput hposition hempty
    rw [position_sampleReads, Option.map_eq_none_iff] at hposition
    refine ⟨streamId.toNat, ?_⟩
    rcases put_sampleStore hput with ⟨hfound, _⟩ | ⟨_, rfl⟩
    · rw [show (chunk streamId).slots.lookup slot = none from hempty slot] at hfound
      cases hfound
    · rw [position_sampleReads, Function.update_self, SampleStream.put, hposition]
      simp only [if_true, Option.map_some]
      rw [runEnd_self]
      rw [lookup_cons_ite, if_neg (by omega)]
      exact hempty (slot + 1)
  put_next := by
    intro chunk streamId base bytes chunk' idx last hput hposition hnext hbehind
    rw [position_sampleReads, Option.map_eq_some_iff] at hposition
    obtain ⟨last', hlast, hpair⟩ := hposition
    obtain ⟨rfl, rfl⟩ := Prod.mk.inj hpair
    rcases put_sampleStore hput with ⟨hfound, _⟩ | ⟨_, rfl⟩
    · rw [show (chunk streamId).slots.lookup (last' + 1) = none from hnext] at hfound
      cases hfound
    · rw [position_sampleReads, Function.update_self, SampleStream.put, hlast]
      simp only [Option.map_some, List.length_cons, runEnd]
      rw [lookup_cons_ite, if_pos rfl, Option.isSome_some, if_pos rfl, runEnd_self]
      rw [lookup_cons_ite, if_neg (by omega)]
      exact hbehind
  put_versions := by
    intro chunk streamId slot base bytes chunk' hput
    rcases put_sampleStore hput with ⟨_, rfl⟩ | ⟨_, rfl⟩
    · exact ChunkCacheReads.VersionsGrow.refl
    · exact versionsGrow_update (Nat.le_succ _)
  put_version := by
    intro chunk streamId slot base bytes chunk' idx last version hput hvacant hposition hversion
    rw [position_sampleReads, Option.map_eq_some_iff] at hposition
    obtain ⟨_, _, hpair⟩ := hposition
    obtain rfl := (Prod.mk.inj hpair).1
    obtain rfl := Option.some.inj hversion
    refine ⟨_, rfl, ?_⟩
    rw [UInt64.ofNat_toNat]
    rcases put_sampleStore hput with ⟨hfound, _⟩ | ⟨_, rfl⟩
    · rw [show (chunk streamId).slots.lookup slot = none from hvacant] at hfound
      cases hfound
    · rw [Function.update_self]
      exact Nat.lt_succ_self _
  version_some := fun chunk _ idx _ _ => ⟨_, rfl⟩

/-- A crate whose envelopes are a magic, the sequence, two flags, then the payload. -/
def feedCrate : MediaObjectCrate where
  wireMagic := asBytes "OBJ1"
  decode := fun envelope =>
    match envelope.drop 4 with
    | sequence :: keyframe :: fmp4 :: payload => some
        { key := ⟨"3", 42, sequence.toUInt64⟩
          kind := .media
          metadata := if fmp4 = 1 then AList.insert "container" (asBytes "fmp4") ∅ else ∅
          payload
          isKeyframe := keyframe = 1 }
    | _ => none

/-- A commit of part `sequence`, with its sequence as the only byte of media. -/
def feedCommit (sequence : UInt8) (keyframe fmp4 : Bool) : MediaCommit where
  payload := asBytes "OBJ1" ++ [sequence, if keyframe then 1 else 0, if fmp4 then 1 else 0, sequence]
  object :=
    { key := ⟨"3", 42, sequence.toUInt64⟩
      kind := .media
      metadata := if fmp4 then AList.insert "container" (asBytes "fmp4") ∅ else ∅
      payload := [sequence]
      isKeyframe := keyframe }
  clock := ⟨0, 0, 0⟩

/-- The feed of these commits, with this keyframe pattern. -/
def sampleFeed (fmp4 : Bool) (first : Nat) (keyframe : Nat → Bool) : Feed where
  streamId := 3
  epoch := 42
  fmp4 := fmp4
  first := first
  keyframe := keyframe
  slot := fun q => if fmp4 then .fmp4 none [UInt8.ofNat q] else .opaqueMedia [UInt8.ofNat q] .ts

/-- A cache whose stream 3 has an initialization and no parts yet. -/
def emptyHlsCache (partsPerSegment windowParts : Nat) : HlsCache sampleStore where
  chunkCache := fun _ => ⟨[], none, 0, none⟩
  streamId := 1
  windowParts := windowParts
  state := { LiveState.new 0 with
    streamCanonicalEpoch := AList.insert 3 42 ∅
    streamInits := AList.insert 3 [0] ∅ }
  partUpdates := 0
  partTargetMs := 500
  partsPerSegment := partsPerSegment
  playlistCache := List.replicate 8 none

theorem feedCrate_magics : SlotMagicsDiffer feedCrate :=
  slotMagicsDiffer_of_apart (magicsDiffer_of_apart (by decide) (by decide)) (by decide)
    (by decide)

theorem feedCommit_part (sequence : UInt8) (fmp4 : Bool) (first : Nat) (keyframe : Nat → Bool) :
    (sampleFeed fmp4 first keyframe).Part feedCrate sampleSoundkit sequence.toNat
      (feedCommit sequence (keyframe sequence.toNat) fmp4) := by
  have hreboxed : reboxedAudio sampleSoundkit
      (feedCommit sequence (keyframe sequence.toNat) fmp4).object = .ok none := by
    cases fmp4 <;> rfl
  refine ⟨⟨?_, ?_, ?_⟩, rfl, rfl, rfl, rfl, fun reboxed h => ?_, ?_, ?_⟩
  · exact List.prefix_append _ _
  · cases keyframe sequence.toNat <;> cases fmp4 <;> rfl
  · exact ⟨asBytes "OBJ1" ++ [sequence, if keyframe sequence.toNat then 1 else 0,
      if fmp4 then 1 else 0], by simp [feedCommit]⟩
  · rw [hreboxed] at h
    obtain rfl := Except.ok.inj h
    simp only [sampleFeed, UInt8.ofNat_toNat]
    cases fmp4 <;> rfl
  · cases fmp4 <;> rfl
  · cases fmp4 <;> simp [sampleFeed, LiveSlotPayload.mediaKind]

theorem emptyHlsCache_fresh (partsPerSegment windowParts : Nat) (fmp4 : Bool) (first : Nat)
    (keyframe : Nat → Bool) :
    Fresh sampleReads (sampleFeed fmp4 first keyframe)
      (emptyHlsCache partsPerSegment windowParts) := by
  refine ⟨fun _ => ⟨rfl, rfl, fun _ => rfl, rfl, rfl⟩, ?_⟩
  intro idx cached hcached
  obtain ⟨_, hnone⟩ := List.mem_replicate.1 (List.mem_of_getElem? hcached)
  cases hnone

/-- Two keyframe segments of two parts, the second of which is open. -/
theorem listed_segments_served_gops :
    let reached := exec (hlsStep sampleReads feedCrate sampleSoundkit (fun _ => none) 3)
      (emptyHlsCache 2 6)
      [.commit (feedCommit 0 true true), .commit (feedCommit 1 false true), .playlist,
        .commit (feedCommit 2 true true)]
    ServedAsListed sampleReads feedCrate (sampleFeed true 0 fun q => q % 2 == 0) 2 reached
      (reached.playlistForStreamId sampleReads feedCrate (fun _ => none) 3).1 := by
  have hrun : (sampleFeed true 0 fun q => q % 2 == 0).Publishes sampleReads feedCrate
      sampleSoundkit (fun _ => none) 0 (emptyHlsCache 2 6)
      [.commit (feedCommit 0 true true), .commit (feedCommit 1 false true), .playlist,
        .commit (feedCommit 2 true true)] :=
    ⟨feedCommit_part 0 true 0 _, by rfl, feedCommit_part 1 true 0 _, by rfl, fun _ => by rfl,
      feedCommit_part 2 true 0 _, by rfl, trivial⟩
  exact listed_segments_served (sampleReads_lawful 64) feedCrate_magics
    (emptyHlsCache_fresh 2 6 true 0 _) (by decide) (by decide) hrun fun _ => by rfl

end AvMesh.LiveCache
