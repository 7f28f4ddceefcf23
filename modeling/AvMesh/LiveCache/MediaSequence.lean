/-
  AvMesh.LiveCache.MediaSequence
  ──────────────────────────────
  **WHEN THE MEDIA SEQUENCE NEVER GOES BACK.**

  The segments of a playlist are numbered anew for every window.  Between two
  windows of one stream the numbers can change their meaning in two ways:

      first keyframe late   the segments so far are numbered by sequence, from
                            the keyframe on they are counted from 0
      no keyframe left      the window lies inside one GOP, nothing is listed,
                            and the media sequence is that of an empty playlist

  `Steady` excludes both, and then the media sequence never decreases and a
  complete segment keeps its parts (`playlists_never_back`).  In
  `long_gop_goes_back` a GOP outlasts the window.
-/
import AvMesh.LiveCache.Served

namespace AvMesh.LiveCache

open AvMesh.Lib

/-! ## §1. Steady feeds. -/

namespace Feed

/-- The window that ends with part `l` keeps the numbers of the earlier ones: if `l` is the first
keyframe, all parts before it were of segment 0 and never complete; and once there are two
keyframes, one of them is in the window. -/
def Steady (f : Feed) (windowParts partsPerSegment l : Nat) : Prop :=
  f.fmp4 = true →
    (f.first < l → f.keyframe l = true → keyframesUpTo f.keyframe f.first l = 1 →
      l ≤ partsPerSegment ∧
        ¬(f.first = 0 ∧ l = partsPerSegment ∧ partsPerSegment ≤ max windowParts 1)) ∧
    (2 ≤ keyframesUpTo f.keyframe f.first l →
      ∃ q, f.windowStart windowParts l ≤ q ∧ q ≤ l ∧ f.keyframe q = true)

theorem windowStart_mono {f : Feed} {windowParts before after : Nat} (h : before ≤ after) :
    f.windowStart windowParts before ≤ f.windowStart windowParts after := by
  rw [windowStart, windowStart]
  omega

end Feed

/-- The number of the first segment. -/
def firstNumber (segments : List (Nat × List ObservedPart)) : Nat :=
  (segments.head?.map (·.1)).getD 0

section FirstNumber

variable {segments : List (Nat × List ObservedPart)}

theorem firstNumber_le (h : Ascending segments) {segment : Nat × List ObservedPart}
    (hsegment : segment ∈ segments) : firstNumber segments ≤ segment.1 := by
  cases segments with
  | nil => cases hsegment
  | cons first segments =>
      show first.1 ≤ segment.1
      rcases List.mem_cons.1 hsegment with rfl | hrest
      · exact Nat.le_refl _
      · exact Nat.le_of_lt ((List.pairwise_cons.1 h).1 segment hrest)

theorem firstNumber_mem (h : segments ≠ []) :
    ∃ group, (firstNumber segments, group) ∈ segments := by
  cases segments with
  | nil => exact absurd rfl h
  | cons first segments => exact ⟨first.2, List.mem_cons_self⟩

end FirstNumber

/-! ## §2. Segments of a fixed size. -/

section Fixed

variable {fmp4 : Bool} {key : Nat → Bool} {a lo l lo' l' partsPerSegment : Nat}
  {available later : List ObservedPart}

/-- The first listed segment of a fixed size. -/
def firstFixed (partsPerSegment lo l : Nat) : Nat :=
  if lo / partsPerSegment < l / partsPerSegment ∧ ¬ partsPerSegment ∣ lo then
    lo / partsPerSegment + 1
  else lo / partsPerSegment

theorem firstFixed_mono (hlo : lo ≤ lo') (hl : l ≤ l') :
    firstFixed partsPerSegment lo l ≤ firstFixed partsPerSegment lo' l' := by
  have hdiv : lo / partsPerSegment ≤ lo' / partsPerSegment := Nat.div_le_div_right hlo
  have hdiv' : l / partsPerSegment ≤ l' / partsPerSegment := Nat.div_le_div_right hl
  rw [firstFixed, firstFixed]
  by_cases htruncated : lo / partsPerSegment < l / partsPerSegment ∧ ¬ partsPerSegment ∣ lo
  · rw [if_pos htruncated]
    rcases Nat.lt_or_eq_of_le hdiv with hlt | hsame
    · split <;> omega
    · -- the window still begins in the middle of this segment
      have hdvd : ¬ partsPerSegment ∣ lo' := by
        intro hdvd
        have hbegin := Nat.div_mul_cancel hdvd
        have hle := Nat.div_mul_le_self lo partsPerSegment
        rw [← hsame] at hbegin
        obtain rfl : lo = lo' := by omega
        exact htruncated.2 hdvd
      rw [if_pos ⟨by omega, hdvd⟩]
      omega
  · rw [if_neg htruncated]
    split <;> omega

/-- The segments of a fixed size are listed from `firstFixed` on. -/
theorem Window.firstNumber_fixed (h : Window fmp4 key a lo l available) (hlo : lo ≤ u64Max)
    (hpos : 0 < partsPerSegment) (hasc : Ascending (playlistGroups false partsPerSegment available)) :
    firstNumber (playlistGroups false partsPerSegment available) =
      firstFixed partsPerSegment lo l := by
  have hle := h.le_last
  -- some part of the window is of that segment
  have hpart : ∃ q, lo ≤ q ∧ q ≤ l ∧ q / partsPerSegment = firstFixed partsPerSegment lo l := by
    rw [firstFixed]
    split
    · next htruncated =>
        refine ⟨(lo / partsPerSegment + 1) * partsPerSegment, ?_, ?_, Nat.mul_div_cancel _ hpos⟩
        · exact Nat.le_of_lt ((Nat.div_lt_iff_lt_mul hpos).1 (Nat.lt_succ_self _))
        · exact (Nat.le_div_iff_mul_le hpos).1 htruncated.1
    · exact ⟨lo, Nat.le_refl lo, hle, rfl⟩
  have hlisted : ∃ group, (firstFixed partsPerSegment lo l, group) ∈
      playlistGroups false partsPerSegment available := by
    obtain ⟨q, hge, hlast, hdiv⟩ := hpart
    obtain ⟨part, hmem, rfl⟩ := h.mem_iff.2 ⟨hge, hlast⟩
    refine ⟨_, (h.fixed_mem_iff hlo).2 ⟨rfl, ?_, fun hfirst hlt => ?_⟩⟩
    · exact List.ne_nil_of_mem (List.mem_filter.2 ⟨hmem, decide_eq_true hdiv⟩)
    · by_contra hdvd
      rw [firstFixed, if_pos ⟨hlt, hdvd⟩] at hfirst
      omega
  have hleast : ∀ k group, (k, group) ∈ playlistGroups false partsPerSegment available →
      firstFixed partsPerSegment lo l ≤ k := by
    intro k group hgroup
    obtain ⟨hfilter, hne, hwhole⟩ := (h.fixed_mem_iff hlo).1 hgroup
    obtain ⟨part, hmem⟩ := List.exists_mem_of_ne_nil _ hne
    rw [hfilter] at hmem
    obtain ⟨hmem, hdiv⟩ := List.mem_filter.1 hmem
    have hge : lo / partsPerSegment ≤ k := by
      rw [← of_decide_eq_true hdiv]
      exact Nat.div_le_div_right (h.mem_iff.1 ⟨part, hmem, rfl⟩).1
    rw [firstFixed]
    split
    · next htruncated =>
        rcases Nat.lt_or_eq_of_le hge with hlt | hsame
        · exact hlt
        · exact absurd (hwhole hsame.symm htruncated.1) htruncated.2
    · exact hge
  obtain ⟨group, hgroup⟩ := hlisted
  obtain ⟨first, hfirst⟩ := firstNumber_mem (List.ne_nil_of_mem hgroup)
  exact Nat.le_antisymm (firstNumber_le hasc hgroup) (hleast _ first hfirst)

end Fixed

/-! ## §3. Two windows. -/

namespace Feed

section Pairs

variable {f : Feed} {windowParts partsPerSegment before after k : Nat}
  {earlier later : List ObservedPart} {group group' : List ObservedPart}

/-- A complete segment of a fixed size lies in the window. -/
theorem fixed_within {lo l : Nat} {available : List ObservedPart}
    (h : Window f.fmp4 f.keyframe f.first lo l available) (hlo : lo ≤ u64Max)
    (hpos : 0 < partsPerSegment) (haligned : f.aligned available = false)
    (hgroup : (k, group) ∈ f.segments partsPerSegment available)
    (hcomplete : group.length = partsPerSegment) :
    lo ≤ k * partsPerSegment ∧ k * partsPerSegment + partsPerSegment ≤ l + 1 := by
  have hsequences := fixed_sequences h hlo hpos haligned hgroup hcomplete
  have hin : ∀ q, k * partsPerSegment ≤ q → q < k * partsPerSegment + partsPerSegment →
      lo ≤ q ∧ q < l + 1 := by
    intro q hge hlt
    have hmem : q ∈ group.map (·.sequence) := by
      rw [hsequences, List.mem_range'_1]
      exact ⟨hge, hlt⟩
    have hwindow := (segments_suffix h hlo).mem (List.mem_flatMap.2 ⟨(k, group), hgroup, hmem⟩)
    rw [List.mem_range'_1] at hwindow
    omega
  have hfirst := hin (k * partsPerSegment) (Nat.le_refl _) (by omega)
  have hlast := hin (k * partsPerSegment + partsPerSegment - 1) (by omega) (by omega)
  exact ⟨hfirst.1, by omega⟩

/-- A complete segment of a fixed size keeps its parts while it is listed. -/
theorem fixed_kept (hpos : 0 < partsPerSegment) (hle : before ≤ after)
    (h : Window f.fmp4 f.keyframe f.first (f.windowStart windowParts before) before earlier)
    (h' : Window f.fmp4 f.keyframe f.first (f.windowStart windowParts after) after later)
    (hlo : f.windowStart windowParts before ≤ u64Max)
    (hlo' : f.windowStart windowParts after ≤ u64Max)
    (haligned : f.aligned earlier = false) (hgroup : (k, group) ∈ f.segments partsPerSegment earlier)
    (hcomplete : group.length = partsPerSegment)
    (hgroup' : (k, group') ∈ playlistGroups false partsPerSegment later) :
    group'.map (·.sequence) = group.map (·.sequence) := by
  have hsequences := fixed_sequences h hlo hpos haligned hgroup hcomplete
  have hwithin := fixed_within h hlo hpos haligned hgroup hcomplete
  obtain ⟨hfilter, hne, hwhole⟩ := (h'.fixed_mem_iff hlo').1 hgroup'
  obtain ⟨part, hmem⟩ := List.exists_mem_of_ne_nil _ hne
  rw [hfilter] at hmem
  obtain ⟨hmem, hdiv⟩ := List.mem_filter.1 hmem
  have hfront : f.windowStart windowParts after / partsPerSegment ≤ k := by
    rw [← of_decide_eq_true hdiv]
    exact Nat.div_le_div_right (h'.mem_iff.1 ⟨part, hmem, rfl⟩).1
  have hend : (k + 1) * partsPerSegment ≤ after + 1 := by
    rw [Nat.add_mul, Nat.one_mul]
    omega
  have hbegin : f.windowStart windowParts after ≤ k * partsPerSegment := by
    rcases Nat.lt_or_eq_of_le hfront with hbehind | hsame
    · exact Nat.le_of_lt ((Nat.div_lt_iff_lt_mul hpos).1 hbehind)
    · by_cases hopen : f.windowStart windowParts after / partsPerSegment < after / partsPerSegment
      · exact Nat.le_of_eq (by rw [← hsame, Nat.div_mul_cancel (hwhole hsame.symm hopen)])
      · -- the segment is the last one, so nothing was committed since
        have hlt : after / partsPerSegment < k + 1 := by omega
        rw [Nat.div_lt_iff_lt_mul hpos, Nat.add_mul, Nat.one_mul] at hlt
        obtain rfl : before = after := by omega
        exact hwithin.1
  rw [hfilter, hsequences]
  exact fixed_full h' hpos hbegin hend

/-- The parts of a listed segment of keyframes. -/
theorem mem_aligned {lo l : Nat} {available : List ObservedPart}
    (h : Window true f.keyframe f.first lo l available)
    (hgroup : (k, group) ∈ playlistGroups true partsPerSegment available) {q : Nat} :
    q ∈ group.map (·.sequence) ↔
      lo ≤ q ∧ q ≤ l ∧ keyframesUpTo f.keyframe f.first q = k + 1 := by
  rw [((h.aligned_mem_iff partsPerSegment).1 hgroup).1, List.mem_map]
  constructor
  · rintro ⟨part, hpart, rfl⟩
    obtain ⟨hmem, hcount⟩ := List.mem_filter.1 hpart
    obtain ⟨hge, hle⟩ := h.mem_iff.1 ⟨part, hmem, rfl⟩
    exact ⟨hge, hle, of_decide_eq_true hcount⟩
  · rintro ⟨hge, hle, hcount⟩
    obtain ⟨part, hmem, rfl⟩ := h.mem_iff.2 ⟨hge, hle⟩
    exact ⟨part, List.mem_filter.2 ⟨hmem, decide_eq_true hcount⟩, rfl⟩

/-- A part does not come before a keyframe of its own segment. -/
theorem le_of_keyframe {q r : Nat} (hfirst : f.first ≤ q) (hkey : f.keyframe r = true)
    (hcount : keyframesUpTo f.keyframe f.first r ≤ keyframesUpTo f.keyframe f.first q) :
    r ≤ q := by
  by_contra hlt
  have hless := keyframesUpTo_lt hfirst (show q < r by omega) hkey
  omega

/-- A complete segment of keyframes keeps its parts while it is listed. -/
theorem aligned_kept {lo lo' : Nat} (hle : before ≤ after) (hlole : lo ≤ lo')
    (h : Window true f.keyframe f.first lo before earlier)
    (h' : Window true f.keyframe f.first lo' after later)
    (hasc : Ascending (playlistGroups true partsPerSegment earlier))
    (hgroup : (k, group) ∈ playlistGroups true partsPerSegment earlier)
    (hclosed : some k ≠ (playlistGroups true partsPerSegment earlier).getLast?.map (·.1))
    (hgroup' : (k, group') ∈ playlistGroups true partsPerSegment later) :
    group'.map (·.sequence) = group.map (·.sequence) := by
  have hstart := h.start_le
  obtain ⟨hfilter, s, hs, _, hskey, hscount⟩ := (h.aligned_mem_iff partsPerSegment).1 hgroup
  obtain ⟨hfilter', s', hs', _, hskey', hscount'⟩ := (h'.aligned_mem_iff partsPerSegment).1 hgroup'
  -- the keyframe behind the segment
  obtain ⟨r, hr, hrcount⟩ : ∃ r, r ≤ before ∧ f.first ≤ r ∧
      k + 1 < keyframesUpTo f.keyframe f.first r := by
    obtain ⟨last, hlast⟩ := Option.isSome_iff_exists.1
      (List.getLast?_isSome.2 (List.ne_nil_of_mem hgroup))
    obtain ⟨_, r, hge, hr, _, hrcount⟩ := (@Window.aligned_mem_iff _ _ _ _ _ partsPerSegment h
      last.1 last.2).1 (List.mem_of_getLast? hlast)
    rw [hlast] at hclosed
    rcases hasc.eq_or_lt_last hgroup hlast with rfl | hlt
    · exact absurd rfl hclosed
    · exact ⟨r, hr, by omega, by simp only at hlt; omega⟩
  refine List.Pairwise.eq_of_mem_iff (r := (· < ·)) ?_ ?_ fun q => ?_
  · rw [hfilter', List.pairwise_map]
    exact h'.ascending.filter _
  · rw [hfilter, List.pairwise_map]
    exact h.ascending.filter _
  · rw [mem_aligned h hgroup, mem_aligned h' hgroup']
    constructor
    · rintro ⟨hge, _, hcount⟩
      have hsq : s ≤ q := le_of_keyframe (by omega) hskey (by omega)
      refine ⟨by omega, ?_, hcount⟩
      by_contra hlt
      have hmono := @keyframesUpTo_mono f.keyframe f.first r q hrcount.1 (by omega)
      omega
    · rintro ⟨hge, hbefore, hcount⟩
      have hsq : s' ≤ q := le_of_keyframe (by omega) hskey' (by omega)
      exact ⟨by omega, by omega, hcount⟩

/-- The first listed segment of keyframes. -/
theorem aligned_first_le {lo lo' : Nat} (hlole : lo ≤ lo')
    (h : Window true f.keyframe f.first lo before earlier)
    (h' : Window true f.keyframe f.first lo' after later)
    (hasc : Ascending (playlistGroups true partsPerSegment earlier))
    (hne : playlistGroups true partsPerSegment later ≠ []) :
    firstNumber (playlistGroups true partsPerSegment earlier) ≤
      firstNumber (playlistGroups true partsPerSegment later) := by
  obtain ⟨group', hgroup'⟩ := firstNumber_mem hne
  obtain ⟨_, r, hr, _, hrkey, hrcount⟩ := (h'.aligned_mem_iff partsPerSegment).1 hgroup'
  by_cases hempty : playlistGroups true partsPerSegment earlier = []
  · rw [hempty]
    exact Nat.zero_le _
  by_cases hold : r ≤ before
  · -- the keyframe was in the earlier window
    have hlisted := (@Window.aligned_mem_iff _ _ _ _ _ partsPerSegment h _ _).2
      ⟨rfl, r, by omega, hold, hrkey, hrcount⟩
    exact firstNumber_le hasc hlisted
  · obtain ⟨group, hgroup⟩ := firstNumber_mem hempty
    obtain ⟨_, q, hq, hqbefore, _, hqcount⟩ := (h.aligned_mem_iff partsPerSegment).1 hgroup
    have hless := keyframesUpTo_lt (Nat.le_trans h.start_le hq) (show q < r by omega) hrkey
    omega

/-- With a single keyframe, only segment 0 is listed. -/
theorem aligned_first_zero {lo : Nat} (h : Window true f.keyframe f.first lo before earlier)
    (hcount : keyframesUpTo f.keyframe f.first before ≤ 1) :
    firstNumber (playlistGroups true partsPerSegment earlier) = 0 := by
  by_cases hempty : playlistGroups true partsPerSegment earlier = []
  · rw [hempty]
    rfl
  · obtain ⟨group, hgroup⟩ := firstNumber_mem hempty
    obtain ⟨_, q, hge, hle, _, hq⟩ := (h.aligned_mem_iff partsPerSegment).1 hgroup
    have hmono := @keyframesUpTo_mono f.keyframe f.first q before
      (Nat.le_trans h.start_le hge) hle
    omega

/-- Between a part without keyframes up to it and one with, there is a first keyframe. -/
theorem exists_first_keyframe (hle : before ≤ after) (hfirst : f.first ≤ before)
    (hnone : keyframesUpTo f.keyframe f.first before = 0)
    (hsome : 0 < keyframesUpTo f.keyframe f.first after) :
    ∃ r, before < r ∧ r ≤ after ∧ f.keyframe r = true ∧
      keyframesUpTo f.keyframe f.first r = 1 := by
  induction after, hle using Nat.le_induction with
  | base => omega
  | succ after hafter ih =>
      have hsucc := @keyframesUpTo_succ f.keyframe f.first after (by omega)
      by_cases hearlier : 0 < keyframesUpTo f.keyframe f.first after
      · obtain ⟨r, hlt, hr, hkey⟩ := ih hearlier
        exact ⟨r, hlt, by omega, hkey⟩
      · refine ⟨after + 1, by omega, Nat.le_refl _, ?_, ?_⟩
        · by_contra hkey
          rw [if_neg hkey] at hsucc
          omega
        · split at hsucc <;> omega

/-- Of two windows of a steady feed, the later one keeps the numbers of the earlier one. -/
theorem Steady.kept (hpos : 0 < partsPerSegment) (hle : before ≤ after)
    (hsteady : ∀ q, f.first ≤ q → q ≤ after → f.Steady windowParts partsPerSegment q)
    (h : Window f.fmp4 f.keyframe f.first (f.windowStart windowParts before) before earlier)
    (h' : Window f.fmp4 f.keyframe f.first (f.windowStart windowParts after) after later)
    (hmax : after ≤ u64Max) :
    firstNumber (f.segments partsPerSegment earlier) ≤
        firstNumber (f.segments partsPerSegment later) ∧
      ∀ k group group', (k, group) ∈ f.segments partsPerSegment earlier →
        f.complete partsPerSegment earlier (k, group) = true →
        (k, group') ∈ f.segments partsPerSegment later →
        group'.map (·.sequence) = group.map (·.sequence) := by
  have hlole : f.windowStart windowParts before ≤ f.windowStart windowParts after :=
    windowStart_mono hle
  have hlo' : f.windowStart windowParts after ≤ u64Max := Nat.le_trans h'.le_last hmax
  have hlo : f.windowStart windowParts before ≤ u64Max := by omega
  have hasc := @segments_ascending f _ before partsPerSegment earlier h hlo
  have hasc' := @segments_ascending f _ after partsPerSegment later h' hlo'
  have hfirst : f.first ≤ before := Nat.le_trans h.start_le h.le_last
  have hmono : keyframesUpTo f.keyframe f.first before ≤ keyframesUpTo f.keyframe f.first after :=
    keyframesUpTo_mono hfirst hle
  have hiff := aligned_iff h
  have hiff' := aligned_iff h'
  cases haligned : f.aligned earlier with
  | true =>
      obtain ⟨hfmp4, hcount⟩ := hiff.1 haligned
      have haligned' : f.aligned later = true := hiff'.2 ⟨hfmp4, by omega⟩
      rw [hfmp4] at h h'
      rw [segments_of_aligned haligned] at hasc
      simp only [complete, segmentIsComplete, segments_of_aligned haligned,
        segments_of_aligned haligned', haligned, if_true, decide_eq_true_eq]
      refine ⟨?_, fun k group group' hgroup hclosed hgroup' =>
        aligned_kept hle hlole h h' hasc hgroup hclosed hgroup'⟩
      by_cases hempty : playlistGroups true partsPerSegment later = []
      · -- nothing is listed, so there has been one keyframe only
        have hone : keyframesUpTo f.keyframe f.first after ≤ 1 := by
          by_contra htwo
          obtain ⟨q, hge, hq, hkey⟩ := (hsteady after (by omega) (Nat.le_refl _) hfmp4).2 (by omega)
          have hpositive := @keyframesUpTo_pos f.keyframe f.first q
            (Nat.le_trans h'.start_le hge) hkey
          have hlisted := (@Window.aligned_mem_iff _ _ _ _ _ partsPerSegment h'
            (keyframesUpTo f.keyframe f.first q - 1) _).2 ⟨rfl, q, hge, hq, hkey, by omega⟩
          rw [hempty] at hlisted
          cases hlisted
        rw [aligned_first_zero h (by omega)]
        exact Nat.zero_le _
      · exact aligned_first_le hlole h h' hasc hempty
  | false =>
      cases haligned' : f.aligned later with
      | false =>
          simp only [complete, segmentIsComplete, haligned, Bool.false_eq_true, if_false,
            decide_eq_true_eq]
          refine ⟨?_, fun k group group' hgroup hlength hgroup' => ?_⟩
          · rw [segments_of_fixed haligned] at hasc ⊢
            rw [segments_of_fixed haligned'] at hasc' ⊢
            rw [h.firstNumber_fixed hlo hpos hasc, h'.firstNumber_fixed hlo' hpos hasc']
            exact firstFixed_mono hlole hle
          · rw [segments_of_fixed haligned'] at hgroup'
            exact fixed_kept hpos hle h h' hlo hlo' haligned hgroup hlength hgroup'
      | true =>
          obtain ⟨hfmp4, hcount⟩ := hiff'.1 haligned'
          have hnone : keyframesUpTo f.keyframe f.first before = 0 := by
            by_contra hsome
            rw [hiff.2 ⟨hfmp4, by omega⟩] at haligned
            cases haligned
          obtain ⟨r, hlt, hr, hkey, hone⟩ := exists_first_keyframe hle hfirst hnone hcount
          obtain ⟨hsegment, hopen⟩ := (hsteady r (by omega) hr hfmp4).1 (by omega) hkey hone
          -- all parts so far are of segment 0, which is not complete
          simp only [complete, segmentIsComplete, haligned, Bool.false_eq_true, if_false,
            decide_eq_true_eq]
          refine ⟨?_, fun k group group' hgroup hlength hgroup' => ?_⟩
          · rw [segments_of_fixed haligned] at hasc ⊢
            rw [h.firstNumber_fixed hlo hpos hasc, firstFixed]
            have hle' := h.le_last
            rw [Nat.div_eq_of_lt (show before < partsPerSegment by omega), Nat.div_eq_of_lt
              (show f.windowStart windowParts before < partsPerSegment by omega),
              if_neg fun htruncated => absurd htruncated.1 (Nat.lt_irrefl 0)]
            exact Nat.zero_le _
          · exfalso
            obtain ⟨hbegin, hend⟩ := fixed_within h hlo hpos haligned hgroup hlength
            have hstart : f.windowStart windowParts before =
                max f.first (before - (max windowParts 1 - 1)) := rfl
            exact hopen ⟨by omega, by omega, by omega⟩

end Pairs

end Feed

/-! ## §4. Playlists of a run. -/

section Runs

variable {C : ChunkCacheCrate} (R : ChunkCacheReads C) (M : MediaObjectCrate)
  (formatProgramDateTime : Nat → Option String) (streamId : UInt64)

/-- The playlist that the later cache answers with does not go back behind that of the earlier
one. -/
structure NeverBack (earlier later : HlsCache C) : Prop where
  mediaSequence :
    ∀ number ∈ mediaSequenceLines
      (earlier.playlistForStreamId R M formatProgramDateTime streamId).1,
    ∀ number' ∈ mediaSequenceLines
      (later.playlistForStreamId R M formatProgramDateTime streamId).1, number ≤ number'
  kept : ∀ k group group', (k, group) ∈ earlier.listedGroups R M streamId →
    k ∈ segmentLines (earlier.playlistForStreamId R M formatProgramDateTime streamId).1 →
    (k, group') ∈ later.listedGroups R M streamId →
    group'.map (·.sequence) = group.map (·.sequence)

variable {R M formatProgramDateTime} {K : SoundkitCrate} {retained : Nat} {f : Feed}
  {windowParts partsPerSegment before after : Nat} {earlier later : HlsCache C}

theorem Reached.neverBack (hR : LawfulReads R retained) (hretained : max windowParts 1 ≤ retained)
    (hpos : 0 < partsPerSegment) (hle : before ≤ after)
    (hsteady : ∀ q, f.first ≤ q → q ≤ after → f.Steady windowParts partsPerSegment q)
    (h : Reached R M retained f windowParts partsPerSegment before earlier)
    (hinit : InitPresent R M f earlier)
    (h' : Reached R M retained f windowParts partsPerSegment after later)
    (hinit' : InitPresent R M f later) :
    NeverBack R M formatProgramDateTime f.streamId earlier later := by
  have hwindow : max earlier.windowParts 1 ≤ retained := by rw [h.windowParts]; exact hretained
  have hwindow' : max later.windowParts 1 ≤ retained := by rw [h'.windowParts]; exact hretained
  have hgroups := h.inOrder.listedGroups hR hwindow
  have hgroups' := h'.inOrder.listedGroups hR hwindow'
  have hearlier := h.inOrder.window
  have hlater := h'.inOrder.window
  have hlo := h.inOrder.windowStart_le
  obtain ⟨⟨_, _, _, _, _, hbody⟩, _⟩ :=
    h.inOrder.playlist hR hwindow hinit formatProgramDateTime
  obtain ⟨⟨_, _, _, _, _, hbody'⟩, _⟩ :=
    h'.inOrder.playlist hR hwindow' hinit' formatProgramDateTime
  rw [h.partsPerSegment] at hgroups hbody
  rw [h'.partsPerSegment] at hgroups' hbody'
  rw [h.windowParts] at hearlier hlo
  rw [h'.windowParts] at hlater
  obtain ⟨hfirst, hkept⟩ := Feed.Steady.kept hpos hle hsteady hearlier hlater h'.inOrder.last_le
  refine ⟨fun number hnumber number' hnumber' => ?_, ?_⟩
  · rw [hbody, mediaSequenceLines_renderPlaylist, List.mem_singleton] at hnumber
    rw [hbody', mediaSequenceLines_renderPlaylist, List.mem_singleton] at hnumber'
    rw [hnumber, hnumber']
    exact hfirst
  · intro k group group' hgroup hlisted hgroup'
    rw [hbody, segmentLines_renderPlaylist] at hlisted
    obtain ⟨⟨_, listed⟩, hmem, rfl⟩ := List.mem_map.1 hlisted
    obtain ⟨hsegment, hcomplete⟩ := List.mem_filter.1 hmem
    rw [hgroups] at hgroup
    rw [hgroups'] at hgroup'
    -- a number stands for one segment only
    obtain rfl := (Feed.segments_ascending hearlier hlo).eq_of_mem hgroup hsegment
    exact hkept _ group group' hgroup hcomplete hgroup'

end Runs

/-- **The media sequence never goes back** in a run whose parts are all steady, and a complete
segment keeps its parts. -/
theorem playlists_never_back {C : ChunkCacheCrate} {R : ChunkCacheReads C}
    {M : MediaObjectCrate} {K : SoundkitCrate} {formatProgramDateTime : Nat → Option String}
    {retained : Nat} (hR : LawfulReads R retained) (hM : SlotMagicsDiffer M) {f : Feed}
    {cache : HlsCache C} (hfresh : Fresh R f cache)
    (hretained : max cache.windowParts 1 ≤ retained) (hpos : 0 < cache.partsPerSegment)
    {c : MediaCommit} {events : List HlsEvent}
    (hrun : f.Publishes R M K formatProgramDateTime f.first cache (.commit c :: events))
    (hsteady : ∀ q, f.first ≤ q → q ≤ f.first + commitCount events →
      f.Steady cache.windowParts cache.partsPerSegment q) :
    (playlistRequests R M K formatProgramDateTime f.streamId cache
      (.commit c :: events)).Pairwise (NeverBack R M formatProgramDateTime f.streamId) := by
  obtain ⟨hfirst, hrest⟩ := hfresh.reached hR hM hrun
  refine (hfirst.requests_pairwise hR hM hretained hrest).imp ?_
  rintro earlier later ⟨before, after, _, hle, hbound, hreached, hinit, hreached', hinit'⟩
  exact hreached.neverBack hR hretained hpos hle
    (fun q hge hq => hsteady q hge (Nat.le_trans hq hbound)) hinit hreached' hinit'

/-- A keyframe every second part, and segments of two parts. -/
theorem playlists_never_back_gops :
    (playlistRequests sampleReads feedCrate sampleSoundkit (fun _ => none) 3 (emptyHlsCache 2 6)
      [.commit (feedCommit 0 true true), .playlist, .commit (feedCommit 1 false true),
        .commit (feedCommit 2 true true), .playlist]).Pairwise
      (NeverBack sampleReads feedCrate (fun _ => none) 3) := by
  have hrun : (sampleFeed true 0 fun q => q % 2 == 0).Publishes sampleReads feedCrate
      sampleSoundkit (fun _ => none) 0 (emptyHlsCache 2 6)
      [.commit (feedCommit 0 true true), .playlist, .commit (feedCommit 1 false true),
        .commit (feedCommit 2 true true), .playlist] :=
    ⟨feedCommit_part 0 true 0 _, by rfl, fun _ => by rfl, feedCommit_part 1 true 0 _, by rfl,
      feedCommit_part 2 true 0 _, by rfl, fun _ => by rfl, trivial⟩
  have hstart : ∀ q < 3, (sampleFeed true 0 fun q => q % 2 == 0).windowStart 6 q ≤ 0 := by decide
  -- the first keyframe is the first part
  have hfirst : ∀ q < 3, 0 < q → (q % 2 == 0) = true →
      keyframesUpTo (fun q => q % 2 == 0) 0 q ≠ 1 := by
    decide
  exact playlists_never_back (sampleReads_lawful 64) feedCrate_magics
    (emptyHlsCache_fresh 2 6 true 0 _) (by decide) (by decide) hrun fun q _ hq _ =>
      ⟨fun hlt hkey hone => absurd hone (hfirst q (Nat.lt_succ_of_le hq) hlt hkey), fun _ =>
        ⟨0, hstart q (Nat.lt_succ_of_le hq), Nat.zero_le q, rfl⟩⟩

/-- With keyframes 0 and 2 only, the window behind part 8 is inside a GOP: the playlist lists
nothing and its media sequence is 0 again. -/
theorem long_gop_goes_back :
    let events : List HlsEvent := [.commit (feedCommit 0 true true),
      .commit (feedCommit 1 false true), .commit (feedCommit 2 true true),
      .commit (feedCommit 3 false true), .commit (feedCommit 4 false true),
      .commit (feedCommit 5 false true), .commit (feedCommit 6 false true),
      .commit (feedCommit 7 false true), .playlist, .commit (feedCommit 8 false true), .playlist]
    let requests := playlistRequests sampleReads feedCrate sampleSoundkit (fun _ => none) 3
      (emptyHlsCache 2 6) events
    (sampleFeed true 0 fun q => q == 0 || q == 2).Publishes sampleReads feedCrate sampleSoundkit
        (fun _ => none) 0 (emptyHlsCache 2 6) events ∧
      (requests.map fun cache =>
        let body := (cache.playlistForStreamId sampleReads feedCrate (fun _ => none) 3).1
        (partLines body, mediaSequenceLines body)) = [([2, 3, 4, 5, 6, 7], [1]), ([], [0])] ∧
      ¬ requests.Pairwise (NeverBack sampleReads feedCrate (fun _ => none) 3) := by
  intro events requests
  have hlines : (requests.map fun cache =>
      let body := (cache.playlistForStreamId sampleReads feedCrate (fun _ => none) 3).1
      (partLines body, mediaSequenceLines body)) = [([2, 3, 4, 5, 6, 7], [1]), ([], [0])] := by
    decide +kernel
  refine ⟨?_, hlines, fun hpairwise => ?_⟩
  · exact ⟨feedCommit_part 0 true 0 _, by rfl, feedCommit_part 1 true 0 _, by rfl,
      feedCommit_part 2 true 0 _, by rfl, feedCommit_part 3 true 0 _, by rfl,
      feedCommit_part 4 true 0 _, by rfl, feedCommit_part 5 true 0 _, by rfl,
      feedCommit_part 6 true 0 _, by rfl, feedCommit_part 7 true 0 _, by rfl, fun _ => by rfl,
      feedCommit_part 8 true 0 _, by rfl, fun _ => by rfl, trivial⟩
  · obtain ⟨first, rest, hrequests, hfirst, hrest⟩ := List.map_eq_cons_iff.1 hlines
    obtain ⟨second, _, rfl, hsecond, _⟩ := List.map_eq_cons_iff.1 hrest
    rw [hrequests] at hpairwise
    have hback := (List.pairwise_cons.1 hpairwise).1 second List.mem_cons_self
    exact absurd (hback.mediaSequence 1 (by rw [(Prod.mk.inj hfirst).2]; decide) 0
      (by rw [(Prod.mk.inj hsecond).2]; decide)) (by decide)

end AvMesh.LiveCache
