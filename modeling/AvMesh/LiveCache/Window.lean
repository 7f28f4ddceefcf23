/-
  AvMesh.LiveCache.Window
  ───────────────────────
  **THE SEGMENTS OF A WINDOW OF CONSECUTIVE PARTS.**

  A stream whose parts `a, a+1, …, l` were committed in order has the parts
  `lo, …, l` in its window.  Its playlist puts them into segments in one of
  two ways:

      keyframe-aligned   segment of `q` = keyframes in `a … q`, less one
      fixed size         segment of `q` = `q / partsPerSegment`

  Either number grows by at most one from part to part, so the segments are
  runs of consecutive parts with consecutive numbers (`StepGroups`), and only
  the first of them can be truncated.
-/
import Mathlib.Data.List.Sort
import AvMesh.LiveCache.Playlist
import AvMesh.LiveCache.Segments

namespace AvMesh.LiveCache

open AvMesh.Lib

/-! ## §1. Keyframes up to a part. -/

/-- The keyframes among `a, …, q`. -/
def keyframesUpTo (key : Nat → Bool) (a q : Nat) : Nat := (List.range' a (q + 1 - a)).countP key

section Counts

variable {key : Nat → Bool} {a p q : Nat}

theorem keyframesUpTo_succ (h : a ≤ q + 1) :
    keyframesUpTo key a (q + 1) = keyframesUpTo key a q + if key (q + 1) then 1 else 0 := by
  have hlen : q + 1 + 1 - a = q + 1 - a + 1 := by omega
  have hlast : a + (q + 1 - a) = q + 1 := by omega
  rw [keyframesUpTo, hlen, List.range'_1_concat, hlast, List.countP_append, List.countP_singleton]
  rfl

theorem keyframesUpTo_step :
    keyframesUpTo key a (q + 1) = keyframesUpTo key a q ∨
      keyframesUpTo key a (q + 1) = keyframesUpTo key a q + 1 := by
  by_cases h : a ≤ q + 1
  · rw [keyframesUpTo_succ h]
    split
    · exact Or.inr rfl
    · exact Or.inl rfl
  · refine Or.inl ?_
    rw [keyframesUpTo, keyframesUpTo, Nat.sub_eq_zero_of_le (by omega : q + 1 ≤ a),
      Nat.sub_eq_zero_of_le (by omega : q + 1 + 1 ≤ a)]

theorem keyframesUpTo_self : keyframesUpTo key a a = if key a then 1 else 0 := by
  have hlen : a + 1 - a = 1 := by omega
  rw [keyframesUpTo, hlen]
  cases hkey : key a <;> simp [hkey]

theorem keyframesUpTo_pos (h : a ≤ q) (hkey : key q = true) : 0 < keyframesUpTo key a q := by
  refine List.countP_pos_iff.2 ⟨q, ?_, hkey⟩
  rw [List.mem_range'_1]
  omega

theorem keyframesUpTo_mono (h : a ≤ p) (hle : p ≤ q) :
    keyframesUpTo key a p ≤ keyframesUpTo key a q := by
  induction q, hle using Nat.le_induction with
  | base => exact Nat.le_refl _
  | succ q hq ih =>
      rw [keyframesUpTo_succ (by omega)]
      omega

/-- A keyframe is counted in addition to everything in front of it. -/
theorem keyframesUpTo_lt (h : a ≤ p) (hlt : p < q) (hkey : key q = true) :
    keyframesUpTo key a p < keyframesUpTo key a q := by
  obtain ⟨q, rfl⟩ : ∃ r, q = r + 1 := ⟨q - 1, by omega⟩
  have hle : keyframesUpTo key a p ≤ keyframesUpTo key a q := keyframesUpTo_mono h (by omega)
  rw [keyframesUpTo_succ (by omega), if_pos hkey]
  omega

theorem keyframesUpTo_le (a q : Nat) : keyframesUpTo key a q ≤ q + 1 - a := by
  have hle := @List.countP_le_length _ key (List.range' a (q + 1 - a))
  rw [List.length_range'] at hle
  exact hle

end Counts

/-! ## §2. Consecutive parts. -/

/-- The observed parts of a window: `lo, …, l` of a stream that began at `a`. -/
structure Window (fmp4 : Bool) (key : Nat → Bool) (a lo l : Nat) (available : List ObservedPart) :
    Prop where
  start_le : a ≤ lo
  le_last : lo ≤ l
  sequences : available.map (·.sequence) = List.range' lo (l + 1 - lo)
  keyframe : ∀ part ∈ available, part.keyframe = key part.sequence
  segment : ∀ part ∈ available, part.fmp4SegmentId =
    if fmp4 then ofCount (keyframesUpTo key a part.sequence) else none

section Consecutive

variable {fmp4 : Bool} {key : Nat → Bool} {a lo l : Nat} {available : List ObservedPart}

theorem Window.mem_iff (h : Window fmp4 key a lo l available) {q : Nat} :
    (∃ part ∈ available, part.sequence = q) ↔ lo ≤ q ∧ q ≤ l := by
  have hle := h.le_last
  rw [← List.mem_map, h.sequences, List.mem_range'_1]
  omega

theorem Window.chain (h : Window fmp4 key a lo l available) :
    available.IsChain fun x y => y.sequence = x.sequence + 1 := by
  have hrange : (available.map (·.sequence)).IsChain fun x y => y = x + 1 := by
    rw [h.sequences]
    exact List.isChain_range' _ _ _
  rwa [List.isChain_map] at hrange

theorem Window.ascending (h : Window fmp4 key a lo l available) :
    available.Pairwise fun x y => x.sequence < y.sequence := by
  have hrange : (available.map (·.sequence)).Pairwise (· < ·) := by
    rw [h.sequences]
    exact List.pairwise_lt_range'
  rwa [List.pairwise_map] at hrange

theorem Window.ne_nil (h : Window fmp4 key a lo l available) : available ≠ [] := by
  intro hnil
  obtain ⟨part, hpart, _⟩ := h.mem_iff.2 ⟨h.le_last, Nat.le_refl l⟩
  rw [hnil] at hpart
  cases hpart

theorem le_of_head {xs : List ObservedPart}
    (h : xs.Pairwise fun x y => x.sequence < y.sequence) {first part : ObservedPart}
    (hfirst : xs.head? = some first) (hpart : part ∈ xs) : first.sequence ≤ part.sequence := by
  cases xs with
  | nil => cases hpart
  | cons x xs =>
      obtain rfl := Option.some.inj hfirst
      rcases List.mem_cons.1 hpart with rfl | hpart
      · exact Nat.le_refl _
      · exact Nat.le_of_lt ((List.pairwise_cons.1 h).1 part hpart)

/-- Elements from the first that satisfies a predicate on, if it then holds for all. -/
theorem filter_eq_dropWhile {α : Type} {p : α → Bool} {xs : List α}
    (h : xs.Pairwise fun x y => p x = true → p y = true) :
    xs.filter p = xs.dropWhile fun x => !p x := by
  induction xs with
  | nil => rfl
  | cons x xs ih =>
      obtain ⟨hx, hxs⟩ := List.pairwise_cons.1 h
      by_cases hp : p x = true
      · have hall : xs.filter p = xs := List.filter_eq_self.2 fun y hy => hx y hy hp
        rw [List.filter_cons_of_pos hp, hall, List.dropWhile_cons_of_neg (by simp [hp])]
      · rw [List.filter_cons_of_neg hp, List.dropWhile_cons_of_pos (by simp [hp]), ih hxs]

end Consecutive

/-! ## §3. Keyframe-aligned segments. -/

theorem ofCount_eq_some {count segment : Nat} : ofCount count = some segment ↔ count = segment + 1 := by
  cases count with
  | zero => simp [ofCount]
  | succ count => simp [ofCount]

section Aligned

variable {key : Nat → Bool} {a lo l : Nat} {available : List ObservedPart}
  (partsPerSegment : Nat)

theorem Window.aligned_iff {fmp4 : Bool} (h : Window fmp4 key a lo l available)
    {kind : LiveMediaKind} (hkind : kind = .fmp4 ↔ fmp4 = true) :
    keyframeAligned kind available = true ↔ fmp4 = true ∧ 0 < keyframesUpTo key a l := by
  rw [keyframeAligned, Bool.and_eq_true, decide_eq_true_eq, hkind]
  refine and_congr_right fun hfmp4 => ?_
  rw [List.any_eq_true]
  constructor
  · rintro ⟨part, hpart, hsome⟩
    obtain ⟨segment, hsegment⟩ := Option.isSome_iff_exists.1 hsome
    rw [h.segment part hpart, if_pos hfmp4, ofCount_eq_some] at hsegment
    have hin := h.mem_iff.1 ⟨part, hpart, rfl⟩
    have hmono : keyframesUpTo key a part.sequence ≤ keyframesUpTo key a l :=
      keyframesUpTo_mono (Nat.le_trans h.start_le hin.1) hin.2
    omega
  · intro hpos
    obtain ⟨part, hpart, hlast⟩ := h.mem_iff.2 ⟨h.le_last, Nat.le_refl l⟩
    refine ⟨part, hpart, Option.isSome_iff_exists.2 ⟨keyframesUpTo key a l - 1, ?_⟩⟩
    rw [h.segment part hpart, if_pos hfmp4, hlast, ofCount_eq_some]
    omega

/-- The parts of a segment before truncation. -/
theorem Window.aligned_group_iff (h : Window true key a lo l available) {k : Nat}
    {group : List ObservedPart} :
    (k, group) ∈ groupEntries (playlistSegment true partsPerSegment) available ↔
      group = available.filter (fun part => keyframesUpTo key a part.sequence = k + 1) ∧
        group ≠ [] := by
  rw [(groupEntries_spec _ _).2]
  have hfilter : available.filter (fun part => playlistSegment true partsPerSegment part = some k) =
      available.filter (fun part => keyframesUpTo key a part.sequence = k + 1) := by
    refine List.filter_congr fun part hpart => ?_
    have hsegment : playlistSegment true partsPerSegment part =
        ofCount (keyframesUpTo key a part.sequence) := h.segment part hpart
    rw [hsegment, decide_eq_decide, ofCount_eq_some]
  rw [hfilter]

/-- A segment begins with its keyframe, or at the begin of the window. -/
theorem Window.aligned_head (h : Window true key a lo l available) {k : Nat} {first : ObservedPart}
    (hhead : (available.filter fun part => keyframesUpTo key a part.sequence = k + 1).head? =
      some first) :
    key first.sequence = true ∨ first.sequence = lo := by
  obtain ⟨hmem, hcount⟩ := List.mem_filter.1 (List.mem_of_head? hhead)
  have hin := h.mem_iff.1 ⟨first, hmem, rfl⟩
  have hstart := h.start_le
  by_cases hlo : first.sequence = lo
  · exact Or.inr hlo
  · refine Or.inl ?_
    by_contra hkey
    -- the part in front would be of the same segment
    obtain ⟨before, hbefore, hsequence⟩ := h.mem_iff.2
      (show lo ≤ first.sequence - 1 ∧ first.sequence - 1 ≤ l by omega)
    have hsucc := @keyframesUpTo_succ key a (first.sequence - 1) (by omega)
    rw [show first.sequence - 1 + 1 = first.sequence by omega, if_neg hkey] at hsucc
    simp only [decide_eq_true_eq] at hcount
    have hsame : before ∈
        available.filter fun part => keyframesUpTo key a part.sequence = k + 1 := by
      refine List.mem_filter.2 ⟨hbefore, decide_eq_true ?_⟩
      rw [hsequence]
      omega
    have hle := le_of_head (h.ascending.filter _) hhead hsame
    omega

/-- The segments begin with their keyframes, so no part of theirs is missing in front. -/
theorem Window.aligned_mem_iff (h : Window true key a lo l available) {k : Nat}
    {group : List ObservedPart} :
    (k, group) ∈ playlistGroups true partsPerSegment available ↔
      group = available.filter (fun part => keyframesUpTo key a part.sequence = k + 1) ∧
        ∃ q, lo ≤ q ∧ q ≤ l ∧ key q = true ∧ keyframesUpTo key a q = k + 1 := by
  have hretain : playlistGroups true partsPerSegment available =
      (groupEntries (playlistSegment true partsPerSegment) available).filter
        fun group => group.2.head?.any (·.keyframe) := rfl
  rw [hretain, List.mem_filter, h.aligned_group_iff partsPerSegment]
  constructor
  · rintro ⟨⟨rfl, _⟩, hwhole⟩
    obtain ⟨first, hfirst, hkey⟩ := (Option.any_eq_true _ _).1 hwhole
    obtain ⟨hmem, hcount⟩ := List.mem_filter.1 (List.mem_of_head? hfirst)
    rw [h.keyframe first hmem] at hkey
    have hin := h.mem_iff.1 ⟨first, hmem, rfl⟩
    exact ⟨rfl, first.sequence, hin.1, hin.2, hkey, of_decide_eq_true hcount⟩
  · rintro ⟨rfl, q, hlo, hl, hkey, hcount⟩
    obtain ⟨part, hpart, rfl⟩ := h.mem_iff.2 ⟨hlo, hl⟩
    have hmem : part ∈
        available.filter fun part => keyframesUpTo key a part.sequence = k + 1 :=
      List.mem_filter.2 ⟨hpart, decide_eq_true hcount⟩
    have hne := List.ne_nil_of_mem hmem
    refine ⟨⟨rfl, hne⟩, ?_⟩
    obtain ⟨first, hfirst⟩ := Option.isSome_iff_exists.1 (List.isSome_head?.2 hne)
    refine (Option.any_eq_true _ _).2 ⟨first, hfirst, ?_⟩
    obtain ⟨hfirstmem, hfirstcount⟩ := List.mem_filter.1 (List.mem_of_head? hfirst)
    have hle := le_of_head (h.ascending.filter _) hfirst hmem
    have hfirstin := h.mem_iff.1 ⟨first, hfirstmem, rfl⟩
    -- a part in front of the keyframe has a smaller count
    have heq : first.sequence = part.sequence := by
      by_contra hne
      have hlt := keyframesUpTo_lt (Nat.le_trans h.start_le hfirstin.1)
        (show first.sequence < part.sequence by omega) hkey
      simp only [decide_eq_true_eq] at hfirstcount
      omega
    rw [h.keyframe first hfirstmem, heq]
    exact hkey

/-- Before truncation, the segments are runs of consecutive parts from the first keyframe on. -/
theorem Window.aligned_groups_steps (h : Window true key a lo l available) :
    ∃ listed, listed <:+ available ∧
      StepGroups (fun part => keyframesUpTo key a part.sequence - 1) listed
        (groupEntries (playlistSegment true partsPerSegment) available) := by
  have hsegment : ∀ part ∈ available, playlistSegment true partsPerSegment part =
      ofCount (keyframesUpTo key a part.sequence) := fun part hpart => h.segment part hpart
  have hsuffix : available.filter (fun part => (playlistSegment true partsPerSegment part).isSome) <:+
      available := by
    rw [filter_eq_dropWhile]
    · exact List.dropWhile_suffix _
    · refine h.ascending.imp_of_mem fun {x y} hx hy hlt hsome => ?_
      obtain ⟨segment, hx'⟩ := Option.isSome_iff_exists.1 hsome
      rw [hsegment x hx, ofCount_eq_some] at hx'
      have hmono := @keyframesUpTo_mono key a x.sequence y.sequence
        (Nat.le_trans h.start_le (h.mem_iff.1 ⟨x, hx, rfl⟩).1) (Nat.le_of_lt hlt)
      refine Option.isSome_iff_exists.2 ⟨keyframesUpTo key a y.sequence - 1, ?_⟩
      rw [hsegment y hy, ofCount_eq_some]
      omega
  refine ⟨_, hsuffix, ?_⟩
  have hgroups : groupEntries (playlistSegment true partsPerSegment) available =
      groupEntries (fun part => some (keyframesUpTo key a part.sequence - 1))
        (available.filter fun part => (playlistSegment true partsPerSegment part).isSome) := by
    rw [← groupEntries_filter]
    refine groupEntries_congr fun part hpart => ?_
    obtain ⟨hmem, hsome⟩ := List.mem_filter.1 hpart
    obtain ⟨segment, hsegment'⟩ := Option.isSome_iff_exists.1 hsome
    have hcount := hsegment'
    rw [hsegment part hmem, ofCount_eq_some] at hcount
    rw [hsegment', hcount, Nat.add_sub_cancel]
  rw [hgroups]
  refine groupEntries_steps _ ((h.chain.suffix hsuffix).imp fun x y hnext => ?_)
  have hstep := @keyframesUpTo_step key a x.sequence
  rw [hnext]
  omega

/-- The segments of the playlist are runs of consecutive parts at the end of the window. -/
theorem Window.aligned_steps (h : Window true key a lo l available) :
    ∃ listed, listed <:+ available ∧
      StepGroups (fun part => keyframesUpTo key a part.sequence - 1) listed
        (playlistGroups true partsPerSegment available) := by
  obtain ⟨listed, hsuffix, hsteps⟩ := h.aligned_groups_steps partsPerSegment
  have hasc := (groupEntries_spec (playlistSegment true partsPerSegment) available).1
  have hmem : ∀ k group, (k, group) ∈
      groupEntries (playlistSegment true partsPerSegment) available ↔ _ :=
    fun k group => h.aligned_group_iff partsPerSegment
  have hretain : playlistGroups true partsPerSegment available =
      (groupEntries (playlistSegment true partsPerSegment) available).filter
        fun group => group.2.head?.any (·.keyframe) := rfl
  rw [hretain]
  generalize groupEntries (playlistSegment true partsPerSegment) available = groups at *
  cases groups with
  | nil => exact ⟨listed, hsuffix, hsteps⟩
  | cons first others =>
      -- a segment behind the first one does not begin the window, so it has its keyframe
      have hothers : others.filter (fun group => group.2.head?.any (·.keyframe)) = others := by
        refine List.filter_eq_self.2 fun other hother => ?_
        obtain ⟨hgroup, hne⟩ := (hmem other.1 other.2).1 (List.mem_cons_of_mem _ hother)
        obtain ⟨head, hhead⟩ := Option.isSome_iff_exists.1 (List.isSome_head?.2 hne)
        have hhead' := hhead
        rw [hgroup] at hhead'
        obtain ⟨hheadmem, hheadcount⟩ := List.mem_filter.1 (List.mem_of_head? hhead')
        refine (Option.any_eq_true _ _).2 ⟨head, hhead, ?_⟩
        rw [h.keyframe head hheadmem]
        refine (h.aligned_head hhead').resolve_right fun hlo => ?_
        obtain ⟨hfirst, hfirstne⟩ := (hmem first.1 first.2).1 List.mem_cons_self
        obtain ⟨part, hpart⟩ := List.exists_mem_of_ne_nil _ hfirstne
        rw [hfirst] at hpart
        obtain ⟨hpartmem, hpartcount⟩ := List.mem_filter.1 hpart
        have hlt := (List.pairwise_cons.1 hasc).1 other hother
        have hmono := @keyframesUpTo_mono key a lo part.sequence h.start_le
          (h.mem_iff.1 ⟨part, hpartmem, rfl⟩).1
        simp only [decide_eq_true_eq] at hpartcount hheadcount
        rw [hlo] at hheadcount
        omega
      rw [List.filter_cons, hothers]
      split
      · exact ⟨listed, hsuffix, hsteps⟩
      · obtain ⟨rest, hrest, hsteps'⟩ := hsteps.tail
        exact ⟨rest, hrest.trans hsuffix, hsteps'⟩

end Aligned

/-! ## §4. Segments of a fixed size. -/

section Fixed

variable {fmp4 : Bool} {key : Nat → Bool} {a lo l partsPerSegment : Nat}
  {available : List ObservedPart}

theorem Window.head (h : Window fmp4 key a lo l available) {first : ObservedPart}
    (hfirst : available.head? = some first) : first.sequence = lo := by
  have hlo := h.mem_iff.1 ⟨first, List.mem_of_head? hfirst, rfl⟩
  obtain ⟨part, hpart, hsequence⟩ := h.mem_iff.2 ⟨Nat.le_refl lo, h.le_last⟩
  have hle := le_of_head h.ascending hfirst hpart
  omega

theorem fixed_group_iff {k : Nat} {group : List ObservedPart} :
    (k, group) ∈ groupEntries (playlistSegment false partsPerSegment) available ↔
      group = available.filter (fun part => part.sequence / partsPerSegment = k) ∧
        group ≠ [] := by
  rw [(groupEntries_spec _ _).2]
  have hfilter : available.filter
      (fun part => playlistSegment false partsPerSegment part = some k) =
      available.filter (fun part => part.sequence / partsPerSegment = k) := by
    refine List.filter_congr fun part _ => ?_
    show decide (some (part.sequence / partsPerSegment) = some k) = _
    rw [decide_eq_decide, Option.some.injEq]
  rw [hfilter]

theorem Window.fixed_groups_steps (h : Window fmp4 key a lo l available) :
    StepGroups (fun part => part.sequence / partsPerSegment) available
      (groupEntries (playlistSegment false partsPerSegment) available) := by
  refine groupEntries_steps _ (h.chain.imp fun x y hnext => ?_)
  rw [hnext, Nat.succ_div]
  split
  · exact Or.inr rfl
  · exact Or.inl rfl

/-- The first group begins where the window does. -/
theorem Window.fixed_cons (h : Window fmp4 key a lo l available) :
    ∃ group others head, groupEntries (playlistSegment false partsPerSegment) available =
      (lo / partsPerSegment, group) :: others ∧ group.head? = some head ∧ head.sequence = lo := by
  have hsteps : StepGroups (fun part => part.sequence / partsPerSegment) available
      (groupEntries (playlistSegment false partsPerSegment) available) := h.fixed_groups_steps
  generalize groupEntries (playlistSegment false partsPerSegment) available = groups at hsteps ⊢
  cases groups with
  | nil => exact absurd hsteps.flatten.symm h.ne_nil
  | cons first others =>
      obtain ⟨k, group⟩ := first
      obtain ⟨hne, hkeys⟩ := hsteps.mem (k, group) List.mem_cons_self
      obtain ⟨head, hhead⟩ := Option.isSome_iff_exists.1 (List.isSome_head?.2 hne)
      have hlo : head.sequence = lo := by
        refine h.head ?_
        rw [← hsteps.flatten, List.flatMap_cons, List.head?_append, hhead]
        rfl
      have hk : head.sequence / partsPerSegment = k := hkeys head (List.mem_of_head? hhead)
      rw [hlo] at hk
      exact ⟨group, others, head, by rw [hk], hhead, hlo⟩

/-- The first segment is dropped if it begins in the middle and is not the only one. -/
theorem Window.fixed_eq (h : Window fmp4 key a lo l available) (hlo : lo ≤ u64Max) :
    playlistGroups false partsPerSegment available =
      if lo / partsPerSegment < l / partsPerSegment ∧ ¬ partsPerSegment ∣ lo then
        (groupEntries (playlistSegment false partsPerSegment) available).tail
      else groupEntries (playlistSegment false partsPerSegment) available := by
  obtain ⟨group, others, head, hcons, hhead, hheadlo⟩ :
      ∃ group others head, groupEntries (playlistSegment false partsPerSegment) available =
        (lo / partsPerSegment, group) :: others ∧ _ := h.fixed_cons
  have hsteps : StepGroups (fun part => part.sequence / partsPerSegment) available
      (groupEntries (playlistSegment false partsPerSegment) available) := h.fixed_groups_steps
  have hasc := (groupEntries_spec (playlistSegment false partsPerSegment) available).1
  rw [playlistGroups, hcons] at *
  have hmul : satMul (lo / partsPerSegment) partsPerSegment =
      lo / partsPerSegment * partsPerSegment :=
    Nat.min_eq_left (Nat.le_trans (Nat.div_mul_le_self lo partsPerSegment) hlo)
  have htruncated : (group.head?.any fun part =>
      decide (part.sequence ≠ satMul (lo / partsPerSegment) partsPerSegment)) = true ↔
      ¬ partsPerSegment ∣ lo := by
    rw [hhead, Option.any_some, decide_eq_true_eq, hheadlo, hmul, Nat.dvd_iff_div_mul_eq]
    exact not_congr eq_comm
  cases others with
  | nil =>
      -- a single group reaches to the end of the window
      have hl : l / partsPerSegment = lo / partsPerSegment := by
        obtain ⟨part, hpart, hlast⟩ := h.mem_iff.2 ⟨h.le_last, Nat.le_refl l⟩
        rw [← hsteps.flatten] at hpart
        rw [← hlast]
        exact (hsteps.mem _ List.mem_cons_self).2 part (by simpa using hpart)
      rw [if_neg fun hand => by omega]
      rfl
  | cons next rest =>
      have hl : lo / partsPerSegment < l / partsPerSegment := by
        have hlt := (List.pairwise_cons.1 hasc).1 next List.mem_cons_self
        obtain ⟨hnextne, hnextkeys⟩ := hsteps.mem next (by simp)
        obtain ⟨part, hpart⟩ := List.exists_mem_of_ne_nil _ hnextne
        have hmem : part ∈ available := by
          rw [← hsteps.flatten]
          simp [hpart]
        have hdiv := Nat.div_le_div_right (c := partsPerSegment) (h.mem_iff.1 ⟨part, hmem, rfl⟩).2
        have hkey : part.sequence / partsPerSegment = next.1 := hnextkeys part hpart
        simp only at hlt
        omega
      by_cases hdvd : partsPerSegment ∣ lo
      · rw [if_neg fun hand => hand.2 hdvd]
        exact if_neg fun htest => (htruncated.1 htest) hdvd
      · rw [if_pos ⟨hl, hdvd⟩]
        exact if_pos (htruncated.2 hdvd)

theorem Window.fixed_steps (h : Window fmp4 key a lo l available) (hlo : lo ≤ u64Max) :
    ∃ listed, listed <:+ available ∧
      StepGroups (fun part => part.sequence / partsPerSegment) listed
        (playlistGroups false partsPerSegment available) := by
  have hsteps : StepGroups (fun part => part.sequence / partsPerSegment) available
      (groupEntries (playlistSegment false partsPerSegment) available) := h.fixed_groups_steps
  obtain ⟨group, others, head, hcons, _⟩ :
      ∃ group others head, groupEntries (playlistSegment false partsPerSegment) available =
        (lo / partsPerSegment, group) :: others ∧ _ := h.fixed_cons
  rw [h.fixed_eq hlo]
  split
  · rw [hcons] at hsteps ⊢
    exact hsteps.tail
  · exact ⟨available, List.suffix_refl _, hsteps⟩

/-- The segments of a fixed size that a playlist lists. -/
theorem Window.fixed_mem_iff (h : Window fmp4 key a lo l available) (hlo : lo ≤ u64Max) {k : Nat}
    {group : List ObservedPart} :
    (k, group) ∈ playlistGroups false partsPerSegment available ↔
      group = available.filter (fun part => part.sequence / partsPerSegment = k) ∧ group ≠ [] ∧
        (k = lo / partsPerSegment →
          lo / partsPerSegment < l / partsPerSegment → partsPerSegment ∣ lo) := by
  have hasc := (groupEntries_spec (playlistSegment false partsPerSegment) available).1
  have hmem : ∀ k group, (k, group) ∈
      groupEntries (playlistSegment false partsPerSegment) available ↔ _ :=
    fun k group => fixed_group_iff
  rw [h.fixed_eq hlo]
  split
  · next htruncated =>
      obtain ⟨first, others, head, hcons, _⟩ :
          ∃ group others head, groupEntries (playlistSegment false partsPerSegment) available =
            (lo / partsPerSegment, group) :: others ∧ _ := h.fixed_cons
      rw [hcons] at hmem hasc ⊢
      obtain ⟨hbehind, _⟩ := List.pairwise_cons.1 hasc
      rw [List.tail_cons]
      constructor
      · intro hother
        have hlt : lo / partsPerSegment < k := hbehind _ hother
        obtain ⟨hgroup, hne⟩ := (hmem k group).1 (List.mem_cons_of_mem _ hother)
        exact ⟨hgroup, hne, fun heq => by omega⟩
      · rintro ⟨hgroup, hne, hwhole⟩
        rcases List.mem_cons.1 ((hmem k group).2 ⟨hgroup, hne⟩) with heq | hother
        · exact absurd (hwhole (Prod.mk.inj heq).1 htruncated.1) htruncated.2
        · exact hother
  · next hwhole =>
      rw [hmem]
      constructor
      · rintro ⟨hgroup, hne⟩
        refine ⟨hgroup, hne, fun _ hlt => ?_⟩
        by_contra hdvd
        exact hwhole ⟨hlt, hdvd⟩
      · rintro ⟨hgroup, hne, _⟩
        exact ⟨hgroup, hne⟩

end Fixed

/-! ## §5. Retained parts. -/

/-- The retained parts of a stream whose parts from `a` to `l` were recorded in order. -/
structure RetainedWindow (fmp4 : Bool) (key : Nat → Bool) (a lo l : Nat) (parts : RetainedParts) :
    Prop where
  start_le : a ≤ lo
  le_last : lo ≤ l
  sequences : parts.map (·.1) = List.range' lo (l + 1 - lo)
  keyframe : ∀ entry ∈ parts, entry.2.keyframe = key entry.1
  segment : ∀ entry ∈ parts, entry.2.fmp4SegmentId =
    if fmp4 then ofCount (keyframesUpTo key a entry.1) else none

/-- A retained part as a playlist observes it. -/
def observed (nominalPartDurationMs : Nat) (entry : Nat × RetainedPartObservation) :
    ObservedPart where
  sequence := entry.1
  durationMs := entry.2.durationMs.getD nominalPartDurationMs
  keyframe := entry.2.keyframe
  fmp4SegmentId := entry.2.fmp4SegmentId
  availableUnixUs := entry.2.availableUnixUs

section Retained

variable {fmp4 : Bool} {key : Nat → Bool} {a lo l : Nat} {parts : RetainedParts}

theorem RetainedWindow.window (h : RetainedWindow fmp4 key a lo l parts)
    (nominalPartDurationMs : Nat) :
    Window fmp4 key a lo l (parts.map (observed nominalPartDurationMs)) where
  start_le := h.start_le
  le_last := h.le_last
  sequences := by
    rw [List.map_map, ← h.sequences]
    rfl
  keyframe := by
    intro part hpart
    obtain ⟨entry, hentry, rfl⟩ := List.mem_map.1 hpart
    exact h.keyframe entry hentry
  segment := by
    intro part hpart
    obtain ⟨entry, hentry, rfl⟩ := List.mem_map.1 hpart
    exact h.segment entry hentry

theorem RetainedWindow.ascending (h : RetainedWindow fmp4 key a lo l parts) : Ascending parts := by
  have hrange : (parts.map (·.1)).Pairwise (· < ·) := by
    rw [h.sequences]
    exact List.pairwise_lt_range'
  rwa [List.pairwise_map] at hrange

theorem RetainedWindow.mem_iff (h : RetainedWindow fmp4 key a lo l parts) {q : Nat} :
    (∃ entry ∈ parts, entry.1 = q) ↔ lo ≤ q ∧ q ≤ l := by
  have hle := h.le_last
  rw [← List.mem_map, h.sequences, List.mem_range'_1]
  omega

theorem RetainedWindow.get?_eq_none (h : RetainedWindow fmp4 key a lo l parts) {q : Nat}
    (hq : l < q) : parts.get? q = none := by
  refine Option.eq_none_iff_forall_ne_some.2 fun part hget => ?_
  have hin := h.mem_iff.1 ⟨(q, part), h.ascending.lookup_eq_some_iff.1 hget, rfl⟩
  omega

/-- Observing the sequences of the window finds the retained parts. -/
theorem RetainedWindow.observe (h : RetainedWindow fmp4 key a lo l parts)
    (nominalPartDurationMs : Nat) :
    (List.range' lo (l + 1 - lo)).map (observePart (some parts) nominalPartDurationMs) =
      parts.map (observed nominalPartDurationMs) := by
  rw [← h.sequences, List.map_map]
  refine List.map_congr_left fun entry hentry => ?_
  have hget : parts.get? entry.1 = some entry.2 := h.ascending.lookup_eq_some_iff.2 hentry
  simp only [Function.comp_apply, observePart, Option.bind_some, hget, observed, Option.any_some,
    Option.map_some, Option.getD_some]

/-- The first part is a window of its own. -/
theorem RetainedWindow.single {windowParts : Nat} {part : RetainedPartObservation}
    (hkey : part.keyframe = key a)
    (hsegment : part.fmp4SegmentId = if fmp4 then ofCount (keyframesUpTo key a a) else none) :
    RetainedWindow fmp4 key a (max a (a - (max windowParts 1 - 1))) a
      (LiveState.retain (RetainedParts.insert [] a part) a windowParts) := by
  have hlo : max a (a - (max windowParts 1 - 1)) = a := by omega
  have hretain : LiveState.retain (RetainedParts.insert [] a part) a windowParts = [(a, part)] := by
    refine LiveState.retain_eq_self fun entry hentry => ?_
    obtain rfl : entry = (a, part) := List.mem_singleton.1 hentry
    show a - (max windowParts 1 - 1) ≤ a
    omega
  rw [hlo, hretain]
  constructor
  case start_le => exact Nat.le_refl _
  case le_last => exact Nat.le_refl _
  case sequences =>
    rw [show a + 1 - a = 1 by omega]
    rfl
  case keyframe =>
    intro entry hentry
    obtain rfl := List.mem_singleton.1 hentry
    exact hkey
  case segment =>
    intro entry hentry
    obtain rfl := List.mem_singleton.1 hentry
    exact hsegment

/-- The next part is recorded behind the window, which moves on to end with it. -/
theorem RetainedWindow.record (h : RetainedWindow fmp4 key a lo l parts) {windowParts : Nat}
    (hlo : lo = max a (l - (max windowParts 1 - 1))) {part : RetainedPartObservation}
    (hkey : part.keyframe = key (l + 1))
    (hsegment : part.fmp4SegmentId = if fmp4 then ofCount (keyframesUpTo key a (l + 1)) else none) :
    RetainedWindow fmp4 key a (max a (l + 1 - (max windowParts 1 - 1))) (l + 1)
      (LiveState.retain (parts.insert (l + 1) part) (l + 1) windowParts) := by
  have hstart := h.start_le
  have hle := h.le_last
  have hinsert : parts.insert (l + 1) part = parts ++ [(l + 1, part)] := by
    rw [RetainedParts.insert_eq]
    refine insertAscending_last fun entry hentry => ?_
    have hin := h.mem_iff.1 ⟨entry, hentry, rfl⟩
    omega
  have hlast : (parts ++ [(l + 1, part)] : RetainedParts).lastKey = some (l + 1) := by
    rw [RetainedParts.lastKey, List.getLast?_concat]
    rfl
  have hasc : Ascending (parts ++ [(l + 1, part)]) := by
    refine List.pairwise_append.2 ⟨h.ascending, List.pairwise_singleton _ _, ?_⟩
    intro entry hentry last hmem
    obtain rfl := List.mem_singleton.1 hmem
    have hin := h.mem_iff.1 ⟨entry, hentry, rfl⟩
    show entry.1 < l + 1
    omega
  -- what leaves the window is a front part of the list
  have hretain : LiveState.retain (parts.insert (l + 1) part) (l + 1) windowParts =
      (parts ++ [(l + 1, part)]).filter fun entry =>
        decide (l + 1 - (max windowParts 1 - 1) ≤ entry.1) := by
    rw [hinsert, LiveState.retain, hlast, Option.getD_some, filter_eq_dropWhile]
    · congr 1
      funext entry
      rw [← decide_not, decide_eq_decide]
      exact Nat.not_le.symm
    · refine hasc.imp fun {x y} hlt hx => ?_
      simp only [decide_eq_true_eq] at hx ⊢
      omega
  have hmem : ∀ entry ∈ LiveState.retain (parts.insert (l + 1) part) (l + 1) windowParts,
      entry ∈ parts ∨ entry = (l + 1, part) := by
    intro entry hentry
    rw [hretain] at hentry
    exact (List.mem_append.1 (List.mem_of_mem_filter hentry)).imp_right List.mem_singleton.1
  constructor
  case start_le => exact Nat.le_max_left _ _
  case le_last => omega
  case sequences =>
    refine List.Pairwise.eq_of_mem_iff (r := (· < ·)) ?_ List.pairwise_lt_range' fun q => ?_
    · rw [hretain, List.pairwise_map]
      exact hasc.filter _
    · rw [hretain, List.mem_map, List.mem_range'_1]
      constructor
      · rintro ⟨entry, hentry, rfl⟩
        obtain ⟨hold, hkept⟩ := List.mem_filter.1 hentry
        simp only [decide_eq_true_eq] at hkept
        rcases List.mem_append.1 hold with hold | hnew
        · have hin := h.mem_iff.1 ⟨entry, hold, rfl⟩
          omega
        · obtain rfl := List.mem_singleton.1 hnew
          show _ ≤ l + 1 ∧ l + 1 < _
          omega
      · intro hq
        by_cases hlast' : q = l + 1
        · subst hlast'
          exact ⟨(l + 1, part), List.mem_filter.2 ⟨by simp, by simp⟩, rfl⟩
        · obtain ⟨entry, hentry, rfl⟩ := h.mem_iff.2 (show lo ≤ q ∧ q ≤ l by omega)
          exact ⟨entry, List.mem_filter.2 ⟨List.mem_append_left _ hentry, by simp; omega⟩, rfl⟩
  case keyframe =>
    intro entry hentry
    rcases hmem entry hentry with hold | rfl
    · exact h.keyframe entry hold
    · exact hkey
  case segment =>
    intro entry hentry
    rcases hmem entry hentry with hold | rfl
    · exact h.segment entry hold
    · exact hsegment

end Retained

end AvMesh.LiveCache
