/-
  AvMesh.LiveCache.Segments
  ─────────────────────────
  **THE SEGMENT OF AN fMP4 PART IS TAKEN WHEN THE PART ARRIVES.**

  `record_part_available` numbers segments with one running counter: a
  keyframe that is new opens the next segment, any other new part joins the
  one that is open.  So the segment of a part is the number of keyframes that
  arrived up to it, and not of those that precede it in the stream:

      sequence   0(key)  1  2(key)  3         0(key)  2(key)  1  3
      segment      0     0     1    1            0       1    1  1

  The segments are those of the increasing order exactly if every keyframe
  arrives before the parts behind it and after the parts in front of it.

  Main result: `recordArrivals_segments_iff`.
-/
import Mathlib.Data.Finset.Card
import AvMesh.LiveCache.Commit
import AvMesh.Lib.OrderedMap

namespace AvMesh.LiveCache

open AvMesh.Lib

/-! ## §1. Counting what comes before. -/

section Rank

variable {α : Type} {K S : Finset α} {f g : α → Nat} {k p : α}

/-- How many elements of `K` come no later than `p`, in the order of `f`. -/
def rank (K : Finset α) (f : α → Nat) (p : α) : Nat := (K.filter fun k => f k ≤ f p).card

/-- An element of `K` comes no later than `p` if and only if no more elements do up to it. -/
theorem rank_le_rank_iff (hk : k ∈ K) : rank K f k ≤ rank K f p ↔ f k ≤ f p := by
  constructor
  · intro hrank
    by_contra hlater
    -- up to `k` there is at least `k` itself more than up to `p`
    have hsub : K.filter (fun k' => f k' ≤ f p) ⊂ K.filter (fun k' => f k' ≤ f k) := by
      refine (Finset.ssubset_iff_of_subset fun k' hk' => ?_).2
        ⟨k, Finset.mem_filter.2 ⟨hk, Nat.le_refl _⟩, fun hmem => hlater (Finset.mem_filter.1 hmem).2⟩
      obtain ⟨hmem, hle⟩ := Finset.mem_filter.1 hk'
      exact Finset.mem_filter.2 ⟨hmem, by omega⟩
    have hlt := Finset.card_lt_card hsub
    simp only [rank] at hrank
    omega
  · intro hle
    refine Finset.card_le_card fun k' hk' => ?_
    obtain ⟨hmem, hle'⟩ := Finset.mem_filter.1 hk'
    exact Finset.mem_filter.2 ⟨hmem, by omega⟩

/-- Two orders count the same everywhere exactly if they place the elements of `K` alike. -/
theorem rank_eq_iff (hK : K ⊆ S) :
    (∀ p ∈ S, rank K f p = rank K g p) ↔ ∀ k ∈ K, ∀ p ∈ S, (f k ≤ f p ↔ g k ≤ g p) := by
  constructor
  · intro hrank k hk p hp
    have hf : rank K f k ≤ rank K f p ↔ f k ≤ f p := rank_le_rank_iff hk
    have hg : rank K g k ≤ rank K g p ↔ g k ≤ g p := rank_le_rank_iff hk
    rw [← hf, ← hg, hrank k (hK hk), hrank p hp]
  · intro horder p hp
    refine congrArg Finset.card (Finset.filter_congr fun k hk => ?_)
    exact horder k hk p hp

end Rank

/-! ## §2. The counter. -/

/-- The open segment once this many keyframes have opened one. -/
def ofCount : Nat → Option Nat
  | 0 => none
  | count + 1 => some count

/-- How many keyframes have opened a segment up to this one. -/
def toCount (segment : Option Nat) : Nat := segment.elim 0 (· + 1)

@[simp] theorem toCount_ofCount (count : Nat) : toCount (ofCount count) = count := by
  cases count <;> rfl

theorem ofCount_inj {a b : Nat} : ofCount a = ofCount b ↔ a = b := by
  constructor
  · intro h
    rw [← toCount_ofCount a, h, toCount_ofCount]
  · intro h
    rw [h]

/-- The segment of a new part. -/
def nextSegment (current : Option Nat) (keyframe keyframeSegments : Bool) : Option Nat :=
  if keyframeSegments && keyframe then
    some (match current with
      | some segmentId => satAdd segmentId 1
      | none => 0)
  else if keyframeSegments then current
  else none

theorem nextSegment_ofCount {count : Nat} (hcount : count ≤ u64Max) (keyframe : Bool) :
    nextSegment (ofCount count) keyframe true =
      ofCount (if keyframe then count + 1 else count) := by
  cases keyframe with
  | false => rfl
  | true =>
      cases count with
      | zero => rfl
      | succ count =>
          show some (satAdd count 1) = some (count + 1)
          rw [satAdd_of_le hcount]

/-! ## §3. One part. -/

namespace LiveState

/-- The retained parts of a stream. -/
def parts (s : LiveState) (streamId : UInt64) : RetainedParts :=
  (s.streamParts.lookup streamId).getD []

/-- The segment that is open. -/
def current (s : LiveState) (streamId : UInt64) : Option Nat :=
  s.streamCurrentFmp4Segment.lookup streamId

/-- The parts of the window that ends at the last part. -/
def retain (parts : RetainedParts) (sequence windowParts : Nat) : RetainedParts :=
  parts.dropWhile fun entry => entry.1 < parts.lastKey.getD sequence - (max windowParts 1 - 1)

section Record

variable (s : LiveState) (streamId : UInt64) (sequence bytes availableUnixUs : Nat)
  (durationMs : Option Nat) (keyframe keyframeSegments : Bool) (windowParts : Nat)

theorem current_fmp4Segment :
    (s.fmp4Segment streamId keyframe keyframeSegments).2.current streamId =
      if keyframeSegments && keyframe then
        nextSegment (s.current streamId) keyframe keyframeSegments
      else s.current streamId := by
  cases keyframe <;> cases keyframeSegments
  case true.true => exact AList.lookup_insert _
  all_goals rfl

theorem fst_fmp4Segment :
    (s.fmp4Segment streamId keyframe keyframeSegments).1 =
      nextSegment (s.current streamId) keyframe keyframeSegments := by
  cases keyframe <;> cases keyframeSegments <;> rfl

/-- A part that is there already changes neither the parts nor the counter. -/
theorem recordPartAvailable_known {part : RetainedPartObservation}
    (h : (s.parts streamId).get? sequence = some part) :
    (s.recordPartAvailable streamId sequence bytes availableUnixUs durationMs keyframe
        keyframeSegments windowParts).parts streamId =
      retain (s.parts streamId) sequence windowParts ∧
    (s.recordPartAvailable streamId sequence bytes availableUnixUs durationMs keyframe
        keyframeSegments windowParts).current streamId = s.current streamId := by
  rw [parts] at h
  cases durationMs with
  | none =>
      refine ⟨?_, ?_⟩
      · simp only [recordPartAvailable, parts, h, AList.lookup_insert, Option.getD_some]
        rfl
      · simp only [recordPartAvailable, current, h]
  | some durationMs =>
      refine ⟨?_, ?_⟩
      · simp only [recordPartAvailable, parts, h, AList.lookup_insert, Option.getD_some]
        rfl
      · simp only [recordPartAvailable, current, h]

/-- A new part takes its segment from the counter. -/
theorem recordPartAvailable_new (h : (s.parts streamId).get? sequence = none) :
    (s.recordPartAvailable streamId sequence bytes availableUnixUs durationMs keyframe
        keyframeSegments windowParts).parts streamId =
      retain ((s.parts streamId).insert sequence ⟨bytes, availableUnixUs, durationMs, keyframe,
        nextSegment (s.current streamId) keyframe keyframeSegments⟩) sequence windowParts ∧
    (s.recordPartAvailable streamId sequence bytes availableUnixUs durationMs keyframe
        keyframeSegments windowParts).current streamId =
      if keyframeSegments && keyframe then
        nextSegment (s.current streamId) keyframe keyframeSegments
      else s.current streamId := by
  rw [parts] at h
  cases durationMs with
  | none =>
      refine ⟨?_, ?_⟩
      · simp only [recordPartAvailable, parts, h, AList.lookup_insert, Option.getD_some,
          fst_fmp4Segment]
        rfl
      · simp only [recordPartAvailable, current, h]
        exact current_fmp4Segment s streamId keyframe keyframeSegments
  | some durationMs =>
      refine ⟨?_, ?_⟩
      · simp only [recordPartAvailable, parts, h, AList.lookup_insert, Option.getD_some,
          fst_fmp4Segment]
        rfl
      · simp only [recordPartAvailable, current, h]
        exact current_fmp4Segment _ streamId keyframe keyframeSegments

end Record

/-- Parts of one window are all retained. -/
theorem retain_eq_self {parts : RetainedParts} {sequence windowParts : Nat}
    (h : ∀ entry ∈ parts, parts.lastKey.getD sequence - (max windowParts 1 - 1) ≤ entry.1) :
    retain parts sequence windowParts = parts := by
  rw [retain, List.dropWhile_eq_self_iff]
  intro hpos
  have hle := h _ (List.get_mem parts ⟨0, hpos⟩)
  simpa using hle

end LiveState

theorem RetainedParts.insert_eq (parts : RetainedParts) (sequence : Nat)
    (part : RetainedPartObservation) :
    parts.insert sequence part = insertAscending parts sequence part := rfl

/-- The last key is the key of a part. -/
theorem RetainedParts.lastKey_mem {parts : RetainedParts} {sequence : Nat}
    (h : parts.lastKey = some sequence) : ∃ part, (sequence, part) ∈ parts := by
  obtain ⟨entry, hlast, rfl⟩ := Option.map_eq_some_iff.1 h
  exact ⟨entry.2, List.mem_of_getLast? hlast⟩

/-! ## §4. Parts as they arrive. -/

/-- A part that arrives, less its keyframe flag, which is the same at every arrival. -/
structure Arrival where
  sequence : UInt64
  bytes : Nat
  availableUnixUs : Nat
  durationMs : Option Nat

/-- `record_part_available` for one fMP4 part after the other. -/
def recordArrivals (keyframe : Nat → Bool) (windowParts : Nat) (streamId : UInt64)
    (s : LiveState) (arrivals : List Arrival) : LiveState :=
  arrivals.foldl (fun s arrival =>
    s.recordPartAvailable streamId arrival.sequence.toNat arrival.bytes arrival.availableUnixUs
      arrival.durationMs (keyframe arrival.sequence.toNat) true windowParts) s

/-- The sequences in the order of their arrival. -/
def sequences (arrivals : List Arrival) : List Nat := arrivals.map (·.sequence.toNat)

/-- The keyframes among these sequences. -/
def keyframes (keyframe : Nat → Bool) (sequences : List Nat) : Finset Nat :=
  sequences.toFinset.filter fun sequence => keyframe sequence = true

/-- How many keyframes have arrived when a part first arrives. -/
def arrivedKeyframes (keyframe : Nat → Bool) (sequences : List Nat) (sequence : Nat) : Nat :=
  rank (keyframes keyframe sequences) (fun k => sequences.idxOf k) sequence

theorem mem_keyframes {keyframe : Nat → Bool} {sequences : List Nat} {k : Nat} :
    k ∈ keyframes keyframe sequences ↔ k ∈ sequences ∧ keyframe k = true := by
  rw [keyframes, Finset.mem_filter, List.mem_toFinset]

section Append

variable {keyframe : Nat → Bool} {sequences : List Nat} {next : Nat}

/-- A later arrival does not change how many had arrived. -/
theorem arrivedKeyframes_append {p : Nat} (hp : p ∈ sequences) :
    arrivedKeyframes keyframe (sequences ++ [next]) p = arrivedKeyframes keyframe sequences p := by
  simp only [arrivedKeyframes, rank]
  refine congrArg Finset.card (Finset.ext fun k => ?_)
  simp only [Finset.mem_filter, mem_keyframes, List.mem_append, List.mem_singleton]
  have hidx := List.idxOf_lt_length_iff.2 hp
  by_cases hk : k ∈ sequences
  · rw [List.idxOf_append_of_mem hk, List.idxOf_append_of_mem hp]
    simp only [hk, true_or]
  · -- the new sequence stands behind all others
    rw [List.idxOf_append_of_notMem hk, List.idxOf_append_of_mem hp]
    simp only [hk, false_or, false_and, iff_false]
    intro h
    omega

theorem keyframes_append :
    keyframes keyframe (sequences ++ [next]) =
      if keyframe next then insert next (keyframes keyframe sequences)
      else keyframes keyframe sequences := by
  ext k
  by_cases hnext : keyframe next = true
  · rw [if_pos hnext, Finset.mem_insert, mem_keyframes, mem_keyframes, List.mem_append,
      List.mem_singleton]
    constructor
    · rintro ⟨hold | rfl, hkey⟩
      · exact Or.inr ⟨hold, hkey⟩
      · exact Or.inl rfl
    · rintro (rfl | ⟨hold, hkey⟩)
      · exact ⟨Or.inr rfl, hnext⟩
      · exact ⟨Or.inl hold, hkey⟩
  · rw [if_neg hnext, mem_keyframes, mem_keyframes, List.mem_append, List.mem_singleton]
    constructor
    · rintro ⟨hold | rfl, hkey⟩
      · exact ⟨hold, hkey⟩
      · exact absurd hkey hnext
    · rintro ⟨hold, hkey⟩
      exact ⟨Or.inl hold, hkey⟩

theorem keyframes_append_known (hnext : next ∈ sequences) :
    keyframes keyframe (sequences ++ [next]) = keyframes keyframe sequences := by
  rw [keyframes_append]
  split
  · next hkey => exact Finset.insert_eq_self.2 (mem_keyframes.2 ⟨hnext, hkey⟩)
  · rfl

theorem card_keyframes_new (hnext : next ∉ sequences) :
    (keyframes keyframe (sequences ++ [next])).card =
      if keyframe next then (keyframes keyframe sequences).card + 1
      else (keyframes keyframe sequences).card := by
  rw [keyframes_append]
  split
  · exact Finset.card_insert_of_notMem fun hmem => hnext (mem_keyframes.1 hmem).1
  · rfl

/-- A new part has all keyframes so far before it, and itself if it is one. -/
theorem arrivedKeyframes_new (hnext : next ∉ sequences) :
    arrivedKeyframes keyframe (sequences ++ [next]) next =
      (keyframes keyframe (sequences ++ [next])).card := by
  simp only [arrivedKeyframes, rank]
  refine congrArg Finset.card (Finset.filter_true_of_mem fun k hk => ?_)
  have hle : (sequences ++ [next]).idxOf k < (sequences ++ [next]).length :=
    List.idxOf_lt_length_iff.2 (mem_keyframes.1 hk).1
  rw [List.length_append, List.length_singleton] at hle
  rw [List.idxOf_append_of_notMem hnext, List.idxOf_cons_self]
  omega

end Append

/-- What the state has recorded of the parts that have arrived. -/
structure Recorded (keyframe : Nat → Bool) (streamId : UInt64) (sequences : List Nat)
    (s : LiveState) : Prop where
  ascending : Ascending (s.parts streamId)
  mem_iff : ∀ sequence, (∃ part, (sequence, part) ∈ s.parts streamId) ↔ sequence ∈ sequences
  segment : ∀ sequence part, (sequence, part) ∈ s.parts streamId →
    part.fmp4SegmentId = ofCount (arrivedKeyframes keyframe sequences sequence)
  current : s.current streamId = ofCount (keyframes keyframe sequences).card

/-- All sequences lie within one retention window. -/
def OneWindow (windowParts : Nat) (sequences : List Nat) : Prop :=
  ∀ p ∈ sequences, ∀ q ∈ sequences, p < q + max windowParts 1

section Arrive

variable {keyframe : Nat → Bool} {streamId : UInt64} {sequences : List Nat} {s : LiveState}

theorem Recorded.get_eq_none (h : Recorded keyframe streamId sequences s) {next : Nat}
    (hnext : next ∉ sequences) : (s.parts streamId).get? next = none := by
  refine Option.eq_none_iff_forall_ne_some.2 fun part hpart => hnext ?_
  exact (h.mem_iff next).1 ⟨part, h.ascending.lookup_eq_some_iff.1 hpart⟩

/-- Nothing leaves the window while all parts fit into it. -/
theorem retain_of_oneWindow {parts : RetainedParts} {sequences : List Nat} {next windowParts : Nat}
    (hwindow : OneWindow windowParts sequences)
    (hparts : ∀ entry ∈ parts, entry.1 ∈ sequences) (hnext : next ∈ sequences) :
    LiveState.retain parts next windowParts = parts := by
  refine LiveState.retain_eq_self fun entry hentry => ?_
  have hlast : parts.lastKey.getD next ∈ sequences := by
    cases hlast : parts.lastKey with
    | none => exact hnext
    | some last =>
        obtain ⟨part, hpart⟩ := RetainedParts.lastKey_mem hlast
        exact hparts _ hpart
  have hlt := hwindow _ hlast _ (hparts entry hentry)
  omega

/-- **One arrival.** -/
theorem Recorded.arrive (h : Recorded keyframe streamId sequences s) (arrival : Arrival)
    {windowParts : Nat} (hwindow : OneWindow windowParts (sequences ++ [arrival.sequence.toNat]))
    (hcount : arrival.sequence.toNat ∉ sequences → (keyframes keyframe sequences).card ≤ u64Max) :
    Recorded keyframe streamId (sequences ++ [arrival.sequence.toNat])
      (s.recordPartAvailable streamId arrival.sequence.toNat arrival.bytes
        arrival.availableUnixUs arrival.durationMs (keyframe arrival.sequence.toNat) true
        windowParts) := by
  have hold : ∀ entry ∈ s.parts streamId, entry.1 ∈ sequences ++ [arrival.sequence.toNat] :=
    fun entry hentry => List.mem_append_left _ ((h.mem_iff _).1 ⟨entry.2, hentry⟩)
  have hself : arrival.sequence.toNat ∈ sequences ++ [arrival.sequence.toNat] :=
    List.mem_append_right _ (List.mem_singleton.2 rfl)
  by_cases hknown : arrival.sequence.toNat ∈ sequences
  · -- it is there already: the parts and the counter stay
    obtain ⟨part, hpart⟩ := (h.mem_iff _).2 hknown
    obtain ⟨hparts, hcurrent⟩ := s.recordPartAvailable_known streamId arrival.sequence.toNat
      arrival.bytes arrival.availableUnixUs arrival.durationMs (keyframe arrival.sequence.toNat)
      true windowParts (h.ascending.lookup_eq_some_iff.2 hpart)
    rw [retain_of_oneWindow hwindow hold hself] at hparts
    constructor
    case ascending =>
      rw [hparts]
      exact h.ascending
    case mem_iff =>
      intro sequence
      rw [hparts, h.mem_iff, List.mem_append, List.mem_singleton]
      exact ⟨Or.inl, fun hor => hor.elim id fun heq => heq ▸ hknown⟩
    case segment =>
      intro sequence part hpart
      rw [hparts] at hpart
      rw [arrivedKeyframes_append ((h.mem_iff _).1 ⟨part, hpart⟩)]
      exact h.segment sequence part hpart
    case current =>
      rw [hcurrent, h.current, keyframes_append_known hknown]
  · obtain ⟨hparts, hcurrent⟩ := s.recordPartAvailable_new streamId arrival.sequence.toNat
      arrival.bytes arrival.availableUnixUs arrival.durationMs (keyframe arrival.sequence.toNat)
      true windowParts (h.get_eq_none hknown)
    rw [h.current, nextSegment_ofCount (hcount hknown), ← card_keyframes_new hknown] at hparts hcurrent
    rw [RetainedParts.insert_eq, retain_of_oneWindow hwindow ?_ hself] at hparts
    · refine ⟨?_, ?_, ?_, ?_⟩
      · rw [hparts]
        exact h.ascending.insert fun part hpart => hknown ((h.mem_iff _).1 ⟨part, hpart⟩)
      · intro sequence
        rw [hparts, List.mem_append, List.mem_singleton, ← h.mem_iff]
        constructor
        · rintro ⟨part, hpart⟩
          rcases mem_insertAscending.1 hpart with heq | hpart
          · exact Or.inr (Prod.mk.inj heq).1
          · exact Or.inl ⟨part, hpart⟩
        · rintro (⟨part, hpart⟩ | rfl)
          · exact ⟨part, mem_insertAscending.2 (Or.inr hpart)⟩
          · exact ⟨_, mem_insertAscending.2 (Or.inl rfl)⟩
      · intro sequence part hpart
        rw [hparts] at hpart
        rcases mem_insertAscending.1 hpart with heq | hpart
        · obtain ⟨rfl, rfl⟩ := Prod.mk.inj heq
          rw [arrivedKeyframes_new hknown]
        · rw [arrivedKeyframes_append ((h.mem_iff _).1 ⟨part, hpart⟩)]
          exact h.segment sequence part hpart
      · rw [hcurrent, card_keyframes_new hknown]
        cases keyframe arrival.sequence.toNat <;> rfl
    · intro entry hentry
      rcases mem_insertAscending.1 hentry with rfl | hentry
      · exact hself
      · exact hold entry hentry

/-- There are fewer keyframes than sequences, so the counter does not saturate. -/
theorem card_keyframes_le (arrivals : List Arrival) {next : UInt64}
    (hnext : next.toNat ∉ LiveCache.sequences arrivals) :
    (keyframes keyframe (LiveCache.sequences arrivals)).card ≤ u64Max := by
  have hsub : keyframes keyframe (LiveCache.sequences arrivals) ⊆
      (Finset.range (2 ^ 64)).erase next.toNat := by
    intro k hk
    obtain ⟨hmem, _⟩ := mem_keyframes.1 hk
    refine Finset.mem_erase.2 ⟨fun heq => hnext (heq ▸ hmem), Finset.mem_range.2 ?_⟩
    obtain ⟨arrival, _, rfl⟩ := List.mem_map.1 hmem
    exact arrival.sequence.toNat_lt
  have hcard := Finset.card_le_card hsub
  rw [Finset.card_erase_of_mem (Finset.mem_range.2 next.toNat_lt), Finset.card_range] at hcard
  simpa [u64Max] using hcard

/-- The stream has no parts and no open segment, as at the start of an epoch. -/
structure FreshStream (streamId : UInt64) (s : LiveState) : Prop where
  parts : s.parts streamId = []
  current : s.current streamId = none

/-- **Any order of arrival.** -/
theorem recordArrivals_recorded (hfresh : FreshStream streamId s) {windowParts : Nat}
    (arrivals : List Arrival) (hwindow : OneWindow windowParts (LiveCache.sequences arrivals)) :
    Recorded keyframe streamId (LiveCache.sequences arrivals)
      (recordArrivals keyframe windowParts streamId s arrivals) := by
  induction arrivals using List.reverseRecOn with
  | nil =>
      constructor
      case ascending =>
        show Ascending (s.parts streamId)
        rw [hfresh.parts]
        exact List.Pairwise.nil
      case mem_iff =>
        intro sequence
        show (∃ part, (sequence, part) ∈ s.parts streamId) ↔ sequence ∈ []
        simp [hfresh.parts]
      case segment =>
        intro sequence part hpart
        change (sequence, part) ∈ s.parts streamId at hpart
        rw [hfresh.parts] at hpart
        cases hpart
      case current => exact hfresh.current
  | append_singleton arrivals arrival ih =>
      have hsequences : LiveCache.sequences (arrivals ++ [arrival]) =
          LiveCache.sequences arrivals ++ [arrival.sequence.toNat] := List.map_append
      rw [hsequences] at hwindow ⊢
      have hbefore : OneWindow windowParts (LiveCache.sequences arrivals) := fun p hp q hq =>
        hwindow p (List.mem_append_left _ hp) q (List.mem_append_left _ hq)
      have hrun : recordArrivals keyframe windowParts streamId s (arrivals ++ [arrival]) =
          (recordArrivals keyframe windowParts streamId s arrivals).recordPartAvailable streamId
            arrival.sequence.toNat arrival.bytes arrival.availableUnixUs arrival.durationMs
            (keyframe arrival.sequence.toNat) true windowParts := List.foldl_append
      rw [hrun]
      exact (ih hbefore).arrive arrival hwindow (card_keyframes_le arrivals)

end Arrive

/-! ## §5. The segments of the increasing order. -/

/-- The segment recorded for a sequence. -/
def segmentOf (s : LiveState) (streamId : UInt64) (sequence : Nat) : Option (Option Nat) :=
  ((s.parts streamId).get? sequence).map (·.fmp4SegmentId)

theorem Recorded.segmentOf_eq {keyframe : Nat → Bool} {streamId : UInt64} {sequences : List Nat}
    {s : LiveState} (h : Recorded keyframe streamId sequences s) (sequence : Nat) :
    segmentOf s streamId sequence =
      if sequence ∈ sequences then some (ofCount (arrivedKeyframes keyframe sequences sequence))
      else none := by
  by_cases hmem : sequence ∈ sequences
  · obtain ⟨part, hpart⟩ := (h.mem_iff sequence).2 hmem
    have hget : (s.parts streamId).get? sequence = some part :=
      h.ascending.lookup_eq_some_iff.2 hpart
    rw [if_pos hmem, segmentOf, hget, Option.map_some, h.segment sequence part hpart]
  · rw [if_neg hmem, segmentOf, h.get_eq_none hmem, Option.map_none]

theorem idxOf_le_iff_of_increasing {l : List Nat} (h : l.Pairwise (· < ·)) {p q : Nat}
    (hp : p ∈ l) (hq : q ∈ l) : l.idxOf p ≤ l.idxOf q ↔ p ≤ q := by
  induction l with
  | nil => cases hp
  | cons first rest ih =>
      obtain ⟨hfirst, hrest⟩ := List.pairwise_cons.1 h
      by_cases hp' : p = first
      · subst hp'
        rw [List.idxOf_cons_self]
        refine ⟨fun _ => ?_, fun _ => Nat.zero_le _⟩
        rcases List.mem_cons.1 hq with rfl | hq
        · exact Nat.le_refl _
        · exact Nat.le_of_lt (hfirst q hq)
      · have hp := (List.mem_cons.1 hp).resolve_left hp'
        have hlt := hfirst p hp
        by_cases hq' : q = first
        · subst hq'
          rw [List.idxOf_cons_self, List.idxOf_cons_ne _ (Ne.symm hp')]
          omega
        · have hq := (List.mem_cons.1 hq).resolve_left hq'
          rw [List.idxOf_cons_ne _ (Ne.symm hp'), List.idxOf_cons_ne _ (Ne.symm hq')]
          rw [Nat.succ_le_succ_iff]
          exact ih hrest hp hq

/-- The number of segments up to that of a sequence, none before the first. -/
def segmentCount (s : LiveState) (streamId : UInt64) (sequence : Nat) : Nat :=
  toCount ((segmentOf s streamId sequence).getD none)

/-- The segments are those of the increasing order: they do not decrease along the sequences, and
they increase exactly at keyframes. -/
structure SegmentedInOrder (keyframe : Nat → Bool) (streamId : UInt64) (sequences : List Nat)
    (s increasing : LiveState) : Prop where
  same : ∀ sequence, segmentOf s streamId sequence = segmentOf increasing streamId sequence
  monotone : ∀ p ∈ sequences, ∀ q ∈ sequences, p ≤ q →
    segmentCount s streamId p ≤ segmentCount s streamId q
  jumps : ∀ p ∈ sequences, ∀ q ∈ sequences, p < q → (∀ r ∈ sequences, ¬ (p < r ∧ r < q)) →
    (segmentCount s streamId p < segmentCount s streamId q ↔ keyframe q = true)

/-- Every keyframe first arrives before the parts behind it and after those in front of it. -/
def KeyframesInPlace (keyframe : Nat → Bool) (sequences : List Nat) : Prop :=
  ∀ k ∈ sequences, keyframe k = true → ∀ p ∈ sequences,
    (sequences.idxOf k < sequences.idxOf p ↔ k < p)

section Order

variable {keyframe : Nat → Bool} {sequences increasing : List Nat}

theorem keyframesInPlace_iff_le :
    KeyframesInPlace keyframe sequences ↔
      ∀ k ∈ keyframes keyframe sequences, ∀ p ∈ sequences.toFinset,
        (sequences.idxOf k ≤ sequences.idxOf p ↔ k ≤ p) := by
  have hpair : ∀ k ∈ sequences, ∀ p ∈ sequences,
      ((sequences.idxOf k < sequences.idxOf p ↔ k < p) ↔
        (sequences.idxOf k ≤ sequences.idxOf p ↔ k ≤ p)) := by
    intro k hk p hp
    by_cases heq : k = p
    · subst heq
      simp
    · have hidx : sequences.idxOf k ≠ sequences.idxOf p := fun h => heq ((List.idxOf_inj hk).1 h)
      omega
  constructor
  · intro h k hk p hp
    obtain ⟨hmem, hkey⟩ := mem_keyframes.1 hk
    exact (hpair k hmem p (List.mem_toFinset.1 hp)).1 (h k hmem hkey p (List.mem_toFinset.1 hp))
  · intro h k hmem hkey p hp
    exact (hpair k hmem p hp).2 (h k (mem_keyframes.2 ⟨hmem, hkey⟩) p (List.mem_toFinset.2 hp))

theorem keyframes_subset : keyframes keyframe sequences ⊆ sequences.toFinset :=
  Finset.filter_subset _ _

/-- In the increasing order, the keyframes that have arrived are those in front. -/
theorem arrivedKeyframes_increasing (hincreasing : increasing.Pairwise (· < ·)) {p : Nat}
    (hp : p ∈ increasing) :
    arrivedKeyframes keyframe increasing p = rank (keyframes keyframe increasing) id p := by
  refine (rank_eq_iff keyframes_subset).2 (fun k hk q hq => ?_) p (List.mem_toFinset.2 hp)
  exact idxOf_le_iff_of_increasing hincreasing (mem_keyframes.1 hk).1 (List.mem_toFinset.1 hq)

theorem rank_id_mono (K : Finset Nat) {p q : Nat} (h : p ≤ q) : rank K id p ≤ rank K id q := by
  refine Finset.card_le_card fun k hk => ?_
  obtain ⟨hmem, hle⟩ := Finset.mem_filter.1 hk
  exact Finset.mem_filter.2 ⟨hmem, Nat.le_trans hle h⟩

/-- From one sequence to the next, the count grows exactly at a keyframe. -/
theorem rank_id_lt_iff {p q : Nat} (hq : q ∈ sequences) (hlt : p < q)
    (hnext : ∀ r ∈ sequences, ¬ (p < r ∧ r < q)) :
    rank (keyframes keyframe sequences) id p < rank (keyframes keyframe sequences) id q ↔
      keyframe q = true := by
  constructor
  · intro hcount
    by_contra hkey
    refine Nat.lt_irrefl _ (Nat.lt_of_lt_of_le hcount (Finset.card_le_card fun k hk => ?_))
    obtain ⟨hmem, hle⟩ := Finset.mem_filter.1 hk
    obtain ⟨hsequence, hkeyframe⟩ := mem_keyframes.1 hmem
    refine Finset.mem_filter.2 ⟨hmem, ?_⟩
    by_contra hp
    simp only [id] at hle hp
    -- only `q` itself is left between `p` and `q`
    have heq : k = q := by
      by_contra hne
      exact hnext k hsequence ⟨by omega, by omega⟩
    exact hkey (heq ▸ hkeyframe)
  · intro hkey
    have hmem := mem_keyframes.2 ⟨hq, hkey⟩
    have hle : ¬ rank (keyframes keyframe sequences) id q ≤
        rank (keyframes keyframe sequences) id p := by
      rw [rank_le_rank_iff hmem]
      simp only [id]
      omega
    omega

end Order

/-- **THE SEGMENTS OF AN ARRIVAL ORDER ARE THOSE OF THE INCREASING ORDER EXACTLY IF EVERY KEYFRAME
ARRIVES IN ITS PLACE.** -/
theorem recordArrivals_segments_iff (keyframe : Nat → Bool) (windowParts : Nat)
    (streamId : UInt64) (s : LiveState) (hfresh : FreshStream streamId s)
    (arrivals increasing : List Arrival)
    (hincreasing : (sequences increasing).Pairwise (· < ·))
    (hsame : ∀ sequence, sequence ∈ sequences arrivals ↔ sequence ∈ sequences increasing)
    (hwindow : OneWindow windowParts (sequences arrivals)) :
    SegmentedInOrder keyframe streamId (sequences arrivals)
        (recordArrivals keyframe windowParts streamId s arrivals)
        (recordArrivals keyframe windowParts streamId s increasing) ↔
      KeyframesInPlace keyframe (sequences arrivals) := by
  have hwindow' : OneWindow windowParts (sequences increasing) := fun p hp q hq =>
    hwindow p ((hsame p).2 hp) q ((hsame q).2 hq)
  have hrun : Recorded keyframe streamId (sequences arrivals) _ :=
    recordArrivals_recorded hfresh arrivals hwindow
  have hrun' : Recorded keyframe streamId (sequences increasing) _ :=
    recordArrivals_recorded hfresh increasing hwindow'
  have hkeyframes : keyframes keyframe (sequences increasing) =
      keyframes keyframe (sequences arrivals) := by
    ext k
    rw [mem_keyframes, mem_keyframes, hsame]
  -- both runs number the parts by keyframes, one as they arrive, one as they stand
  have hnumber : ∀ sequence ∈ sequences arrivals,
      segmentOf (recordArrivals keyframe windowParts streamId s increasing) streamId sequence =
        some (ofCount (rank (keyframes keyframe (sequences arrivals)) id sequence)) := by
    intro sequence hmem
    rw [hrun'.segmentOf_eq, if_pos ((hsame sequence).1 hmem),
      arrivedKeyframes_increasing hincreasing ((hsame sequence).1 hmem), hkeyframes]
  have hranks : (∀ sequence,
      segmentOf (recordArrivals keyframe windowParts streamId s arrivals) streamId sequence =
        segmentOf (recordArrivals keyframe windowParts streamId s increasing) streamId sequence) ↔
      KeyframesInPlace keyframe (sequences arrivals) := by
    rw [keyframesInPlace_iff_le, ← rank_eq_iff keyframes_subset]
    constructor
    · intro hsegments p hp
      have hp := List.mem_toFinset.1 hp
      have hsegment := hsegments p
      rw [hnumber p hp, hrun.segmentOf_eq, if_pos hp] at hsegment
      exact ofCount_inj.1 (Option.some.inj hsegment)
    · intro hcounts sequence
      by_cases hmem : sequence ∈ sequences arrivals
      · rw [hnumber sequence hmem, hrun.segmentOf_eq, if_pos hmem, arrivedKeyframes,
          hcounts sequence (List.mem_toFinset.2 hmem)]
        rfl
      · rw [hrun.segmentOf_eq, hrun'.segmentOf_eq, if_neg hmem,
          if_neg fun h => hmem ((hsame sequence).2 h)]
  refine ⟨fun h => hranks.1 h.same, fun h => ?_⟩
  have hsegments := hranks.2 h
  have hcount : ∀ sequence ∈ sequences arrivals,
      segmentCount (recordArrivals keyframe windowParts streamId s arrivals) streamId sequence =
        rank (keyframes keyframe (sequences arrivals)) id sequence := by
    intro sequence hmem
    rw [segmentCount, hsegments, hnumber sequence hmem, Option.getD_some, toCount_ofCount]
  refine ⟨hsegments, fun p hp q hq hle => ?_, fun p hp q hq hlt hnext => ?_⟩
  · rw [hcount p hp, hcount q hq]
    exact rank_id_mono _ hle
  · rw [hcount p hp, hcount q hq]
    exact rank_id_lt_iff hq hlt hnext

/-! ## §6. Two arrival orders. -/

/-- Parts of 200 ms that arrive in this order. -/
def arrivalsOf (order : List UInt64) : List Arrival :=
  order.map fun sequence => ⟨sequence, 10, 0, some 200⟩

theorem freshStream_new : FreshStream 77 (LiveState.new 0) := ⟨rfl, rfl⟩

/-- A part that overtakes its keyframe has no segment. -/
theorem delta_overtakes_keyframe :
    ¬ SegmentedInOrder (fun sequence => sequence == 0) 77 (sequences (arrivalsOf [1, 0]))
      (recordArrivals (fun sequence => sequence == 0) 30 77 (.new 0) (arrivalsOf [1, 0]))
      (recordArrivals (fun sequence => sequence == 0) 30 77 (.new 0) (arrivalsOf [0, 1])) := by
  intro h
  have hlate : segmentOf (recordArrivals (fun sequence => sequence == 0) 30 77 (.new 0)
      (arrivalsOf [1, 0])) 77 1 = some none := by decide +kernel
  have horder : segmentOf (recordArrivals (fun sequence => sequence == 0) 30 77 (.new 0)
      (arrivalsOf [0, 1])) 77 1 = some (some 0) := by decide +kernel
  have heq := h.same 1
  rw [hlate, horder] at heq
  cases heq

/-- Parts between two keyframes may change places, and come twice. -/
theorem recordArrivals_segments_iff_gop :
    FreshStream 77 (LiveState.new 0) ∧
      SegmentedInOrder (fun sequence => sequence == 0 || sequence == 3) 77
        (sequences (arrivalsOf [0, 2, 1, 2, 3]))
        (recordArrivals (fun sequence => sequence == 0 || sequence == 3) 30 77 (.new 0)
          (arrivalsOf [0, 2, 1, 2, 3]))
        (recordArrivals (fun sequence => sequence == 0 || sequence == 3) 30 77 (.new 0)
          (arrivalsOf [0, 1, 2, 3])) := by
  have hplace : KeyframesInPlace (fun sequence => sequence == 0 || sequence == 3)
      (sequences (arrivalsOf [0, 2, 1, 2, 3])) := by
    unfold KeyframesInPlace
    decide
  have hwindow : OneWindow 30 (sequences (arrivalsOf [0, 2, 1, 2, 3])) := by
    unfold OneWindow
    decide
  have hsame : ∀ sequence, sequence ∈ sequences (arrivalsOf [0, 2, 1, 2, 3]) ↔
      sequence ∈ sequences (arrivalsOf [0, 1, 2, 3]) := by
    intro sequence
    show sequence ∈ [0, 2, 1, 2, 3] ↔ sequence ∈ [0, 1, 2, 3]
    simp only [List.mem_cons, List.not_mem_nil, or_false]
    omega
  exact ⟨freshStream_new, (recordArrivals_segments_iff _ 30 77 (.new 0) freshStream_new
    (arrivalsOf [0, 2, 1, 2, 3]) (arrivalsOf [0, 1, 2, 3]) (by decide) hsame hwindow).2 hplace⟩

end AvMesh.LiveCache
