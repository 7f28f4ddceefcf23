/-
  AvMesh.UdpFec.HalfRange
  ───────────────────────
  **TWO COMPARISONS, ONE DISTANCE** (`BoundedSequenceTracker`, src/udp_fec.rs).

  `observe` compares a number twice: with `highest_seen`, to move it, and with
  `next_expected`, to tell a packet ahead from a late one.  The two reference
  points are one apart, so the half-spaces ahead of them differ in one number:
  the one exactly 2^31 ahead of the highest seen is ahead of the expected one
  only.

    • `observe_bounded`    — the size of the missing set, in every run,
    • `observe_consistent` — the two reference points stay one apart exactly in
                             the runs that never reach this number.
-/
import AvMesh.UdpFec.Receiver
import Mathlib.Data.List.Induction

namespace AvMesh.UdpFec

open AvMesh.Lib

/-! ## §1. Runs of the tracker. -/

/-- The tracker after it observed the numbers. -/
def observeEach (maxTrackedGaps : UInt64) (sequences : List UInt32) : BoundedSequenceTracker :=
  sequences.foldl (fun t sequence => t.observe sequence maxTrackedGaps) {}

theorem observeEach_append_singleton (maxTrackedGaps : UInt64) (sequences : List UInt32)
    (sequence : UInt32) :
    observeEach maxTrackedGaps (sequences ++ [sequence]) =
      (observeEach maxTrackedGaps sequences).observe sequence maxTrackedGaps := by
  unfold observeEach
  rw [List.foldl_append, List.foldl_cons, List.foldl_nil]

/-- The missing set is within its limit and is counted. -/
structure MissingBounded (maxTrackedGaps : UInt64) (t : BoundedSequenceTracker) : Prop where
  bounded : t.missing.card ≤ maxTrackedGaps.toNat
  counted : t.stats.missing = t.missing.card

/-- The tracker expects the number after the highest it has seen. -/
structure Consistent (maxTrackedGaps : UInt64) (t : BoundedSequenceTracker) : Prop
    extends MissingBounded maxTrackedGaps t where
  expected : t.nextExpected = t.stats.highestSeen.map (· + 1)

/-- The number is exactly half the sequence space away from the highest seen. -/
def HalfRangeAhead (t : BoundedSequenceTracker) (sequence : UInt32) : Prop :=
  ∃ highest, t.stats.highestSeen = some highest ∧ sequence = highest + 2147483648

/-! ## §2. The missing set. -/

theorem card_gapSequences_le (first : UInt32) (tracked : Nat) :
    (gapSequences first tracked).toFinset.card ≤ tracked := by
  have hcard := List.toFinset_card_le (gapSequences first tracked)
  have hlength : (gapSequences first tracked).length = tracked := by
    unfold gapSequences
    rw [List.length_map, List.length_range]
  omega

/-- One call keeps the missing set within its limit. -/
theorem MissingBounded.observe {maxTrackedGaps : UInt64} {t : BoundedSequenceTracker}
    (h : MissingBounded maxTrackedGaps t) (sequence : UInt32) :
    MissingBounded maxTrackedGaps (t.observe sequence maxTrackedGaps) := by
  unfold BoundedSequenceTracker.observe
  dsimp only
  split
  · -- the first number of a flow leaves set and count as they are
    exact ⟨h.bounded, h.counted⟩
  next expected _ =>
    split
    -- a jump forgets the old gaps and keeps at most the limit of new ones
    · refine ⟨?_, rfl⟩
      show (if 0 < sequence - expected then _ else _ : Finset UInt32).card ≤ _
      split
      · have hcard := card_gapSequences_le
          (sequence - UInt32.ofNat (min (sequence - expected).toNat maxTrackedGaps.toNat))
          (min (sequence - expected).toNat maxTrackedGaps.toNat)
        omega
      · exact h.bounded
    -- a late number can only fill a gap
    · refine ⟨?_, rfl⟩
      show (t.missing.erase sequence).card ≤ _
      have hcard := Finset.card_erase_le (s := t.missing) (a := sequence)
      have hbounded := h.bounded
      omega

/-- **The missing set** holds at most `maxTrackedGaps` numbers after every run, and
`stats.missing` is its size. -/
theorem observe_bounded (maxTrackedGaps : UInt64) (sequences : List UInt32) :
    MissingBounded maxTrackedGaps (observeEach maxTrackedGaps sequences) := by
  induction sequences using List.reverseRecOn with
  | nil => exact ⟨Nat.zero_le _, rfl⟩
  | append_singleton sequences sequence ih =>
      rw [observeEach_append_singleton]
      exact ih.observe sequence

/-! ## §3. The two reference points. -/

/-- The half-space ahead, in numbers: `a` lies less than 2^31 after `b`, modulo 2^32. -/
theorem isAhead_sub_iff (a b : UInt32) :
    isAhead (a - b) = true ↔ (4294967296 - b.toNat + a.toNat) % 4294967296 ≤ 2147483647 := by
  unfold isAhead
  rw [decide_eq_true_eq, UInt32.le_iff_toNat_le, UInt32.toNat_sub]
  rfl

/-- **The half-range distance** is the one on which the comparisons disagree: ahead of `b + 1`
but not of `b`.  Repeating `b` is the converse, and leaves both reference points in place. -/
theorem isAhead_succ_iff (a b : UInt32) :
    isAhead (a - (b + 1)) = true ↔
      a = b + 2147483648 ∨ (isAhead (a - b) = true ∧ a ≠ b) := by
  have ha := a.toNat_lt
  have hb := b.toNat_lt
  have hsucc : (b + 1).toNat = (b.toNat + 1) % 4294967296 := UInt32.toNat_add b 1
  have hhalf : (b + 2147483648).toNat = (b.toNat + 2147483648) % 4294967296 :=
    UInt32.toNat_add b 2147483648
  rw [isAhead_sub_iff, isAhead_sub_iff, hsucc, Ne, ← UInt32.toNat_inj, ← UInt32.toNat_inj, hhalf]
  omega

theorem not_isAhead_half (b : UInt32) : ¬ isAhead (b + 2147483648 - b) = true := by
  have hb := b.toNat_lt
  have hhalf : (b + 2147483648).toNat = (b.toNat + 2147483648) % 4294967296 :=
    UInt32.toNat_add b 2147483648
  rw [isAhead_sub_iff, hhalf]
  omega

theorem half_ne_self (b : UInt32) : b + 2147483648 ≠ b := by
  have hb := b.toNat_lt
  have hhalf : (b + 2147483648).toNat = (b.toNat + 2147483648) % 4294967296 :=
    UInt32.toNat_add b 2147483648
  rw [Ne, ← UInt32.toNat_inj, hhalf]
  omega

section Step

variable {maxTrackedGaps : UInt64} {t : BoundedSequenceTracker} {sequence : UInt32}

/-- The two reference points after a call, from those before it. -/
theorem highestSeen_observe : (t.observe sequence maxTrackedGaps).stats.highestSeen =
    some (match t.stats.highestSeen with
      | none => sequence
      | some highest => if isAhead (sequence - highest) then sequence else highest) := by
  unfold BoundedSequenceTracker.observe
  dsimp only
  split
  · rfl
  · split
    · rfl
    · rfl

theorem nextExpected_observe : (t.observe sequence maxTrackedGaps).nextExpected =
    some (match t.nextExpected with
      | none => sequence + 1
      | some expected => if isAhead (sequence - expected) then sequence + 1 else expected) := by
  unfold BoundedSequenceTracker.observe
  cases hnext : t.nextExpected with
  | none => rfl
  | some expected =>
      dsimp only
      split
      · rfl
      · rfl

/-- **One call** keeps the reference points one apart exactly when the number is not half the
sequence space ahead. -/
theorem Consistent.observe_iff (h : Consistent maxTrackedGaps t) :
    Consistent maxTrackedGaps (t.observe sequence maxTrackedGaps) ↔
      ¬ HalfRangeAhead t sequence := by
  have hexpected := h.expected
  have hmissing := h.toMissingBounded.observe sequence
  have hmove : Consistent maxTrackedGaps (t.observe sequence maxTrackedGaps) ↔
      (t.observe sequence maxTrackedGaps).nextExpected =
        (t.observe sequence maxTrackedGaps).stats.highestSeen.map (· + 1) :=
    ⟨fun h' => h'.expected, fun h' => ⟨hmissing, h'⟩⟩
  rw [hmove, nextExpected_observe, highestSeen_observe]
  unfold HalfRangeAhead
  cases hhighest : t.stats.highestSeen with
  | none =>
      -- the first number sets both
      rw [hhighest, Option.map_none] at hexpected
      simp [hexpected]
  | some highest =>
      rw [hhighest, Option.map_some] at hexpected
      simp only [hexpected, Option.map_some, Option.some.injEq, exists_eq_left']
      by_cases hhalf : sequence = highest + 2147483648
      · subst hhalf
        have hexpect : isAhead (highest + 2147483648 - (highest + 1)) = true :=
          (isAhead_succ_iff _ _).mpr (.inl rfl)
        simp only [hexpect, not_isAhead_half, if_true, if_false, Bool.false_eq_true,
          UInt32.add_left_inj, not_true_eq_false, iff_false]
        exact half_ne_self highest
      · simp only [hhalf, not_false_eq_true, iff_true]
        by_cases hsame : sequence = highest
        · -- repeating the highest number leaves both as they are, whichever branch is taken
          subst hsame
          rw [ite_self, ite_self]
        · have hagree : isAhead (sequence - (highest + 1)) = isAhead (sequence - highest) := by
            rw [Bool.eq_iff_iff, isAhead_succ_iff]
            simp [hhalf, hsame]
          rw [hagree]
          split
          · rfl
          · rfl

end Step

/-! ## §4. Runs. -/

/-- **Every run**: the tracker is consistent after each call exactly when no number of the list is
half the sequence space ahead of the highest seen before it. -/
theorem observe_consistent (maxTrackedGaps : UInt64) (sequences : List UInt32) :
    (∀ before after, sequences = before ++ after →
        Consistent maxTrackedGaps (observeEach maxTrackedGaps before)) ↔
      ∀ before sequence after, sequences = before ++ sequence :: after →
        ¬ HalfRangeAhead (observeEach maxTrackedGaps before) sequence := by
  constructor
  · intro h before sequence after hsplit
    have hbefore := h before (sequence :: after) hsplit
    have hnext := h (before ++ [sequence]) after (by rw [hsplit, List.append_assoc]; rfl)
    rw [observeEach_append_singleton] at hnext
    exact hbefore.observe_iff.mp hnext
  · intro h before
    induction before using List.reverseRecOn with
    | nil => exact fun _ _ => ⟨⟨Nat.zero_le _, rfl⟩, rfl⟩
    | append_singleton before sequence ih =>
        intro after hsplit
        rw [List.append_assoc] at hsplit
        rw [observeEach_append_singleton]
        exact (ih _ hsplit).observe_iff.mpr (h before sequence after hsplit)

/-- After 0 the number 2^31 is expected to be followed by 2^31 + 1, and 0 stays the highest. -/
theorem half_range_splits :
    (observeEach 1024 [0, 2147483648]).nextExpected = some 2147483649 ∧
    (observeEach 1024 [0, 2147483648]).stats.highestSeen = some 0 ∧
    ¬ ∀ before after, [0, 2147483648] = before ++ after →
      Consistent 1024 (observeEach 1024 before) := by
  have hexpected : (observeEach 1024 [0, 2147483648]).nextExpected = some 2147483649 := by
    rfl
  have hhighest : (observeEach 1024 [0, 2147483648]).stats.highestSeen = some 0 := by
    rfl
  refine ⟨hexpected, hhighest, fun h => ?_⟩
  have hconsistent := (h [0, 2147483648] [] rfl).expected
  rw [hexpected, hhighest] at hconsistent
  cases hconsistent

end AvMesh.UdpFec
