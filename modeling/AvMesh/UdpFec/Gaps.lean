/-
  AvMesh.UdpFec.Gaps
  ──────────────────
  **WHAT THE GAP TRACKER COUNTS** (`BoundedSequenceTracker`, src/udp_fec.rs).

  The tracker is read against a list of packet numbers that do not wrap: the
  wire carries them modulo 2^32 (`onWire`), and as long as the list spans less
  than 2^31 the half-space comparison recovers their order.

  `unseen` is what `stats.missing` is for: the numbers between the first and
  the highest one observed that have not come.  But every forward jump starts
  with `missing.clear()`.  What survives is the newest gap only: after a run
  the tracker holds the unseen numbers above `floor`, the highest number from
  before the last jump (`Tracks`, `tracks_run`).

    • `observe_missing_iff` — so the count is right exactly when the gaps below
                              every jump have been filled in (`OlderGapsFilled`).
-/
import AvMesh.UdpFec.Receiver
import Mathlib.Data.List.Induction
import Mathlib.Order.Interval.Finset.Nat
import Mathlib.Tactic.IntervalCases

namespace AvMesh.UdpFec

open AvMesh.Lib

/-! ## §1. Packet numbers. -/

/-- The 32-bit sequence number of a packet. -/
def onWire (n : Nat) : UInt32 := UInt32.ofNat n

/-- Any two of the numbers are less than 2^31 apart. -/
def NarrowSpan (ns : List Nat) : Prop := ∀ a ∈ ns, ∀ b ∈ ns, a < b + 2147483648

/-- The highest of `first` and `rest`. -/
def highestOf (first : Nat) (rest : List Nat) : Nat := rest.foldl max first

/-- The numbers between the first and the highest that have not been observed. -/
def unseen (first : Nat) (rest : List Nat) : Finset Nat :=
  (Finset.Icc first (highestOf first rest)).filter fun k => k ∉ first :: rest

/-- The tracker after it observed the packets. -/
def observeAll (maxTrackedGaps : UInt64) (ns : List Nat) : BoundedSequenceTracker :=
  ns.foldl (fun t n => t.observe (onWire n) maxTrackedGaps) {}

theorem highestOf_append_singleton (first : Nat) (rest : List Nat) (n : Nat) :
    highestOf first (rest ++ [n]) = max (highestOf first rest) n := by
  unfold highestOf
  rw [List.foldl_append, List.foldl_cons, List.foldl_nil]

theorem observeAll_append_singleton (maxTrackedGaps : UInt64) (first : Nat) (rest : List Nat)
    (n : Nat) :
    observeAll maxTrackedGaps (first :: (rest ++ [n])) =
      (observeAll maxTrackedGaps (first :: rest)).observe (onWire n) maxTrackedGaps := by
  unfold observeAll
  rw [← List.cons_append, List.foldl_append, List.foldl_cons, List.foldl_nil]

theorem le_highestOf {first : Nat} {rest : List Nat} :
    ∀ n ∈ first :: rest, n ≤ highestOf first rest := by
  induction rest using List.reverseRecOn with
  | nil =>
      intro n hn
      exact Nat.le_of_eq (List.mem_singleton.mp hn)
  | append_singleton rest last ih =>
      intro n hn
      rw [highestOf_append_singleton]
      rw [← List.cons_append, List.mem_append, List.mem_singleton] at hn
      rcases hn with hn | rfl
      · have hle := ih n hn
        omega
      · omega

theorem highestOf_mem (first : Nat) (rest : List Nat) : highestOf first rest ∈ first :: rest := by
  induction rest using List.reverseRecOn with
  | nil => exact List.mem_singleton.mpr rfl
  | append_singleton rest last ih =>
      rw [highestOf_append_singleton, ← List.cons_append, List.mem_append, List.mem_singleton]
      by_cases hle : last ≤ highestOf first rest
      · rw [Nat.max_eq_left hle]
        exact .inl ih
      · rw [Nat.max_eq_right (by omega)]
        exact .inr rfl

theorem NarrowSpan.of_subset {ns ms : List Nat} (h : NarrowSpan ns) (hsub : ms ⊆ ns) :
    NarrowSpan ms := by
  intro a ha b hb
  exact h a (hsub ha) b (hsub hb)

/-! ## §2. Arithmetic on the wire. -/

theorem toNat_onWire (n : Nat) : (onWire n).toNat = n % 4294967296 := UInt32.toNat_ofNat'

theorem onWire_add_one (n : Nat) : onWire n + 1 = onWire (n + 1) := by
  apply UInt32.toNat_inj.mp
  rw [UInt32.toNat_add, toNat_onWire, toNat_onWire, UInt32.toNat_one]
  omega

/-- Numbers that are near each other are told apart by their low 32 bits. -/
theorem onWire_inj {a b : Nat} (h : a < b + 2147483648) (h' : b < a + 2147483648) :
    onWire a = onWire b ↔ a = b := by
  constructor
  · intro heq
    have hmod := congrArg UInt32.toNat heq
    rw [toNat_onWire, toNat_onWire] at hmod
    omega
  · intro heq
    rw [heq]

theorem toNat_onWire_sub (a b : Nat) :
    (onWire a - onWire b).toNat = (4294967296 - b % 4294967296 + a % 4294967296) % 4294967296 := by
  rw [UInt32.toNat_sub, toNat_onWire, toNat_onWire]

/-- The comparison of `observe`: ahead means not below, for numbers that are near each other. -/
theorem isAhead_onWire {a b : Nat} (h : a < b + 2147483648) (h' : b ≤ a + 2147483648) :
    isAhead (onWire a - onWire b) = true ↔ b ≤ a := by
  unfold isAhead
  rw [decide_eq_true_eq, UInt32.le_iff_toNat_le, toNat_onWire_sub]
  show _ ≤ 2147483647 ↔ _
  omega

theorem toNat_onWire_sub_of_le {a b : Nat} (h : a < b + 2147483648) (hle : b ≤ a) :
    (onWire a - onWire b).toNat = a - b := by
  rw [toNat_onWire_sub]
  omega

/-- The tracked numbers of a jump from `low` to `n`: those in between. -/
theorem gapSequences_onWire {low n : Nat} (hle : low ≤ n) :
    gapSequences (onWire n - UInt32.ofNat (n - low)) (n - low) =
      (List.range' low (n - low)).map onWire := by
  unfold gapSequences
  rw [List.range'_eq_map_range, List.map_map]
  refine List.map_congr_left ?_
  intro offset _
  show onWire n - onWire (n - low) + onWire offset = onWire (low + offset)
  apply UInt32.toNat_inj.mp
  rw [UInt32.toNat_add, toNat_onWire_sub, toNat_onWire, toNat_onWire]
  omega

/-! ## §3. What the tracker holds. -/

/-- The unseen numbers above `floor`. -/
def unseenAbove (floor first : Nat) (rest : List Nat) : Finset Nat :=
  (Finset.Ioc floor (highestOf first rest)).filter fun k => k ∉ first :: rest

/-- The packet `n` opens a gap: it skips numbers above all that came before. -/
def Jumps (first : Nat) (rest before : List Nat) (n : Nat) : Prop :=
  (∃ after, rest = before ++ n :: after) ∧ highestOf first before + 1 < n

/-- The tracker holds the unseen numbers above `floor`, and `floor` is the highest number from
before the last jump. -/
structure Tracks (first : Nat) (rest : List Nat) (floor : Nat) (t : BoundedSequenceTracker) :
    Prop where
  expected : t.nextExpected = some (onWire (highestOf first rest + 1))
  missing : t.missing = (unseenAbove floor first rest).image onWire
  counted : t.stats.missing = t.missing.card
  floor_mem : floor ∈ first :: rest
  origin : floor = first ∨ ∃ before n, Jumps first rest before n ∧ highestOf first before = floor
  below : ∀ before n, Jumps first rest before n → highestOf first before ≤ floor

theorem Jumps.append {first : Nat} {rest before : List Nat} {n : Nat}
    (h : Jumps first rest before n) (last : Nat) : Jumps first (rest ++ [last]) before n := by
  obtain ⟨⟨after, hrest⟩, hjump⟩ := h
  refine ⟨⟨after ++ [last], ?_⟩, hjump⟩
  rw [hrest, List.append_assoc, List.cons_append]

/-- A jump of a longer list is its last packet or was a jump before. -/
theorem Jumps.of_append {first : Nat} {rest before : List Nat} {n last : Nat}
    (h : Jumps first (rest ++ [last]) before n) :
    (before = rest ∧ n = last) ∨ Jumps first rest before n := by
  obtain ⟨⟨after, hrest⟩, hjump⟩ := h
  rcases split_of_append_singleton hrest with ⟨hbefore, hlast⟩ | ⟨after', hrest', -⟩
  · exact .inl ⟨hbefore.symm, hlast.symm⟩
  · exact .inr ⟨⟨after', hrest'⟩, hjump⟩

theorem tracks_first (maxTrackedGaps : UInt64) (first : Nat) :
    Tracks first [] first (observeAll maxTrackedGaps [first]) where
  expected := by
    show some (onWire first + 1) = some (onWire (first + 1))
    rw [onWire_add_one]
  missing := by
    have hnone : unseenAbove first first [] = ∅ := by
      unfold unseenAbove
      show (Finset.Ioc first first).filter _ = ∅
      rw [Finset.Ioc_self, Finset.filter_empty]
    rw [hnone, Finset.image_empty]
    rfl
  counted := rfl
  floor_mem := List.mem_cons_self
  origin := .inl rfl
  below := by
    rintro before n ⟨⟨after, hrest⟩, -⟩
    cases before <;> cases hrest

section Step

variable {first floor n : Nat} {rest : List Nat} {t : BoundedSequenceTracker}
  {maxTrackedGaps : UInt64}

theorem Tracks.floor_le (h : Tracks first rest floor t) : floor ≤ highestOf first rest :=
  le_highestOf floor h.floor_mem

theorem Tracks.first_le (h : Tracks first rest floor t) : first ≤ floor := by
  rcases h.origin with hfirst | ⟨before, n, -, hfloor⟩
  · exact Nat.le_of_eq hfirst.symm
  · rw [← hfloor]
    exact le_highestOf first List.mem_cons_self

/-- A forward jump: the tracker forgets what it held and tracks the new gap. -/
theorem Tracks.jump (h : Tracks first rest floor t)
    (hspan : NarrowSpan (first :: (rest ++ [n]))) (hjump : highestOf first rest + 1 < n)
    (hroom : n - (highestOf first rest + 1) ≤ maxTrackedGaps.toNat) :
    Tracks first (rest ++ [n]) (highestOf first rest) (t.observe (onWire n) maxTrackedGaps) := by
  have hmem : highestOf first rest ∈ first :: (rest ++ [n]) := by
    rw [← List.cons_append]
    exact List.mem_append_left _ (highestOf_mem first rest)
  have hnear : n < highestOf first rest + 2147483648 := hspan n (by simp) _ hmem
  have hhighest : highestOf first (rest ++ [n]) = n := by
    rw [highestOf_append_singleton]
    omega
  have hahead : isAhead (onWire n - onWire (highestOf first rest + 1)) = true := by
    rw [isAhead_onWire (by omega) (by omega)]
    omega
  have hdiff : (onWire n - onWire (highestOf first rest + 1)).toNat =
      n - (highestOf first rest + 1) := toNat_onWire_sub_of_le (by omega) (by omega)
  have hpositive : 0 < onWire n - onWire (highestOf first rest + 1) := by
    rw [UInt32.lt_iff_toNat_lt, hdiff]
    show 0 < _
    omega
  have hmissing : (t.observe (onWire n) maxTrackedGaps).missing =
      ((List.range' (highestOf first rest + 1) (n - (highestOf first rest + 1))).map
        onWire).toFinset := by
    unfold BoundedSequenceTracker.observe
    simp only [h.expected, hahead, if_true, hpositive, hdiff, Nat.min_eq_left hroom]
    rw [gapSequences_onWire (by omega)]
  constructor
  case expected =>
    unfold BoundedSequenceTracker.observe
    simp only [h.expected, hahead, if_true, hhighest, onWire_add_one]
  case missing =>
    -- the numbers skipped by the jump are all unseen: they are above every earlier number
    have hset : unseenAbove (highestOf first rest) first (rest ++ [n]) =
        (List.range' (highestOf first rest + 1) (n - (highestOf first rest + 1))).toFinset := by
      ext k
      simp only [unseenAbove, hhighest, Finset.mem_filter, Finset.mem_Ioc, List.mem_toFinset,
        List.mem_range'_1, ← List.cons_append, List.mem_append, List.mem_singleton, not_or]
      constructor
      · rintro ⟨⟨hlow, hhigh⟩, -, hne⟩
        omega
      · rintro ⟨hlow, hhigh⟩
        refine ⟨by omega, ?_, by omega⟩
        intro hseen
        have hle := le_highestOf k hseen
        omega
    rw [hmissing, hset]
    ext x
    simp only [List.mem_toFinset, List.mem_map, Finset.mem_image]
  case counted =>
    unfold BoundedSequenceTracker.observe
    simp only [h.expected, hahead, if_true]
  case floor_mem => exact hmem
  case origin => exact .inr ⟨rest, n, ⟨⟨[], rfl⟩, hjump⟩, rfl⟩
  case below =>
    intro before m hbefore
    rcases hbefore.of_append with ⟨rfl, -⟩ | hold
    · exact Nat.le_refl _
    · exact Nat.le_trans (h.below before m hold) h.floor_le

/-- The next number in order: nothing is skipped. -/
theorem Tracks.next (h : Tracks first rest floor t)
    (hspan : NarrowSpan (first :: (rest ++ [highestOf first rest + 1]))) :
    Tracks first (rest ++ [highestOf first rest + 1]) floor
      (t.observe (onWire (highestOf first rest + 1)) maxTrackedGaps) := by
  have hhighest : highestOf first (rest ++ [highestOf first rest + 1]) =
      highestOf first rest + 1 := by
    rw [highestOf_append_singleton]
    omega
  have hahead : isAhead (onWire (highestOf first rest + 1) -
      onWire (highestOf first rest + 1)) = true := by
    rw [isAhead_onWire (by omega) (by omega)]
  have hzero : ¬ 0 < onWire (highestOf first rest + 1) - onWire (highestOf first rest + 1) := by
    rw [UInt32.sub_self]
    decide
  have hmissing : (t.observe (onWire (highestOf first rest + 1)) maxTrackedGaps).missing =
      t.missing := by
    unfold BoundedSequenceTracker.observe
    simp only [h.expected, hahead, if_true, hzero, if_false]
  constructor
  case expected =>
    unfold BoundedSequenceTracker.observe
    simp only [h.expected, hahead, if_true, hhighest, onWire_add_one]
  case missing =>
    have hset : unseenAbove floor first (rest ++ [highestOf first rest + 1]) =
        unseenAbove floor first rest := by
      ext k
      simp only [unseenAbove, hhighest, Finset.mem_filter, Finset.mem_Ioc, ← List.cons_append,
        List.mem_append, List.mem_singleton, not_or]
      constructor
      · rintro ⟨⟨hlow, hhigh⟩, hunseen, hne⟩
        exact ⟨by omega, hunseen⟩
      · rintro ⟨⟨hlow, hhigh⟩, hunseen⟩
        exact ⟨by omega, hunseen, by omega⟩
    rw [hmissing, h.missing, hset]
  case counted =>
    unfold BoundedSequenceTracker.observe
    simp only [h.expected, hahead, if_true]
  case floor_mem =>
    rw [← List.cons_append]
    exact List.mem_append_left _ h.floor_mem
  case origin =>
    rcases h.origin with hfirst | ⟨before, m, hjump, hfloor⟩
    · exact .inl hfirst
    · exact .inr ⟨before, m, hjump.append _, hfloor⟩
  case below =>
    intro before m hbefore
    rcases hbefore.of_append with ⟨rfl, rfl⟩ | hold
    · -- the next number in order is no jump
      have hjump := hbefore.2
      omega
    · exact h.below before m hold

/-- A late or repeated number: it is missing no more. -/
theorem Tracks.late (h : Tracks first rest floor t)
    (hspan : NarrowSpan (first :: (rest ++ [n]))) (hlate : n ≤ highestOf first rest) :
    Tracks first (rest ++ [n]) floor (t.observe (onWire n) maxTrackedGaps) := by
  have hold : ∀ k ∈ first :: rest, k ∈ first :: (rest ++ [n]) := by
    intro k hk
    rw [← List.cons_append]
    exact List.mem_append_left _ hk
  have hnear : highestOf first rest < n + 2147483648 :=
    hspan _ (hold _ (highestOf_mem first rest)) n (by simp)
  have hfloor : highestOf first rest < floor + 2147483648 :=
    hspan _ (hold _ (highestOf_mem first rest)) floor (hold _ h.floor_mem)
  have hhighest : highestOf first (rest ++ [n]) = highestOf first rest := by
    rw [highestOf_append_singleton]
    omega
  have hbehind : ¬ isAhead (onWire n - onWire (highestOf first rest + 1)) = true := by
    rw [isAhead_onWire (by omega) (by omega)]
    omega
  have hmissing : (t.observe (onWire n) maxTrackedGaps).missing = t.missing.erase (onWire n) := by
    unfold BoundedSequenceTracker.observe
    simp only [h.expected, hbehind, Bool.false_eq_true, if_false]
  constructor
  case expected =>
    unfold BoundedSequenceTracker.observe
    simp only [h.expected, hbehind, Bool.false_eq_true, if_false, hhighest]
  case missing =>
    rw [hmissing, h.missing]
    ext x
    simp only [unseenAbove, hhighest, Finset.mem_erase, Finset.mem_image, Finset.mem_filter,
      Finset.mem_Ioc, ← List.cons_append, List.mem_append, List.mem_singleton, not_or]
    constructor
    · rintro ⟨hne, k, ⟨hrange, hunseen⟩, rfl⟩
      refine ⟨k, ⟨hrange, hunseen, ?_⟩, rfl⟩
      rintro rfl
      exact hne rfl
    · rintro ⟨k, ⟨hrange, hunseen, hne⟩, rfl⟩
      refine ⟨?_, k, ⟨hrange, hunseen⟩, rfl⟩
      -- `k` and `n` are within half the number space of each other
      rw [Ne, onWire_inj (by omega) (by omega)]
      exact hne
  case counted =>
    unfold BoundedSequenceTracker.observe
    simp only [h.expected, hbehind, Bool.false_eq_true, if_false]
  case floor_mem => exact hold _ h.floor_mem
  case origin =>
    rcases h.origin with hfirst | ⟨before, m, hjump, horigin⟩
    · exact .inl hfirst
    · exact .inr ⟨before, m, hjump.append _, horigin⟩
  case below =>
    intro before m hbefore
    rcases hbefore.of_append with ⟨rfl, rfl⟩ | hearlier
    · have hjump := hbefore.2
      omega
    · exact h.below before m hearlier

end Step

/-! ## §4. Runs. -/

/-- A jump is no wider than the unseen numbers it leaves behind. -/
theorem jump_le_unseen {first n : Nat} {rest : List Nat} (hjump : highestOf first rest + 1 < n) :
    n - (highestOf first rest + 1) ≤ (unseen first (rest ++ [n])).card := by
  have hhighest : highestOf first (rest ++ [n]) = n := by
    rw [highestOf_append_singleton]
    omega
  have hfirst : first ≤ highestOf first rest := le_highestOf first List.mem_cons_self
  have hsub : Finset.Ico (highestOf first rest + 1) n ⊆ unseen first (rest ++ [n]) := by
    intro k hk
    rw [Finset.mem_Ico] at hk
    simp only [unseen, hhighest, Finset.mem_filter, Finset.mem_Icc, ← List.cons_append,
      List.mem_append, List.mem_singleton, not_or]
    refine ⟨by omega, ?_, by omega⟩
    intro hseen
    have hle := le_highestOf k hseen
    omega
  have hcard := Finset.card_le_card hsub
  rw [Nat.card_Ico] at hcard
  exact hcard

/-- At no time are more than `maxTrackedGaps` numbers unseen. -/
def FewUnseen (maxTrackedGaps : UInt64) (first : Nat) (rest : List Nat) : Prop :=
  ∀ before after, rest = before ++ after → (unseen first before).card ≤ maxTrackedGaps.toNat

/-- **Every run**: the tracker holds the unseen numbers above the last jump. -/
theorem tracks_run {maxTrackedGaps : UInt64} {first : Nat} {rest : List Nat}
    (hspan : NarrowSpan (first :: rest)) (hfew : FewUnseen maxTrackedGaps first rest) :
    ∃ floor, Tracks first rest floor (observeAll maxTrackedGaps (first :: rest)) := by
  induction rest using List.reverseRecOn with
  | nil => exact ⟨first, tracks_first maxTrackedGaps first⟩
  | append_singleton rest n ih =>
      obtain ⟨floor, hrest⟩ := ih
        (hspan.of_subset fun k hk => by
          rw [← List.cons_append]
          exact List.mem_append_left _ hk)
        (fun before after hsplit => hfew before (after ++ [n]) (by rw [hsplit, List.append_assoc]))
      rw [observeAll_append_singleton]
      rcases Nat.lt_trichotomy n (highestOf first rest + 1) with hlate | rfl | hjump
      · exact ⟨floor, hrest.late hspan (by omega)⟩
      · exact ⟨floor, hrest.next hspan⟩
      · have hroom := hfew (rest ++ [n]) [] (by rw [List.append_nil])
        exact ⟨_, hrest.jump hspan hjump (Nat.le_trans (jump_le_unseen hjump) hroom)⟩

/-! ## §5. When the count is right. -/

/-- Below every jump all numbers came in the end. -/
def OlderGapsFilled (first : Nat) (rest : List Nat) : Prop :=
  ∀ before n, Jumps first rest before n →
    ∀ k, first ≤ k → k ≤ highestOf first before → k ∈ first :: rest

/-- The unseen numbers, split at `floor`. -/
theorem card_unseen {first floor : Nat} {rest : List Nat} (hfirst : first ≤ floor)
    (hfloor : floor ≤ highestOf first rest) :
    (unseen first rest).card =
      ((Finset.Icc first floor).filter fun k => k ∉ first :: rest).card +
        (unseenAbove floor first rest).card := by
  rw [← Finset.card_union_of_disjoint]
  · congr 1
    ext k
    simp only [unseen, unseenAbove, Finset.mem_union, Finset.mem_filter, Finset.mem_Icc,
      Finset.mem_Ioc, ← or_and_right]
    exact and_congr_left fun _ => by omega
  · rw [Finset.disjoint_left]
    intro k hlow hhigh
    simp only [unseenAbove, Finset.mem_filter, Finset.mem_Icc, Finset.mem_Ioc] at hlow hhigh
    omega

theorem Tracks.olderGapsFilled_iff {first floor : Nat} {rest : List Nat}
    {t : BoundedSequenceTracker} (h : Tracks first rest floor t) :
    OlderGapsFilled first rest ↔
      ∀ k, first ≤ k → k ≤ floor → k ∈ first :: rest := by
  constructor
  · intro hfilled k hlow hhigh
    rcases h.origin with rfl | ⟨before, n, hjump, rfl⟩
    · rw [Nat.le_antisymm hhigh hlow]
      exact List.mem_cons_self
    · exact hfilled before n hjump k hlow hhigh
  · intro hfilled before n hjump k hlow hhigh
    exact hfilled k hlow (Nat.le_trans hhigh (h.below before n hjump))

/-- Within the span, distinct numbers are distinct on the wire. -/
theorem Tracks.card_missing {first floor : Nat} {rest : List Nat} {t : BoundedSequenceTracker}
    (h : Tracks first rest floor t) (hspan : NarrowSpan (first :: rest)) :
    t.missing.card = (unseenAbove floor first rest).card := by
  have hnear := hspan _ (highestOf_mem first rest) floor h.floor_mem
  rw [h.missing]
  refine Finset.card_image_of_injOn ?_
  intro a ha b hb heq
  simp only [unseenAbove, Finset.coe_filter, Set.mem_ofPred_eq, Finset.mem_Ioc] at ha hb
  exact (onWire_inj (by omega) (by omega)).mp heq

/-- **The count of missing numbers**: right exactly when the gaps below every jump have been
filled in, for every list of packets that spans less than 2^31 and never leaves more numbers
unseen than the tracker may track. -/
theorem observe_missing_iff {maxTrackedGaps : UInt64} {first : Nat} {rest : List Nat}
    (hspan : NarrowSpan (first :: rest)) (hfew : FewUnseen maxTrackedGaps first rest) :
    (observeAll maxTrackedGaps (first :: rest)).stats.missing = (unseen first rest).card ↔
      OlderGapsFilled first rest := by
  obtain ⟨floor, h⟩ := tracks_run hspan hfew
  rw [h.olderGapsFilled_iff, h.counted, h.card_missing hspan, card_unseen h.first_le h.floor_le]
  constructor
  · intro hcount k hlow hhigh
    have hempty : ((Finset.Icc first floor).filter fun k => k ∉ first :: rest).card = 0 := by
      omega
    rw [Finset.card_eq_zero, Finset.filter_eq_empty_iff] at hempty
    exact Decidable.not_not.mp (hempty (Finset.mem_Icc.mpr ⟨hlow, hhigh⟩))
  · intro hfilled
    have hempty : ((Finset.Icc first floor).filter fun k => k ∉ first :: rest) = ∅ := by
      rw [Finset.filter_eq_empty_iff]
      intro k hk
      rw [Finset.mem_Icc] at hk
      exact Decidable.not_not.mpr (hfilled k hk.1 hk.2)
    rw [hempty, Finset.card_empty, Nat.zero_add]

instance (maxTrackedGaps : UInt64) (first : Nat) (rest : List Nat) :
    Decidable (FewUnseen maxTrackedGaps first rest) :=
  decidable_of_iff (∀ k ≤ rest.length, (unseen first (rest.take k)).card ≤ maxTrackedGaps.toNat) <| by
    constructor
    · intro htake before after hsplit
      have hlength := congrArg List.length hsplit
      rw [List.length_append] at hlength
      have hbefore := htake before.length (by omega)
      rw [hsplit, List.take_left] at hbefore
      exact hbefore
    · intro hfew k _
      exact hfew (rest.take k) (rest.drop k) (List.take_append_drop k rest).symm

instance (ns : List Nat) : Decidable (NarrowSpan ns) :=
  inferInstanceAs (Decidable (∀ a ∈ ns, ∀ b ∈ ns, a < b + 2147483648))

/-- Two gaps of one number each, neither filled in: two numbers are unseen, one is counted. -/
theorem second_gap_forgets_first :
    NarrowSpan [0, 2, 4] ∧ FewUnseen 1024 0 [2, 4] ∧
    (unseen 0 [2, 4]).card = 2 ∧ (observeAll 1024 [0, 2, 4]).stats.missing = 1 := by
  decide

/-- The same two gaps, the first one filled in late. -/
theorem observe_missing_iff_refilled :
    (observeAll 1024 [0, 2, 4, 1]).stats.missing = (unseen 0 [2, 4, 1]).card := by
  have hfilled : OlderGapsFilled 0 [2, 4, 1] := by
    rintro before n ⟨⟨after, hsplit⟩, hjump⟩ k - hhigh
    -- only the second jump has numbers below it, all of them up to 2
    have hle : highestOf 0 before ≤ 2 ∨ n ≤ highestOf 0 before := by
      rcases before with _ | ⟨a, _ | ⟨b, _ | ⟨c, before⟩⟩⟩
      · exact .inl (by decide)
      · cases hsplit
        exact .inl (by decide)
      · cases hsplit
        exact .inr (by decide)
      · cases before <;> cases hsplit
    have hbound : k ≤ 2 := by omega
    interval_cases k <;> decide
  exact (observe_missing_iff (by decide) (by decide)).mpr hfilled

end AvMesh.UdpFec
