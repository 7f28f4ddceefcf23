/-
  AvMesh.Talkback.Window
  ──────────────────────
  **A REPLAY WINDOW IS A SET OF NUMBERS.**

  `SequenceWindow` keeps a highest number and 128 marks.  What it is for is
  simpler: remember every number ever admitted, and admit a number that is
  not among them and less than 128 below the highest (`Admits`).

    • `Represents`   — the marks agree with the set, over the numbers in reach,
    • `admits_iff`   — under `Represents`, the window answers as the set does,
    • `represents_tryAdmit` — one call keeps `Represents`,
    • `represents_run`      — so every run does.

  The numbers are unbounded here.  The code has 64 bits, and the differences
  it takes are of numbers in order, so nothing wraps on the way.
-/
import AvMesh.Lib.StepSystem
import AvMesh.Talkback.Lane

namespace AvMesh.Talkback

open AvMesh.Lib

/-! ## §1. The set. -/

/-- The rule a replay window implements. -/
def Admits (admitted : Set Nat) (sequence : Nat) : Prop :=
  sequence ∉ admitted ∧ ∀ n ∈ admitted, n < sequence + sequenceWindowBits

namespace SequenceWindow

/-- The window stands for the set: `highest` is its maximum, and the mark at a distance below it
says whether that number is a member. -/
structure Represents (w : SequenceWindow) (admitted : Set Nat) : Prop where
  highest_mem : w.highest ∈ admitted
  le_highest : ∀ n ∈ admitted, n ≤ w.highest
  marked : ∀ n ≤ w.highest, w.highest - n < sequenceWindowBits →
    (w.seen.getLsbD (w.highest - n) = true ↔ n ∈ admitted)

/-- A single mark at distance zero. -/
theorem getLsbD_one (i : Nat) : (1 : BitVec 128).getLsbD i = decide (i = 0) := by
  have hbit := @getLsbD_bit 0 i (by decide)
  rw [BitVec.shiftLeft_zero] at hbit
  exact hbit

theorem represents_first (sequence : Nat) : (first sequence).Represents {sequence} where
  highest_mem := rfl
  le_highest := by
    intro n hn
    exact Nat.le_of_eq hn
  marked := by
    intro n hn _
    show (1 : BitVec 128).getLsbD (sequence - n) = true ↔ n = sequence
    change n ≤ sequence at hn
    rw [getLsbD_one, decide_eq_true_eq]
    omega

variable {w : SequenceWindow} {admitted : Set Nat} {sequence : Nat}

/-- The rule in terms of the highest number alone. -/
theorem Represents.admits_iff_highest (h : w.Represents admitted) :
    Admits admitted sequence ↔
      sequence ∉ admitted ∧ w.highest < sequence + sequenceWindowBits := by
  unfold Admits
  constructor
  · rintro ⟨hnew, hreach⟩
    exact ⟨hnew, hreach _ h.highest_mem⟩
  · rintro ⟨hnew, hreach⟩
    refine ⟨hnew, ?_⟩
    intro n hn
    have hle := h.le_highest n hn
    omega

/-! ## §2. One call. -/

/-- **One call answers by the rule.** -/
theorem Represents.admits_iff (h : w.Represents admitted) :
    (w.tryAdmit sequence).1 = true ↔ Admits admitted sequence := by
  rw [h.admits_iff_highest]
  unfold tryAdmit
  by_cases hnew : sequence > w.highest
  · -- above the highest number nothing was admitted
    rw [if_pos hnew]
    have hfresh : sequence ∉ admitted := by
      intro hmem
      have hle := h.le_highest sequence hmem
      omega
    simp only [true_iff]
    exact ⟨hfresh, by omega⟩
  · rw [if_neg hnew]
    dsimp only
    by_cases hfar : w.highest - sequence ≥ sequenceWindowBits
    · rw [if_pos hfar]
      simp only [Bool.false_eq_true, false_iff]
      rintro ⟨-, hreach⟩
      omega
    · -- within reach the mark decides
      have hdistance : w.highest - sequence < sequenceWindowBits := by omega
      have hmark := h.marked sequence (by omega) hdistance
      rw [if_neg hfar]
      by_cases hset : w.seen &&& ((1 : BitVec 128) <<< (w.highest - sequence)) ≠ 0
      · rw [if_pos hset]
        rw [and_bit_ne_zero hdistance, hmark] at hset
        simp only [Bool.false_eq_true, false_iff]
        rintro ⟨hfresh, -⟩
        exact hfresh hset
      · rw [if_neg hset]
        rw [and_bit_ne_zero hdistance, hmark] at hset
        simp only [true_iff]
        exact ⟨hset, by omega⟩

/-- A refused number leaves the window as it is. -/
theorem tryAdmit_refused (h : (w.tryAdmit sequence).1 = false) : (w.tryAdmit sequence).2 = w := by
  unfold tryAdmit at h ⊢
  dsimp only at h ⊢
  split at h
  · cases h
  · next hold =>
      rw [if_neg hold]
      split at h
      · next hfar => rw [if_pos hfar]
      · next hnear =>
          rw [if_neg hnear]
          split at h
          · next hset => rw [if_pos hset]
          · cases h

/-- A number above the highest: the marks move up by the difference. -/
theorem Represents.advance (h : w.Represents admitted) (hnew : w.highest < sequence) :
    Represents ⟨sequence, if sequence - w.highest ≥ sequenceWindowBits then 1
      else (w.seen <<< (sequence - w.highest)) ||| 1⟩ (insert sequence admitted) where
  highest_mem := Set.mem_insert _ _
  le_highest := by
    intro n hn
    show n ≤ sequence
    rcases hn with rfl | hn
    · exact Nat.le_refl _
    · have hle := h.le_highest n hn
      omega
  marked := by
    intro n hn hreach
    dsimp only at hn hreach ⊢
    have hlive : n ∈ admitted → n ≤ w.highest := h.le_highest n
    rw [Set.mem_insert_iff]
    by_cases hshift : sequence - w.highest ≥ sequenceWindowBits
    · -- every old mark falls out of the window
      rw [if_pos hshift, getLsbD_one, decide_eq_true_eq]
      constructor
      · intro hzero
        exact .inl (by omega)
      · rintro (rfl | hmem)
        · omega
        · have hle := hlive hmem
          omega
    · rw [if_neg hshift, BitVec.getLsbD_or, getLsbD_one, BitVec.getLsbD_shiftLeft]
      by_cases hold : n ≤ w.highest
      · have hindex : sequence - n - (sequence - w.highest) = w.highest - n := by omega
        have hpast : ¬ sequence - n < sequence - w.highest := by omega
        have hbound : sequence - n < 128 := hreach
        have hmark := h.marked n hold (by omega)
        rw [hindex]
        simp only [hbound, hpast, decide_true, decide_false, Bool.not_false, Bool.true_and,
          Bool.or_eq_true, decide_eq_true_eq, hmark]
        constructor
        · rintro (hmem | hzero)
          · exact .inr hmem
          · omega
        · rintro (rfl | hmem)
          · omega
          · exact .inl hmem
      · -- between the old and the new highest no number was admitted
        have hpast : sequence - n < sequence - w.highest := by omega
        simp only [hpast, decide_true, Bool.not_true, Bool.and_false, Bool.false_and,
          Bool.false_or, decide_eq_true_eq]
        constructor
        · intro hzero
          exact .inl (by omega)
        · rintro (rfl | hmem)
          · omega
          · exact absurd (hlive hmem) hold

/-- A late number: its own mark is set. -/
theorem Represents.mark (h : w.Represents admitted) (hold : sequence ≤ w.highest)
    (hreach : w.highest - sequence < sequenceWindowBits) :
    Represents { w with seen := w.seen ||| ((1 : BitVec 128) <<< (w.highest - sequence)) }
      (insert sequence admitted) where
  highest_mem := Set.mem_insert_of_mem _ h.highest_mem
  le_highest := by
    intro n hn
    show n ≤ w.highest
    rcases hn with rfl | hn
    · exact hold
    · exact h.le_highest n hn
  marked := by
    intro n hn hnear
    dsimp only at hn hnear ⊢
    have hmark := h.marked n hn hnear
    rw [BitVec.getLsbD_or, getLsbD_bit hreach, Set.mem_insert_iff, Bool.or_eq_true,
      decide_eq_true_eq, hmark]
    constructor
    · rintro (hmem | hsame)
      · exact .inr hmem
      · exact .inl (by omega)
    · rintro (rfl | hmem)
      · exact .inr rfl
      · exact .inl hmem

/-- **One call**: an admitted number joins the set, a refused one changes nothing. -/
theorem Represents.tryAdmit (h : w.Represents admitted) :
    (w.tryAdmit sequence).2.Represents
      (if (w.tryAdmit sequence).1 then insert sequence admitted else admitted) := by
  cases hreply : (w.tryAdmit sequence).1 with
  | false =>
      rw [tryAdmit_refused hreply]
      exact h
  | true =>
      show (w.tryAdmit sequence).2.Represents (insert sequence admitted)
      unfold SequenceWindow.tryAdmit at hreply ⊢
      dsimp only at hreply ⊢
      split
      · next hnew => exact h.advance hnew
      · next hold =>
          rw [if_neg hold] at hreply
          split
          · next hfar =>
              rw [if_pos hfar] at hreply
              cases hreply
          · next hnear =>
              rw [if_neg hnear] at hreply
              split
              · next hset =>
                  rw [if_pos hset] at hreply
                  cases hreply
              · exact h.mark (by omega) (by omega)

/-! ## §3. Runs. -/

/-- The numbers admitted by a window that started at `first` and was offered `numbers`. -/
def admittedNumbers (first : Nat) (numbers : List Nat) : List Nat :=
  first :: (trace tryAdmit (.first first) numbers).filterMap fun e =>
    if (e.1.tryAdmit e.2).1 then some e.2 else none

theorem admittedNumbers_append_singleton (first : Nat) (numbers : List Nat) (sequence : Nat) :
    admittedNumbers first (numbers ++ [sequence]) = admittedNumbers first numbers ++
      if ((exec tryAdmit (.first first) numbers).tryAdmit sequence).1 then [sequence] else [] := by
  unfold admittedNumbers
  rw [filterMap_trace_append_singleton, List.cons_append]
  dsimp only
  split <;> rfl

/-- **The window after a run stands for the numbers the run admitted.** -/
theorem represents_run (first : Nat) (numbers : List Nat) :
    (exec tryAdmit (.first first) numbers).Represents {n | n ∈ admittedNumbers first numbers} := by
  refine exec_history tryAdmit
    (fun numbers w => w.Represents {n | n ∈ admittedNumbers first numbers}) (.first first) ?_ ?_
    numbers
  · have hset : {n | n ∈ admittedNumbers first []} = ({first} : Set Nat) := by
      ext n
      exact List.mem_singleton
    rw [hset]
    exact represents_first first
  · intro numbers sequence ih
    have hstep := @Represents.tryAdmit _ _ sequence ih
    rw [admittedNumbers_append_singleton]
    cases hreply : ((exec tryAdmit (.first first) numbers).tryAdmit sequence).1 with
    | false =>
        rw [hreply] at hstep
        simpa using hstep
    | true =>
        rw [hreply] at hstep
        have hset : {n | n ∈ admittedNumbers first numbers ++ [sequence]} =
            insert sequence {n | n ∈ admittedNumbers first numbers} := by
          ext n
          simp [or_comm]
        simp only [if_true]
        rw [hset]
        exact hstep

/-- No number is admitted twice. -/
theorem nodup_admittedNumbers (first : Nat) (numbers : List Nat) :
    (admittedNumbers first numbers).Nodup := by
  induction numbers using List.reverseRecOn with
  | nil => exact List.nodup_singleton first
  | append_singleton numbers sequence ih =>
      rw [admittedNumbers_append_singleton]
      split
      · next hreply =>
          have hadmits := (represents_run first numbers).admits_iff.mp hreply
          rw [List.nodup_append]
          refine ⟨ih, List.nodup_singleton sequence, ?_⟩
          intro a ha b hb hab
          rw [List.mem_singleton] at hb
          exact hadmits.1 (hb ▸ hab ▸ ha)
      · rw [List.append_nil]
        exact ih

end SequenceWindow

/-! ## §4. The window in the lane. -/

/-- **Replay windows refine a set.**  In every run a window answers by the rule of the set of
numbers it admitted, so no number is admitted twice; and a `publish` that fails, a replay
included, changes none of the four maps. -/
theorem replay_window_refines_set (first : Nat) (numbers : List Nat) :
    (∀ sequence,
      ((exec SequenceWindow.tryAdmit (.first first) numbers).tryAdmit sequence).1 = true ↔
        sequence ∉ SequenceWindow.admittedNumbers first numbers ∧
          ∀ n ∈ SequenceWindow.admittedNumbers first numbers, n < sequence + 128) ∧
    (SequenceWindow.admittedNumbers first numbers).Nodup ∧
    (∀ (w : SequenceWindow) (sequence : Nat), (w.tryAdmit sequence).1 = false →
      (w.tryAdmit sequence).2 = w) ∧
    ∀ (isExpired : EphemeralTalkbackFrameV1 → Nat → Bool) (lane : TalkbackLane)
      (frame : EphemeralTalkbackFrameV1) (nowUnixUs : Nat) (error : TalkbackLaneError),
      (lane.publish isExpired frame nowUnixUs).1 = .error error →
      TalkbackLane.SameMaps lane (lane.publish isExpired frame nowUnixUs).2 := by
  refine ⟨?_, SequenceWindow.nodup_admittedNumbers first numbers, ?_, ?_⟩
  · intro sequence
    exact (SequenceWindow.represents_run first numbers).admits_iff
  · intro w sequence hrefused
    exact SequenceWindow.tryAdmit_refused hrefused
  · intro isExpired lane frame nowUnixUs error herror
    rcases @TalkbackLane.publish_cases isExpired lane frame nowUnixUs with
      ⟨-, hsame⟩ | ⟨fanout, route, window, hok, -⟩
    · exact hsame
    · rw [hok] at herror
      cases herror

end AvMesh.Talkback
