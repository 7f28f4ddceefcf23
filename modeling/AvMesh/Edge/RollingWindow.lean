/-
  AvMesh.Edge.RollingWindow
  ─────────────────────────
  **THE ROLLING WINDOW AGAINST A FULL RECOMPUTATION** (`RollingEgressWindow`,
  src/edge_admission.rs).

  The window merges the bytes of one second into one bucket and pops old
  buckets whenever it is used.  `naiveRate` knows nothing of buckets: it goes
  through everything that was ever recorded.

  `collect` is the window that never pops.  As long as the seconds do not
  decrease, pruning the real one gives what pruning `collect` would give
  (`prune_exec`), and popping from the front is filtering, because the seconds
  ascend:

    • `rate_eq_naiveRate` — the rate is the naive one, and no more buckets are
                            kept than the window has seconds, in every run.
-/
import AvMesh.Edge.Admission
import AvMesh.Lib.KeyWindow

namespace AvMesh.Edge

open AvMesh.Lib

namespace RollingEgressWindow

/-! ## §1. Runs and the naive rate. -/

inductive Op where
  | record (second bytes : UInt64)
  | rate (second : UInt64)
  deriving Repr, DecidableEq

/-- The second an operation works at. -/
def Op.second : Op → Nat
  | .record second _ => second.toNat
  | .rate second => second.toNat

/-- What an operation records. -/
def Op.recorded : Op → Option (Nat × Nat)
  | .record second bytes => some (second.toNat, bytes.toNat)
  | .rate _ => none

def step (windowSeconds : UInt64) (w : RollingEgressWindow) :
    Op → Option (Nat × Nat) × RollingEgressWindow
  | .record second bytes => (none, w.record second.toNat bytes.toNat windowSeconds.toNat)
  | .rate second =>
      let (reply, w) := w.rate second.toNat windowSeconds.toNat
      (some reply, w)

def SecondsOrdered (ops : List Op) : Prop := ops.Pairwise fun a b => a.second ≤ b.second

instance (ops : List Op) : Decidable (SecondsOrdered ops) :=
  inferInstanceAs (Decidable (List.Pairwise _ _))

/-- Everything recorded so far, seconds and bytes. -/
def records (ops : List Op) : List (Nat × Nat) := ops.filterMap Op.recorded

/-- The records of the `windowSeconds` seconds up to `second`. -/
def inRange (windowSeconds second : Nat) (recs : List (Nat × Nat)) : List (Nat × Nat) :=
  recs.filter fun r => second < r.1 + windowSeconds && r.1 ≤ second

/-- The rate in bits per second over the seconds from the earliest record in range. -/
def naiveRate (windowSeconds second : Nat) (recs : List (Nat × Nat)) : Nat × Nat :=
  match ((inRange windowSeconds second recs).map (·.1)).min? with
  | none => (0, 0)
  | some earliest =>
      -- from the earliest record in range to now, both counted
      let seconds := second - earliest + 1
      let bytes := min ((inRange windowSeconds second recs).map (·.2)).sum u64Max
      (min (8 * bytes) u64Max / seconds, seconds)

/-! ## §2. The window that never pops. -/

/-- The buckets as numbered items. -/
def entries (w : RollingEgressWindow) : List (Nat × Nat) :=
  w.buckets.map fun bucket => (bucket.second, bucket.bytes)

/-- The bytes of one write, into the last bucket or a new one. -/
def put (buckets : List (Nat × Nat)) (second bytes : Nat) : List (Nat × Nat) :=
  match buckets.getLast? with
  | some last =>
      if last.1 = second then buckets.dropLast ++ [(last.1, satAdd last.2 bytes)]
      else buckets ++ [(second, bytes)]
  | none => buckets ++ [(second, bytes)]

/-- Every record, merged by seconds. -/
def collect (recs : List (Nat × Nat)) : List (Nat × Nat) :=
  recs.foldl (fun buckets r => put buckets r.1 r.2) []

/-- The saturating total of the buckets. -/
def satTotal (buckets : List (Nat × Nat)) : Nat :=
  buckets.foldl (fun total bucket => satAdd total bucket.2) 0

section Put

variable {buckets init : List (Nat × Nat)} {last : Nat × Nat} {second bytes oldest : Nat}

@[simp] theorem put_nil : put [] second bytes = [(second, bytes)] := rfl

theorem put_append_same (h : last.1 = second) :
    put (init ++ [last]) second bytes = init ++ [(last.1, satAdd last.2 bytes)] := by
  unfold put
  rw [List.getLast?_append, List.getLast?_singleton, List.dropLast_concat]
  exact if_pos h

theorem put_append_new (h : last.1 ≠ second) :
    put (init ++ [last]) second bytes = init ++ [last] ++ [(second, bytes)] := by
  unfold put
  rw [List.getLast?_append, List.getLast?_singleton]
  exact if_neg h

theorem collect_append_singleton (recs : List (Nat × Nat)) (r : Nat × Nat) :
    collect (recs ++ [r]) = put (collect recs) r.1 r.2 := by
  unfold collect
  rw [List.foldl_append, List.foldl_cons, List.foldl_nil]

theorem satTotal_append_singleton (bucket : Nat × Nat) :
    satTotal (buckets ++ [bucket]) = satAdd (satTotal buckets) bucket.2 := by
  unfold satTotal
  rw [List.foldl_append, List.foldl_cons, List.foldl_nil]

theorem satAdd_assoc (a b c : Nat) : satAdd a (satAdd b c) = satAdd (satAdd a b) c := by
  unfold satAdd
  omega

/-- A second that is not old stays behind the pruned buckets: pruning first changes nothing. -/
theorem dropWhile_put (h : oldest ≤ second) :
    (put buckets second bytes).dropWhile (fun b => b.1 < oldest) =
      put (buckets.dropWhile fun b => b.1 < oldest) second bytes := by
  have hkeep : ∀ bytes' : Nat, [(second, bytes')].dropWhile (fun b => decide (b.1 < oldest)) =
      [(second, bytes')] := by
    intro bytes'
    rw [List.dropWhile_cons_of_neg]
    simpa using h
  induction buckets using List.reverseRecOn with
  | nil => exact hkeep bytes
  | append_singleton init last _ =>
      by_cases hsame : last.1 = second
      -- written into the last bucket, which is as new as the write
      · have hlast : [last].dropWhile (fun b => decide (b.1 < oldest)) = [last] := by
          rw [List.dropWhile_cons_of_neg]
          simpa [hsame] using h
        rw [put_append_same hsame, hsame, List.dropWhile_append, List.dropWhile_append, hkeep,
          hlast]
        split
        · rw [← List.nil_append [last], put_append_same hsame, hsame, List.nil_append]
        · rw [put_append_same hsame, hsame]
      · have hnew := @List.dropWhile_append _ (fun b : Nat × Nat => decide (b.1 < oldest))
          (init ++ [last]) [(second, bytes)]
        rw [put_append_new hsame, hnew, hkeep]
        -- what is left of the old buckets ends in `last`, or is empty
        cases hleft : (init ++ [last]).dropWhile (fun b => decide (b.1 < oldest)) using
          List.reverseRecOn with
        | nil => rfl
        | append_singleton left end' =>
            have hend : end' = last := by
              have hsuffix := List.dropWhile_suffix (l := init ++ [last])
                (fun b => decide (b.1 < oldest))
              rw [hleft] at hsuffix
              obtain ⟨front, hfront⟩ := hsuffix
              rw [← List.append_assoc] at hfront
              exact List.singleton_inj.mp (List.append_inj' hfront rfl).2
            rw [hend, put_append_new hsame]
            simp

theorem map_fst_put :
    (put buckets second bytes).map (·.1) =
      if (buckets.map (·.1)).getLast? = some second then buckets.map (·.1)
      else buckets.map (·.1) ++ [second] := by
  induction buckets using List.reverseRecOn with
  | nil => rfl
  | append_singleton init last _ =>
      rw [List.map_append, List.map_singleton, List.getLast?_concat]
      by_cases hsame : last.1 = second
      · rw [put_append_same hsame, if_pos (congrArg some hsame), List.map_append,
          List.map_singleton]
      · rw [put_append_new hsame, if_neg fun h => hsame (Option.some.inj h), List.map_append,
          List.map_append]
        rfl

/-- One more write of a second adds to the total of the buckets that count its second. -/
theorem satTotal_filter_put (p : Nat → Bool) :
    satTotal ((put buckets second bytes).filter fun b => p b.1) =
      if p second then satAdd (satTotal (buckets.filter fun b => p b.1)) bytes
      else satTotal (buckets.filter fun b => p b.1) := by
  induction buckets using List.reverseRecOn with
  | nil =>
      cases hp : p second
      · simp [hp]
      · simp [hp, satTotal]
  | append_singleton init last _ =>
      -- into the last bucket, whose second is counted or not; else a bucket of its own
      by_cases hsame : last.1 = second
      · rw [put_append_same hsame, List.filter_append, List.filter_append]
        cases hp : p second
        · simp [hsame, hp]
        · simp [hsame, hp, satTotal_append_singleton, satAdd_assoc]
      · have hnew : (put (init ++ [last]) second bytes).filter (fun b => p b.1) =
            (init ++ [last]).filter (fun b => p b.1) ++ if p second then [(second, bytes)] else [] := by
          rw [put_append_new hsame, List.filter_append, List.filter_singleton,
            Bool.cond_eq_ite]
        rw [hnew]
        cases hp : p second
        · simp
        · rw [if_pos rfl, if_pos rfl, satTotal_append_singleton]

end Put

/-! ## §3. What the collected buckets hold. -/

section Collect

variable {recs : List (Nat × Nat)}

theorem mem_seconds_collect {second : Nat} :
    second ∈ (collect recs).map (·.1) ↔ second ∈ recs.map (·.1) := by
  induction recs using List.reverseRecOn with
  | nil => rfl
  | append_singleton recs r ih =>
      rw [collect_append_singleton, map_fst_put, List.map_append, List.mem_append, ← ih]
      split
      next hlast =>
        have hmem := List.mem_of_getLast? hlast
        simp only [List.map_singleton, List.mem_singleton]
        -- the second of the record is that of the last bucket already
        constructor
        · exact fun h => .inl h
        · intro h
          rcases h with h | h
          · exact h
          · rw [h]
            exact hmem
      next => rw [List.mem_append, List.map_singleton]

/-- The seconds of the buckets ascend, when those of the records do not decrease. -/
theorem ascending_collect (h : recs.Pairwise fun a b => a.1 ≤ b.1) : Ascending (collect recs) := by
  have hseconds : ((collect recs).map (·.1)).Pairwise (· < ·) := by
    induction recs using List.reverseRecOn with
    | nil => exact List.Pairwise.nil
    | append_singleton recs r ih =>
        obtain ⟨hrecs, -, hlast⟩ := List.pairwise_append.mp h
        have hbefore := ih hrecs
        rw [collect_append_singleton, map_fst_put]
        split
        · exact hbefore
        next hnew =>
          refine List.pairwise_append.mpr ⟨hbefore, List.pairwise_singleton _ _, ?_⟩
          intro s hs s' hs'
          rw [List.mem_singleton.mp hs']
          -- the last bucket is of an earlier second, and the others are before it
          have hle : ∀ t ∈ (collect recs).map (·.1), t ≤ r.1 := by
            intro t ht
            obtain ⟨old, hold, rfl⟩ := List.mem_map.mp (mem_seconds_collect.mp ht)
            exact hlast old hold r (List.mem_singleton.mpr rfl)
          cases hlists : (collect recs).map (·.1) using List.reverseRecOn with
          | nil =>
              rw [hlists] at hs
              cases hs
          | append_singleton front last =>
              rw [hlists] at hs hnew hbefore hle
              rw [List.getLast?_concat, Option.some.injEq] at hnew
              have hlastle := hle last (by simp)
              rcases List.mem_append.mp hs with hs | hs
              · have hlt := (List.pairwise_append.mp hbefore).2.2 s hs last (by simp)
                omega
              · rw [List.mem_singleton.mp hs]
                omega
  exact List.pairwise_map.mp hseconds

theorem satTotal_filter_collect (p : Nat → Bool) :
    satTotal ((collect recs).filter fun b => p b.1) =
      min ((recs.filter fun r => p r.1).map (·.2)).sum u64Max := by
  induction recs using List.reverseRecOn with
  | nil => rfl
  | append_singleton recs r ih =>
      rw [collect_append_singleton, satTotal_filter_put, ih, List.filter_append, List.map_append,
        List.sum_append]
      cases hp : p r.1
      · simp [hp]
      · simp only [hp, if_true, List.filter_cons_of_pos, List.filter_nil, List.map_singleton,
          List.sum_singleton]
        unfold satAdd
        omega

end Collect

/-! ## §4. One operation. -/

section Step

variable {w : RollingEgressWindow} {second bytes windowSeconds : Nat}

theorem entries_prune : (w.prune second windowSeconds).entries =
    w.entries.dropWhile fun b => b.1 < second - (windowSeconds - 1) := by
  unfold entries prune
  rw [List.dropWhile_map]
  rfl

theorem entries_record : (w.record second bytes windowSeconds).entries =
    put (w.prune second windowSeconds).entries second bytes := by
  have hlast : (w.prune second windowSeconds).entries.getLast? =
      (w.prune second windowSeconds).buckets.getLast?.map fun b => (b.second, b.bytes) :=
    List.getLast?_map
  unfold record put
  dsimp only
  rw [hlast]
  cases (w.prune second windowSeconds).buckets.getLast? with
  | none => exact List.map_append
  | some last =>
      dsimp only [Option.map_some]
      split
      · unfold entries
        rw [List.map_append, List.map_dropLast]
        rfl
      · exact List.map_append

/-- The rate, read off the pruned buckets. -/
theorem rate_eq : (w.rate second windowSeconds).1 =
    match (w.prune second windowSeconds).entries with
    | [] => (0, 0)
    | first :: rest =>
        let seconds := min (satAdd (second - first.1) 1) windowSeconds
        (satMul (satTotal (first :: rest)) 8 / max seconds 1, seconds) := by
  unfold rate
  dsimp only
  cases hbuckets : (w.prune second windowSeconds).buckets with
  | nil => simp [entries, hbuckets]
  | cons first rest =>
      have hentries : (w.prune second windowSeconds).entries =
          (first.second, first.bytes) :: rest.map fun b => (b.second, b.bytes) := by
        unfold entries
        rw [hbuckets, List.map_cons]
      have htotal : satTotal ((first.second, first.bytes) :: rest.map fun b => (b.second, b.bytes)) =
          (first :: rest).foldl (fun total bucket => satAdd total bucket.bytes) 0 := by
        unfold satTotal
        rw [← List.map_cons (f := fun b : EgressBucket => (b.second, b.bytes)), List.foldl_map]
      rw [hentries]
      dsimp only
      rw [htotal]

end Step

/-! ## §5. Runs. -/

section Runs

variable {windowSeconds : UInt64} {ops : List Op} {op : Op}

theorem dropWhile_dropWhile {buckets : List (Nat × Nat)} {older oldest : Nat}
    (h : older ≤ oldest) :
    (buckets.dropWhile fun b => b.1 < older).dropWhile (fun b => b.1 < oldest) =
      buckets.dropWhile fun b => b.1 < oldest := by
  induction buckets with
  | nil => rfl
  | cons first rest ih =>
      by_cases hfirst : first.1 < older
      · have hfirst' : first.1 < oldest := by omega
        rw [List.dropWhile_cons_of_pos (by simpa using hfirst), ih,
          List.dropWhile_cons_of_pos (by simpa using hfirst')]
      · rw [List.dropWhile_cons_of_neg (by simpa using hfirst)]

theorem records_append_singleton (op : Op) :
    records (ops ++ [op]) = records ops ++ op.recorded.toList := by
  unfold records
  rw [List.filterMap_append]
  cases op with
  | record second bytes => rfl
  | rate second => rfl

theorem second_of_mem_records {r : Nat × Nat} (h : r ∈ records ops) :
    ∃ op ∈ ops, op.second = r.1 := by
  obtain ⟨op, hop, hrecorded⟩ := List.mem_filterMap.mp h
  refine ⟨op, hop, ?_⟩
  cases op with
  | record second bytes =>
      rw [← Option.some.inj hrecorded]
      rfl
  | rate second => cases hrecorded

theorem SecondsOrdered.records (h : SecondsOrdered ops) :
    (records ops).Pairwise fun a b => a.1 ≤ b.1 := by
  induction ops using List.reverseRecOn with
  | nil => exact List.Pairwise.nil
  | append_singleton ops op ih =>
      obtain ⟨hops, -, hlast⟩ := List.pairwise_append.mp h
      rw [records_append_singleton]
      refine List.pairwise_append.mpr ⟨ih hops, ?_, ?_⟩
      · cases op with
        | record second bytes => exact List.pairwise_singleton _ _
        | rate second => exact List.Pairwise.nil
      · intro r hr r' hr'
        obtain ⟨before, hbefore, hsecond⟩ := second_of_mem_records hr
        have hle := hlast before hbefore op (List.mem_singleton.mpr rfl)
        cases op with
        | record second bytes =>
            rw [List.mem_singleton.mp hr', ← hsecond]
            exact hle
        | rate second => cases hr'

/-- **One operation**: what the window holds is what pruning all records leaves. -/
theorem entries_step {w : RollingEgressWindow}
    (hprune : (w.prune op.second windowSeconds.toNat).entries =
      (collect (records ops)).dropWhile fun b => b.1 < op.second - (windowSeconds.toNat - 1)) :
    (step windowSeconds w op).2.entries =
      (collect (records (ops ++ [op]))).dropWhile
        fun b => b.1 < op.second - (windowSeconds.toNat - 1) := by
  rw [records_append_singleton]
  cases op with
  | record second bytes =>
      show (w.record second.toNat bytes.toNat windowSeconds.toNat).entries = _
      rw [entries_record]
      show put (w.prune (Op.record second bytes).second windowSeconds.toNat).entries _ _ = _
      rw [hprune]
      show put ((collect (records ops)).dropWhile
          fun b => b.1 < second.toNat - (windowSeconds.toNat - 1)) _ _ =
        (collect (records ops ++ [(second.toNat, bytes.toNat)])).dropWhile
          fun b => b.1 < second.toNat - (windowSeconds.toNat - 1)
      rw [collect_append_singleton, dropWhile_put (Nat.sub_le _ _)]
  | rate second =>
      show (w.rate second.toNat windowSeconds.toNat).2.entries = _
      have hstate : (w.rate second.toNat windowSeconds.toNat).2 =
          w.prune second.toNat windowSeconds.toNat := by
        unfold rate
        dsimp only
        split
        · rfl
        · rfl
      rw [hstate]
      show _ = (collect (records ops ++ [])).dropWhile _
      rw [List.append_nil]
      exact hprune

/-- **Every run**: from the last operation on, pruning the window is pruning all records. -/
theorem prune_exec (h : SecondsOrdered ops) {now : Nat} (hnow : ∀ op ∈ ops, op.second ≤ now) :
    ((exec (step windowSeconds) {} ops).prune now windowSeconds.toNat).entries =
      (collect (records ops)).dropWhile fun b => b.1 < now - (windowSeconds.toNat - 1) := by
  induction ops using List.reverseRecOn generalizing now with
  | nil => rfl
  | append_singleton ops op ih =>
      obtain ⟨hops, -, hlast⟩ := List.pairwise_append.mp h
      have hop : op.second ≤ now := hnow op (by simp)
      rw [exec_append, exec_cons, exec_nil, entries_prune,
        entries_step (ih hops fun before hbefore => hlast before hbefore op (by simp)),
        dropWhile_dropWhile (by omega)]

theorem entries_exec_append (h : SecondsOrdered (ops ++ [op])) :
    (exec (step windowSeconds) {} (ops ++ [op])).entries =
      (collect (records (ops ++ [op]))).dropWhile
        fun b => b.1 < op.second - (windowSeconds.toNat - 1) := by
  obtain ⟨hops, -, hlast⟩ := List.pairwise_append.mp h
  rw [exec_append, exec_cons, exec_nil]
  exact entries_step (prune_exec hops fun before hbefore => hlast before hbefore op (by simp))

end Runs

/-! ## §6. The naive rate. -/

section Naive

variable {recs : List (Nat × Nat)} {second windowSeconds : Nat}

/-- The collected buckets in range, when no record is of a later second. -/
theorem dropWhile_collect (h : recs.Pairwise fun a b => a.1 ≤ b.1) (oldest : Nat) :
    (collect recs).dropWhile (fun b => b.1 < oldest) =
      (collect recs).filter fun b => !decide (b.1 < oldest) :=
  (ascending_collect h).dropWhile_lt oldest

theorem inRange_eq (hpast : ∀ r ∈ recs, r.1 ≤ second) (hwindow : 1 ≤ windowSeconds) :
    inRange windowSeconds second recs =
      recs.filter fun r => !decide (r.1 < second - (windowSeconds - 1)) := by
  unfold inRange
  refine List.filter_congr ?_
  intro r hr
  have hle := hpast r hr
  rw [Bool.eq_iff_iff]
  simp only [Bool.and_eq_true, decide_eq_true_eq, Bool.not_eq_true', decide_eq_false_iff_not]
  omega

/-- The first bucket in range is of the earliest second recorded in range. -/
theorem min_inRange (h : recs.Pairwise fun a b => a.1 ≤ b.1)
    (hpast : ∀ r ∈ recs, r.1 ≤ second) (hwindow : 1 ≤ windowSeconds) :
    ((inRange windowSeconds second recs).map (·.1)).min? =
      (((collect recs).filter fun b =>
        !decide (b.1 < second - (windowSeconds - 1))).map (·.1)).head? := by
  have hascending : Ascending ((collect recs).filter fun b =>
      !decide (b.1 < second - (windowSeconds - 1))) :=
    (ascending_collect h).sublist List.filter_sublist
  have hmem : ∀ s, s ∈ (inRange windowSeconds second recs).map (·.1) ↔
      s ∈ ((collect recs).filter fun b => !decide (b.1 < second - (windowSeconds - 1))).map
        (·.1) := by
    intro s
    have hseconds : s ∈ (collect recs).map (·.1) ↔ s ∈ recs.map (·.1) := mem_seconds_collect
    rw [inRange_eq hpast hwindow]
    simp only [List.mem_map, List.mem_filter] at hseconds ⊢
    constructor
    · rintro ⟨r, ⟨hr, hin⟩, rfl⟩
      obtain ⟨b, hb, hbs⟩ := hseconds.mpr ⟨r, hr, rfl⟩
      exact ⟨b, ⟨hb, by rw [hbs]; exact hin⟩, hbs⟩
    · rintro ⟨b, ⟨hb, hin⟩, rfl⟩
      obtain ⟨r, hr, hrs⟩ := hseconds.mp ⟨b, hb, rfl⟩
      exact ⟨r, ⟨hr, by rw [hrs]; exact hin⟩, hrs⟩
  cases hkept : (collect recs).filter fun b => !decide (b.1 < second - (windowSeconds - 1)) with
  | nil =>
      rw [hkept] at hmem
      rw [List.map_nil, List.head?_nil, List.min?_eq_none_iff, List.eq_nil_iff_forall_not_mem]
      intro s hs
      exact List.not_mem_nil ((hmem s).mp hs)
  | cons first rest =>
      rw [hkept] at hmem hascending
      rw [List.map_cons, List.head?_cons, List.min?_eq_some_iff]
      refine ⟨(hmem _).mpr List.mem_cons_self, ?_⟩
      intro s hs
      rcases List.mem_cons.mp ((hmem s).mp hs) with rfl | hrest
      · exact Nat.le_refl _
      · obtain ⟨b, hb, rfl⟩ := List.mem_map.mp hrest
        exact Nat.le_of_lt ((List.pairwise_cons.mp hascending).1 b hb)

/-- What the pruned buckets say is what the records say. -/
theorem rate_collect {w : RollingEgressWindow} (h : recs.Pairwise fun a b => a.1 ≤ b.1)
    (hpast : ∀ r ∈ recs, r.1 ≤ second) (hwindow : 1 ≤ windowSeconds)
    (hmax : windowSeconds ≤ u64Max)
    (hentries : (w.prune second windowSeconds).entries =
      (collect recs).dropWhile fun b => b.1 < second - (windowSeconds - 1)) :
    (w.rate second windowSeconds).1 = naiveRate windowSeconds second recs := by
  have htotal := @satTotal_filter_collect recs
    fun s => !decide (s < second - (windowSeconds - 1))
  have hmin := min_inRange h hpast hwindow
  have hrange := inRange_eq hpast hwindow
  rw [dropWhile_collect h] at hentries
  rw [rate_eq, hentries]
  unfold naiveRate
  rw [hmin, hrange]
  cases hkept : (collect recs).filter fun b => !decide (b.1 < second - (windowSeconds - 1)) with
  | nil => rfl
  | cons first rest =>
      rw [hkept] at htotal
      have hfirst : second - (windowSeconds - 1) ≤ first.1 := by
        have hmem : first ∈ (collect recs).filter fun b =>
            !decide (b.1 < second - (windowSeconds - 1)) := by
          rw [hkept]
          exact List.mem_cons_self
        have hin := (List.mem_filter.mp hmem).2
        simpa using hin
      -- within the window neither the addition nor the minimum clamps
      have hseconds : min (satAdd (second - first.1) 1) windowSeconds = second - first.1 + 1 := by
        rw [satAdd_of_le (by omega)]
        omega
      rw [List.map_cons, List.head?_cons]
      dsimp only
      rw [hseconds, htotal]
      unfold satMul
      rw [Nat.max_eq_left (by omega), Nat.mul_comm]

end Naive

/-- The window holds no more buckets than it has seconds. -/
theorem length_buckets_exec {windowSeconds : UInt64} {ops : List Op}
    (hpositive : 1 ≤ windowSeconds.toNat) (hordered : SecondsOrdered ops) :
    (exec (step windowSeconds) {} ops).buckets.length ≤ windowSeconds.toNat := by
  cases ops using List.reverseRecOn with
  | nil => exact Nat.zero_le _
  | append_singleton ops op =>
      have hentries := @entries_exec_append windowSeconds ops op hordered
      have hrecords := SecondsOrdered.records hordered
      rw [dropWhile_collect hrecords] at hentries
      have hlength : (exec (step windowSeconds) {} (ops ++ [op])).buckets.length =
          (exec (step windowSeconds) {} (ops ++ [op])).entries.length := by
        unfold entries
        rw [List.length_map]
      have hascending : Ascending
          ((exec (step windowSeconds) {} (ops ++ [op])).entries) := by
        rw [hentries]
        exact (ascending_collect hrecords).sublist List.filter_sublist
      -- all buckets are of the `windowSeconds` seconds up to the last operation
      have hlow : ∀ b ∈ (exec (step windowSeconds) {} (ops ++ [op])).entries,
          op.second - (windowSeconds.toNat - 1) ≤ b.1 := by
        intro b hb
        rw [hentries] at hb
        simpa using (List.mem_filter.mp hb).2
      have hhigh : ∀ b ∈ (exec (step windowSeconds) {} (ops ++ [op])).entries,
          b.1 < op.second + 1 := by
        intro b hb
        rw [hentries] at hb
        obtain ⟨r, hr, hrs⟩ := List.mem_map.mp (mem_seconds_collect.mp
          (List.mem_map_of_mem (List.mem_filter.mp hb).1))
        obtain ⟨earlier, hearlier, hsecond⟩ := second_of_mem_records hr
        rw [← hrs, ← hsecond]
        rcases List.mem_append.mp hearlier with hearlier | hearlier
        · have hle := (List.pairwise_append.mp hordered).2.2 earlier hearlier op (by simp)
          omega
        · rw [List.mem_singleton.mp hearlier]
          omega
      have hle := hascending.length_le hlow hhigh
      omega

/-- **The rolling window**: after every run whose seconds do not decrease the rate is the naive
one, and there are at most `windowSeconds` buckets. -/
theorem rate_eq_naiveRate {windowSeconds : UInt64} (hwindow : 1 ≤ windowSeconds) {ops : List Op}
    (hordered : SecondsOrdered ops) :
    (∀ before second after, ops = before ++ .rate second :: after →
      ((exec (step windowSeconds) {} before).rate second.toNat windowSeconds.toNat).1 =
        naiveRate windowSeconds.toNat second.toNat (records before)) ∧
    ∀ before after, ops = before ++ after →
      (exec (step windowSeconds) {} before).buckets.length ≤ windowSeconds.toNat := by
  have hpositive : 1 ≤ windowSeconds.toNat := UInt64.le_iff_toNat_le.mp hwindow
  refine ⟨?_, ?_⟩
  · intro before second after hsplit
    rw [hsplit] at hordered
    obtain ⟨hbefore, -, hlast⟩ := List.pairwise_append.mp hordered
    have hpast : ∀ op ∈ before, op.second ≤ second.toNat := fun op hop =>
      hlast op hop (.rate second) List.mem_cons_self
    refine rate_collect (SecondsOrdered.records hbefore) ?_ hpositive (toNat_le_u64Max _)
      (prune_exec hbefore hpast)
    intro r hr
    obtain ⟨op, hop, hsecond⟩ := second_of_mem_records hr
    rw [← hsecond]
    exact hpast op hop
  · intro before after hsplit
    rw [hsplit] at hordered
    have hbefore := (List.pairwise_append.mp hordered).1
    exact length_buckets_exec hpositive hbefore

/-- Ten seconds: a long pause empties the window, and the first record in range sets its length. -/
theorem rate_eq_naiveRate_pause :
    ((exec (step 10) {} [.record 0 8, .record 95 1000, .record 100 1000]).rate 100 10).1 =
      (2666, 6) := by
  have hrate := (@rate_eq_naiveRate 10 (by decide)
    [.record 0 8, .record 95 1000, .record 100 1000, .rate 100] (by decide)).1
    [.record 0 8, .record 95 1000, .record 100 1000] 100 [] rfl
  exact hrate.trans (by decide)

end RollingEgressWindow

end AvMesh.Edge
