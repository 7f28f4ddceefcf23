/-
  AvMesh.Telemetry.Percentile
  ───────────────────────────
  **THE 95TH PERCENTILE OF A DURATION HISTOGRAM**
  (`AtomicDurationHistogram`, `histogram_percentile_upper_bound_us`).

  A histogram of durations counts each one in the first of 13 buckets whose
  bound it does not exceed.  Two consumers compute a percentile from it with
  one function that expects CUMULATIVE counts: `EdgeLoad::snapshot` adds the
  buckets up first, `relay_ingress_snapshot` hands them on as they are.

    • `recorded_spec` — what a histogram holds after a list of recordings,
    • `edge_p95_exact` — the edge's bound is the smallest bucket bound that the
      nearest-rank percentile does not exceed, or the maximum,
    • `relay_p95_exact_iff` — the relay's bound is that value on the lists of
      `SingleBucketDecides` and on no others,
    • `slow_relay_alerted` — it is never below the percentile, so the alert of a
      slow relay is not missed.

  Main result: `p95_bounds_exact_iff`.
-/
import AvMesh.Lib.Histogram
import AvMesh.Lib.Machine
import Mathlib.Data.List.Induction

namespace AvMesh.Telemetry

open AvMesh.Lib

/-! ## §1. The histogram. -/

/-- `EDGE_RESPONSE_DURATION_BUCKETS_US`. -/
def edgeResponseDurationBucketsUs : List Nat :=
  [100, 250, 500, 1000, 2500, 5000, 10000, 25000, 50000, 100000, 250000, 500000, 1000000]

abbrev BucketIndex := Fin edgeResponseDurationBucketsUs.length

/-- The upper bound of a bucket. -/
def bound (i : BucketIndex) : Nat := edgeResponseDurationBucketsUs.get i

theorem bound_monotone : Monotone bound := by
  intro i j hij
  revert i j
  decide

/-- One count for each bucket. -/
abbrev Buckets := BucketIndex → Nat

structure AtomicDurationHistogram where
  count : Nat := 0
  sumUs : Nat := 0
  maxUs : Nat := 0
  buckets : Buckets := fun _ => 0

/-- `fetch_add`, which wraps around at 2^64. -/
def fetchAdd (counter n : Nat) : Nat := (counter + n) % 2 ^ 64

namespace AtomicDurationHistogram

def recordUs (h : AtomicDurationHistogram) (durationUs : Nat) : AtomicDurationHistogram where
  count := fetchAdd h.count 1
  sumUs := fetchAdd h.sumUs durationUs
  maxUs := max h.maxUs durationUs
  buckets :=
    match cell bound durationUs with
    | some index => Function.update h.buckets index (fetchAdd (h.buckets index) 1)
    -- above every bound: in the count and the maximum only
    | none => h.buckets

/-- The histogram after a list of recordings. -/
def recorded (durations : List Nat) : AtomicDurationHistogram :=
  durations.foldl recordUs {}

end AtomicDurationHistogram

/-! ## §2. The percentile and its two consumers. -/

def histogramPercentileUpperBoundUs (count : Nat) (buckets : Buckets) (percentile maxUs : Nat) :
    Option Nat :=
  if count = 0 then none
  else
    let rank := satAdd (satMul count percentile) 99 / 100
    -- the buckets are taken as running totals, whatever the caller passes
    (((List.finRange _).find? fun index => rank ≤ buckets index).map bound).or (some maxUs)

/-- The running totals `EdgeLoad::snapshot` exports. -/
def cumulativeBuckets (buckets : Buckets) : Buckets := fun i =>
  ((List.finRange _).take (i.val + 1)).foldl
    (fun cumulative index => satAdd cumulative (buckets index)) 0

/-- The response-duration fields of an `EdgeServiceSnapshot`. -/
structure EdgeResponseDuration where
  responseDurationCount : Nat
  responseDurationSumUs : Nat
  responseDurationP95Us : Option Nat
  responseDurationBuckets : Buckets

/-- `EdgeLoad::snapshot`, its response durations. -/
def edgeLoadSnapshot (responseDuration : AtomicDurationHistogram) : EdgeResponseDuration where
  responseDurationCount := responseDuration.count
  responseDurationSumUs := responseDuration.sumUs
  responseDurationP95Us :=
    histogramPercentileUpperBoundUs responseDuration.count
      (cumulativeBuckets responseDuration.buckets) 95 responseDuration.maxUs
  responseDurationBuckets := cumulativeBuckets responseDuration.buckets

/-- The processing-duration fields of a `RelaySessionIngressSnapshot`. -/
structure RelayProcessingDuration where
  processingDurationCount : Nat
  processingDurationSumUs : Nat
  processingDurationMaxUs : Nat
  processingDurationBuckets : Buckets

/-- `relay_ingress_snapshot`, its processing durations: the buckets are loaded
one by one. -/
def relayIngressSnapshot (relayProcessing : AtomicDurationHistogram) :
    RelayProcessingDuration where
  processingDurationCount := relayProcessing.count
  processingDurationSumUs := relayProcessing.sumUs
  processingDurationMaxUs := relayProcessing.maxUs
  -- the single counts, where `EdgeLoad::snapshot` exports running totals
  processingDurationBuckets := relayProcessing.buckets

/-- The percentile `derive_mesh_alerts` computes for a relay. -/
def relayProcessingP95Us (relay : RelayProcessingDuration) : Option Nat :=
  histogramPercentileUpperBoundUs relay.processingDurationCount relay.processingDurationBuckets 95
    relay.processingDurationMaxUs

structure MeshAlert where
  level : String
  code : String
  message : String
  count : Nat
  lastSeenUnixMs : Option Nat
  nodeId : Option String
  streamIdText : Option String
  deriving Repr, DecidableEq

/-- `RELAY_PROCESSING_P95_WARN_US`. -/
def relayProcessingP95WarnUs : Nat := 1000

/-- The loop of `derive_mesh_alerts` over the relays, by node id. -/
def relayProcessingAlerts (now : Nat) (relayNodes : List (String × RelayProcessingDuration)) :
    List MeshAlert :=
  relayNodes.filterMap fun node =>
    match relayProcessingP95Us node.2 with
    | none => none
    | some processingP95Us =>
        if relayProcessingP95WarnUs < processingP95Us then
          some {
            level := "warn"
            code := "relay_processing_p95_exceeded"
            message := "Relay " ++ node.1 ++ " application processing p95 is "
              ++ toString processingP95Us ++ " us; the interactive and premium limit is "
              ++ toString relayProcessingP95WarnUs ++ " us."
            count := processingP95Us
            lastSeenUnixMs := some now
            nodeId := some node.1
            streamIdText := none }
        else none

/-- The alerts are those of the relays whose percentile is above the limit. -/
theorem mem_relayProcessingAlerts_iff {now : Nat} {relayNodes : List (String × RelayProcessingDuration)}
    {nodeId : String} {p95 : Nat} :
    (∃ alert ∈ relayProcessingAlerts now relayNodes, alert.nodeId = some nodeId ∧ alert.count = p95)
      ↔ ∃ relay, (nodeId, relay) ∈ relayNodes ∧ relayProcessingP95Us relay = some p95
          ∧ relayProcessingP95WarnUs < p95 := by
  unfold relayProcessingAlerts
  constructor
  · rintro ⟨alert, halert, hnode, hcount⟩
    obtain ⟨⟨id, relay⟩, hmem, hsome⟩ := List.mem_filterMap.mp halert
    cases hp95 : relayProcessingP95Us relay with
    | none => simp [hp95] at hsome
    | some p =>
        simp only [hp95] at hsome
        split at hsome
        · next hlimit =>
            cases hsome
            cases hnode
            cases hcount
            exact ⟨relay, hmem, hp95, hlimit⟩
        · cases hsome
  · rintro ⟨relay, hmem, hp95, hlimit⟩
    exact ⟨_, List.mem_filterMap.mpr ⟨(nodeId, relay), hmem, by
      simp only [hp95]
      exact if_pos hlimit⟩, by rfl, by rfl⟩

/-! ## §3. What a histogram holds. -/

/-- How many durations a bucket counts. -/
def inBucket (durations : List Nat) (i : BucketIndex) : Nat :=
  durations.countP fun d => cell bound d = some i

/-- How many durations are within a bound. -/
def within (durations : List Nat) (i : BucketIndex) : Nat :=
  durations.countP (· ≤ bound i)

namespace AtomicDurationHistogram

theorem recorded_append (durations : List Nat) (d : Nat) :
    recorded (durations ++ [d]) = (recorded durations).recordUs d := by
  unfold recorded
  rw [List.foldl_append]
  rfl

/-- **A histogram after its recordings**: as long as no count wraps around, it
holds their number, their maximum and the number in each bucket. -/
theorem recorded_spec (durations : List Nat) (hlen : durations.length < 2 ^ 64) :
    (recorded durations).count = durations.length
      ∧ (recorded durations).maxUs = durations.foldl max 0
      ∧ ∀ i, (recorded durations).buckets i = inBucket durations i := by
  induction durations using List.reverseRecOn with
  | nil => exact ⟨rfl, rfl, fun _ => rfl⟩
  | append_singleton durations d ih =>
      rw [List.length_append, List.length_singleton] at hlen
      obtain ⟨hcount, hmax, hbuckets⟩ := ih (by omega)
      rw [recorded_append]
      refine ⟨?_, ?_, ?_⟩
      · show fetchAdd (recorded durations).count 1 = _
        rw [hcount, List.length_append, List.length_singleton]
        exact Nat.mod_eq_of_lt hlen
      · show max (recorded durations).maxUs d = _
        rw [hmax, List.foldl_append]
        rfl
      · intro i
        have hle : inBucket durations i ≤ durations.length := List.countP_le_length
        have hnew : inBucket (durations ++ [d]) i
            = inBucket durations i + if cell bound d = some i then 1 else 0 := by
          unfold inBucket
          rw [List.countP_append, List.countP_singleton]
          simp
        rw [hnew]
        unfold recordUs
        -- at most one bucket counts the new duration
        cases hcell : cell bound d with
        | none => simpa using hbuckets i
        | some index =>
            show Function.update (recorded durations).buckets index _ i = _
            by_cases hi : i = index
            · subst hi
              rw [Function.update_self, hbuckets i, if_pos rfl]
              exact Nat.mod_eq_of_lt (by omega)
            · rw [Function.update_of_ne hi, hbuckets i, if_neg]
              · rfl
              · intro heq
                exact hi (Option.some.inj heq).symm

end AtomicDurationHistogram

/-- A running total that does not clamp is a sum. -/
theorem foldl_satAdd {ι : Type} (f : ι → Nat) (l : List ι) (start : Nat)
    (h : start + (l.map f).sum ≤ u64Max) :
    l.foldl (fun total i => satAdd total (f i)) start = start + (l.map f).sum := by
  induction l generalizing start with
  | nil => rfl
  | cons i l ih =>
      rw [List.map_cons, List.sum_cons] at h ⊢
      rw [List.foldl_cons, satAdd_of_le (by omega), ih _ (by omega)]
      omega

/-- The exported running totals count the durations within each bound. -/
theorem cumulativeBuckets_eq (durations : List Nat) (hlen : durations.length ≤ u64Max)
    (i : BucketIndex) : cumulativeBuckets (inBucket durations) i = within durations i := by
  have hsum : (((List.finRange _).take (i.val + 1)).map (inBucket durations)).sum
      = within durations i := countP_cells_le bound_monotone durations i
  have hle : within durations i ≤ durations.length := List.countP_le_length
  unfold cumulativeBuckets
  rw [foldl_satAdd _ _ _ (by omega), hsum, Nat.zero_add]

/-! ## §4. The nearest-rank percentile. -/

/-- The nearest rank of the 95th percentile of `n` samples: 95% of them, rounded
up. -/
def rank95 (n : Nat) : Nat := (n * 95 + 99) / 100

theorem rank95_pos {n : Nat} (h : 0 < n) : 0 < rank95 n := by
  unfold rank95
  omega

theorem rank95_le (n : Nat) : rank95 n ≤ n := by
  unfold rank95
  omega

/-- The rank is more than half of the samples. -/
theorem lt_two_mul_rank95 {n : Nat} (h : 0 < n) : n < 2 * rank95 n := by
  unfold rank95
  omega

theorem rank95_sub_one_lt {durations : List Nat} (hne : durations ≠ []) :
    rank95 durations.length - 1 < durations.length := by
  have hpos := rank95_pos (List.length_pos_iff.mpr hne)
  have hle := rank95_le durations.length
  omega

/-- The nearest-rank 95th percentile of a nonempty list. -/
def percentile95 (durations : List Nat) (hne : durations ≠ []) : Nat :=
  orderStatistic durations (rank95 durations.length - 1) (rank95_sub_one_lt hne)

/-- The smallest bucket bound that the percentile does not exceed, or the
maximum when it exceeds them all. -/
def percentile95Bound (durations : List Nat) (hne : durations ≠ []) : Nat :=
  match cell bound (percentile95 durations hne) with
  | some i => bound i
  | none => durations.max hne

/-- The percentile is within a bound exactly when enough durations are. -/
theorem percentile95_le_iff {durations : List Nat} (hne : durations ≠ []) (i : BucketIndex) :
    percentile95 durations hne ≤ bound i ↔ rank95 durations.length ≤ within durations i := by
  have hpos := rank95_pos (List.length_pos_iff.mpr hne)
  unfold percentile95 within
  rw [orderStatistic_le_iff]
  omega

theorem cell_percentile95_iff {durations : List Nat} (hne : durations ≠ []) (i : BucketIndex) :
    cell bound (percentile95 durations hne) = some i
      ↔ rank95 durations.length ≤ within durations i
        ∧ ∀ j < i, within durations j < rank95 durations.length := by
  rw [cell_eq_some_iff, percentile95_le_iff]
  refine and_congr_right fun _ => forall_congr' fun j => imp_congr_right fun _ => ?_
  rw [← not_le, percentile95_le_iff, not_le]

/-! ## §5. The two consumers against the percentile. -/

/-- What the percentile function computes once the counts are those of a list. -/
theorem histogramPercentile_recorded {durations : List Nat} (hne : durations ≠ [])
    (hlen : durations.length < 2 ^ 57) (counts : Buckets) :
    histogramPercentileUpperBoundUs (AtomicDurationHistogram.recorded durations).count counts 95
        (AtomicDurationHistogram.recorded durations).maxUs
      = match (List.finRange _).find? fun i => decide (rank95 durations.length ≤ counts i) with
        | some i => some (bound i)
        | none => some (durations.max hne) := by
  obtain ⟨hcount, hmax, _⟩ := AtomicDurationHistogram.recorded_spec durations (by omega)
  have hpos := List.length_pos_iff.mpr hne
  have hfold : durations.foldl max 0 = durations.max hne := by
    cases durations with
    | nil => exact absurd rfl hne
    | cons d durations =>
        show durations.foldl max (max 0 d) = durations.foldl max d
        rw [Nat.zero_max]
  -- neither the product nor the sum clamps
  have hrank : satAdd (satMul durations.length 95) 99 / 100 = rank95 durations.length := by
    unfold satAdd satMul u64Max rank95
    omega
  unfold histogramPercentileUpperBoundUs
  rw [hcount, hmax, hfold, if_neg (by omega)]
  simp only [hrank]
  cases (List.finRange _).find? fun i => decide (rank95 durations.length ≤ counts i) with
  | none => rfl
  | some i => rfl

/-- **The edge's percentile bound is exact.** -/
theorem edge_p95_exact {durations : List Nat} (hne : durations ≠ [])
    (hlen : durations.length < 2 ^ 57) :
    (edgeLoadSnapshot (AtomicDurationHistogram.recorded durations)).responseDurationP95Us
      = some (percentile95Bound durations hne) := by
  obtain ⟨_, _, hbuckets⟩ := AtomicDurationHistogram.recorded_spec durations (by omega)
  have hcounts : cumulativeBuckets (AtomicDurationHistogram.recorded durations).buckets
      = within durations := by
    rw [funext hbuckets]
    funext i
    exact cumulativeBuckets_eq durations (by unfold u64Max; omega) i
  have hpos := rank95_pos (List.length_pos_iff.mpr hne)
  have hfind : ((List.finRange _).find? fun i =>
      decide (rank95 durations.length ≤ within durations i))
        = cell bound (percentile95 durations hne) := by
    rw [percentile95, ← find_bound_eq_cell]
    congr 1
    funext i
    rw [decide_eq_decide, within]
    omega
  show histogramPercentileUpperBoundUs _
    (cumulativeBuckets (AtomicDurationHistogram.recorded durations).buckets) 95 _ = _
  rw [hcounts, histogramPercentile_recorded hne hlen, hfind]
  unfold percentile95Bound
  cases cell bound (percentile95 durations hne) with
  | none => rfl
  | some i => rfl

/-- The lists on which counts of single buckets give the percentile bound: one
bucket holds 95% of the durations, or fewer than 95% are within the largest
bound, or the longest duration is itself a bucket bound and fewer than 95% are
within any bound before it. -/
def SingleBucketDecides (durations : List Nat) : Prop :=
  (∃ i, rank95 durations.length ≤ inBucket durations i)
    ∨ (∀ i, within durations i < rank95 durations.length)
    ∨ ∃ i, bound i ∈ durations ∧ (∀ d ∈ durations, d ≤ bound i)
        ∧ ∀ j < i, within durations j < rank95 durations.length

instance (durations : List Nat) : Decidable (SingleBucketDecides durations) :=
  inferInstanceAs (Decidable (_ ∨ _ ∨ _))

/-- A bucket counts durations within its bound. -/
theorem inBucket_le_within (durations : List Nat) (i : BucketIndex) :
    inBucket durations i ≤ within durations i := by
  refine List.countP_mono_left fun d _ hcell => ?_
  simpa using (cell_eq_some_iff.mp (by simpa using hcell)).1

/-- The durations within a bound and those in a later bucket are different ones. -/
theorem within_add_inBucket_le (durations : List Nat) {i j : BucketIndex} (hij : i < j) :
    within durations i + inBucket durations j ≤ durations.length := by
  unfold within inBucket
  rw [← countP_or_of_disjoint]
  · exact List.countP_le_length
  · intro d hd
    by_contra hcell
    have hcell : cell bound d = some j := by simpa using hcell
    have hlate := (cell_eq_some_iff.mp hcell).2 i hij
    have hearly : d ≤ bound i := by simpa using hd
    omega

/-- A bucket that holds 95% of the durations is the cell of their percentile. -/
theorem cell_of_inBucket {durations : List Nat} (hne : durations ≠ []) {i : BucketIndex}
    (h : rank95 durations.length ≤ inBucket durations i) :
    cell bound (percentile95 durations hne) = some i := by
  have hmajority := lt_two_mul_rank95 (List.length_pos_iff.mpr hne)
  rw [cell_percentile95_iff]
  refine ⟨h.trans (inBucket_le_within durations i), ?_⟩
  intro j hji
  have := within_add_inBucket_le durations hji
  omega

/-- The maximum is the right bound exactly when the percentile exceeds every bound, or the maximum
is itself the bound of the percentile's bucket. -/
theorem percentile95Bound_eq_max_iff {durations : List Nat} (hne : durations ≠ [])
    (hnone : ¬∃ i, rank95 durations.length ≤ inBucket durations i) :
    durations.max hne = percentile95Bound durations hne ↔ SingleBucketDecides durations := by
  unfold percentile95Bound SingleBucketDecides
  cases hcell : cell bound (percentile95 durations hne) with
  | none =>
      refine iff_of_true rfl (.inr (.inl fun i => ?_))
      rw [← not_le, ← percentile95_le_iff hne, not_le]
      exact cell_eq_none_iff.mp hcell i
  | some i =>
      obtain ⟨hwithin, hbefore⟩ := (cell_percentile95_iff hne i).mp hcell
      show durations.max hne = bound i ↔ _
      rw [List.max_eq_iff hne]
      constructor
      · rintro ⟨hmem, hle⟩
        exact .inr (.inr ⟨i, hmem, hle, hbefore⟩)
      · rintro (hone | hall | ⟨k, hmem, hle, hk⟩)
        · exact absurd hone hnone
        · exact absurd hwithin (not_le.mpr (hall i))
        · -- every duration is within the bound of `k`, so the cell is `k`
          have hk' : cell bound (percentile95 durations hne) = some k := by
            rw [cell_percentile95_iff]
            refine ⟨?_, hk⟩
            have hall : within durations k = durations.length := by
              rw [within, List.countP_eq_length]
              intro d hd
              simpa using hle d hd
            rw [hall]
            exact rank95_le _
          cases Option.some.inj (hcell.symm.trans hk')
          exact ⟨hmem, hle⟩

/-- The relay answers with the bound of the first bucket that holds 95% of the durations alone, or
with the maximum. -/
theorem relayProcessingP95Us_recorded {durations : List Nat} (hne : durations ≠ [])
    (hlen : durations.length < 2 ^ 57) :
    relayProcessingP95Us (relayIngressSnapshot (AtomicDurationHistogram.recorded durations))
      = match (List.finRange _).find? fun i =>
            decide (rank95 durations.length ≤ inBucket durations i) with
        | some i => some (bound i)
        | none => some (durations.max hne) := by
  obtain ⟨_, _, hbuckets⟩ := AtomicDurationHistogram.recorded_spec durations (by omega)
  have hp95 := histogramPercentile_recorded hne hlen
    (AtomicDurationHistogram.recorded durations).buckets
  rw [funext hbuckets] at hp95
  show histogramPercentileUpperBoundUs (AtomicDurationHistogram.recorded durations).count
      (AtomicDurationHistogram.recorded durations).buckets 95
      (AtomicDurationHistogram.recorded durations).maxUs = _
  rw [funext hbuckets, hp95]

/-- **The relay's percentile bound is exact on the lists of
`SingleBucketDecides` and on no others.** -/
theorem relay_p95_exact_iff {durations : List Nat} (hne : durations ≠ [])
    (hlen : durations.length < 2 ^ 57) :
    relayProcessingP95Us (relayIngressSnapshot (AtomicDurationHistogram.recorded durations))
        = some (percentile95Bound durations hne)
      ↔ SingleBucketDecides durations := by
  rw [relayProcessingP95Us_recorded hne hlen]
  cases hfind : (List.finRange _).find? fun i =>
      decide (rank95 durations.length ≤ inBucket durations i) with
  | some i =>
      -- the first bucket with enough durations is the right one
      have henough : rank95 durations.length ≤ inBucket durations i := by
        simpa using (find_finRange_eq_some_iff.mp hfind).1
      unfold percentile95Bound
      rw [cell_of_inBucket hne henough]
      exact iff_of_true rfl (.inl ⟨i, henough⟩)
  | none =>
      -- no bucket alone has enough, so the relay answers the maximum
      have hfew : ∀ i, inBucket durations i < rank95 durations.length := by
        intro i
        simpa using find_finRange_eq_none_iff.mp hfind i
      have hnone : ¬∃ i, rank95 durations.length ≤ inBucket durations i := by
        rintro ⟨i, hi⟩
        exact absurd hi (not_le.mpr (hfew i))
      show some (durations.max hne) = some _ ↔ _
      rw [Option.some.injEq]
      exact percentile95Bound_eq_max_iff hne hnone

/-- The relay's bound, exact or not, is at least the percentile. -/
theorem percentile95_le_relay {durations : List Nat} (hne : durations ≠ [])
    (hlen : durations.length < 2 ^ 57) :
    ∃ p95, relayProcessingP95Us (relayIngressSnapshot (AtomicDurationHistogram.recorded durations))
        = some p95 ∧ percentile95 durations hne ≤ p95 := by
  rw [relayProcessingP95Us_recorded hne hlen]
  cases hfind : (List.finRange _).find? fun i =>
      decide (rank95 durations.length ≤ inBucket durations i) with
  | some i =>
      have henough : rank95 durations.length ≤ inBucket durations i := by
        simpa using (find_finRange_eq_some_iff.mp hfind).1
      exact ⟨bound i, rfl, (cell_eq_some_iff.mp (cell_of_inBucket hne henough)).1⟩
  | none =>
      refine ⟨durations.max hne, rfl, ?_⟩
      -- every duration is at most the maximum, so as many are as the rank asks for
      have hall : durations.countP (· ≤ durations.max hne) = durations.length := by
        rw [List.countP_eq_length]
        intro d hd
        simpa using List.le_max_of_mem hd
      unfold percentile95
      rw [orderStatistic_le_iff, hall]
      exact rank95_sub_one_lt hne

/-- **A slow relay is alerted.**  When the 95th percentile of what a relay recorded is above the
limit, there is an alert for it, whether its bound is exact or not. -/
theorem slow_relay_alerted {now : Nat} {relayNodes : List (String × RelayProcessingDuration)}
    {nodeId : String} {durations : List Nat} (hne : durations ≠ [])
    (hlen : durations.length < 2 ^ 57)
    (hrelay : (nodeId, relayIngressSnapshot (AtomicDurationHistogram.recorded durations)) ∈ relayNodes)
    (hslow : relayProcessingP95WarnUs < percentile95 durations hne) :
    ∃ alert ∈ relayProcessingAlerts now relayNodes, alert.nodeId = some nodeId := by
  obtain ⟨p95, hp95, hle⟩ := percentile95_le_relay hne hlen
  obtain ⟨alert, halert, hnode, -⟩ := mem_relayProcessingAlerts_iff.mpr
    ⟨_, hrelay, hp95, hslow.trans_le hle⟩
  exact ⟨alert, halert, hnode⟩

/-- **The two percentile bounds.**  For every nonempty list of recordings, the
relay's and the edge's bound are both the smallest bucket bound that the
nearest-rank 95th percentile does not exceed (or the maximum) exactly on the
lists of `SingleBucketDecides`; on every other list the relay's is not. -/
theorem p95_bounds_exact_iff {durations : List Nat} (hne : durations ≠ [])
    (hlen : durations.length < 2 ^ 57) :
    (relayProcessingP95Us (relayIngressSnapshot (AtomicDurationHistogram.recorded durations))
          = some (percentile95Bound durations hne)
        ∧ (edgeLoadSnapshot (AtomicDurationHistogram.recorded durations)).responseDurationP95Us
          = some (percentile95Bound durations hne))
      ↔ SingleBucketDecides durations := by
  rw [relay_p95_exact_iff hne hlen]
  exact and_iff_left (edge_p95_exact hne hlen)

/-- Both durations in the first bucket. -/
theorem p95_bounds_exact_iff_one_bucket :
    relayProcessingP95Us (relayIngressSnapshot (AtomicDurationHistogram.recorded [70, 80]))
        = some 100
      ∧ (edgeLoadSnapshot (AtomicDurationHistogram.recorded [70, 80])).responseDurationP95Us
        = some 100 :=
  (p95_bounds_exact_iff (show [70, 80] ≠ [] by decide) (by decide)).mpr (by decide)

/-- **Two durations in neighbouring buckets**: the edge's bound is the one of
the second bucket, the relay's is the maximum, which is no bound at all. -/
theorem neighbouring_buckets_differ :
    percentile95Bound [50, 200] (by decide) = 250
      ∧ (edgeLoadSnapshot (AtomicDurationHistogram.recorded [50, 200])).responseDurationP95Us
        = some 250
      ∧ relayProcessingP95Us (relayIngressSnapshot (AtomicDurationHistogram.recorded [50, 200]))
        = some 200 := by
  decide

end AvMesh.Telemetry
