/-
  AvMesh.Edge.Admission
  ─────────────────────
  **EGRESS ADMISSION OF AN EDGE** (`EdgeAdmission`, src/edge_admission.rs).

  An edge counts the bytes it sends in one bucket per second and keeps the
  buckets of the last `windowSeconds`.  A snapshot turns the window into a
  rate and drives one flag with hysteresis:

      not overloaded  →  overloaded      rate ≥ admission, for long enough
      overloaded      →  not overloaded  rate < recovery

  Playback sessions are remembered by the time of their last request; an
  overloaded edge answers only those it remembers.

  One operation is one critical section of the source; `elapsedMs` is what
  the call reads from its clock.
-/
import AvMesh.Lib.Machine
import AvMesh.Lib.StepSystem
import AvMesh.Lib.Table

namespace AvMesh.Edge

open AvMesh.Lib

/-! ## §1. Configuration. -/

structure EdgeAdmissionConfig where
  capacityBps : UInt64 := 4000000000
  admissionPercent : UInt8 := 85
  recoveryPercent : UInt8 := 75
  windowSeconds : UInt64 := 10
  minSustainedSeconds : UInt64 := 3
  sessionIdleSeconds : UInt64 := 60
  maxSessions : UInt64 := 100000
  deriving Repr, DecidableEq

/-- `value.saturating_mul(percent).saturating_div(100)`. -/
def percentOf (value : UInt64) (percent : UInt8) : Nat := satMul value.toNat percent.toNat / 100

namespace EdgeAdmissionConfig

def normalized (c : EdgeAdmissionConfig) : EdgeAdmissionConfig :=
  let admissionPercent := max 1 (min c.admissionPercent 100)
  let windowSeconds := max c.windowSeconds 1
  { capacityBps := max c.capacityBps 1
    admissionPercent
    recoveryPercent := max 1 (min c.recoveryPercent (max (admissionPercent - 1) 1))
    windowSeconds
    minSustainedSeconds := max 1 (min c.minSustainedSeconds windowSeconds)
    sessionIdleSeconds := max c.sessionIdleSeconds 1
    maxSessions := max c.maxSessions 1 }

def admissionBps (c : EdgeAdmissionConfig) : Nat := percentOf c.capacityBps c.admissionPercent

def recoveryBps (c : EdgeAdmissionConfig) : Nat := percentOf c.capacityBps c.recoveryPercent

end EdgeAdmissionConfig

/-! ## §2. The rolling window. -/

structure EgressBucket where
  second : Nat
  bytes : Nat
  deriving Repr, DecidableEq

/-- The buckets, oldest first. -/
structure RollingEgressWindow where
  buckets : List EgressBucket := []
  deriving Repr, DecidableEq

namespace RollingEgressWindow

def prune (w : RollingEgressWindow) (second windowSeconds : Nat) : RollingEgressWindow :=
  let oldest := second - (windowSeconds - 1)
  { buckets := w.buckets.dropWhile fun bucket => bucket.second < oldest }

def record (w : RollingEgressWindow) (second bytes windowSeconds : Nat) : RollingEgressWindow :=
  let w := w.prune second windowSeconds
  match w.buckets.getLast? with
  | some last =>
      if last.second = second then
        { buckets := w.buckets.dropLast ++ [{ last with bytes := satAdd last.bytes bytes }] }
      else { buckets := w.buckets ++ [{ second, bytes }] }
  | none => { buckets := w.buckets ++ [{ second, bytes }] }

/-- The rate in bits per second and the seconds it was observed for, with the pruned window. -/
def rate (w : RollingEgressWindow) (second windowSeconds : Nat) :
    (Nat × Nat) × RollingEgressWindow :=
  let w := w.prune second windowSeconds
  match w.buckets with
  | [] => ((0, 0), w)
  | first :: _ =>
      let observationSeconds := min (satAdd (second - first.second) 1) windowSeconds
      let bytes := w.buckets.foldl (fun total bucket => satAdd total bucket.bytes) 0
      ((satMul bytes 8 / max observationSeconds 1, observationSeconds), w)

end RollingEgressWindow

/-! ## §3. The state and its operations. -/

structure EdgeAdmissionSnapshot where
  capacityBps : Nat
  observedBps : Nat
  admissionBps : Nat
  recoveryBps : Nat
  observationSeconds : Nat
  windowSeconds : Nat
  overloaded : Bool
  rejectedRequests : Nat
  activeSessions : Nat
  admittedSessions : Nat
  deriving Repr, DecidableEq

inductive PlaybackAdmission where
  | anonymous
  | admitted
  | existing
  | rejected
  deriving Repr, DecidableEq

structure EdgeAdmission where
  config : EdgeAdmissionConfig
  window : RollingEgressWindow
  overloaded : Bool
  rejectedRequests : Nat
  admittedSessions : Nat
  sessions : Table String Nat

/-- An atomic `fetch_add(1)` on a 64-bit counter. -/
def fetchAddOne (counter : Nat) : Nat := (counter + 1) % 2 ^ 64

def pruneSessions (sessions : Table String Nat) (nowMs idleSeconds : Nat) : Table String Nat :=
  let idleMs := satMul idleSeconds 1000
  sessions.retain fun _ lastSeenMs => nowMs - lastSeenMs < idleMs

namespace EdgeAdmission

def new (config : EdgeAdmissionConfig) : EdgeAdmission where
  config := config.normalized
  window := {}
  overloaded := false
  rejectedRequests := 0
  admittedSessions := 0
  sessions := ∅

/-- The critical section of `record_bytes` and `record_bytes_at`. -/
def recordBytesAt (e : EdgeAdmission) (second bytes : Nat) : EdgeAdmission :=
  { e with window := e.window.record second bytes e.config.windowSeconds.toNat }

/-- `record_bytes`: an empty write is not recorded. -/
def recordBytes (e : EdgeAdmission) (second bytes : Nat) : EdgeAdmission :=
  if bytes = 0 then e else e.recordBytesAt second bytes

def recordRejection (e : EdgeAdmission) : EdgeAdmission :=
  { e with rejectedRequests := fetchAddOne e.rejectedRequests }

def activeSessionsAt (e : EdgeAdmission) (elapsedMs : Nat) : Nat × EdgeAdmission :=
  let sessions := pruneSessions e.sessions elapsedMs e.config.sessionIdleSeconds.toNat
  (min sessions.size u64Max, { e with sessions })

/-- The flag after a rate has been observed. -/
def nextOverloaded (e : EdgeAdmission) (observedBps observationSeconds : Nat) : Bool :=
  if e.overloaded then decide (observedBps ≥ e.config.recoveryBps)
  else decide (observationSeconds ≥ e.config.minSustainedSeconds.toNat) &&
    decide (observedBps ≥ e.config.admissionBps)

def snapshotAt (e : EdgeAdmission) (second elapsedMs : Nat) :
    EdgeAdmissionSnapshot × EdgeAdmission :=
  let ((observedBps, observationSeconds), window) :=
    e.window.rate second e.config.windowSeconds.toNat
  let overloaded := e.nextOverloaded observedBps observationSeconds
  let (activeSessions, e) := activeSessionsAt { e with window, overloaded } elapsedMs
  ({ capacityBps := e.config.capacityBps.toNat
     observedBps
     admissionBps := e.config.admissionBps
     recoveryBps := e.config.recoveryBps
     observationSeconds
     windowSeconds := e.config.windowSeconds.toNat
     overloaded
     rejectedRequests := e.rejectedRequests
     activeSessions
     admittedSessions := e.admittedSessions }, e)

/-- Room for one more session: a full table gives up its oldest entry. -/
def evictOldest (e : EdgeAdmission) (sessions : Table String Nat) (favoured : String) :
    Table String Nat :=
  if sessions.size ≥ e.config.maxSessions.toNat then
    match sessions.oldest favoured with
    | some oldest => sessions.erase oldest
    | none => sessions
  else sessions

/-- `favoured` is what the order of the hash map prefers among the oldest sessions. -/
def admitPlaybackAt (e : EdgeAdmission) (sessionId : Option String) (overloaded : Bool)
    (elapsedMs : Nat) (favoured : String) : PlaybackAdmission × EdgeAdmission :=
  match sessionId with
  | none => (if overloaded then .rejected else .anonymous, e)
  | some sessionId =>
      let sessions := pruneSessions e.sessions elapsedMs e.config.sessionIdleSeconds.toNat
      match sessions.lookup sessionId with
      | some _ => (.existing, { e with sessions := sessions.replace sessionId elapsedMs })
      | none =>
          if overloaded then (.rejected, { e with sessions })
          else
            (.admitted, { e with
              sessions := (e.evictOldest sessions favoured).insert sessionId elapsedMs
              admittedSessions := fetchAddOne e.admittedSessions })

/-! ## §4. Runs. -/

/-- One operation with the clock readings it takes. -/
inductive Op where
  | recordBytesAt (second bytes : UInt64)
  | snapshotAt (second elapsedMs : UInt64)
  | recordRejection
  | admitPlaybackAt (sessionId : Option String) (overloaded : Bool) (elapsedMs : UInt64)
      (favoured : String)
  deriving Repr, DecidableEq

inductive Reply where
  | none
  | snapshot (snapshot : EdgeAdmissionSnapshot)
  | admission (admission : PlaybackAdmission)
  deriving Repr, DecidableEq

def step (e : EdgeAdmission) : Op → Reply × EdgeAdmission
  | .recordBytesAt second bytes => (.none, e.recordBytesAt second.toNat bytes.toNat)
  | .snapshotAt second elapsedMs =>
      let (snapshot, e) := e.snapshotAt second.toNat elapsedMs.toNat
      (.snapshot snapshot, e)
  | .recordRejection => (.none, e.recordRejection)
  | .admitPlaybackAt sessionId overloaded elapsedMs favoured =>
      let (admission, e) := e.admitPlaybackAt sessionId overloaded elapsedMs.toNat favoured
      (.admission admission, e)

end EdgeAdmission

end AvMesh.Edge
