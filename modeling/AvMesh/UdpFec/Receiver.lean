/-
  AvMesh.UdpFec.Receiver
  ──────────────────────
  **THE BOUNDED RECEIVER OF LIVE RAPTORQ DATAGRAMS** (`UdpFecReceiver`).

  Datagrams are grouped into flows (a peer, with or without a stream id) and,
  inside a flow, into objects by block id.  Each object in flight owns a
  decoder; a flow remembers a bounded number of completed blocks.

  As in `AvMesh.Relay.Receiver` an operation returns its result with the
  receiver it leaves behind, and an `expect` is a panic of its own.
  `try_push_payload_at` is cut in the order of the source:

      pushReceived → pushFlow → pushHeader → answerDuplicate | pushBlock
      pushBlock    → startObject | the limit of the object → pushObject
      pushObject   → pushDecoder → completeObject | failObject

  Capacities are `usize`, hence `UInt64`: nothing validates a configuration
  here, so their range is all that keeps the running totals from saturating.
-/
import AvMesh.Lib.Machine
import AvMesh.Lib.StepSystem
import AvMesh.Lib.Table
import Mathlib.Data.Finset.Card

namespace AvMesh.UdpFec

open AvMesh.Lib

/-! ## §1. The codec crates. -/

/-- The types and functions of the FEC crates that the receiver uses, and the
latest instant the platform represents. -/
structure FecCrates where
  DatagramFecHeader : Type
  DatagramFecDecoder : Type
  DatagramFecError : Type
  decEqError : DecidableEq DatagramFecError
  /-- `split_stream_id_prefix`. -/
  splitStreamIdPrefix : Bytes → Option (Nat × Bytes)
  /-- `DATAGRAM_MAGIC`. -/
  datagramMagic : Bytes
  /-- `DatagramFecHeader::decode`. -/
  decodeHeader : Bytes → Except DatagramFecError DatagramFecHeader
  /-- `header.payload(datagram)`, of which the receiver reads only the error. -/
  payload : DatagramFecHeader → Bytes → Except DatagramFecError Unit
  blockId : DatagramFecHeader → UInt32
  packetSequence : DatagramFecHeader → UInt32
  transferLength : DatagramFecHeader → Nat
  /-- `DatagramFecDecoder::new`. -/
  newDecoder : DatagramFecDecoder
  /-- `DatagramFecDecoder::push_datagram`. -/
  pushDatagram : DatagramFecDecoder → Bytes →
    Except DatagramFecError (Option Bytes) × DatagramFecDecoder
  maxInstant : Nat

instance (C : FecCrates) : DecidableEq C.DatagramFecError := C.decEqError

/-- `Instant`, in nanoseconds. -/
abbrev Instant := Nat

/-- `Duration`, in nanoseconds. -/
abbrev Duration := Nat

/-- `elapsed`: an earlier `now` counts as no time at all. -/
def elapsed (now since : Instant) : Duration := now - since

/-! ## §2. Configuration, outcomes, errors, counters. -/

structure UdpFecReceiverConfig where
  maxDatagramBytes : UInt64 := 65535
  maxObjectBytes : UInt64 := 8 * 1024 * 1024
  maxBufferedObjectBytes : UInt64 := 128 * 1024 * 1024
  maxFlows : UInt64 := 4096
  maxActiveObjects : UInt64 := 4096
  maxActiveObjectsPerFlow : UInt64 := 32
  maxCompletedObjectsPerFlow : UInt64 := 64
  maxDatagramsPerObject : UInt64 := 32768
  maxBufferedDatagrams : UInt64 := 131072
  maxTrackedSequenceGapsPerFlow : UInt64 := 1024
  objectInactivityTimeout : Duration := 10000000000
  flowInactivityTimeout : Duration := 120000000000
  expiryScanInterval : Duration := 250000000

structure DecodedUdpFecPayload where
  streamId : Option Nat
  payload : Bytes
  deriving Repr, DecidableEq

inductive UdpFecPushOutcome where
  | buffered (streamId : Option Nat) (blockId : UInt32)
  | decoded (blockId : UInt32) (payload : DecodedUdpFecPayload)
  | duplicate (streamId : Option Nat) (blockId : UInt32)
  deriving Repr, DecidableEq

inductive UdpFecReceiveError (C : FecCrates) where
  | datagramTooLarge (actual max : Nat)
  | objectTooLarge (streamId : Option Nat) (blockId : UInt32) (actual max : Nat)
  | flowLimitExceeded (max : Nat)
  | activeObjectLimitExceeded (max : Nat)
  | flowObjectLimitExceeded (streamId : Option Nat) (max : Nat)
  | objectDatagramLimitExceeded (streamId : Option Nat) (blockId : UInt32) (max : Nat)
  | bufferedDatagramLimitExceeded (active max : Nat)
  | bufferedObjectBytesLimitExceeded (active requested max : Nat)
  | fec (streamId : Option Nat) (error : C.DatagramFecError)
  deriving DecidableEq

abbrev FecResult (C : FecCrates) (α : Type) := Outcome (UdpFecReceiveError C) α

structure UdpFecReceiverCounters where
  datagramsReceived : Nat := 0
  datagramsAccepted : Nat := 0
  datagramsRejected : Nat := 0
  datagramsBuffered : Nat := 0
  duplicateDatagrams : Nat := 0
  objectsDecoded : Nat := 0
  objectsExpired : Nat := 0
  flowsExpired : Nat := 0
  expiryScans : Nat := 0
  deriving Repr, DecidableEq

structure UdpFecExpiry where
  objects : Nat := 0
  flows : Nat := 0
  releasedObjectBytes : Nat := 0
  releasedDatagrams : Nat := 0
  deriving Repr, DecidableEq

/-! ## §3. Flows and objects. -/

inductive FlowKey where
  | unprefixed (peer : SocketAddr)
  | stream (peer : SocketAddr) (streamId : Nat)
  deriving Repr, DecidableEq

def FlowKey.streamId : FlowKey → Option Nat
  | .unprefixed _ => none
  | .stream _ streamId => some streamId

structure ObjectKey where
  flow : FlowKey
  blockId : UInt32
  deriving Repr, DecidableEq

structure ObjectState (C : FecCrates) where
  decoder : C.DatagramFecDecoder
  transferLength : Nat
  acceptedDatagrams : Nat
  lastActivity : Instant

structure SequenceStats where
  received : Nat := 0
  highestSeen : Option UInt32 := none
  missing : Nat := 0
  duplicateOrReordered : Nat := 0
  deriving Repr, DecidableEq

structure BoundedSequenceTracker where
  nextExpected : Option UInt32 := none
  missing : Finset UInt32 := ∅
  stats : SequenceStats := {}
  deriving DecidableEq

/-- `diff <= i32::MAX as u32`: the half of the sequence space ahead. -/
def isAhead (diff : UInt32) : Bool := diff ≤ 2147483647

/-- The gap sequences `first, first + 1, …`, `tracked` of them. -/
def gapSequences (first : UInt32) (tracked : Nat) : List UInt32 :=
  (List.range tracked).map fun offset => first + UInt32.ofNat offset

/-- `BoundedSequenceTracker::observe`. -/
def BoundedSequenceTracker.observe (t : BoundedSequenceTracker) (sequence : UInt32)
    (maxTrackedGaps : UInt64) : BoundedSequenceTracker :=
  let highest :=
    match t.stats.highestSeen with
    | none => sequence
    | some highest => if isAhead (sequence - highest) then sequence else highest
  let stats := { t.stats with
    received := satAdd t.stats.received 1
    highestSeen := some highest }
  match t.nextExpected with
  -- the first sequence sets the expectation; `missing` is not counted yet
  | none => { t with nextExpected := some (sequence + 1), stats := stats }
  | some expected =>
      if isAhead (sequence - expected) then
        -- a jump forgets the older gaps and tracks the newest ones, up to the limit
        let tracked := min (sequence - expected).toNat maxTrackedGaps.toNat
        let missing :=
          if 0 < sequence - expected then
            (gapSequences (sequence - UInt32.ofNat tracked) tracked).toFinset
          else t.missing
        { nextExpected := some (sequence + 1)
          missing := missing
          stats := { stats with missing := missing.card } }
      else
        let missing := t.missing.erase sequence
        { t with
          missing := missing
          stats := { stats with
            missing := missing.card
            duplicateOrReordered := satAdd stats.duplicateOrReordered 1 } }

structure FlowState where
  sequenceTracker : BoundedSequenceTracker
  activeObjects : Nat
  completedOrder : List UInt32
  completed : Finset UInt32
  lastActivity : Instant
  deriving DecidableEq

def FlowState.new (now : Instant) : FlowState where
  sequenceTracker := {}
  activeObjects := 0
  completedOrder := []
  completed := ∅
  lastActivity := now

/-- The loop of `mark_completed`: pop the oldest blocks until at most `limit`
remain. -/
def trimCompleted (limit : Nat) : List UInt32 → Finset UInt32 → List UInt32 × Finset UInt32
  | [], completed => ([], completed)
  | expired :: order, completed =>
      if limit < order.length + 1 then trimCompleted limit order (completed.erase expired)
      else (expired :: order, completed)

/-- `FlowState::mark_completed`. -/
def FlowState.markCompleted (state : FlowState) (blockId : UInt32) (limit : UInt64) : FlowState :=
  -- with a limit of zero nothing is remembered
  if limit = 0 ∨ blockId ∈ state.completed then state
  else
    let trimmed := trimCompleted limit.toNat (state.completedOrder ++ [blockId])
      (insert blockId state.completed)
    { state with completedOrder := trimmed.1, completed := trimmed.2 }

/-- A flow after a datagram of it arrived. -/
def FlowState.touch (state : FlowState) (sequence : UInt32) (maxTrackedGaps : UInt64)
    (now : Instant) : FlowState :=
  { state with
    lastActivity := now
    sequenceTracker := state.sequenceTracker.observe sequence maxTrackedGaps }

structure UdpFecReceiver (C : FecCrates) where
  config : UdpFecReceiverConfig
  flows : Table FlowKey FlowState
  objects : Table ObjectKey (ObjectState C)
  bufferedObjectBytes : Nat
  bufferedDatagrams : Nat
  counters : UdpFecReceiverCounters
  lastError : Option (UdpFecReceiveError C)
  nextExpiryScan : Option Instant

variable {C : FecCrates}

/-- The object after one more datagram. -/
def ObjectState.accept (state : ObjectState C) (decoder : C.DatagramFecDecoder) (now : Instant) :
    ObjectState C :=
  { state with
    decoder := decoder
    acceptedDatagrams := satAdd state.acceptedDatagrams 1
    lastActivity := now }

namespace UdpFecReceiver

/-- `UdpFecReceiver::with_config`. -/
def withConfig (config : UdpFecReceiverConfig) : UdpFecReceiver C where
  config := config
  flows := ∅
  objects := ∅
  bufferedObjectBytes := 0
  bufferedDatagrams := 0
  counters := {}
  lastError := none
  nextExpiryScan := none

/-! ## §4. Releasing objects and flows. -/

/-- The flow with one active object less. -/
def releaseActive (flows : Table FlowKey FlowState) (flow : FlowKey) : Table FlowKey FlowState :=
  match flows.lookup flow with
  | none => flows
  | some state => flows.replace flow { state with activeObjects := state.activeObjects - 1 }

def removeObject (r : UdpFecReceiver C) (key : ObjectKey) :
    Option (ObjectState C) × UdpFecReceiver C :=
  match r.objects.lookup key with
  | none => (none, r)
  | some state =>
      (some state,
        { r with
          objects := r.objects.erase key
          -- `saturating_sub`, also in `releaseActive`
          bufferedObjectBytes := r.bufferedObjectBytes - state.transferLength
          bufferedDatagrams := r.bufferedDatagrams - state.acceptedDatagrams
          flows := releaseActive r.flows key.flow })

def removeEmptyFlow (r : UdpFecReceiver C) (flow : FlowKey) : UdpFecReceiver C :=
  match r.flows.lookup flow with
  | none => r
  | some state =>
      if state.activeObjects = 0 ∧ state.completed = ∅ then
        { r with flows := r.flows.erase flow }
      else r

def reject {α : Type} (r : UdpFecReceiver C) (error : UdpFecReceiveError C) :
    FecResult C α × UdpFecReceiver C :=
  (.error (.err error),
    { r with
      counters :=
        { r.counters with datagramsRejected := satAdd r.counters.datagramsRejected 1 }
      lastError := some error })

/-! ## §5. Expiry. -/

def expiredObjects (r : UdpFecReceiver C) (now : Instant) : List ObjectKey :=
  (r.objects.entries.filter fun e =>
    decide (r.config.objectInactivityTimeout ≤ elapsed now e.2.lastActivity)).map Sigma.fst

/-- The object loop of `scan_inactive_at`. -/
def removeExpired : List ObjectKey → UdpFecExpiry → UdpFecReceiver C →
    UdpFecExpiry × UdpFecReceiver C
  | [], expiry, r => (expiry, r)
  | key :: keys, expiry, r =>
      match r.removeObject key with
      | (some state, r) =>
          removeExpired keys
            { expiry with
              objects := expiry.objects + 1
              releasedObjectBytes := satAdd expiry.releasedObjectBytes state.transferLength
              releasedDatagrams := satAdd expiry.releasedDatagrams state.acceptedDatagrams } r
      | (none, r) => removeExpired keys expiry r

def expiredFlows (r : UdpFecReceiver C) (now : Instant) : List FlowKey :=
  (r.flows.entries.filter fun e =>
    decide (e.2.activeObjects = 0 ∧ r.config.flowInactivityTimeout ≤ elapsed now e.2.lastActivity)).map
    Sigma.fst

/-- The flow loop of `scan_inactive_at`. -/
def removeFlows : List FlowKey → UdpFecExpiry → UdpFecReceiver C → UdpFecExpiry × UdpFecReceiver C
  | [], expiry, r => (expiry, r)
  | flow :: flows, expiry, r =>
      if flow ∈ r.flows then
        removeFlows flows { expiry with flows := expiry.flows + 1 }
          { r with flows := r.flows.erase flow }
      else removeFlows flows expiry r

def countScan (r : UdpFecReceiver C) : UdpFecReceiver C :=
  { r with counters := { r.counters with expiryScans := satAdd r.counters.expiryScans 1 } }

def scanInactiveAt (r : UdpFecReceiver C) (now : Instant) : UdpFecExpiry × UdpFecReceiver C :=
  let objectsLeft := removeExpired (r.expiredObjects now) {} r.countScan
  -- the idle flows are collected AFTER the objects are gone, so a flow can lose
  -- its last object and go in one scan
  let flowsLeft := removeFlows (objectsLeft.2.expiredFlows now) objectsLeft.1 objectsLeft.2
  (flowsLeft.1,
    { flowsLeft.2 with
      counters := { flowsLeft.2.counters with
        objectsExpired := satAdd flowsLeft.2.counters.objectsExpired flowsLeft.1.objects
        flowsExpired := satAdd flowsLeft.2.counters.flowsExpired flowsLeft.1.flows } })

/-- `schedule_next_expiry_scan`: no time is set when the platform cannot
represent it. -/
def scheduleNextExpiryScan (r : UdpFecReceiver C) (now : Instant) : UdpFecReceiver C :=
  let interval := min (min r.config.expiryScanInterval r.config.objectInactivityTimeout)
    r.config.flowInactivityTimeout
  { r with
    nextExpiryScan := if now + interval ≤ C.maxInstant then some (now + interval) else none }

def expireInactiveAt (r : UdpFecReceiver C) (now : Instant) : UdpFecExpiry × UdpFecReceiver C :=
  let scanned := r.scanInactiveAt now
  (scanned.1, scanned.2.scheduleNextExpiryScan now)

/-- `expire_inactive_if_due`, whose result is not used. -/
def expireInactiveIfDue (r : UdpFecReceiver C) (now : Instant) : UdpFecReceiver C :=
  match r.nextExpiryScan with
  | some deadline => if now < deadline then r else (r.expireInactiveAt now).2
  | none => (r.expireInactiveAt now).2

/-! ## §6. Datagrams. -/

/-- The flow of a datagram and the FEC datagram inside it. -/
def classify (C : FecCrates) (peer : SocketAddr) (datagram : Bytes) : FlowKey × Bytes :=
  match C.splitStreamIdPrefix datagram with
  | some (streamId, payload) =>
      if C.datagramMagic.isPrefixOf payload then (.stream peer streamId, payload)
      -- what looked like a stream id was not one
      else (.unprefixed peer, datagram)
  | none => (.unprefixed peer, datagram)

/-- The block has been completed on the flow. -/
def isCompleted (r : UdpFecReceiver C) (flow : FlowKey) (blockId : UInt32) : Bool :=
  match r.flows.lookup flow with
  | some state => decide (blockId ∈ state.completed)
  | none => false

/-- `r` after a datagram of `flow` arrived. -/
def touchFlow (r : UdpFecReceiver C) (flow : FlowKey) (state : FlowState)
    (header : C.DatagramFecHeader) (now : Instant) : UdpFecReceiver C :=
  { r with
    flows := r.flows.replace flow
      (state.touch (C.packetSequence header) r.config.maxTrackedSequenceGapsPerFlow now) }

/-- A datagram of a completed block. -/
def answerDuplicate (r : UdpFecReceiver C) (flow : FlowKey) (header : C.DatagramFecHeader)
    (now : Instant) : FecResult C UdpFecPushOutcome × UdpFecReceiver C :=
  match r.flows.lookup flow with
  | none => (.error (.panic "completed object belongs to an existing flow"), r)
  | some state =>
      (.ok (.duplicate flow.streamId (C.blockId header)),
        { r.touchFlow flow state header now with
          counters := { r.counters with
            datagramsAccepted := satAdd r.counters.datagramsAccepted 1
            duplicateDatagrams := satAdd r.counters.duplicateDatagrams 1 } })

/-- The number of active objects of the flow. -/
def activeInFlow (r : UdpFecReceiver C) (flow : FlowKey) : Nat :=
  match r.flows.lookup flow with
  | some state => state.activeObjects
  | none => 0

/-- `flows.entry(flow).or_insert_with(..)` with one active object more. -/
def reserveActive (flows : Table FlowKey FlowState) (flow : FlowKey) (now : Instant) :
    Table FlowKey FlowState :=
  match flows.lookup flow with
  | some state =>
      flows.replace flow { state with activeObjects := satAdd state.activeObjects 1 }
  | none =>
      flows.insert flow
        { FlowState.new now with activeObjects := satAdd (FlowState.new now).activeObjects 1 }

/-- The checks on the first datagram of an object, and its reservation. -/
def startObject (r : UdpFecReceiver C) (key : ObjectKey) (transferLength : Nat) (now : Instant) :
    Except (UdpFecReceiveError C) (UdpFecReceiver C) :=
  if key.flow ∉ r.flows ∧ r.config.maxFlows.toNat ≤ r.flows.size then
    .error (.flowLimitExceeded r.config.maxFlows.toNat)
  else if r.config.maxActiveObjects.toNat ≤ r.objects.size then
    .error (.activeObjectLimitExceeded r.config.maxActiveObjects.toNat)
  else if r.config.maxActiveObjectsPerFlow.toNat ≤ r.activeInFlow key.flow then
    .error (.flowObjectLimitExceeded key.flow.streamId r.config.maxActiveObjectsPerFlow.toNat)
  else match (checkedAdd r.bufferedObjectBytes transferLength).filter
      fun reserved => decide (reserved ≤ r.config.maxBufferedObjectBytes.toNat) with
    | none =>
        .error (.bufferedObjectBytesLimitExceeded r.bufferedObjectBytes transferLength
          r.config.maxBufferedObjectBytes.toNat)
    | some reserved =>
        .ok { r with
          flows := reserveActive r.flows key.flow now
          objects := r.objects.insert key
            { decoder := C.newDecoder
              transferLength := transferLength
              acceptedDatagrams := 0
              lastActivity := now }
          bufferedObjectBytes := reserved }

/-- The end of a push whose datagram completed its object. -/
def completeObject (r : UdpFecReceiver C) (key : ObjectKey) (payload : Bytes) :
    FecResult C UdpFecPushOutcome × UdpFecReceiver C :=
  let released := (r.removeObject key).2
  match released.flows.lookup key.flow with
  | none => (.error (.panic "decoded object belongs to an existing flow"), released)
  | some state =>
      (.ok (.decoded key.blockId ⟨key.flow.streamId, payload⟩),
        { released with
          flows := released.flows.replace key.flow
            (state.markCompleted key.blockId released.config.maxCompletedObjectsPerFlow)
          counters := { released.counters with
            datagramsAccepted := satAdd released.counters.datagramsAccepted 1
            objectsDecoded := satAdd released.counters.objectsDecoded 1 } })

/-- The end of a push whose datagram the decoder refused. -/
def failObject (r : UdpFecReceiver C) (key : ObjectKey) (isNewFlow : Bool)
    (error : C.DatagramFecError) : FecResult C UdpFecPushOutcome × UdpFecReceiver C :=
  let released := (r.removeObject key).2
  -- a flow that this datagram created does not survive it
  (if isNewFlow then released.removeEmptyFlow key.flow else released).reject
    (.fec key.flow.streamId error)

/-- `r` with one more datagram of the object at `key` in its decoder. -/
def acceptDatagram (r : UdpFecReceiver C) (key : ObjectKey) (state : ObjectState C)
    (decoder : C.DatagramFecDecoder) (now : Instant) : UdpFecReceiver C :=
  { r with
    objects := r.objects.replace key (state.accept decoder now)
    bufferedDatagrams := satAdd r.bufferedDatagrams 1 }

/-- The decoder of the object at `key` takes the datagram. -/
def pushDecoder (r : UdpFecReceiver C) (key : ObjectKey) (state : ObjectState C)
    (fecDatagram : Bytes) (isNewFlow : Bool) (now : Instant) :
    FecResult C UdpFecPushOutcome × UdpFecReceiver C :=
  -- the datagram is counted before the decoder's answer is looked at
  match C.pushDatagram state.decoder fecDatagram with
  | (.ok (some payload), decoder) =>
      (r.acceptDatagram key state decoder now).completeObject key payload
  | (.ok none, decoder) =>
      (.ok (.buffered key.flow.streamId key.blockId),
        { r.acceptDatagram key state decoder now with
          counters := { r.counters with
            datagramsAccepted := satAdd r.counters.datagramsAccepted 1
            datagramsBuffered := satAdd r.counters.datagramsBuffered 1 } })
  | (.error error, decoder) =>
      (r.acceptDatagram key state decoder now).failObject key isNewFlow error

/-- A datagram of an object that is present. -/
def pushObject (r : UdpFecReceiver C) (key : ObjectKey) (header : C.DatagramFecHeader)
    (fecDatagram : Bytes) (isNewFlow : Bool) (now : Instant) :
    FecResult C UdpFecPushOutcome × UdpFecReceiver C :=
  match r.flows.lookup key.flow with
  | none => (.error (.panic "an active object belongs to an existing flow"), r)
  | some flowState =>
      match (r.touchFlow key.flow flowState header now).objects.lookup key with
      | none =>
          (.error (.panic "object was present or inserted above"),
            r.touchFlow key.flow flowState header now)
      | some state =>
          (r.touchFlow key.flow flowState header now).pushDecoder key state fecDatagram isNewFlow
            now

/-- A datagram of a block that is not completed. -/
def pushBlock (r : UdpFecReceiver C) (key : ObjectKey) (header : C.DatagramFecHeader)
    (fecDatagram : Bytes) (now : Instant) : FecResult C UdpFecPushOutcome × UdpFecReceiver C :=
  if r.config.maxBufferedDatagrams.toNat ≤ r.bufferedDatagrams then
    r.reject (.bufferedDatagramLimitExceeded r.bufferedDatagrams
      r.config.maxBufferedDatagrams.toNat)
  else match r.objects.lookup key with
    | none =>
        if r.config.maxDatagramsPerObject = 0 then
          r.reject (.objectDatagramLimitExceeded key.flow.streamId key.blockId
            r.config.maxDatagramsPerObject.toNat)
        else match r.startObject key (C.transferLength header) now with
          | .error error => r.reject error
          | .ok started =>
              started.pushObject key header fecDatagram (decide (key.flow ∉ r.flows)) now
    | some state =>
        -- an object that ran into its limit is given up, its flow is not
        if r.config.maxDatagramsPerObject.toNat ≤ state.acceptedDatagrams then
          (r.removeObject key).2.reject
            (.objectDatagramLimitExceeded key.flow.streamId key.blockId
              r.config.maxDatagramsPerObject.toNat)
        else r.pushObject key header fecDatagram (decide (key.flow ∉ r.flows)) now

/-- A datagram whose header decoded. -/
def pushHeader (r : UdpFecReceiver C) (flow : FlowKey) (header : C.DatagramFecHeader)
    (fecDatagram : Bytes) (now : Instant) : FecResult C UdpFecPushOutcome × UdpFecReceiver C :=
  if r.config.maxObjectBytes.toNat < C.transferLength header then
    r.reject (.objectTooLarge flow.streamId (C.blockId header) (C.transferLength header)
      r.config.maxObjectBytes.toNat)
  -- the memory of the flow is asked before any limit on new work
  else if r.isCompleted flow (C.blockId header) then r.answerDuplicate flow header now
  else r.pushBlock ⟨flow, C.blockId header⟩ header fecDatagram now

/-- A datagram of a known flow. -/
def pushFlow (r : UdpFecReceiver C) (flow : FlowKey) (fecDatagram : Bytes) (now : Instant) :
    FecResult C UdpFecPushOutcome × UdpFecReceiver C :=
  match C.decodeHeader fecDatagram with
  | .error error => r.reject (.fec flow.streamId error)
  | .ok header =>
      match C.payload header fecDatagram with
      | .error error => r.reject (.fec flow.streamId error)
      | .ok _ => r.pushHeader flow header fecDatagram now

def countReceived (r : UdpFecReceiver C) : UdpFecReceiver C :=
  { r with
    counters :=
      { r.counters with datagramsReceived := satAdd r.counters.datagramsReceived 1 } }

/-- `try_push_payload_at` after its scan and its first count. -/
def pushReceived (r : UdpFecReceiver C) (peer : SocketAddr) (datagram : Bytes) (now : Instant) :
    FecResult C UdpFecPushOutcome × UdpFecReceiver C :=
  if r.config.maxDatagramBytes.toNat < datagram.length then
    r.reject (.datagramTooLarge datagram.length r.config.maxDatagramBytes.toNat)
  else r.pushFlow (classify C peer datagram).1 (classify C peer datagram).2 now

def tryPushPayloadAt (r : UdpFecReceiver C) (peer : SocketAddr) (datagram : Bytes)
    (now : Instant) : FecResult C UdpFecPushOutcome × UdpFecReceiver C :=
  (r.expireInactiveIfDue now).countReceived.pushReceived peer datagram now

/-! ## §7. The receiver as a step system. -/

inductive Op where
  | tryPushPayloadAt (peer : SocketAddr) (datagram : Bytes) (now : Instant)
  | expireInactiveAt (now : Instant)
  deriving DecidableEq

inductive Reply (C : FecCrates) where
  | pushed (result : FecResult C UdpFecPushOutcome)
  | expired (expiry : UdpFecExpiry)

def step (r : UdpFecReceiver C) : Op → Reply C × UdpFecReceiver C
  | .tryPushPayloadAt peer datagram now =>
      let result := r.tryPushPayloadAt peer datagram now
      (.pushed result.1, result.2)
  | .expireInactiveAt now =>
      let result := r.expireInactiveAt now
      (.expired result.1, result.2)

end UdpFecReceiver

/-! ## §8. A concrete instance of the crates.

    A datagram is the magic `RQD2`, the block, the packet sequence and the
    number of datagrams its object needs; its decoder counts down.  A datagram
    with a trailing byte is refused by the decoder.  A stream prefix is the
    byte 83 and the stream id. -/

structure SampleHeader where
  blockId : UInt32
  packetSequence : UInt32
  needed : Nat
  deriving Repr, DecidableEq

def sampleDecodeHeader : Bytes → Except String SampleHeader
  | 82 :: 81 :: 68 :: 50 :: block :: sequence :: needed :: _ =>
      .ok ⟨block.toNat.toUInt32, sequence.toNat.toUInt32, needed.toNat⟩
  | _ => .error "malformed RQD2 datagram"

/-- The decoder holds the datagrams pushed so far. -/
def samplePushDatagram (decoder : List Bytes) (datagram : Bytes) :
    Except String (Option Bytes) × List Bytes :=
  match datagram with
  | [82, 81, 68, 50, _, _, needed] =>
      if needed.toNat ≤ decoder.length + 1 then (.ok (some datagram), datagram :: decoder)
      else (.ok none, datagram :: decoder)
  | _ => (.error "trailing bytes", decoder)

def sampleCrates : FecCrates where
  DatagramFecHeader := SampleHeader
  DatagramFecDecoder := List Bytes
  DatagramFecError := String
  decEqError := inferInstance
  splitStreamIdPrefix := fun datagram =>
    match datagram with
    | 83 :: streamId :: payload => some (streamId.toNat, payload)
    | _ => none
  datagramMagic := [82, 81, 68, 50]
  decodeHeader := sampleDecodeHeader
  payload := fun _ _ => .ok ()
  blockId := SampleHeader.blockId
  packetSequence := SampleHeader.packetSequence
  transferLength := fun header => 100 * header.needed
  newDecoder := []
  pushDatagram := samplePushDatagram
  maxInstant := 1000000000000000000

/-- Datagram `sequence` of `block`, whose object needs `needed` datagrams. -/
def sampleDatagram (block sequence needed : UInt8) : Bytes :=
  [82, 81, 68, 50, block, sequence, needed]

def samplePeer : SocketAddr := ⟨"203.0.113.7", 5004⟩

/-- One flow, one completed block, room for two objects. -/
def sampleConfig : UdpFecReceiverConfig where
  maxFlows := 1
  maxActiveObjects := 2
  maxCompletedObjectsPerFlow := 1

end AvMesh.UdpFec
