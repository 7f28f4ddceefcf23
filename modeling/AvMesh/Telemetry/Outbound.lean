/-
  AvMesh.Telemetry.Outbound
  ─────────────────────────
  **THE TELEMETRY A NODE SENDS** (`TelemetryFecPublisher`, the task of
  `start_telemetry_publisher` and the one of `start_telemetry_fec_sender`,
  src/main.rs; `TelemetryFecEncoder`, src/telemetry_fec.rs).

  Two tasks share the queue of the latest envelopes.  The publisher numbers a
  snapshot, encodes its envelope, pushes it and THEN notifies.  The sender pops
  an envelope, cuts it into FEC datagrams and sends each one to every target:

      pop → datagram 0 → target 0, 1, … → datagram 1 → … → pop
       ↓                                       ↘ a repair datagram while a
      waiting (for the notification)              newer envelope waits → pop

  One step is one of these arrows, or one critical section of the publisher,
  and the steps of the two tasks interleave.

  The FEC crate and the serializer are parameters (`TelemetryFecWire`,
  `SnapshotWire`).  An answer of `try_send_to`, the clock and the shutdown
  signal are what a step reads of its environment (`SendEnv`).
-/
import AvMesh.Lib.Counters
import AvMesh.Telemetry.Aggregator
import AvMesh.Telemetry.FecDecoder
import AvMesh.Telemetry.LatestQueue
import AvMesh.Telemetry.Pacer

namespace AvMesh.Telemetry

open AvMesh.Lib

/-! ## §1. The crates. -/

/-- The FEC crate at both ends of the lane. -/
structure TelemetryFecWire extends TelemetryFecCrates where
  DatagramFecEncoder : Type
  /-- `DatagramFecEncoder::new`. -/
  newEncoder : DatagramFecEncoder
  withSymbolSize : DatagramFecEncoder → UInt16 → DatagramFecEncoder
  setSourceSymbols : DatagramFecEncoder → UInt16 → DatagramFecEncoder
  sourceSymbolCount : Nat → UInt16 → UInt16
  encodeObjectWithRepairSymbols : DatagramFecEncoder → Bytes → UInt32 →
    Except DatagramFecError (List Bytes) × DatagramFecEncoder

/-- The serializers of a snapshot. -/
structure SnapshotWire where
  Content : Type
  /-- `serde_json::from_slice`. -/
  decodeJson : List UInt8 → Option (MeshSnapshot Content)
  /-- `rmp_serde::to_vec_named`. -/
  toVecNamed : MeshSnapshot Content → Option Bytes
  /-- `MeshSnapshot::deserialize`, with the position of the cursor after it. -/
  deserialize : Bytes → Option (MeshSnapshot Content × Nat)

namespace SnapshotWire

variable (S : SnapshotWire)

def encodeMeshTelemetryBinary (snapshot : MeshSnapshot S.Content) : Option Bytes :=
  match S.toVecNamed snapshot with
  | none => none
  | some payload => if payload.length > maxTelemetryEnvelopeBytes then none else some payload

def decodeMeshTelemetryBinary (payload : Bytes) : Option (MeshSnapshot S.Content) :=
  if payload.length > maxTelemetryEnvelopeBytes then none
  else
    match S.deserialize payload with
    | none => none
    | some (snapshot, position) => if position ≠ payload.length then none else some snapshot

/-- The two decoders the aggregator is given. -/
def codecs : SnapshotCodecs where
  Content := S.Content
  decodeJson := S.decodeJson
  decodeBinary := S.decodeMeshTelemetryBinary

end SnapshotWire

/-! ## §2. The encoder. -/

structure EncodedTelemetryBlock where
  sourceDatagrams : Nat
  datagrams : List Bytes
  deriving DecidableEq

structure TelemetryFecEncoder (W : TelemetryFecWire) where
  encoder : W.DatagramFecEncoder
  repairPercent : UInt8

namespace TelemetryFecEncoder

variable {W : TelemetryFecWire}

def new (W : TelemetryFecWire) (repairPercent : UInt8) : TelemetryFecEncoder W where
  encoder := W.withSymbolSize W.newEncoder telemetrySymbolSize
  repairPercent := repairPercent

/-- `source_datagrams.saturating_mul(repair_percent).div_ceil(100).max(1)`. -/
def repairDatagrams (sourceDatagrams : Nat) (repairPercent : UInt8) : Nat :=
  max ((satMul sourceDatagrams repairPercent.toNat + 99) / 100) 1

/-- A `u16` of source symbols makes both `try_from` of the source succeed. -/
def encode (e : TelemetryFecEncoder W) (envelope : Bytes) :
    Except (TelemetryPushError W.toTelemetryFecCrates) EncodedTelemetryBlock
      × TelemetryFecEncoder W :=
  if envelope.isEmpty then (.error (.codec .emptyPayload), e)
  else if envelope.length > maxTelemetryEnvelopeBytes then
    (.error (.codec (.envelopeTooLarge envelope.length)), e)
  else
    let sourceDatagrams := W.sourceSymbolCount envelope.length telemetrySymbolSize
    let encoder := W.setSourceSymbols e.encoder sourceDatagrams
    let repair := repairDatagrams sourceDatagrams.toNat e.repairPercent
    let (result, encoder) := W.encodeObjectWithRepairSymbols encoder envelope (.ofNat repair)
    match result with
    | .error error => (.error (.fec error), { e with encoder })
    | .ok datagrams => (.ok ⟨sourceDatagrams.toNat, datagrams⟩, { e with encoder })

end TelemetryFecEncoder

/-! ## §3. The monitor. -/

/-- The counters of `TelemetryFecCounters` that are added to. -/
inductive TelemetryFecCounter where
  | snapshotsSubmitted
  | snapshotsReplaced
  | snapshotsOversized
  | blocksEncoded
  | encodedEnvelopeBytes
  | sourceDatagramsEncoded
  | repairDatagramsEncoded
  | sourceDatagramsSent
  | repairDatagramsSent
  | sentBytes
  | skippedRepairDatagrams
  | sendDrops
  | encodeErrors
  | receivedDatagrams
  | receivedBytes
  | decodedSnapshots
  | decodedPayloadBytes
  | duplicateSnapshots
  | decodeErrors
  | ingestErrors
  deriving Repr, DecidableEq

/-- What a call of the monitor adds. -/
abbrev Recorded := List (TelemetryFecCounter × Nat)

namespace TelemetryFecMonitor

def recordSubmission : QueuePushOutcome → Recorded
  | .queued => [(.snapshotsSubmitted, 1)]
  | .replaced blocks => [(.snapshotsSubmitted, 1), (.snapshotsReplaced, blocks)]

def recordOversizedSnapshot : Recorded := [(.snapshotsOversized, 1)]

def recordEncodedBlock (bytes source repair : Nat) : Recorded :=
  [(.blocksEncoded, 1), (.encodedEnvelopeBytes, bytes), (.sourceDatagramsEncoded, source),
    (.repairDatagramsEncoded, repair)]

def recordEncodeError : Recorded := [(.encodeErrors, 1)]

def recordSentDatagram (repair : Bool) (bytes : Nat) : Recorded :=
  [(if repair then .repairDatagramsSent else .sourceDatagramsSent, 1), (.sentBytes, bytes)]

def recordSkippedRepairs (datagrams targets : Nat) : Recorded :=
  [(.skippedRepairDatagrams, satMul datagrams targets)]

def recordSendDrop : Recorded := [(.sendDrops, 1)]

end TelemetryFecMonitor

open TelemetryFecMonitor

/-! ## §4. The two tasks. -/

structure TelemetryFecPublisher where
  bootId : UInt64
  nextSequence : UInt64
  deriving Repr, DecidableEq

/-- `u32::try_from(period_ms).unwrap_or(u32::MAX)`. -/
def periodMs32 (periodMs : Nat) : UInt32 :=
  match tryFrom 32 periodMs with
  | some period => .ofNat period
  | none => .ofNat (2 ^ 32 - 1)

/-- The envelope of a snapshot. -/
def TelemetryFecPublisher.envelope {Content : Type} (p : TelemetryFecPublisher)
    (snapshot : MeshSnapshot Content) (payload : Bytes) (periodMs : Nat) : TelemetryEnvelope :=
  .meshSnapshot p.bootId p.nextSequence (.ofNat snapshot.updatedUnixMs) (periodMs32 periodMs)
    snapshot.nodeId payload

/-- An envelope that was popped, and its block. -/
structure EncodedEnvelope where
  envelope : Bytes
  block : EncodedTelemetryBlock
  deriving DecidableEq

/-- Where the sender task is. -/
inductive SenderPoint where
  | pop
  /-- In the `select` on the shutdown signal and `queue.notified()`. -/
  | waiting
  /-- At the head of the loop over the datagrams. -/
  | datagram (work : EncodedEnvelope) (index : Nat)
  /-- At the head of the loop over the targets. -/
  | target (work : EncodedEnvelope) (index target : Nat)
  deriving DecidableEq

/-- What a step of the sender reads of its environment. -/
structure SendEnv where
  now : Nat
  shutdown : Bool
  /-- The answer of `try_send_to`: the bytes it sent, or `none` for an error. -/
  answer : Option Nat

/-- A block the sender is through with: how many of its datagrams it sent, and what waited in the
queue when it went on. -/
structure Round where
  work : EncodedEnvelope
  stop : Nat
  newer : List Bytes

/-- A datagram handed to the socket for a target. -/
structure Attempt where
  target : SocketAddr
  datagram : Bytes
  deriving DecidableEq

/-- A snapshot that was queued, with its envelope. -/
structure Submission (Content : Type) where
  snapshot : MeshSnapshot Content
  envelope : TelemetryEnvelope

structure TelemetryFecOutbound (W : TelemetryFecWire) (S : SnapshotWire) where
  publisher : TelemetryFecPublisher
  /-- The outcome of a push that the publisher has not notified of yet. -/
  pushed : Option QueuePushOutcome
  queue : QueueState
  /-- The permit that `notify_one` stores. -/
  permit : Bool
  encoder : TelemetryFecEncoder W
  pacer : TelemetryWirePacer
  point : SenderPoint
  /-- The task of the sender has returned. -/
  stopped : Bool
  targets : List SocketAddr
  counters : TelemetryFecCounter → Nat
  /-- The snapshots that were queued, the envelopes that were encoded with their blocks, the
  rounds that are over and the datagrams that were tried, all in order. -/
  submissions : List (Submission S.Content)
  encoded : List EncodedEnvelope
  rounds : List Round
  attempts : List Attempt
  /-- The snapshots that the serializer refused. -/
  unserialized : Nat

namespace TelemetryFecOutbound

variable {W : TelemetryFecWire} {S : SnapshotWire}

def new (W : TelemetryFecWire) (S : SnapshotWire) (bootId : UInt64) (repairPercent : UInt8)
    (rateBps : UInt64) (now : Nat) (targets : List SocketAddr) : TelemetryFecOutbound W S where
  publisher := { bootId, nextSequence := 1 }
  pushed := none
  queue := LatestTelemetryQueue.default
  permit := false
  encoder := TelemetryFecEncoder.new W repairPercent
  pacer := TelemetryWirePacer.new rateBps now
  point := .pop
  stopped := false
  targets := targets
  counters := fun _ => 0
  submissions := []
  encoded := []
  rounds := []
  attempts := []
  unserialized := 0

def record (s : TelemetryFecOutbound W S) (recorded : Recorded) : TelemetryFecOutbound W S :=
  { s with
    counters := (recorded.map fun entry => Update.add entry.1 entry.2).foldl Update.apply s.counters }

/-- A tick of the publisher, up to the push: `submit` of what the serializer gives. -/
def publish (s : TelemetryFecOutbound W S) (snapshot : MeshSnapshot S.Content) (periodMs : Nat) :
    TelemetryFecOutbound W S :=
  match S.encodeMeshTelemetryBinary snapshot with
  | none => { s.record recordEncodeError with unserialized := s.unserialized + 1 }
  | some payload =>
      let envelope := s.publisher.envelope snapshot payload periodMs
      -- `fetch_add` wraps
      let s := { s with publisher.nextSequence := s.publisher.nextSequence + 1 }
      match TelemetryEnvelope.encode W.hash envelope with
      | .error _ => s.record recordOversizedSnapshot
      | .ok encoded =>
          match LatestTelemetryQueue.push s.queue encoded with
          | (.error _, _) => s.record recordOversizedSnapshot
          | (.ok outcome, queue) =>
              { s with
                queue := queue
                pushed := some outcome
                submissions := s.submissions ++ [⟨snapshot, envelope⟩] }

/-- `notify_one` of the push, and the monitor's record of it. -/
def notify (s : TelemetryFecOutbound W S) : TelemetryFecOutbound W S :=
  match s.pushed with
  | none => s
  | some outcome => { s.record (recordSubmission outcome) with pushed := none, permit := true }

/-- `queue.try_pop()`, and the encoder on what it gives. -/
def popEnvelope (s : TelemetryFecOutbound W S) : TelemetryFecOutbound W S :=
  match LatestTelemetryQueue.tryPop s.queue with
  | (none, _) => { s with point := .waiting }
  | (some envelope, queue) =>
      let s := { s with queue := queue }
      match s.encoder.encode envelope with
      | (.error _, encoder) => { s.record recordEncodeError with encoder := encoder }
      | (.ok block, encoder) =>
          { s.record (recordEncodedBlock envelope.length block.sourceDatagrams
              (block.datagrams.length - block.sourceDatagrams)) with
            encoder := encoder
            encoded := s.encoded ++ [⟨envelope, block⟩]
            point := .datagram ⟨envelope, block⟩ 0 }

/-- The sender is through with a block. -/
def finish (s : TelemetryFecOutbound W S) (work : EncodedEnvelope) (stop : Nat) :
    TelemetryFecOutbound W S :=
  { s with point := .pop, rounds := s.rounds ++ [⟨work, stop, s.queue.blocks⟩] }

/-- The head of the loop over the datagrams. -/
def nextDatagram (s : TelemetryFecOutbound W S) (work : EncodedEnvelope) (index : Nat) :
    TelemetryFecOutbound W S :=
  if work.block.datagrams.length ≤ index then s.finish work index
  else if index ≥ work.block.sourceDatagrams ∧ s.queue.blocks ≠ [] then
    (s.record (recordSkippedRepairs (work.block.datagrams.length - index)
      s.targets.length)).finish work index
  else { s with point := .target work index 0 }

/-- The head of the loop over the targets: the pacer, then the socket. -/
def nextTarget (maxInstant : Nat) (s : TelemetryFecOutbound W S) (work : EncodedEnvelope)
    (index target : Nat) (env : SendEnv) : TelemetryFecOutbound W S :=
  match s.targets[target]?, work.block.datagrams[index]? with
  | some address, some datagram =>
      match s.pacer.waitFor maxInstant ⟨env.now, .ofNat datagram.length, env.shutdown⟩ with
      -- the panic of `Instant + Duration` ends the task as well
      | .error _ => { s with stopped := true }
      | .ok (none, pacer) => { s with pacer := pacer, stopped := true }
      | .ok (some _, pacer) =>
          let repair := decide (index ≥ work.block.sourceDatagrams)
          let recorded :=
            if env.answer = some datagram.length then recordSentDatagram repair datagram.length
            else recordSendDrop
          { s.record recorded with
            pacer := pacer
            attempts := s.attempts ++ [⟨address, datagram⟩]
            point := .target work index (target + 1) }
  | _, _ => { s with point := .datagram work (index + 1) }

/-- One step of the sender. -/
def send (maxInstant : Nat) (s : TelemetryFecOutbound W S) (env : SendEnv) :
    TelemetryFecOutbound W S :=
  if s.stopped then s
  else
    match s.point with
    | .pop => s.popEnvelope
    | .waiting =>
        if env.shutdown then { s with stopped := true }
        else if s.permit then { s with permit := false, point := .pop }
        else s
    | .datagram work index => s.nextDatagram work index
    | .target work index target => s.nextTarget maxInstant work index target env

inductive Op (S : SnapshotWire) where
  | publish (snapshot : MeshSnapshot S.Content) (periodMs : Nat)
  | notify
  | send (env : SendEnv)

/-- A step of either task.  The publisher ticks again only when it has notified. -/
def step (maxInstant : Nat) (s : TelemetryFecOutbound W S) :
    Op S → Unit × TelemetryFecOutbound W S
  | .publish snapshot periodMs =>
      ((), if s.pushed.isSome then s else s.publish snapshot periodMs)
  | .notify => ((), s.notify)
  | .send env => ((), s.send maxInstant env)

end TelemetryFecOutbound

end AvMesh.Telemetry
