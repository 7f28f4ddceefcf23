/-
  AvMesh.Telemetry.FecDecoder
  ───────────────────────────
  **THE TELEMETRY DECODER OF A COLLECTOR** (`TelemetryFecDecoder`,
  src/telemetry_fec.rs).

  Each peer address has a RaptorQ decoder, at most two blocks in flight, the
  node id of its first snapshot, and ONE accepted pair of boot id and sequence.
  `push_datagram_at` is cut in the order of the source:

      checkProfile  — the geometry the datagram announces,
      enterPeer     — idle peers leave, the peer limit, the entry of the peer,
      receive       — blocks expire, make room and begin; the decoder runs,
      accept        — kind, node id, boot id and sequence of the envelope.

  The FEC crate is a parameter (`TelemetryFecCrates`).  What a call changed
  before it failed stays changed, as in the source.
-/
import AvMesh.Lib.Machine
import AvMesh.Lib.StepSystem
import AvMesh.Lib.Table
import AvMesh.Telemetry.Envelope

namespace AvMesh.Telemetry

open AvMesh.Lib

/-! ## §1. The codec crates, constants, errors. -/

/-- What the decoder uses of the FEC and checksum crates. -/
structure TelemetryFecCrates where
  DatagramFecError : Type
  RaptorQBlockProfile : Type
  DatagramFecDecoder : Type
  /-- `RaptorQBlockProfile::from_datagram`. -/
  fromDatagram : Bytes → Except DatagramFecError RaptorQBlockProfile
  transferLength : RaptorQBlockProfile → Nat
  symbolSize : RaptorQBlockProfile → UInt16
  blockId : RaptorQBlockProfile → UInt32
  /-- `DatagramFecDecoder::new`. -/
  newDecoder : DatagramFecDecoder
  /-- `DatagramFecDecoder::push_datagram`. -/
  pushDatagram : DatagramFecDecoder → Bytes →
    Except DatagramFecError (Option Bytes) × DatagramFecDecoder
  expireBlock : DatagramFecDecoder → UInt32 → DatagramFecDecoder
  /-- The payload checksum of the envelope. -/
  hash : Bytes → UInt32

def telemetrySymbolSize : UInt16 := 1152
def maxInFlightBlocksPerPeer : Nat := 2

/-- `Duration::MAX`, in nanoseconds. -/
def durationMax : Nat := 18446744073709551615999999999

/-- The errors of `push_datagram_at`: those of the envelope codec, and its own. -/
inductive TelemetryPushError (C : TelemetryFecCrates) where
  | codec (error : TelemetryFecError)
  | fec (error : C.DatagramFecError)
  | unsupportedKind (kind : UInt8)
  | unexpectedSymbolSize (size : UInt16)
  | peerLimitExceeded (max : Nat)
  | peerIdentityChanged

inductive TelemetryDecodeOutcome where
  | pending
  | duplicate
  | complete (envelope : TelemetryEnvelope)
  deriving DecidableEq

abbrev PushResult (C : TelemetryFecCrates) := Outcome (TelemetryPushError C) TelemetryDecodeOutcome

/-! ## §2. One peer. -/

structure AcceptedSequence where
  bootId : UInt64
  sequence : UInt64
  deriving Repr, DecidableEq

structure PeerDecoder (C : TelemetryFecCrates) where
  decoder : C.DatagramFecDecoder
  /-- When each block in flight began. -/
  blocks : Table UInt32 Nat
  nodeId : Option String
  acceptedSequence : Option AcceptedSequence
  lastSeen : Nat

namespace PeerDecoder

variable {C : TelemetryFecCrates}

def new (now : Nat) : PeerDecoder C where
  decoder := C.newDecoder
  blocks := ∅
  nodeId := none
  acceptedSequence := none
  lastSeen := now

/-- Blocks older than the time to live leave the map and the decoder. -/
def expireBlocks (state : PeerDecoder C) (blockTtl now : Nat) : PeerDecoder C :=
  let expired := (state.blocks.retain fun _ started => decide (now - started ≥ blockTtl)).keys
  { state with
    blocks := state.blocks.retain fun _ started => decide (now - started < blockTtl)
    decoder := expired.foldl C.expireBlock state.decoder }

/-- A new block displaces the oldest one when there are two already. -/
def makeRoom (state : PeerDecoder C) (blockId favoured : UInt32) : PeerDecoder C :=
  if blockId ∉ state.blocks ∧ state.blocks.size ≥ maxInFlightBlocksPerPeer then
    match state.blocks.oldest favoured with
    | some oldest =>
        { state with
          blocks := state.blocks.erase oldest
          decoder := C.expireBlock state.decoder oldest }
    | none => state
  else state

/-- `blocks.entry(block_id).or_insert(now)`. -/
def beginBlock (state : PeerDecoder C) (blockId : UInt32) (now : Nat) : PeerDecoder C :=
  if blockId ∈ state.blocks then state
  else { state with blocks := state.blocks.insert blockId now }

/-- The bookkeeping of blocks, then the decoder. -/
def receive (state : PeerDecoder C) (blockTtl : Nat) (blockId : UInt32) (datagram : Bytes)
    (now : Nat) (favoured : UInt32) :
    Except C.DatagramFecError (Option Bytes) × PeerDecoder C :=
  let state := ((state.expireBlocks blockTtl now).makeRoom blockId favoured).beginBlock blockId now
  let (result, decoder) := C.pushDatagram state.decoder datagram
  let state := { state with decoder }
  match result with
  | .ok (some decoded) => (.ok (some decoded), { state with blocks := state.blocks.erase blockId })
  | result => (result, state)

/-- The pair is not newer than the accepted one of the same boot. -/
def isReplay (accepted : Option AcceptedSequence) (sequence : AcceptedSequence) : Bool :=
  accepted.any fun accepted =>
    accepted.bootId == sequence.bootId && decide (accepted.sequence ≥ sequence.sequence)

/-- A decoded envelope: its kind, its node, and whether it is newer. -/
def accept (state : PeerDecoder C) (envelope : TelemetryEnvelope) : PushResult C × PeerDecoder C :=
  if envelope.kind ≠ telemetryKindMeshSnapshot then
    (.error (.err (.unsupportedKind envelope.kind)), state)
  else if state.nodeId.any fun nodeId => nodeId ≠ envelope.nodeId then
    (.error (.err .peerIdentityChanged), state)
  else
    let state := { state with nodeId := some (state.nodeId.getD envelope.nodeId) }
    let sequence : AcceptedSequence := ⟨envelope.bootId, envelope.sequence⟩
    if isReplay state.acceptedSequence sequence then (.ok .duplicate, state)
    else (.ok (.complete envelope), { state with acceptedSequence := some sequence })

/-- What becomes of the decoder's answer. -/
def finish (state : PeerDecoder C) (result : Except C.DatagramFecError (Option Bytes)) :
    PushResult C × PeerDecoder C :=
  match result with
  | .error error => (.error (.err (.fec error)), state)
  | .ok none => (.ok .pending, state)
  | .ok (some decoded) =>
      match TelemetryEnvelope.decode C.hash decoded with
      | .error (.err error) => (.error (.err (.codec error)), state)
      | .error (.panic message) => (.error (.panic message), state)
      | .ok envelope => state.accept envelope

end PeerDecoder

/-! ## §3. The decoder. -/

structure TelemetryFecDecoder (C : TelemetryFecCrates) where
  peers : Table SocketAddr (PeerDecoder C)
  maxPeers : Nat
  blockTtl : Nat

namespace TelemetryFecDecoder

variable {C : TelemetryFecCrates}

def new (C : TelemetryFecCrates) (maxPeers blockTtl : Nat) : TelemetryFecDecoder C where
  peers := ∅
  maxPeers := max maxPeers 1
  blockTtl := blockTtl

def checkProfile (C : TelemetryFecCrates) (datagram : Bytes) :
    Except (TelemetryPushError C) C.RaptorQBlockProfile :=
  match C.fromDatagram datagram with
  | .error error => .error (.fec error)
  | .ok profile =>
      if C.transferLength profile > maxTelemetryEnvelopeBytes then
        .error (.codec (.envelopeTooLarge (C.transferLength profile)))
      else if C.symbolSize profile ≠ telemetrySymbolSize then
        .error (.unexpectedSymbolSize (C.symbolSize profile))
      else .ok profile

def pruneIdlePeers (d : TelemetryFecDecoder C) (now : Nat) : TelemetryFecDecoder C :=
  let idleTtl := min (d.blockTtl * 4) durationMax
  { d with peers := d.peers.retain fun _ state => decide (now - state.lastSeen < idleTtl) }

/-- The table with the entry of the peer in it, or `none` at the peer limit. -/
def enterPeer (d : TelemetryFecDecoder C) (peer : SocketAddr) (now : Nat) :
    Option (PeerDecoder C × Table SocketAddr (PeerDecoder C)) :=
  match d.peers.lookup peer with
  | some state => some ({ state with lastSeen := now }, d.peers)
  | none =>
      if d.peers.size ≥ d.maxPeers then none
      else some (PeerDecoder.new now, d.peers.insert peer (PeerDecoder.new now))

/-- `favoured` is what the order of the hash map prefers among the oldest blocks. -/
def pushDatagramAt (d : TelemetryFecDecoder C) (peer : SocketAddr) (datagram : Bytes) (now : Nat)
    (favoured : UInt32) : PushResult C × TelemetryFecDecoder C :=
  match checkProfile C datagram with
  | .error error => (.error (.err error), d)
  | .ok profile =>
      let d := d.pruneIdlePeers now
      match d.enterPeer peer now with
      | none => (.error (.err (.peerLimitExceeded d.maxPeers)), d)
      | some (state, peers) =>
          let (decoded, state) :=
            state.receive d.blockTtl (C.blockId profile) datagram now favoured
          let (result, state) := state.finish decoded
          (result, { d with peers := peers.replace peer state })

/-! ## §4. Runs. -/

/-- One datagram, the peer it comes from and the instant it arrives at. -/
structure Push where
  peer : SocketAddr
  datagram : Bytes
  now : Nat
  favoured : UInt32

def step (d : TelemetryFecDecoder C) (push : Push) : PushResult C × TelemetryFecDecoder C :=
  d.pushDatagramAt push.peer push.datagram push.now push.favoured

end TelemetryFecDecoder

end AvMesh.Telemetry
