/-
  AvMesh.Telemetry.EndToEnd
  ─────────────────────────
  **TELEMETRY FROM NODE TO COLLECTOR** (the task of
  `start_telemetry_fec_collector`, src/main.rs, and the senders of
  AvMesh.Telemetry.Outbound).

  Any number of nodes send to one collector.  The network may lose, double,
  delay and reorder their datagrams: a datagram that a node has tried to send
  to the collector may arrive at any later step, any number of times.  Other
  addresses may send what they like.

    • `Faithful`, `RoundTrips`  — what the lane relies on of the FEC crate and
                                  of the serializer,
    • `decodes_of_genuine`      — what the collector completes for a node is an
                                  envelope that the node encoded,
    • `telemetry_end_to_end`    — what the collector ingests for a node is a
                                  SUBLIST of what the node submitted: nothing is
                                  invented, doubled or out of order.
-/
import AvMesh.Lib.Parts
import AvMesh.Telemetry.Rounds
import Mathlib.Data.List.Sort

namespace AvMesh.Telemetry

open AvMesh.Lib
open TelemetryFecMonitor

/-! ## §1. The collector. -/

namespace TelemetryFecMonitor

def recordReceivedDatagram (bytes : Nat) : Recorded :=
  [(.receivedDatagrams, 1), (.receivedBytes, bytes)]

def recordDecodedSnapshot (bytes : Nat) : Recorded :=
  [(.decodedSnapshots, 1), (.decodedPayloadBytes, bytes)]

def recordDuplicate : Recorded := [(.duplicateSnapshots, 1)]

def recordDecodeError : Recorded := [(.decodeErrors, 1)]

def recordIngestError : Recorded := [(.ingestErrors, 1)]

end TelemetryFecMonitor

/-- What the collector takes for an envelope. -/
def SnapshotWire.ofEnvelope (S : SnapshotWire) (envelope : TelemetryEnvelope) :
    Option (MeshSnapshot S.Content) :=
  envelopeSnapshot S.codecs envelope

/-- The length of the buffer of `recv_from`. -/
def collectorBufferBytes : Nat := 2048

structure TelemetryFecCollector (W : TelemetryFecWire) (S : SnapshotWire) where
  decoder : TelemetryFecDecoder W.toTelemetryFecCrates
  counters : TelemetryFecCounter → Nat
  /-- What the decoder was given, and what went to `ingest_snapshot`, with its sender. -/
  pushes : List TelemetryFecDecoder.Push
  ingested : List (SocketAddr × MeshSnapshot S.Content)

namespace TelemetryFecCollector

variable {W : TelemetryFecWire} {S : SnapshotWire}

def new (W : TelemetryFecWire) (S : SnapshotWire) (maxPeers blockTtl : Nat) :
    TelemetryFecCollector W S where
  decoder := TelemetryFecDecoder.new W.toTelemetryFecCrates maxPeers blockTtl
  counters := fun _ => 0
  pushes := []
  ingested := []

def record (c : TelemetryFecCollector W S) (recorded : Recorded) : TelemetryFecCollector W S :=
  { c with
    counters := (recorded.map fun entry => Update.add entry.1 entry.2).foldl Update.apply c.counters }

/-- A datagram from the socket.  `favoured` is what the order of a hash map prefers. -/
def receive (c : TelemetryFecCollector W S) (peer : SocketAddr) (datagram : Bytes) (now : Nat)
    (favoured : UInt32) : TelemetryFecCollector W S :=
  -- `recv_from` cuts a datagram that is longer than the buffer
  let push : TelemetryFecDecoder.Push :=
    ⟨peer, datagram.take collectorBufferBytes, now, favoured⟩
  let c := c.record (recordReceivedDatagram push.datagram.length)
  let (result, decoder) := c.decoder.step push
  let c := { c with decoder := decoder, pushes := c.pushes ++ [push] }
  match result with
  | .ok .pending => c
  | .ok .duplicate => c.record recordDuplicate
  | .ok (.complete envelope) =>
      match S.ofEnvelope envelope with
      | some snapshot =>
          { c.record (recordDecodedSnapshot envelope.payload.length) with
            ingested := c.ingested ++ [(peer, snapshot)] }
      | none => c.record recordIngestError
  | .error _ => c.record recordDecodeError

end TelemetryFecCollector

/-! ## §2. The mesh. -/

/-- How a node is started. -/
structure SenderSetup where
  bootId : UInt64
  repairPercent : UInt8
  rateBps : UInt64
  started : Nat
  targets : List SocketAddr

/-- The nodes by the address of their sockets, and the collector. -/
structure TelemetryFecMesh (W : TelemetryFecWire) (S : SnapshotWire) where
  senders : SocketAddr → TelemetryFecOutbound W S
  collector : TelemetryFecCollector W S

namespace TelemetryFecMesh

variable {W : TelemetryFecWire} {S : SnapshotWire}

inductive Op (S : SnapshotWire) where
  /-- A step of the publisher or of the sender of a node. -/
  | outbound (address : SocketAddr) (op : TelemetryFecOutbound.Op S)
  /-- The network hands the collector a datagram of an address. -/
  | deliver (address : SocketAddr) (datagram : Bytes) (now : Nat) (favoured : UInt32)

/-- The addresses of the nodes, how each was started, and where the collector listens. -/
structure Config where
  setups : SocketAddr → Option SenderSetup
  collector : SocketAddr
  maxPeers : Nat
  blockTtl : Nat
  maxInstant : Nat

def startSender (W : TelemetryFecWire) (S : SnapshotWire) (config : Config)
    (address : SocketAddr) : TelemetryFecOutbound W S :=
  match config.setups address with
  | some setup => .new W S setup.bootId setup.repairPercent setup.rateBps setup.started setup.targets
  | none => .new W S 0 0 0 0 []

def start (W : TelemetryFecWire) (S : SnapshotWire) (config : Config) : TelemetryFecMesh W S where
  senders := startSender W S config
  collector := .new W S config.maxPeers config.blockTtl

/-- A node's datagram can arrive once the node has tried to send it to the collector; from an
address of no node anything can. -/
def Deliverable (config : Config) (m : TelemetryFecMesh W S) (address : SocketAddr)
    (datagram : Bytes) : Prop :=
  (config.setups address).isNone = true ∨
    ⟨config.collector, datagram⟩ ∈ (m.senders address).attempts

instance (config : Config) (m : TelemetryFecMesh W S) (address : SocketAddr) (datagram : Bytes) :
    Decidable (m.Deliverable config address datagram) :=
  inferInstanceAs (Decidable (_ ∨ _))

def step (config : Config) (m : TelemetryFecMesh W S) : Op S → Unit × TelemetryFecMesh W S
  | .outbound address op =>
      let sender := (TelemetryFecOutbound.step config.maxInstant (m.senders address) op).2
      ((), { m with senders := Function.update m.senders address sender })
  | .deliver address datagram now favoured =>
      ((), if m.Deliverable config address datagram then
          { m with collector := m.collector.receive address datagram now favoured }
        else m)

/-- The state after a run. -/
abbrev after (W : TelemetryFecWire) (S : SnapshotWire) (config : Config) (ops : List (Op S)) :
    TelemetryFecMesh W S := exec (step config) (start W S config) ops

/-- The snapshots the collector has ingested from an address, in order. -/
def ingestedFrom (m : TelemetryFecMesh W S) (address : SocketAddr) :
    List (MeshSnapshot S.Content) :=
  m.collector.ingested.filterMap fun entry => if entry.1 = address then some entry.2 else none

/-- The snapshots a node has queued, in order. -/
def submittedBy (m : TelemetryFecMesh W S) (address : SocketAddr) :
    List (MeshSnapshot S.Content) :=
  (m.senders address).submissions.map Submission.snapshot

end TelemetryFecMesh

/-! ## §3. What the lane relies on. -/

/-- The blocks that an encoder gives for the envelopes it is handed one after the other. -/
inductive EncodedBy {W : TelemetryFecWire} (first : TelemetryFecEncoder W) :
    List EncodedEnvelope → TelemetryFecEncoder W → Prop where
  | nil : EncodedBy first [] first
  | encoded {works : List EncodedEnvelope} {e e' : TelemetryFecEncoder W} {envelope : Bytes}
      {block : EncodedTelemetryBlock} (h : EncodedBy first works e)
      (hencode : e.encode envelope = (.ok block, e')) :
      EncodedBy first (works ++ [⟨envelope, block⟩]) e'
  | failed {works : List EncodedEnvelope} {e e' : TelemetryFecEncoder W} {envelope : Bytes}
      {error : TelemetryPushError W.toTelemetryFecCrates} (h : EncodedBy first works e)
      (hencode : e.encode envelope = (.error error, e')) : EncodedBy first works e'

/-- A datagram of one of the blocks. -/
def IsDatagramOf (works : List EncodedEnvelope) (datagram : Bytes) : Prop :=
  ∃ work ∈ works, datagram ∈ work.block.datagrams

/-- A decoder that was given datagrams of one kind only. -/
inductive Given (W : TelemetryFecWire) (genuine : Bytes → Prop) : W.DatagramFecDecoder → Prop where
  | new : Given W genuine W.newDecoder
  | push {d : W.DatagramFecDecoder} {datagram : Bytes} (h : Given W genuine d)
      (hgenuine : genuine datagram) : Given W genuine (W.pushDatagram d datagram).2
  | expire {d : W.DatagramFecDecoder} (blockId : UInt32) (h : Given W genuine d) :
      Given W genuine (W.expireBlock d blockId)

/-- **What the FEC crate promises**, as long as the 32-bit block ids do not repeat: a decoder that
was given nothing but datagrams of one encoder completes a block with the object it was encoded
from, and a datagram is a symbol and a short header. -/
structure Faithful (W : TelemetryFecWire) : Prop where
  object : ∀ (repairPercent : UInt8) (works : List EncodedEnvelope) (e : TelemetryFecEncoder W),
    EncodedBy (TelemetryFecEncoder.new W repairPercent) works e → works.length ≤ 2 ^ 32 →
    ∀ d, Given W (IsDatagramOf works) d → ∀ work ∈ works, ∀ datagram ∈ work.block.datagrams,
    ∀ object, (W.pushDatagram d datagram).1 = .ok (some object) → object = work.envelope
  length : ∀ (repairPercent : UInt8) (works : List EncodedEnvelope) (e : TelemetryFecEncoder W),
    EncodedBy (TelemetryFecEncoder.new W repairPercent) works e →
    ∀ datagram, IsDatagramOf works datagram → datagram.length ≤ collectorBufferBytes

/-- What the serializer writes, the deserializer reads back, to the last byte. -/
def RoundTrips (S : SnapshotWire) : Prop :=
  ∀ snapshot payload, S.toVecNamed snapshot = some payload →
    S.deserialize payload = some (snapshot, payload.length)

/-! ## §4. What a node encodes and queues. -/

namespace TelemetryFecOutbound

variable {W : TelemetryFecWire} {S : SnapshotWire} {maxInstant : Nat}
variable {s s' : TelemetryFecOutbound W S}

/-- The encoder of a sender has encoded the blocks of its log. -/
theorem encodedBy_exec {repairPercent : UInt8}
    (hs : EncodedBy (TelemetryFecEncoder.new W repairPercent) s.encoded s.encoder)
    (ops : List (Op S)) :
    EncodedBy (TelemetryFecEncoder.new W repairPercent) (exec (step maxInstant) s ops).encoded
      (exec (step maxInstant) s ops).encoder := by
  refine exec_of_move
    (fun s => EncodedBy (TelemetryFecEncoder.new W repairPercent) s.encoded s.encoder) ?_ ops hs
  intro a b hmove h
  cases hmove with
  | encoded hpoint hpop hencode => exact .encoded h hencode
  | unencoded hpoint hpop hencode => exact .failed h hencode
  | _ => exact h

theorem attempts_grow (h : Move s s') : s.attempts <+: s'.attempts := by
  cases h with
  | tried => exact List.prefix_append _ _
  | _ => exact List.prefix_rfl

theorem attempts_step (s : TelemetryFecOutbound W S) (op : Op S) :
    s.attempts <+: (step maxInstant s op).2.attempts := by
  rcases step_move s op with hstep | hstep
  · rw [hstep]
  · exact attempts_grow hstep

/-- Everything that was tried is a datagram of a block that was encoded. -/
theorem Rounded.isDatagramOf (h : Rounded s) {attempt : Attempt} (hattempt : attempt ∈ s.attempts) :
    IsDatagramOf s.encoded attempt.datagram := by
  have hgrid : ∀ {targets : List SocketAddr} {datagrams : List Bytes},
      attempt ∈ grid targets datagrams → attempt.datagram ∈ datagrams := by
    intro targets datagrams hmem
    obtain ⟨datagram, hdatagram, hin⟩ := List.mem_flatMap.mp hmem
    obtain ⟨target, -, rfl⟩ := List.mem_map.mp hin
    exact hdatagram
  rw [h.attempts] at hattempt
  rcases List.mem_append.mp hattempt with hround | hpoint
  · obtain ⟨r, hr, htried⟩ := List.mem_flatMap.mp hround
    refine ⟨r.work, ?_, List.mem_of_mem_take (hgrid htried)⟩
    rw [h.works]
    exact List.mem_append_left _ (List.mem_map_of_mem hr)
  · have hworks := h.works
    cases hat : s.point with
    | pop =>
        rw [hat] at hpoint
        cases hpoint
    | waiting =>
        rw [hat] at hpoint
        cases hpoint
    | datagram work index =>
        rw [hat] at hpoint hworks
        refine ⟨work, ?_, List.mem_of_mem_take (hgrid hpoint)⟩
        rw [hworks]
        exact List.mem_append_right _ List.mem_cons_self
    | target work index sent =>
        rw [hat] at hpoint hworks
        refine ⟨work, ?_, ?_⟩
        · rw [hworks]
          exact List.mem_append_right _ List.mem_cons_self
        · rcases List.mem_append.mp hpoint with hbefore | hnow
          · exact List.mem_of_mem_take (hgrid hbefore)
          · exact List.mem_of_getElem? (Option.mem_toList.mp (hgrid hnow))

/-- A submission is an envelope of this boot with the snapshot in it. -/
structure Submission.Sound (W : TelemetryFecWire) (bootId : UInt64)
    (submission : Submission S.Content) : Prop where
  boot : submission.envelope.bootId = bootId
  nodeId : submission.envelope.nodeId = submission.snapshot.nodeId
  payload : S.encodeMeshTelemetryBinary submission.snapshot = some submission.envelope.payload
  encodable : TelemetryEnvelope.Encodable submission.envelope

/-- Submissions are sound, and numbered in the order of the queue. -/
structure Numbered (bootId : UInt64) (ticks : Nat) (s : TelemetryFecOutbound W S) : Prop where
  boot : s.publisher.bootId = bootId
  next : s.publisher.nextSequence.toNat ≤ ticks + 1
  sound : ∀ submission ∈ s.submissions, Submission.Sound W bootId submission
  below : ∀ submission ∈ s.submissions,
    submission.envelope.sequence < s.publisher.nextSequence
  rising : s.submissions.Pairwise fun a b => a.envelope.sequence < b.envelope.sequence

/-- A move that leaves the publisher alone. -/
theorem Numbered.of_same {bootId : UInt64} {ticks : Nat} (h : Numbered bootId ticks s)
    (hpublisher : s'.publisher = s.publisher) (hsubmissions : s'.submissions = s.submissions) :
    Numbered bootId (ticks + 1) s' := by
  obtain ⟨hboot, hnext, hsound, hbelow, hrising⟩ := h
  constructor
  · rw [hpublisher]
    exact hboot
  · rw [hpublisher]
    exact hnext.trans (Nat.le_succ _)
  · rw [hsubmissions]
    exact hsound
  · rw [hpublisher, hsubmissions]
    exact hbelow
  · rw [hsubmissions]
    exact hrising

theorem Numbered.move {bootId : UInt64} {ticks : Nat} (hticks : ticks + 2 < 2 ^ 64)
    (h : Numbered bootId ticks s) (hmove : Move s s') : Numbered bootId (ticks + 1) s' := by
  have hnext := h.next
  -- the sequence number does not wrap
  have hsucc : (s.publisher.nextSequence + 1).toNat = s.publisher.nextSequence.toNat + 1 := by
    rw [UInt64.toNat_add]
    refine Nat.mod_eq_of_lt ?_
    show s.publisher.nextSequence.toNat + 1 < 2 ^ 64
    omega
  have hlt : s.publisher.nextSequence < s.publisher.nextSequence + 1 := by
    rw [UInt64.lt_iff_toNat_lt, hsucc]
    omega
  cases hmove with
  | oversized =>
      obtain ⟨hboot, -, hsound, hbelow, hrising⟩ := h
      constructor
      · exact hboot
      · show (s.publisher.nextSequence + 1).toNat ≤ ticks + 1 + 1
        omega
      · exact hsound
      · exact fun submission hmem => UInt64.lt_trans (hbelow submission hmem) hlt
      · exact hrising
  | @queued snapshot payload encoded periodMs outcome queue hidle hpayload hencode hpush =>
      obtain ⟨hboot, -, hsound, hbelow, hrising⟩ := h
      let submission : Submission S.Content :=
        ⟨snapshot, s.publisher.envelope snapshot payload periodMs⟩
      have hnew : Submission.Sound W bootId submission :=
        ⟨hboot, rfl, hpayload, TelemetryEnvelope.encodable_of_encode hencode⟩
      constructor
      · exact hboot
      · show (s.publisher.nextSequence + 1).toNat ≤ ticks + 1 + 1
        omega
      · intro other hmem
        rcases List.mem_append.mp hmem with hmem | hmem
        · exact hsound other hmem
        · rw [List.mem_singleton.mp hmem]
          exact hnew
      · intro other hmem
        rcases List.mem_append.mp hmem with hmem | hmem
        · exact UInt64.lt_trans (hbelow other hmem) hlt
        · rw [List.mem_singleton.mp hmem]
          exact hlt
      · refine List.pairwise_append.mpr ⟨hrising, List.pairwise_singleton _ _, ?_⟩
        intro other hother _ hmem
        rw [List.mem_singleton.mp hmem]
        exact hbelow other hother
  | _ => exact h.of_same rfl rfl

theorem numbered_new (bootId : UInt64) (repairPercent : UInt8) (rateBps : UInt64) (now : Nat)
    (targets : List SocketAddr) :
    Numbered bootId 0 (new W S bootId repairPercent rateBps now targets) :=
  ⟨rfl, Nat.le_refl _, nofun, nofun, List.Pairwise.nil⟩

theorem numbered_exec {bootId : UInt64} (hs : Numbered bootId 0 s) (ops : List (Op S))
    (hops : ops.length + 1 < 2 ^ 64) :
    Numbered bootId ops.length (exec (step maxInstant) s ops) := by
  refine exec_history (step maxInstant) (fun ops s => ops.length + 1 < 2 ^ 64 →
    Numbered bootId ops.length s) s (fun _ => hs) ?_ ops hops
  intro ops op ih hlength
  rw [List.length_append, List.length_singleton] at hlength ⊢
  have hbefore := ih (by omega)
  rcases step_move (exec (step maxInstant) s ops) op with hstep | hstep
  · rw [hstep]
    exact hbefore.of_same rfl rfl
  · exact hbefore.move (by omega) hstep

end TelemetryFecOutbound

/-! ## §5. What a decoder completes. -/

namespace TelemetryFecDecoder

variable {W : TelemetryFecWire} {works : List EncodedEnvelope} {peer : SocketAddr}
variable {d : TelemetryFecDecoder W.toTelemetryFecCrates} {push : Push}

theorem given_expire {genuine : Bytes → Prop} {decoder : W.DatagramFecDecoder}
    (h : Given W genuine decoder) (expired : List UInt32) :
    Given W genuine (expired.foldl W.expireBlock decoder) := by
  induction expired generalizing decoder with
  | nil => exact h
  | cons blockId expired ih => exact ih (.expire blockId h)

/-- **The decoder of an entry** is pushed after some blocks have expired. -/
theorem receive_given {genuine : Bytes → Prop} {state : PeerDecoder W.toTelemetryFecCrates}
    (h : Given W genuine state.decoder) (blockTtl now : Nat) (blockId favoured : UInt32)
    (datagram : Bytes) :
    ∃ decoder, Given W genuine decoder ∧
      (state.receive blockTtl blockId datagram now favoured).1
        = (W.pushDatagram decoder datagram).1 ∧
      (state.receive blockTtl blockId datagram now favoured).2.decoder
        = (W.pushDatagram decoder datagram).2 := by
  have hexpired : Given W genuine (state.expireBlocks blockTtl now).decoder :=
    given_expire h _
  have hroom : Given W genuine
      ((state.expireBlocks blockTtl now).makeRoom blockId favoured).decoder := by
    unfold PeerDecoder.makeRoom
    split
    · split
      · exact .expire _ hexpired
      · exact hexpired
    · exact hexpired
  have hbegun : Given W genuine
      (((state.expireBlocks blockTtl now).makeRoom blockId favoured).beginBlock blockId now).decoder := by
    unfold PeerDecoder.beginBlock
    split <;> exact hroom
  refine ⟨_, hbegun, ?_, ?_⟩
  · unfold PeerDecoder.receive
    dsimp only
    split
    next decoded hdecoded => exact hdecoded.symm
    next => rfl
  · unfold PeerDecoder.receive
    dsimp only
    split <;> rfl

theorem decoder_finish (state : PeerDecoder W.toTelemetryFecCrates)
    (result : Except W.DatagramFecError (Option Bytes)) :
    (state.finish result).2.decoder = state.decoder := by
  unfold PeerDecoder.finish
  split
  · rfl
  · rfl
  · split
    · rfl
    · rfl
    · unfold PeerDecoder.accept
      split
      · rfl
      · split
        · rfl
        · dsimp only
          split <;> rfl

/-- The peer's decoder was given datagrams of these blocks only. -/
def GivenBy (works : List EncodedEnvelope) (peer : SocketAddr)
    (d : TelemetryFecDecoder W.toTelemetryFecCrates) : Prop :=
  ∀ state, d.peers.lookup peer = some state → Given W (IsDatagramOf works) state.decoder

theorem GivenBy.prune (h : GivenBy works peer d) (now : Nat) :
    GivenBy works peer (d.pruneIdlePeers now) :=
  fun state hlookup => h state (lookup_pruneIdlePeers hlookup)

/-- The entry that a datagram of the peer enters. -/
theorem GivenBy.enter (h : GivenBy works peer d) {now : Nat}
    {state : PeerDecoder W.toTelemetryFecCrates}
    {peers : Table SocketAddr (PeerDecoder W.toTelemetryFecCrates)}
    (henter : d.enterPeer peer now = some (state, peers)) :
    Given W (IsDatagramOf works) state.decoder := by
  rcases enterPeer_eq_some henter with ⟨old, hold, rfl, -⟩ | ⟨-, -, rfl, -⟩
  · exact h old hold
  · exact .new

/-- **The entry of a peer after a datagram**: the one before, or the one the datagram was pushed
into. -/
theorem lookup_step {state' : PeerDecoder W.toTelemetryFecCrates}
    (h : (step d push).2.peers.lookup peer = some state') :
    d.peers.lookup peer = some state' ∨
      (push.peer = peer ∧ ∃ profile state peers,
        checkProfile W.toTelemetryFecCrates push.datagram = .ok profile ∧
        (d.pruneIdlePeers push.now).enterPeer push.peer push.now = some (state, peers) ∧
        state' = (pushed d push profile state).2) := by
  rcases step_cases d push with ⟨error, -, hstep⟩ | ⟨profile, -, -, hstep⟩ |
    ⟨profile, state, peers, hprofile, henter, hstep⟩
  · rw [hstep] at h
    exact .inl h
  · rw [hstep] at h
    exact .inl (lookup_pruneIdlePeers h)
  · rw [hstep] at h
    change (peers.replace push.peer (pushed d push profile state).2).lookup peer = some state' at h
    have hold : ∃ old, peers.lookup push.peer = some old := by
      rcases enterPeer_eq_some henter with ⟨old, hold, -, rfl⟩ | ⟨-, -, -, rfl⟩
      · exact ⟨old, hold⟩
      · exact ⟨_, AList.lookup_insert _⟩
    obtain ⟨old, hold⟩ := hold
    rcases AList.lookup_of_replace hold h with ⟨hpeer, hnew⟩ | ⟨hne, hother⟩
    · exact .inr ⟨hpeer.symm, profile, state, peers, hprofile, henter, hnew⟩
    · rcases enterPeer_eq_some henter with ⟨-, -, -, rfl⟩ | ⟨-, -, -, rfl⟩
      · exact .inl (lookup_pruneIdlePeers hother)
      · rw [AList.lookup_insert_ne hne] at hother
        exact .inl (lookup_pruneIdlePeers hother)

theorem GivenBy.step (h : GivenBy works peer d)
    (hgenuine : push.peer = peer → IsDatagramOf works push.datagram) :
    GivenBy works peer (step d push).2 := by
  intro state' hlookup
  rcases lookup_step hlookup with hold | ⟨rfl, profile, state, peers, -, henter, rfl⟩
  · exact h state' hold
  · obtain ⟨decoder, hgiven, -, hafter⟩ := receive_given ((h.prune push.now).enter henter)
      d.blockTtl push.now (W.blockId profile) push.favoured push.datagram
    have hpushed : (pushed d push profile state).2.decoder
        = (state.receive d.blockTtl (W.blockId profile) push.datagram push.now
            push.favoured).2.decoder := decoder_finish _ _
    rw [hpushed, hafter]
    exact .push hgiven (hgenuine rfl)

/-- The peer's decoder over a run whose datagrams of the peer are genuine. -/
theorem givenBy_exec {maxPeers blockTtl : Nat} {pushes : List Push}
    (hgenuine : ∀ push ∈ pushes, push.peer = peer → IsDatagramOf works push.datagram) :
    GivenBy works peer (exec step (new W.toTelemetryFecCrates maxPeers blockTtl) pushes) := by
  refine exec_history step
    (fun pushes d => (∀ push ∈ pushes, push.peer = peer → IsDatagramOf works push.datagram) →
      GivenBy works peer d) (new W.toTelemetryFecCrates maxPeers blockTtl) ?_ ?_ pushes hgenuine
  · intro _ state hlookup
    change (∅ : Table SocketAddr (PeerDecoder W.toTelemetryFecCrates)).lookup peer = some state
      at hlookup
    rw [AList.lookup_empty] at hlookup
    cases hlookup
  · intro before push ih hall
    refine (ih fun other hmem => hall other (List.mem_append_left _ hmem)).step ?_
    exact hall push (List.mem_append_right _ List.mem_cons_self)

section Faithful

variable {repairPercent : UInt8} {encoder : TelemetryFecEncoder W} {envelope : TelemetryEnvelope}

/-- **What a genuine datagram can complete** is an envelope that was encoded. -/
theorem decodes_of_genuine (hfaithful : Faithful W)
    (hworks : EncodedBy (TelemetryFecEncoder.new W repairPercent) works encoder)
    (hids : works.length ≤ 2 ^ 32) (h : GivenBy works push.peer d)
    (hgenuine : IsDatagramOf works push.datagram) {profile : W.RaptorQBlockProfile}
    {state : PeerDecoder W.toTelemetryFecCrates}
    {peers : Table SocketAddr (PeerDecoder W.toTelemetryFecCrates)} {decoded : Bytes}
    (henter : (d.pruneIdlePeers push.now).enterPeer push.peer push.now = some (state, peers))
    (hdecoded : (state.receive d.blockTtl (W.blockId profile) push.datagram push.now
      push.favoured).1 = .ok (some decoded)) : ∃ work ∈ works, work.envelope = decoded := by
  obtain ⟨decoder, hgiven, hanswer, -⟩ := receive_given ((h.prune push.now).enter henter)
    d.blockTtl push.now (W.blockId profile) push.favoured push.datagram
  obtain ⟨work, hwork, hdatagram⟩ := hgenuine
  rw [hanswer] at hdecoded
  exact ⟨work, hwork, (hfaithful.object repairPercent works encoder hworks hids decoder hgiven work
    hwork push.datagram hdatagram decoded hdecoded).symm⟩

theorem decodedBy_of_genuine (hfaithful : Faithful W)
    (hworks : EncodedBy (TelemetryFecEncoder.new W repairPercent) works encoder)
    (hids : works.length ≤ 2 ^ 32) (h : GivenBy works push.peer d)
    (hgenuine : IsDatagramOf works push.datagram) (hdecoded : decodedBy d push = some envelope) :
    ∃ work ∈ works, TelemetryEnvelope.decode W.hash work.envelope = .ok envelope := by
  unfold decodedBy at hdecoded
  split at hdecoded
  · cases hdecoded
  next profile hprofile =>
    split at hdecoded
    · cases hdecoded
    next state peers henter =>
      split at hdecoded
      next decoded hreceived =>
        obtain ⟨work, hwork, rfl⟩ :=
          decodes_of_genuine hfaithful hworks hids h hgenuine henter hreceived
        refine ⟨work, hwork, ?_⟩
        cases hresult : TelemetryEnvelope.decode W.hash work.envelope with
        | error error =>
            rw [hresult] at hdecoded
            cases hdecoded
        | ok found =>
            rw [hresult] at hdecoded
            cases hdecoded
            rfl
      · cases hdecoded

/-- A completed envelope is one the FEC decoder gave, and its pair is the accepted one. -/
theorem completedBy_spec (h : completedBy peer (d, push) = some envelope) :
    push.peer = peer ∧ decodedBy d push = some envelope ∧
    ∃ state, (step d push).2.peers.lookup peer = some state ∧
      state.acceptedSequence = some (PeerDecoder.pairOf envelope) := by
  unfold completedBy at h
  split at h
  next hpeer =>
    rcases step_cases d push with ⟨error, -, hstep⟩ | ⟨profile, -, -, hstep⟩ |
      ⟨profile, state, peers, hprofile, henter, hstep⟩
    · rw [hstep] at h
      cases h
    · rw [hstep] at h
      cases h
    · rw [hstep] at h
      have hreply : (pushed d push profile state).1 = .ok (.complete envelope) := by
        dsimp only at h
        split at h
        next found hfound =>
          cases h
          exact hfound
        · cases h
      rcases (PeerDecoder.finish_cases (state.receive d.blockTtl (W.blockId profile) push.datagram
          push.now push.favoured).2 (state.receive d.blockTtl (W.blockId profile) push.datagram
            push.now push.favoured).1).2 with
        ⟨decoded, found, hdecoded, hfound, hcomplete, -, -, -, haccepted⟩ | ⟨hother, -, -⟩
      · have hsame : found = envelope := by
          have hboth := hcomplete.symm.trans hreply
          cases hboth
          rfl
        subst hsame
        refine ⟨hpeer, ?_, ?_⟩
        · unfold decodedBy
          simp only [hprofile, henter, hdecoded, hfound]
          rfl
        · refine ⟨(pushed d push profile state).2, ?_, haccepted⟩
          rw [hstep, ← hpeer]
          have hold : ∃ old, peers.lookup push.peer = some old := by
            rcases enterPeer_eq_some henter with ⟨old, hold, -, rfl⟩ | ⟨-, -, -, rfl⟩
            · exact ⟨old, hold⟩
            · exact ⟨_, AList.lookup_insert _⟩
          obtain ⟨old, hold⟩ := hold
          exact AList.lookup_replace_self _ hold
      · exact absurd hreply (hother envelope)
  · cases h

/-- The pair that is accepted of a peer is of one boot. -/
def Booted (bootId : UInt64) (peer : SocketAddr) (d : TelemetryFecDecoder W.toTelemetryFecCrates) :
    Prop :=
  ∀ state accepted, d.peers.lookup peer = some state → state.acceptedSequence = some accepted →
    accepted.bootId = bootId

theorem Booted.step {bootId : UInt64} (h : Booted bootId peer d)
    (hdecoded : push.peer = peer → ∀ envelope, decodedBy d push = some envelope →
      envelope.bootId = bootId) : Booted bootId peer (step d push).2 := by
  intro state' accepted hlookup haccepted
  rcases lookup_step hlookup with hold | ⟨rfl, profile, state, peers, hprofile, henter, rfl⟩
  · exact h state' accepted hold haccepted
  · have hbefore : ∀ pair, state.acceptedSequence = some pair → pair.bootId = bootId := by
      intro pair hpair
      obtain ⟨old, hold, hsame⟩ := accepted_of_enter henter hpair
      exact h old pair (lookup_pruneIdlePeers hold) hsame
    have hidentity := (Prod.mk.inj (@PeerDecoder.identity_receive W.toTelemetryFecCrates state
      d.blockTtl push.now (W.blockId profile) push.favoured push.datagram)).2
    rcases (PeerDecoder.finish_cases (state.receive d.blockTtl (W.blockId profile) push.datagram
        push.now push.favoured).2 (state.receive d.blockTtl (W.blockId profile) push.datagram
          push.now push.favoured).1).2 with
      ⟨decoded, envelope, hreceived, henvelope, -, -, -, -, hnew⟩ | ⟨-, -, hnew⟩
    · have hpair : some accepted = some (PeerDecoder.pairOf envelope) := haccepted.symm.trans hnew
      cases hpair
      refine hdecoded rfl envelope ?_
      unfold decodedBy
      simp only [hprofile, henter, hreceived, henvelope]
      rfl
    · exact hbefore accepted (hidentity.symm.trans (hnew.symm.trans haccepted))

/-- **What a peer completes**, when its datagrams are genuine, its blocks are of one boot and it is
never pruned: envelopes that were encoded, in the order of their sequences. -/
theorem completes_of_genuine (hfaithful : Faithful W)
    (hworks : EncodedBy (TelemetryFecEncoder.new W repairPercent) works encoder)
    (hids : works.length ≤ 2 ^ 32) {maxPeers blockTtl : Nat} {pushes : List Push}
    (hgenuine : ∀ push ∈ pushes, push.peer = peer → IsDatagramOf works push.datagram) :
    ∀ envelope ∈ completes (new W.toTelemetryFecCrates maxPeers blockTtl) pushes peer,
      ∃ work ∈ works, TelemetryEnvelope.decode W.hash work.envelope = .ok envelope := by
  intro envelope henvelope
  obtain ⟨entry, hentry, hcompleted⟩ := List.mem_filterMap.mp henvelope
  obtain ⟨before, after, hpushes, hstate⟩ := exists_exec_of_mem_trace step hentry
  obtain ⟨d, push⟩ := entry
  obtain ⟨hpeer, hdecoded, -⟩ := completedBy_spec hcompleted
  have hmem : push ∈ pushes := hpushes ▸ List.mem_append_right _ List.mem_cons_self
  refine decodedBy_of_genuine hfaithful hworks hids ?_ (hgenuine push hmem hpeer) hdecoded
  rw [hpeer]
  change d = exec step _ before at hstate
  rw [hstate]
  refine givenBy_exec fun other hother => hgenuine other ?_
  rw [hpushes]
  exact List.mem_append_left _ hother

/-- Everything that is decoded for the peer in a run is of one boot. -/
def OneBoot (bootId : UInt64) (d₀ : TelemetryFecDecoder W.toTelemetryFecCrates)
    (pushes : List Push) (peer : SocketAddr) : Prop :=
  ∀ before push after, pushes = before ++ push :: after → push.peer = peer →
    ∀ envelope, decodedBy (exec step d₀ before) push = some envelope → envelope.bootId = bootId

theorem OneBoot.left {bootId : UInt64} {d₀ : TelemetryFecDecoder W.toTelemetryFecCrates}
    {pushes rest : List Push} (h : OneBoot bootId d₀ (pushes ++ rest) peer) :
    OneBoot bootId d₀ pushes peer := by
  intro before push after hpushes
  refine h before push (after ++ rest) ?_
  rw [hpushes, List.append_assoc, List.cons_append]

theorem OneBoot.booted {bootId : UInt64} {maxPeers blockTtl : Nat} {pushes : List Push}
    (h : OneBoot bootId (new W.toTelemetryFecCrates maxPeers blockTtl) pushes peer) :
    Booted bootId peer (exec step (new W.toTelemetryFecCrates maxPeers blockTtl) pushes) := by
  refine exec_history step
    (fun pushes d => OneBoot bootId (new W.toTelemetryFecCrates maxPeers blockTtl) pushes peer →
      Booted bootId peer d) (new W.toTelemetryFecCrates maxPeers blockTtl) ?_ ?_ pushes h
  · intro _ state accepted hlookup
    change (∅ : Table SocketAddr (PeerDecoder W.toTelemetryFecCrates)).lookup peer = some state
      at hlookup
    rw [AList.lookup_empty] at hlookup
    cases hlookup
  · intro before push ih hboot
    exact (ih hboot.left).step fun hpeer => hboot before push [] rfl hpeer

theorem OneBoot.bootsFresh {bootId : UInt64} {maxPeers blockTtl : Nat} {pushes : List Push}
    (h : OneBoot bootId (new W.toTelemetryFecCrates maxPeers blockTtl) pushes peer) :
    BootsFresh (new W.toTelemetryFecCrates maxPeers blockTtl) pushes peer := by
  intro before push after hpushes hpeer envelope hdecoded state accepted hlookup haccepted hne
  have hbefore : Booted bootId peer
      (exec step (new W.toTelemetryFecCrates maxPeers blockTtl) before) := by
    rw [hpushes] at h
    exact h.left.booted
  have hboot := hbefore state accepted hlookup haccepted
  exact absurd (hboot.trans (h before push after hpushes hpeer envelope hdecoded).symm) hne

/-- **Completed envelopes of one boot rise**, unless the peer is pruned. -/
theorem completes_rising {bootId : UInt64} {maxPeers blockTtl : Nat} {pushes : List Push}
    (hpruned : NeverPruned (new W.toTelemetryFecCrates maxPeers blockTtl) pushes peer)
    (hboot : OneBoot bootId (new W.toTelemetryFecCrates maxPeers blockTtl) pushes peer) :
    (completes (new W.toTelemetryFecCrates maxPeers blockTtl) pushes peer).Pairwise
      fun a b => a.sequence < b.sequence := by
  have hall : (∀ envelope ∈ completes (new W.toTelemetryFecCrates maxPeers blockTtl) pushes peer,
        envelope.bootId = bootId) ∧
      Accepts (completes (new W.toTelemetryFecCrates maxPeers blockTtl) pushes peer)
        ((exec step (new W.toTelemetryFecCrates maxPeers blockTtl) pushes).peers.lookup peer) ∧
      (completes (new W.toTelemetryFecCrates maxPeers blockTtl) pushes peer).Pairwise
        fun a b => a.sequence < b.sequence := by
    refine exec_history step (fun pushes d =>
      NeverPruned (new W.toTelemetryFecCrates maxPeers blockTtl) pushes peer →
      OneBoot bootId (new W.toTelemetryFecCrates maxPeers blockTtl) pushes peer →
      (∀ envelope ∈ completes (new W.toTelemetryFecCrates maxPeers blockTtl) pushes peer,
        envelope.bootId = bootId) ∧
      Accepts (completes (new W.toTelemetryFecCrates maxPeers blockTtl) pushes peer)
        (d.peers.lookup peer) ∧
      (completes (new W.toTelemetryFecCrates maxPeers blockTtl) pushes peer).Pairwise
        fun a b => a.sequence < b.sequence)
      (new W.toTelemetryFecCrates maxPeers blockTtl) ?_ ?_ pushes hpruned hboot
    · intro _ _
      refine ⟨nofun, ?_, List.Pairwise.nil⟩
      show Accepts [] ((∅ : Table SocketAddr (PeerDecoder W.toTelemetryFecCrates)).lookup peer)
      rw [AList.lookup_empty]
      exact ⟨List.nodup_nil, fun _ => rfl, nofun, nofun, nofun⟩
    · intro before push ih hpruned hboot
      obtain ⟨hboots, haccepts, hrising⟩ := ih hpruned.left hboot.left
      have hafter := haccepts.step hpruned hboot.bootsFresh
      refine ⟨?_, hafter, ?_⟩
      · intro envelope henvelope
        rw [completes_append] at henvelope
        rcases List.mem_append.mp henvelope with hold | hnew
        · exact hboots envelope hold
        · obtain ⟨hpeer, hdecoded, -⟩ := completedBy_spec (Option.mem_toList.mp hnew)
          exact hboot before push [] rfl hpeer envelope hdecoded
      · rw [completes_append] at hafter ⊢
        cases hcompleted : completedBy peer
            (exec step (new W.toTelemetryFecCrates maxPeers blockTtl) before, push) with
        | none =>
            rw [Option.toList_none, List.append_nil]
            exact hrising
        | some envelope =>
            rw [hcompleted, Option.toList_some] at hafter
            obtain ⟨hpeer, hdecoded, state, hlookup, hpair⟩ := completedBy_spec hcompleted
            have hnow := hboot before push [] rfl hpeer envelope hdecoded
            refine List.pairwise_append.mpr ⟨hrising, List.pairwise_singleton _ _, ?_⟩
            intro earlier hearlier _ hlast
            rw [List.mem_singleton.mp hlast]
            have hle := hafter.newest state _ hlookup hpair earlier
              (List.mem_append_left _ hearlier) ((hboots earlier hearlier).trans hnow.symm)
            refine UInt64.lt_of_le_of_ne hle ?_
            intro hsame
            -- the pairs of the run are distinct
            have hdistinct := hafter.pairs
            rw [List.map_append, List.nodup_append] at hdistinct
            refine hdistinct.2.2 _ (List.mem_map_of_mem hearlier) _ List.mem_cons_self ?_
            show PeerDecoder.pairOf earlier = PeerDecoder.pairOf envelope
            unfold PeerDecoder.pairOf
            rw [(hboots earlier hearlier).trans hnow.symm]
            exact congrArg _ hsame
  exact hall.2.2

end Faithful

end TelemetryFecDecoder

/-! ## §6. From submissions to snapshots. -/

namespace TelemetryFecMesh

variable {W : TelemetryFecWire} {S : SnapshotWire} {config : Config} {m : TelemetryFecMesh W S}

/-- The steps of one node. -/
def callsOf (address : SocketAddr) : Op S → List (TelemetryFecOutbound.Op S)
  | .outbound other op => if other = address then [op] else []
  | .deliver _ _ _ _ => []

theorem runsAs_sender (config : Config) (address : SocketAddr) :
    RunsAs (step (W := W) (S := S) config) (fun m => m.senders address)
      (TelemetryFecOutbound.step config.maxInstant) (callsOf address) := by
  intro m op
  cases op with
  | outbound other op =>
      show Function.update m.senders other _ address
        = exec _ (m.senders address) (if other = address then [op] else [])
      by_cases hsame : other = address
      · subst hsame
        rw [Function.update_self, if_pos rfl]
        rfl
      · rw [Function.update_of_ne (Ne.symm hsame), if_neg hsame]
        rfl
  | deliver other datagram now favoured =>
      show (ite _ _ _ : TelemetryFecMesh W S).senders address = m.senders address
      split <;> rfl

theorem length_callsOf (address : SocketAddr) (ops : List (Op S)) :
    (ops.flatMap (callsOf address)).length ≤ ops.length := by
  induction ops with
  | nil => exact Nat.le_refl _
  | cons op ops ih =>
      rw [List.flatMap_cons, List.length_append, List.length_cons]
      have hone : (callsOf address op).length ≤ 1 := by
        unfold callsOf
        split
        · split <;> simp
        · exact Nat.zero_le _
      omega

/-- The snapshot a reply of the decoder lets through. -/
def throughReply (S : SnapshotWire) {C : TelemetryFecCrates} (reply : PushResult C) :
    Option (MeshSnapshot S.Content) :=
  match reply with
  | .ok (.complete envelope) => S.ofEnvelope envelope
  | _ => none

/-- **What the collector does with a datagram.** -/
theorem receive_spec (c : TelemetryFecCollector W S) (peer : SocketAddr) (datagram : Bytes)
    (now : Nat) (favoured : UInt32) :
    let push : TelemetryFecDecoder.Push :=
      ⟨peer, datagram.take collectorBufferBytes, now, favoured⟩
    (c.receive peer datagram now favoured).decoder = (c.decoder.step push).2 ∧
    (c.receive peer datagram now favoured).pushes = c.pushes ++ [push] ∧
    (c.receive peer datagram now favoured).ingested
      = c.ingested ++ (throughReply S (c.decoder.step push).1).toList.map fun s => (peer, s) := by
  intro push
  unfold TelemetryFecCollector.receive throughReply
  dsimp only [push, TelemetryFecCollector.record]
  generalize TelemetryFecDecoder.step c.decoder _ = answer
  obtain ⟨result, decoder⟩ := answer
  dsimp only
  have hnone := (List.append_nil c.ingested).symm
  split
  · exact ⟨rfl, rfl, hnone⟩
  · exact ⟨rfl, rfl, hnone⟩
  next envelope =>
    dsimp only
    cases hsnapshot : S.ofEnvelope envelope with
    | none => exact ⟨rfl, rfl, hnone⟩
    | some snapshot => exact ⟨rfl, rfl, rfl⟩
  · exact ⟨rfl, rfl, hnone⟩

/-- What goes through of a reply is what the completed envelope gives. -/
theorem through_completedBy (d : TelemetryFecDecoder W.toTelemetryFecCrates)
    (push : TelemetryFecDecoder.Push) (address : SocketAddr) :
    ((throughReply S (d.step push).1).toList.map fun s => (push.peer, s)).filterMap
        (fun entry => if entry.1 = address then some entry.2 else none)
      = (TelemetryFecDecoder.completedBy address (d, push)).toList.filterMap S.ofEnvelope := by
  unfold TelemetryFecDecoder.completedBy throughReply
  dsimp only
  by_cases hpeer : push.peer = address
  · rw [if_pos hpeer]
    rcases (TelemetryFecDecoder.step d push).1 with error | outcome
    · rfl
    · cases outcome with
      | pending => rfl
      | duplicate => rfl
      | complete envelope =>
          cases hsnapshot : S.ofEnvelope envelope <;> simp [hpeer, hsnapshot]
  · rw [if_neg hpeer]
    rcases (TelemetryFecDecoder.step d push).1 with error | outcome
    · rfl
    · cases outcome with
      | pending => rfl
      | duplicate => rfl
      | complete envelope => cases S.ofEnvelope envelope <;> simp [hpeer]

/-- What the collector has heard goes back to what the nodes have sent. -/
structure Heard (config : Config) (m : TelemetryFecMesh W S) : Prop where
  decoder : m.collector.decoder = exec TelemetryFecDecoder.step
    (TelemetryFecDecoder.new W.toTelemetryFecCrates config.maxPeers config.blockTtl)
    m.collector.pushes
  genuine : ∀ push ∈ m.collector.pushes, (config.setups push.peer).isSome = true →
    ∃ datagram, push.datagram = datagram.take collectorBufferBytes ∧
      ⟨config.collector, datagram⟩ ∈ (m.senders push.peer).attempts
  ingested : ∀ address, m.ingestedFrom address = (TelemetryFecDecoder.completes
    (TelemetryFecDecoder.new W.toTelemetryFecCrates config.maxPeers config.blockTtl)
    m.collector.pushes address).filterMap S.ofEnvelope

theorem Heard.step (h : Heard config m) (op : Op S) : Heard config (step config m op).2 := by
  cases op with
  | outbound address op =>
      have hgrow : ∀ {peer : SocketAddr} {attempt : Attempt},
          attempt ∈ (m.senders peer).attempts →
          attempt ∈ ((TelemetryFecMesh.step config m (.outbound address op)).2.senders peer).attempts := by
        intro peer attempt hattempt
        show attempt ∈ (Function.update m.senders address _ peer).attempts
        by_cases hsame : peer = address
        · subst hsame
          rw [Function.update_self]
          exact (TelemetryFecOutbound.attempts_step (m.senders peer) op).subset hattempt
        · rw [Function.update_of_ne hsame]
          exact hattempt
      constructor
      · exact h.decoder
      · intro push hpush hsetup
        obtain ⟨datagram, hcut, hattempt⟩ := h.genuine push hpush hsetup
        exact ⟨datagram, hcut, hgrow hattempt⟩
      · exact h.ingested
  | deliver peer datagram now favoured =>
      show Heard config (ite _ _ _)
      split
      next hdeliverable =>
        obtain ⟨hdecoder, hpushes, hingested⟩ :=
          receive_spec m.collector peer datagram now favoured
        constructor
        · show (m.collector.receive peer datagram now favoured).decoder
            = exec _ _ (m.collector.receive peer datagram now favoured).pushes
          rw [hdecoder, hpushes, exec_append, ← h.decoder]
          rfl
        · intro push hpush hsetup
          change push ∈ (m.collector.receive peer datagram now favoured).pushes at hpush
          rw [hpushes] at hpush
          rcases List.mem_append.mp hpush with hold | hnew
          · exact h.genuine push hold hsetup
          · rw [List.mem_singleton.mp hnew] at hsetup ⊢
            rcases hdeliverable with hnone | hattempt
            · rw [Option.isNone_iff_eq_none.mp hnone] at hsetup
              cases hsetup
            · exact ⟨datagram, rfl, hattempt⟩
        · intro address
          show ((m.collector.receive peer datagram now favoured).ingested).filterMap _
            = (TelemetryFecDecoder.completes _
                (m.collector.receive peer datagram now favoured).pushes address).filterMap _
          rw [hingested, hpushes, TelemetryFecDecoder.completes_append, List.filterMap_append,
            List.filterMap_append, ← h.decoder]
          refine congrArg₂ (· ++ ·) (h.ingested address) ?_
          exact through_completedBy m.collector.decoder
            ⟨peer, datagram.take collectorBufferBytes, now, favoured⟩ address
      · exact h

theorem heard_after (W : TelemetryFecWire) (S : SnapshotWire) (config : Config)
    (ops : List (Op S)) : Heard config (after W S config ops) :=
  exec_invariant (step config) (Heard config) (fun _ op h => h.step op) ops
    ⟨rfl, nofun, fun _ => rfl⟩

/-! ## §7. End to end. -/

/-- An envelope of a submission carries its snapshot through the lane. -/
theorem ofEnvelope_of_sound (hround : RoundTrips S) {bootId : UInt64}
    {submission : Submission S.Content}
    (h : TelemetryFecOutbound.Submission.Sound W bootId submission) :
    S.ofEnvelope submission.envelope = some submission.snapshot := by
  have hpayload := h.payload
  unfold SnapshotWire.encodeMeshTelemetryBinary at hpayload
  split at hpayload
  · cases hpayload
  next payload hserialized =>
    split at hpayload
    · cases hpayload
    next hfits =>
      have hsame : payload = submission.envelope.payload := Option.some.inj hpayload
      have hread := hround _ _ hserialized
      show envelopeSnapshot S.codecs submission.envelope = _
      have hdecoded : S.codecs.decodeBinary submission.envelope.payload
          = some submission.snapshot := by
        show S.decodeMeshTelemetryBinary submission.envelope.payload = _
        unfold SnapshotWire.decodeMeshTelemetryBinary
        rw [← hsame, if_neg hfits, hread]
        exact if_neg (fun hne => hne rfl)
      unfold envelopeSnapshot
      rw [hdecoded]
      exact if_pos h.nodeId.symm

/-- What is decoded of the blocks a node encoded is an envelope that it submitted. -/
theorem submission_of_decode {s : TelemetryFecOutbound W S} {bootId : UInt64} {ticks : Nat}
    (hordered : TelemetryFecOutbound.Ordered s)
    (hnumbered : TelemetryFecOutbound.Numbered bootId ticks s) {work : EncodedEnvelope}
    (hwork : work ∈ s.encoded) {envelope : TelemetryEnvelope}
    (hdecode : TelemetryEnvelope.decode W.hash work.envelope = .ok envelope) :
    ∃ submission ∈ s.submissions, submission.envelope = envelope := by
  have hwire : work.envelope ∈ s.wires :=
    hordered.order.subset (List.mem_append_left _ (List.mem_map_of_mem hwork))
  obtain ⟨submission, hsubmission, hbytes⟩ := List.mem_map.mp hwire
  have hencodable := (hnumbered.sound submission hsubmission).encodable
  rw [← hbytes, TelemetryEnvelope.decode_of_layout (TelemetryEnvelope.layout_wireBytes hencodable)]
    at hdecode
  exact ⟨submission, hsubmission, Except.ok.inj hdecode⟩

/-- Envelopes of a list that rises are a sublist of it when they rise too. -/
theorem sublist_of_rising {envelopes all : List TelemetryEnvelope}
    (hsubset : ∀ envelope ∈ envelopes, envelope ∈ all)
    (hrising : envelopes.Pairwise fun a b => a.sequence < b.sequence)
    (hall : all.Pairwise fun a b => a.sequence < b.sequence) : List.Sublist envelopes all := by
  have hnodup : envelopes.Nodup := by
    refine hrising.imp ?_
    intro a b hlt heq
    rw [heq] at hlt
    exact UInt64.lt_irrefl _ hlt
  have hsubperm : List.Subperm envelopes all := List.subperm_of_subset hnodup hsubset
  have : Std.Antisymm fun a b : TelemetryEnvelope => a.sequence < b.sequence :=
    ⟨fun a b hab hba => absurd (UInt64.lt_trans hab hba) (UInt64.lt_irrefl _)⟩
  exact List.sublist_of_subperm_of_pairwise hsubperm hrising hall

/-- **TELEMETRY, END TO END.**  Whatever the network loses, doubles, delays or reorders, and
whatever other addresses send: each snapshot that the collector ingests from a node is one the node
submitted; and unless the collector has forgotten the node in between, the snapshots it ingests are
a sublist of those submitted, in the same order and none of them twice.  The run is shorter than the
counters are wide: fewer than 2^64 operations, and at most 2^32 blocks that the node has encoded. -/
theorem telemetry_end_to_end (hfaithful : Faithful W) (hround : RoundTrips S) (config : Config)
    (ops : List (Op S)) (hops : ops.length + 1 < 2 ^ 64) {address : SocketAddr}
    {setup : SenderSetup} (hsetup : config.setups address = some setup)
    (hids : ((after W S config ops).senders address).encoded.length ≤ 2 ^ 32) :
    (∀ snapshot ∈ (after W S config ops).ingestedFrom address,
      snapshot ∈ (after W S config ops).submittedBy address) ∧
    (TelemetryFecDecoder.NeverPruned
        (TelemetryFecDecoder.new W.toTelemetryFecCrates config.maxPeers config.blockTtl)
        (after W S config ops).collector.pushes address →
      List.Sublist ((after W S config ops).ingestedFrom address)
        ((after W S config ops).submittedBy address)) := by
  have hheard := heard_after W S config ops
  have hstart : startSender W S config address = .new W S setup.bootId setup.repairPercent
      setup.rateBps setup.started setup.targets := by
    unfold startSender
    rw [hsetup]
  have hsender : (after W S config ops).senders address
      = exec (TelemetryFecOutbound.step config.maxInstant)
          (TelemetryFecOutbound.new W S setup.bootId setup.repairPercent setup.rateBps
            setup.started setup.targets) (ops.flatMap (callsOf address)) := by
    rw [← hstart]
    exact (runsAs_sender config address).part_exec ops (start W S config)
  have hnumbered : TelemetryFecOutbound.Numbered setup.bootId
      (ops.flatMap (callsOf address)).length ((after W S config ops).senders address) := by
    rw [hsender]
    refine TelemetryFecOutbound.numbered_exec (TelemetryFecOutbound.numbered_new _ _ _ _ _) _ ?_
    have hlength := length_callsOf address ops
    omega
  have hencoded : EncodedBy (TelemetryFecEncoder.new W setup.repairPercent)
      ((after W S config ops).senders address).encoded
      ((after W S config ops).senders address).encoder := by
    rw [hsender]
    exact TelemetryFecOutbound.encodedBy_exec .nil _
  obtain ⟨hrounded, hordered⟩ : ((after W S config ops).senders address).Rounded ∧
      ((after W S config ops).senders address).Ordered := by
    rw [hsender]
    exact TelemetryFecOutbound.exec_ordered (TelemetryFecOutbound.rounded_new _ _ _ _ _)
      (TelemetryFecOutbound.ordered_new _ _ _ _ _) _
  unfold submittedBy
  rw [hheard.ingested address]
  generalize after W S config ops = m at *
  -- the collector's datagrams of the node are those of its blocks
  have hgenuine : ∀ push ∈ m.collector.pushes, push.peer = address →
      IsDatagramOf (m.senders address).encoded push.datagram := by
    intro push hpush hpeer
    obtain ⟨datagram, hcut, hattempt⟩ := hheard.genuine push hpush (by rw [hpeer, hsetup]; rfl)
    rw [hpeer] at hattempt
    have hof := hrounded.isDatagramOf hattempt
    rw [hcut, List.take_of_length_le (hfaithful.length _ _ _ hencoded datagram hof)]
    exact hof
  have hsubmitted : ∀ {work : EncodedEnvelope} {envelope : TelemetryEnvelope},
      work ∈ (m.senders address).encoded →
      TelemetryEnvelope.decode W.hash work.envelope = .ok envelope →
      envelope ∈ (m.senders address).submissions.map Submission.envelope := by
    intro work envelope hwork hdecode
    obtain ⟨submission, hsubmission, rfl⟩ :=
      submission_of_decode hordered hnumbered hwork hdecode
    exact List.mem_map_of_mem hsubmission
  have hcompletes : ∀ envelope ∈ TelemetryFecDecoder.completes
      (TelemetryFecDecoder.new W.toTelemetryFecCrates config.maxPeers config.blockTtl)
      m.collector.pushes address,
      envelope ∈ (m.senders address).submissions.map Submission.envelope := by
    intro envelope henvelope
    obtain ⟨work, hwork, hdecode⟩ := TelemetryFecDecoder.completes_of_genuine hfaithful hencoded
      hids hgenuine envelope henvelope
    exact hsubmitted hwork hdecode
  constructor
  · intro snapshot hsnapshot
    obtain ⟨envelope, henvelope, hthrough⟩ := List.mem_filterMap.mp hsnapshot
    obtain ⟨submission, hsubmission, rfl⟩ := List.mem_map.mp (hcompletes envelope henvelope)
    rw [ofEnvelope_of_sound hround (hnumbered.sound submission hsubmission)] at hthrough
    cases hthrough
    exact List.mem_map_of_mem hsubmission
  · intro hpruned
    have hboot : TelemetryFecDecoder.OneBoot setup.bootId
        (TelemetryFecDecoder.new W.toTelemetryFecCrates config.maxPeers config.blockTtl)
        m.collector.pushes address := by
      intro before push rest hpushes hpeer envelope hdecoded
      have hmem : push ∈ m.collector.pushes := hpushes ▸ List.mem_append_right _ List.mem_cons_self
      subst hpeer
      have hgiven : TelemetryFecDecoder.GivenBy (m.senders push.peer).encoded push.peer
          (exec TelemetryFecDecoder.step
            (.new W.toTelemetryFecCrates config.maxPeers config.blockTtl) before) := by
        refine TelemetryFecDecoder.givenBy_exec fun other hother hpeer => hgenuine other ?_ hpeer
        rw [hpushes]
        exact List.mem_append_left _ hother
      obtain ⟨work, hwork, hdecode⟩ := TelemetryFecDecoder.decodedBy_of_genuine hfaithful hencoded
        hids hgiven (hgenuine push hmem rfl) hdecoded
      obtain ⟨submission, hsubmission, rfl⟩ := List.mem_map.mp (hsubmitted hwork hdecode)
      exact (hnumbered.sound submission hsubmission).boot
    have hsublist := sublist_of_rising hcompletes
      (TelemetryFecDecoder.completes_rising hpruned hboot) (List.pairwise_map.mpr hnumbered.rising)
    obtain ⟨kept, hkept, hsame⟩ := List.sublist_map_iff.mp hsublist
    rw [hsame]
    -- each of them gives its own snapshot
    have hsnapshots : (kept.map Submission.envelope).filterMap S.ofEnvelope
        = kept.map Submission.snapshot := by
      rw [List.filterMap_map, ← List.filterMap_eq_map]
      refine List.filterMap_congr ?_
      intro submission hsubmission
      exact ofEnvelope_of_sound hround (hnumbered.sound submission (hkept.subset hsubmission))
    rw [hsnapshots]
    exact hkept.map _

/-! ## §8. A run. -/

section Samples

open TelemetryFecOutbound (oneSymbolWire byteSnapshots sampleTargets)

/-- The symbols of a one-symbol block carry the object. -/
theorem datagram_oneSymbolWire {repairPercent : UInt8} {works : List EncodedEnvelope}
    {encoder : TelemetryFecEncoder oneSymbolWire}
    (h : EncodedBy (TelemetryFecEncoder.new oneSymbolWire repairPercent) works encoder) :
    ∀ work ∈ works, ∀ datagram ∈ work.block.datagrams,
      datagram.drop 4 = work.envelope ∧ datagram.length ≤ 1156 := by
  induction h with
  | nil => exact nofun
  | failed _ _ ih => exact ih
  | @encoded works e e' envelope block _ hencode ih =>
      intro work hwork
      rcases List.mem_append.mp hwork with hold | hnew
      · exact ih work hold
      · rw [List.mem_singleton.mp hnew]
        intro datagram hdatagram
        unfold TelemetryFecEncoder.encode at hencode
        split at hencode
        · cases hencode
        · split at hencode
          · cases hencode
          · by_cases hfits : envelope.length ≤ 1152
            · dsimp only [oneSymbolWire] at hencode
              rw [if_pos hfits] at hencode
              cases hencode
              rw [List.eq_of_mem_replicate hdatagram]
              refine ⟨List.drop_left' (length_toBeBytes 4 _), ?_⟩
              rw [List.length_append, length_toBeBytes]
              omega
            · dsimp only [oneSymbolWire] at hencode
              rw [if_neg hfits] at hencode
              cases hencode

theorem faithful_oneSymbolWire : Faithful oneSymbolWire := by
  constructor
  · intro repairPercent works e hworks _ d _ work hwork datagram hdatagram object hobject
    have hdrop : datagram.drop 4 = object := Option.some.inj (Except.ok.inj hobject)
    rw [← hdrop]
    exact (datagram_oneSymbolWire hworks work hwork datagram hdatagram).1
  · intro repairPercent works e hworks datagram hgenuine
    obtain ⟨work, hwork, hdatagram⟩ := hgenuine
    have hlength := (datagram_oneSymbolWire hworks work hwork datagram hdatagram).2
    show datagram.length ≤ 2048
    omega

theorem roundTrips_byteSnapshots : RoundTrips byteSnapshots := by
  intro snapshot payload hwritten
  dsimp only [byteSnapshots] at hwritten ⊢
  split at hwritten
  next hone =>
    obtain ⟨hnode, hregion, hupdated⟩ := hone
    cases hwritten
    have hbyte : (UInt8.ofNat snapshot.updatedUnixMs).toNat = snapshot.updatedUnixMs := by
      rw [UInt8.toNat_ofNat']
      exact Nat.mod_eq_of_lt hupdated
    obtain ⟨nodeId, region, updated, content⟩ := snapshot
    subst hnode hregion
    exact congrArg (fun n => some (MeshSnapshot.mk "node-a" "uk" n content, 1)) hbyte
  · cases hwritten

def sampleNode : SocketAddr := ⟨"10.0.0.1", 7000⟩

def sampleConfig : Config where
  setups address := if address = sampleNode then some ⟨7, 20, 32000, 0, sampleTargets⟩ else none
  collector := ⟨"10.0.0.9", 7300⟩
  maxPeers := 256
  blockTtl := 15000000000
  maxInstant := 10 ^ 18

/-- A symbol of the first block of the node. -/
def sampleSymbol : Bytes :=
  [0, 0, 0, 1] ++ TelemetryEnvelope.wireBytes (fun _ => 0) (.meshSnapshot 7 1 9 5000 "node-a" [9])

/-- A snapshot is sent, its symbol comes twice, and another address sends it again. -/
def sampleOps : List (Op byteSnapshots) :=
  TelemetryFecOutbound.sampleSends.map (Op.outbound sampleNode)
    ++ [.deliver sampleNode sampleSymbol 60 0, .deliver sampleNode sampleSymbol 61 0,
      .deliver ⟨"10.0.0.2", 7000⟩ sampleSymbol 62 0]

/-- What the collector's decoder is given of it. -/
def samplePushes : List TelemetryFecDecoder.Push :=
  [⟨sampleNode, sampleSymbol, 60, 0⟩, ⟨sampleNode, sampleSymbol, 61, 0⟩,
    ⟨⟨"10.0.0.2", 7000⟩, sampleSymbol, 62, 0⟩]

theorem telemetry_end_to_end_sample :
    ((after oneSymbolWire byteSnapshots sampleConfig sampleOps).ingestedFrom sampleNode).length = 1 ∧
    List.Sublist ((after oneSymbolWire byteSnapshots sampleConfig sampleOps).ingestedFrom sampleNode)
      ((after oneSymbolWire byteSnapshots sampleConfig sampleOps).submittedBy sampleNode) := by
  refine ⟨by decide +kernel, (@telemetry_end_to_end oneSymbolWire byteSnapshots
    faithful_oneSymbolWire roundTrips_byteSnapshots sampleConfig sampleOps (by decide) sampleNode
    ⟨7, 20, 32000, 0, sampleTargets⟩ rfl (by decide +kernel)).2 ?_⟩
  have hpushes : (after oneSymbolWire byteSnapshots sampleConfig sampleOps).collector.pushes
      = samplePushes := by rfl
  rw [hpushes]
  intro entry hentry profile _ hmem
  simp only [samplePushes, trace_cons, trace_nil, List.mem_cons, List.not_mem_nil, or_false]
    at hentry
  rcases hentry with rfl | rfl | rfl
  · exact absurd hmem (by decide +kernel)
  · decide +kernel
  · decide +kernel

end Samples

end TelemetryFecMesh

end AvMesh.Telemetry
