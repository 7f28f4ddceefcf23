/-
  AvMesh.Ingest.Node
  ──────────────────
  **THE UDP INGEST TASK OF A NODE** (`run_udp_fec_ingest`, src/main.rs).

  One task reads the primary and the secondary socket and takes each datagram
  down one of four lanes:

      control   a subscription message of a native audio client (primary only)
      audio     AEP1  — `process_relay_audio_epoch_datagram`
      relay     RLS1  — the relay receiver; an accepted datagram is forwarded
                downstream and observed by the failover controller, a decoded
                object is handed to the cache
      legacy    the rest — the UDP-FEC receiver and its byte payloads

  The four components are those of `AvMesh.Relay`, `AvMesh.UdpFec`,
  `AvMesh.Failover` and `AvMesh.LiveCache`; the task is what connects them.

  Main results: `ingest_parts` (each receiver and the audio lane run inside the
  task as they run alone) and, over whole runs, those of `AvMesh.Ingest.Evidence`.
-/
import AvMesh.Edge.LivePaths
import AvMesh.Failover.Controller
import AvMesh.Ingest.Availability
import AvMesh.Lib.Parts
import AvMesh.LiveCache.ByteStream
import AvMesh.LiveCache.Epochs
import AvMesh.Relay.AudioEpochs
import AvMesh.Relay.Dispatch
import AvMesh.UdpFec.Receiver

namespace AvMesh.Relay

/-- The role of the datagram an outcome answers. -/
def RelayIngressOutcome.role : RelayIngressOutcome → MediaDatagramRole
  | .buffered _ role _ => role
  | .decoded _ _ role _ _ _ => role
  | .duplicate _ role _ => role

def RelayIngressOutcome.deadline : RelayIngressOutcome → MediaDeadline
  | .buffered _ _ deadline => deadline
  | .decoded _ _ _ deadline _ _ => deadline
  | .duplicate _ _ deadline => deadline

end AvMesh.Relay

namespace AvMesh.Ingest

open AvMesh.Lib
open AvMesh.Relay (RelayCrates RelayUdpDispatch RelayObjectReceiver RelayIngressOutcome
  MediaDatagramRole ObjectKey AudioLane AudioPacket AudioIdentity AudioEvent NativeAudioRelay)
open AvMesh.LiveCache (ChunkCacheCrate MediaObjectCrate SoundkitCrate LiveTsCache ByteStreamCache
  CommitClock PushClock CacheResult LiveState)
open AvMesh.UdpFec (FecCrates UdpFecReceiver)
open AvMesh.Failover (RelayFailoverController RelayIngressParentPath RelayDatagramObservation
  TickClock CommandCrate FailoverLeaseCommand)

/-! ## §1. The state. -/

/-- The crates below the components.  The relay receiver reads only some fields of the media object
it decodes (`Relay.MediaObject`); `cachedObject` and `stageTimestamps` are the others, of the object
with this envelope. -/
structure IngestCrates where
  relay : RelayCrates
  fec : FecCrates
  chunks : ChunkCacheCrate
  objects : MediaObjectCrate
  soundkit : SoundkitCrate
  command : CommandCrate
  /-- `inspect_multichannel_audio_datagram`. -/
  inspect : Bytes → Option AudioIdentity
  cachedObject : Relay.MediaObject → Bytes → LiveCache.MediaObject
  stageTimestamps : Relay.MediaObject → Bytes → List StageTimestamp

/-- A call of `RelayDownstreamForwarder::forward`. -/
structure ForwardCall where
  datagram : Bytes
  role : MediaDatagramRole
  objectKey : Option ObjectKey
  expiresAtUs : Option Nat
  deriving Repr, DecidableEq

/-- A decoded object that was handed to the cache, what the cache said, and what was recorded of its
publication time. -/
structure RelayCommit where
  key : ObjectKey
  isMedia : Bool
  result : CacheResult Nat
  availability : Option RelayAvailabilityObservation

/-- The state of the task.  `forwards`, `commits` and `commands` list what it did so far; whether
there is a downstream forwarder at all is `audio.forwards`. -/
structure IngestNode (K : IngestCrates) where
  dispatch : RelayUdpDispatch K.relay
  receiver : UdpFecReceiver K.fec
  cache : ByteStreamCache K.chunks
  audio : AudioLane
  availability : RelayAvailabilityTelemetry := {}
  controller : Option RelayFailoverController
  forwards : List ForwardCall := []
  commits : List RelayCommit := []
  commands : List FailoverLeaseCommand := []

/-- What the task reads from clocks while it takes one datagram. -/
structure DatagramClock where
  /-- `now_unix_us()` of the relay dispatch. -/
  unixUs : Nat
  /-- `Instant::now()` of the audio lane and of the UDP-FEC receiver. -/
  now : Nat
  commit : CommitClock
  push : PushClock
  /-- `now_unix_us()` once an object is in the cache. -/
  availableAtUs : Nat
  /-- `Instant::now()` of the observation. -/
  observedAt : Nat

namespace IngestNode

variable {K : IngestCrates}

/-! ## §2. One datagram. -/

/-- `commit_relay_object`. -/
def commitRelayObject (K : IngestCrates) (cache : LiveTsCache K.chunks)
    (object : Relay.MediaObject) (envelope : Bytes) (clock : CommitClock) :
    CacheResult Nat × LiveTsCache K.chunks :=
  match Edge.parseU64 object.key.stream.toList with
  | none =>
      (.error "RelaySession object stream identity must map to a local numeric stream", cache)
  | some streamId =>
      cache.commitValidatedStreamPayload K.objects K.soundkit streamId envelope
        (K.cachedObject object envelope) clock

/-- `forwarder.forward`, if there is a forwarder. -/
def forward (node : IngestNode K) (call : ForwardCall) : IngestNode K :=
  if node.audio.forwards then { node with forwards := node.forwards ++ [call] } else node

/-- The call for a datagram the relay receiver accepted. -/
def relayForward (datagram : Bytes) (outcome : RelayIngressOutcome) : ForwardCall where
  datagram
  role := outcome.role
  objectKey := some outcome.key
  expiresAtUs := some outcome.deadline.expiresAtUs

/-- The `Decoded` branch, once the datagram is forwarded: the flag `decoded`. -/
def commitDecoded (node : IngestNode K) (object : Relay.MediaObject) (envelope : Bytes)
    (clock : DatagramClock) : Bool × IngestNode K :=
  -- the publication clock is read before the object moves into the cache
  let publicationClock :=
    relayPublicationClock (object.kind = .media) (K.stageTimestamps object envelope)
  let (result, live) := commitRelayObject K node.cache.toLiveTsCache object envelope clock.commit
  let node := { node with cache := { node.cache with toLiveTsCache := live } }
  match result with
  | .ok seq =>
      let observation := publicationClock.map fun publication =>
        publication.observe clock.availableAtUs
      (true, { node with
        availability := match observation with
          | some observation => node.availability.record observation
          | none => node.availability
        commits := node.commits ++ [⟨object.key, object.kind = .media, .ok seq, observation⟩] })
  | .error error =>
      (false, { node with
        commits := node.commits ++ [⟨object.key, object.kind = .media, .error error, none⟩] })

/-- A datagram that is no relay datagram. -/
def pushLegacy (node : IngestNode K) (peer : SocketAddr) (datagram : Bytes)
    (clock : DatagramClock) : IngestNode K :=
  match node.receiver.tryPushPayloadAt peer datagram clock.now with
  | (.ok (.decoded _ decoded), receiver) =>
      match decoded.streamId with
      | some streamId =>
          let (_, live) := node.cache.toLiveTsCache.commitStreamPayload K.objects K.soundkit
            (UInt64.ofNat streamId) decoded.payload clock.commit
          { node with receiver, cache := { node.cache with toLiveTsCache := live } }
      | none => { node with receiver, cache := (node.cache.pushPayload decoded.payload clock.push).2 }
  | (_, receiver) => { node with receiver }

/-- `process_udp_fec_ingest_datagram_inner`.  A panic ends the task; the state it is left in stays
in the model. -/
def processUdpFecIngestDatagramInner (node : IngestNode K) (peer : SocketAddr) (datagram : Bytes)
    (clock : DatagramClock) : Option RelayDatagramObservation × IngestNode K :=
  match node.dispatch.push peer datagram clock.unixUs with
  | (.ok .legacy, dispatch) => (none, { node with dispatch }.pushLegacy peer datagram clock)
  | (.ok (.relay outcome), dispatch) =>
      let node := { node with dispatch }.forward (relayForward datagram outcome)
      match outcome with
      | .decoded object envelope role _ _ _ =>
          let (decoded, node) := node.commitDecoded object envelope clock
          (some ⟨role, decoded⟩, node)
      | .buffered _ role _ | .duplicate _ role _ => (some ⟨role, false⟩, node)
  | (.error _, dispatch) => (none, { node with dispatch })

/-- The call for an AEP1 datagram, if the lane gets as far as forwarding it. -/
def audioForward (audio : AudioLane) (inspect : Bytes → Option AudioIdentity)
    (packet : AudioPacket) : Option ForwardCall :=
  if audio.idle then none
  else (AudioLane.identity inspect packet).map fun identity =>
    { datagram := packet.bytes
      role := if identity.sourceIndex.isSome then .source else .repair
      objectKey := none
      expiresAtUs := none }

/-- `process_relay_audio_epoch_datagram`, of an AEP1 datagram. -/
def processAudio (node : IngestNode K) (packet : AudioPacket) (now : Nat) : IngestNode K :=
  let audio := node.audio.processRelayAudioEpochDatagram K.inspect now packet
  match audioForward node.audio K.inspect packet with
  | some call => { node.forward call with audio }
  | none => { node with audio }

/-- `controller.observe`, if there is a controller and an observation. -/
def observe (node : IngestNode K) (path : RelayIngressParentPath)
    (observation : Option RelayDatagramObservation) (now : Nat) : IngestNode K :=
  match node.controller, observation with
  | some controller, some observation =>
      { node with controller := some (controller.observe path observation now) }
  | _, _ => node

/-! ## §3. The task. -/

/-- The lane a datagram takes. -/
inductive Lane where
  | control
  | audio
  | relay
  | legacy
  deriving Repr, DecidableEq

/-- Whether a datagram is a control message does not depend on the subscriptions. -/
def isControl (bytes : Bytes) : Bool :=
  ((∅ : NativeAudioRelay).handleControl 0 ⟨"", 0⟩ bytes).1

def lane (path : RelayIngressParentPath) (bytes : Bytes) : Lane :=
  if path = .primary ∧ isControl bytes then .control
  else if AudioLane.isMultichannelAudioTransportDatagram bytes then .audio
  else if Relay.isRelaySessionDatagram bytes then .relay
  else .legacy

/-- The two `recv_from` arms; only the primary socket takes control messages. -/
def receive (node : IngestNode K) (path : RelayIngressParentPath) (peer : SocketAddr)
    (packet : AudioPacket) (clock : DatagramClock) : IngestNode K :=
  let (control, native) := match path with
    | .primary =>
        let (control, _, native) := node.audio.relayNative.handleControl clock.now peer packet.bytes
        (control, native)
    | .secondary => (false, node.audio.relayNative)
  let node := { node with audio := { node.audio with relayNative := native } }
  if control then node
  else if AudioLane.isMultichannelAudioTransportDatagram packet.bytes then
    node.processAudio packet clock.now
  else
    let (observation, node) := node.processUdpFecIngestDatagramInner peer packet.bytes clock
    node.observe path observation clock.observedAt

/-- The streams `retire_streams_idle_before` lists. -/
def idleStreams {C : ChunkCacheCrate} (cache : LiveTsCache C) (cutoffUnixMs : Nat) : List UInt64 :=
  (cache.state.streamLastIngestUnixMs.entries.filter fun entry =>
    entry.1 ≠ cache.streamId ∧ entry.2 ≤ cutoffUnixMs).map fun entry => entry.1

/-- `retire_streams_idle_before`, of what the ingest task can see of it. -/
def retireStreamsIdleBefore {C : ChunkCacheCrate} (cache : LiveTsCache C) (cutoffUnixMs : Nat) :
    LiveTsCache C :=
  (idleStreams cache cutoffUnixMs).foldl (fun cache streamId =>
    { cache with
      chunkCache := C.zeroStreamId cache.chunkCache streamId
      state := cache.state.forgetStream streamId }) cache

/-- The arms of the loop; other tasks write to the cache in between. -/
inductive Op (K : IngestCrates) where
  | datagram (path : RelayIngressParentPath) (peer : SocketAddr) (packet : AudioPacket)
      (clock : DatagramClock)
  | rotate (force : Bool) (clock : PushClock)
  | expireFec (now unixUs cutoffUnixMs : Nat)
  | failoverTick (clock : TickClock)
  | otherTask (cache : ByteStreamCache K.chunks)

def step (node : IngestNode K) : Op K → Unit × IngestNode K
  | .datagram path peer packet clock => ((), node.receive path peer packet clock)
  | .rotate force clock => ((), { node with cache := (node.cache.rotateIfDue force clock).2 })
  | .expireFec now unixUs cutoffUnixMs =>
      ((), { node with
        audio := { node.audio with relayNative := node.audio.relayNative.expire now }
        receiver := (node.receiver.expireInactiveAt now).2
        dispatch := { node.dispatch with receiver := (node.dispatch.receiver.expire unixUs).2 }
        cache := { node.cache with
          toLiveTsCache := retireStreamsIdleBefore node.cache.toLiveTsCache cutoffUnixMs } })
  | .failoverTick clock =>
      match node.controller with
      | none => ((), node)
      | some controller =>
          let (command, controller) := controller.tick K.command clock
          -- a command that could not be sent is not on the wire
          ((), { node with
            controller := some controller
            commands := node.commands ++ (if clock.sendOk then command.toList else []) })
  | .otherTask cache => ((), { node with cache })

abbrev after (node : IngestNode K) (ops : List (Op K)) : IngestNode K := exec step node ops

/-! ## §4. What the lanes touch. -/

section Lanes

variable {node : IngestNode K} {path : RelayIngressParentPath} {peer : SocketAddr}
  {packet : AudioPacket} {clock : DatagramClock}

theorem handleControl_fst (relay relay' : NativeAudioRelay) (now now' : Nat)
    (peer peer' : SocketAddr) (payload : Bytes) :
    (relay.handleControl now peer payload).1 = (relay'.handleControl now' peer' payload).1 := by
  unfold NativeAudioRelay.handleControl
  split
  · rfl
  · split
    · rfl
    · split
      · rfl
      · split
        · rfl
        · split <;> rfl

/-- A payload that is no control message changes no subscription. -/
theorem handleControl_false {relay : NativeAudioRelay} {now : Nat} {peer : SocketAddr}
    {payload : Bytes} (h : (relay.handleControl now peer payload).1 = false) :
    (relay.handleControl now peer payload).2.2 = relay := by
  unfold NativeAudioRelay.handleControl at h ⊢
  split
  case isTrue hsubscribe =>
    rw [if_pos hsubscribe] at h
    cases h
  case isFalse hsubscribe =>
    rw [if_neg hsubscribe] at h
    split
    case h_1 sessionId hsession =>
      rw [hsession] at h
      cases h
    case h_2 hsession =>
      rw [hsession] at h
      dsimp only at h
      split
      case isTrue => rfl
      case isFalse hmalformed =>
        rw [if_neg hmalformed] at h
        split
        case isTrue hunsubscribe =>
          rw [if_pos hunsubscribe] at h
          cases h
        case isFalse hunsubscribe =>
          rw [if_neg hunsubscribe] at h
          split
          case h_1 sessionId hsession' =>
            rw [hsession'] at h
            cases h
          case h_2 => rfl

theorem forward_eq (node : IngestNode K) (call : ForwardCall) :
    node.forward call = { node with
      forwards := node.forwards ++ if node.audio.forwards then [call] else [] } := by
  unfold forward
  split
  · rfl
  · rw [List.append_nil]

/-- An observation touches the controller only. -/
theorem observe_eq (node : IngestNode K) (path : RelayIngressParentPath)
    (observation : Option RelayDatagramObservation) (now : Nat) :
    node.observe path observation now = { node with
      controller := (observation.elim node.controller fun observation =>
        node.controller.map fun controller => controller.observe path observation now) } := by
  obtain ⟨dispatch, receiver, cache, audio, availability, controller, forwards, commits, commands⟩ :=
    node
  cases controller <;> cases observation <;> rfl

theorem processAudio_eq (node : IngestNode K) (packet : AudioPacket) (now : Nat) :
    node.processAudio packet now = { node with
      audio := node.audio.processRelayAudioEpochDatagram K.inspect now packet
      forwards := node.forwards ++ if node.audio.forwards then
        (audioForward node.audio K.inspect packet).toList else [] } := by
  unfold processAudio
  dsimp only
  cases audioForward node.audio K.inspect packet with
  | none =>
      show _ = { node with
        audio := _, forwards := node.forwards ++ if node.audio.forwards then [] else [] }
      rw [ite_self, List.append_nil]
  | some call =>
      dsimp only
      rw [forward_eq]
      rfl

theorem pushLegacy_eq (node : IngestNode K) (peer : SocketAddr) (datagram : Bytes)
    (clock : DatagramClock) :
    ∃ cache, node.pushLegacy peer datagram clock = { node with
      receiver := (node.receiver.tryPushPayloadAt peer datagram clock.now).2, cache } := by
  unfold pushLegacy
  rcases node.receiver.tryPushPayloadAt peer datagram clock.now with ⟨result, receiver⟩
  dsimp only
  split
  case h_1 decoded receiver' heq =>
    cases heq
    split
    · exact ⟨_, rfl⟩
    · exact ⟨_, rfl⟩
  case h_2 receiver' _ heq =>
    cases heq
    exact ⟨_, rfl⟩

/-- A control message touches the native subscriptions only. -/
theorem receive_control (h : lane path packet.bytes = .control) :
    node.receive path peer packet clock = { node with
      audio := { node.audio with
        relayNative := (node.audio.relayNative.handleControl clock.now peer packet.bytes).2.2 } } := by
  unfold lane at h
  split at h
  case isTrue hcontrol =>
    obtain ⟨rfl, hcontrol⟩ := hcontrol
    have hfst : (node.audio.relayNative.handleControl clock.now peer packet.bytes).1 = true :=
      (handleControl_fst _ _ _ _ _ _ _).trans hcontrol
    unfold receive
    dsimp only
    rw [if_pos hfst]
  case isFalse =>
    split at h
    · cases h
    · split at h <;> cases h

/-- Any other datagram leaves the subscriptions as they are. -/
theorem receive_media (h : lane path packet.bytes ≠ .control) :
    node.receive path peer packet clock =
      if AudioLane.isMultichannelAudioTransportDatagram packet.bytes then
        node.processAudio packet clock.now
      else
        (node.processUdpFecIngestDatagramInner peer packet.bytes clock).2.observe path
          (node.processUdpFecIngestDatagramInner peer packet.bytes clock).1 clock.observedAt := by
  unfold receive
  cases path with
  | secondary => rfl
  | primary =>
      have hcontrol : isControl packet.bytes = false := by
        rw [Bool.eq_false_iff]
        intro hcontrol
        exact h (if_pos ⟨rfl, hcontrol⟩)
      have hfst : (node.audio.relayNative.handleControl clock.now peer packet.bytes).1 = false :=
        (handleControl_fst _ _ _ _ _ _ _).trans hcontrol
      dsimp only
      rw [hfst, handleControl_false hfst]
      rfl

theorem receive_audio (h : lane path packet.bytes = .audio) :
    node.receive path peer packet clock = node.processAudio packet clock.now := by
  rw [receive_media (by rw [h]; decide), if_pos]
  unfold lane at h
  split at h
  · cases h
  · split at h
    case isTrue haudio => exact haudio
    case isFalse => split at h <;> cases h

/-- The lanes of the two receivers. -/
theorem receive_transport (h : lane path packet.bytes = .relay ∨ lane path packet.bytes = .legacy) :
    node.receive path peer packet clock =
      (node.processUdpFecIngestDatagramInner peer packet.bytes clock).2.observe path
        (node.processUdpFecIngestDatagramInner peer packet.bytes clock).1 clock.observedAt := by
  have hcontrol : lane path packet.bytes ≠ .control := by
    rcases h with h | h <;> rw [h] <;> decide
  rw [receive_media hcontrol, if_neg]
  intro haudio
  unfold lane at h hcontrol
  split at hcontrol
  · exact absurd rfl hcontrol
  case isFalse hnot =>
    rw [if_neg hnot, if_pos haudio] at h
    rcases h with h | h <;> cases h

theorem isRelaySessionDatagram_of_lane (h : lane path packet.bytes = .relay) :
    Relay.isRelaySessionDatagram packet.bytes = true := by
  unfold lane at h
  split at h
  · cases h
  · split at h
    · cases h
    · split at h
      case isTrue hrelay => exact hrelay
      case isFalse => cases h

theorem not_isRelaySessionDatagram_of_lane (h : lane path packet.bytes = .legacy) :
    Relay.isRelaySessionDatagram packet.bytes = false := by
  unfold lane at h
  split at h
  · cases h
  · split at h
    · cases h
    · split at h
      · cases h
      case isFalse hrelay => exact Bool.eq_false_iff.mpr hrelay

/-- A legacy datagram goes to the UDP-FEC receiver and from there to the cache. -/
theorem receive_legacy (h : lane path packet.bytes = .legacy) :
    ∃ cache, node.receive path peer packet clock = { node with
      receiver := (node.receiver.tryPushPayloadAt peer packet.bytes clock.now).2, cache } := by
  have hpush : node.dispatch.push peer packet.bytes clock.unixUs = (.ok .legacy, node.dispatch) := by
    unfold RelayUdpDispatch.push
    rw [if_pos (not_isRelaySessionDatagram_of_lane h)]
  obtain ⟨cache, hlegacy⟩ := node.pushLegacy_eq peer packet.bytes clock
  refine ⟨cache, ?_⟩
  rw [receive_transport (.inr h)]
  unfold processUdpFecIngestDatagramInner
  rw [hpush]
  show (node.pushLegacy peer packet.bytes clock).observe path none _ = _
  rw [observe_eq, hlegacy]
  rfl

end Lanes

/-! ## §5. A relay datagram. -/

section Relayed

variable {node : IngestNode K} {path : RelayIngressParentPath} {peer : SocketAddr}
  {packet : AudioPacket} {clock : DatagramClock}

/-- The telemetry after a commit. -/
def recordCommit (availability : RelayAvailabilityTelemetry) (commit : Option RelayCommit) :
    RelayAvailabilityTelemetry :=
  match commit.bind RelayCommit.availability with
  | some observation => availability.record observation
  | none => availability

/-- What is noted of a commit: of a media object that is in the cache, its publication time too. -/
structure Noted (outcome : RelayIngressOutcome) (decoded : Bool) (commit : Option RelayCommit) :
    Prop where
  key : commit.map RelayCommit.key = RelayObjectReceiver.decodedKey (.ok outcome)
  decoded_iff : decoded = true ↔ ∃ done, commit = some done ∧ done.result.isOk = true
  measured_iff : ∀ done, commit = some done →
    (done.availability.isSome = true ↔ done.isMedia = true ∧ done.result.isOk = true)

theorem relayPublicationClock_isSome (isMedia : Bool) (stageTimestamps : List StageTimestamp) :
    (relayPublicationClock isMedia stageTimestamps).isSome = isMedia := by
  unfold relayPublicationClock
  cases isMedia with
  | false => rfl
  | true =>
      rw [if_neg (by decide)]
      split
      · rfl
      · split
        · rfl
        · split <;> rfl

/-- A decoded object is handed to the cache once, and noted. -/
theorem commitDecoded_eq (node : IngestNode K) (object : Relay.MediaObject) (envelope : Bytes)
    (role : MediaDatagramRole) (deadline : Relay.MediaDeadline) (parents datagrams : Nat)
    (clock : DatagramClock) :
    ∃ cache commit,
      Noted (.decoded object envelope role deadline parents datagrams)
        (node.commitDecoded object envelope clock).1 (some commit) ∧
      (node.commitDecoded object envelope clock).2 = { node with
        cache
        availability := recordCommit node.availability (some commit)
        commits := node.commits ++ [commit] } := by
  have hsome := relayPublicationClock_isSome (decide (object.kind = .media))
    (K.stageTimestamps object envelope)
  unfold commitDecoded
  dsimp only
  generalize relayPublicationClock (decide (object.kind = .media))
    (K.stageTimestamps object envelope) = publicationClock at hsome
  rcases commitRelayObject K node.cache.toLiveTsCache object envelope clock.commit with
    ⟨result, live⟩
  cases result with
  | ok seq =>
      refine ⟨{ node.cache with toLiveTsCache := live },
        ⟨object.key, decide (object.kind = .media), .ok seq,
          publicationClock.map fun publication => publication.observe clock.availableAtUs⟩,
        ⟨rfl, ?_, ?_⟩, rfl⟩
      · exact ⟨fun _ => ⟨_, rfl, rfl⟩, fun _ => rfl⟩
      · intro done hdone
        cases hdone
        show (Option.map _ publicationClock).isSome = true ↔ _ ∧ true = true
        rw [Option.isSome_map, hsome]
        exact (and_iff_left rfl).symm
  | error error =>
      refine ⟨{ node.cache with toLiveTsCache := live },
        ⟨object.key, decide (object.kind = .media), .error error, none⟩, ⟨rfl, ?_, ?_⟩, rfl⟩
      · constructor
        · intro hdecoded
          cases hdecoded
        · intro hdone
          obtain ⟨done, hsame, hok⟩ := hdone
          cases hsame
          cases hok
      · intro done hdone
        cases hdone
        constructor
        · intro hmeasured
          cases hmeasured
        · intro hok
          cases hok.2

/-- The node after a relay datagram was accepted. -/
structure Accepted (node node' : IngestNode K) (path : RelayIngressParentPath)
    (datagram : Bytes) (clock : DatagramClock) (dispatch : RelayUdpDispatch K.relay)
    (outcome : RelayIngressOutcome) : Prop where
  taken : ∃ cache decoded commit, Noted outcome decoded commit ∧ node' = { node with
    dispatch
    cache
    availability := recordCommit node.availability commit
    controller := node.controller.map fun controller =>
      controller.observe path ⟨outcome.role, decoded⟩ clock.observedAt
    forwards := node.forwards ++
      if node.audio.forwards then [relayForward datagram outcome] else []
    commits := node.commits ++ commit.toList }

/-- **A relay datagram** is refused and changes nothing but the relay receiver, or it is accepted,
and then forwarded, observed and, if it completes an object, committed. -/
theorem receive_relay (h : lane path packet.bytes = .relay) :
    (∃ stop, (node.dispatch.push peer packet.bytes clock.unixUs).1 = .error stop ∧
      node.receive path peer packet clock =
        { node with dispatch := (node.dispatch.push peer packet.bytes clock.unixUs).2 }) ∨
    ∃ outcome, (node.dispatch.push peer packet.bytes clock.unixUs).1 = .ok (.relay outcome) ∧
      Accepted node (node.receive path peer packet clock) path packet.bytes clock
        (node.dispatch.push peer packet.bytes clock.unixUs).2 outcome := by
  rw [receive_transport (.inl h)]
  unfold processUdpFecIngestDatagramInner
  have hnot : (node.dispatch.push peer packet.bytes clock.unixUs).1 ≠ .ok .legacy := by
    unfold RelayUdpDispatch.push
    rw [if_neg (by rw [isRelaySessionDatagram_of_lane h]; decide)]
    split
    · exact nofun
    · split
      · exact nofun
      · exact nofun
      · intro hlegacy
        dsimp only at hlegacy
        generalize (RelayObjectReceiver.pushWireDatagram _ _ _ _).1 = result at hlegacy
        cases result <;> cases hlegacy
  generalize node.dispatch.push peer packet.bytes clock.unixUs = pushed at hnot ⊢
  obtain ⟨result, dispatch⟩ := pushed
  cases result with
  | error stop =>
      refine .inl ⟨stop, rfl, ?_⟩
      show observe _ path none _ = _
      rw [observe_eq]
      rfl
  | ok result =>
      cases result with
      | legacy => exact absurd rfl hnot
      | relay outcome =>
          refine .inr ⟨outcome, rfl, ⟨?_⟩⟩
          dsimp only
          rw [forward_eq]
          cases outcome with
          | buffered key role deadline =>
              refine ⟨node.cache, false, none, ⟨rfl, ?_, nofun⟩, ?_⟩
              · exact ⟨nofun, fun hdone => by obtain ⟨_, hnone, _⟩ := hdone; cases hnone⟩
              · dsimp only
                rw [observe_eq]
                show _ = { node with
                  dispatch, controller := _, forwards := _, commits := node.commits ++ [] }
                rw [List.append_nil]
                rfl
          | duplicate key role deadline =>
              refine ⟨node.cache, false, none, ⟨rfl, ?_, nofun⟩, ?_⟩
              · exact ⟨nofun, fun hdone => by obtain ⟨_, hnone, _⟩ := hdone; cases hnone⟩
              · dsimp only
                rw [observe_eq]
                show _ = { node with
                  dispatch, controller := _, forwards := _, commits := node.commits ++ [] }
                rw [List.append_nil]
                rfl
          | decoded object envelope role deadline parents datagrams =>
              dsimp only
              obtain ⟨cache, commit, hnoted, heq⟩ := commitDecoded_eq { node with
                dispatch
                forwards := node.forwards ++ if node.audio.forwards then
                  [relayForward packet.bytes
                    (.decoded object envelope role deadline parents datagrams)] else [] }
                object envelope role deadline parents datagrams clock
              refine ⟨cache, _, some commit, hnoted, ?_⟩
              rw [observe_eq, heq]
              rfl

end Relayed

/-! ## §6. The parts of the task. -/

/-- The calls of the relay dispatch an operation makes. -/
def relayCalls : Op K → List (RelayUdpDispatch.Op K.relay)
  | .datagram path peer packet clock =>
      if lane path packet.bytes = .relay then [.push peer packet.bytes clock.unixUs] else []
  | .expireFec _ unixUs _ => [.receiver (.expire unixUs)]
  | _ => []

/-- The calls of the UDP-FEC receiver. -/
def legacyCalls : Op K → List UdpFecReceiver.Op
  | .datagram path peer packet clock =>
      if lane path packet.bytes = .legacy then [.tryPushPayloadAt peer packet.bytes clock.now]
      else []
  | .expireFec now _ _ => [.expireInactiveAt now]
  | _ => []

/-- The events of the audio lane. -/
def audioCalls : Op K → List AudioEvent
  | .datagram path peer packet clock =>
      if lane path packet.bytes = .control ∨ lane path packet.bytes = .audio then
        [.relay clock.now (path = .secondary) peer packet]
      else []
  | .expireFec now _ _ => [.relayExpire now]
  | _ => []

theorem runsAs_dispatch :
    RunsAs (step (K := K)) IngestNode.dispatch RelayUdpDispatch.step relayCalls := by
  intro node op
  cases op with
  | datagram path peer packet clock =>
      show (node.receive path peer packet clock).dispatch
        = exec RelayUdpDispatch.step node.dispatch (if _ then _ else _)
      cases hlane : lane path packet.bytes with
      | control => rw [if_neg (by decide), receive_control hlane]; rfl
      | audio => rw [if_neg (by decide), receive_audio hlane, processAudio_eq]; rfl
      | legacy =>
          obtain ⟨cache, heq⟩ := @receive_legacy K node path peer packet clock hlane
          rw [heq, if_neg (by decide)]
          rfl
      | relay =>
          rw [if_pos rfl]
          rcases @receive_relay K node path peer packet clock hlane with
            ⟨_, _, heq⟩ | ⟨_, _, ⟨_, _, _, _, heq⟩⟩
          · rw [heq]
            rfl
          · rw [heq]
            rfl
  | rotate force clock => rfl
  | expireFec now unixUs cutoffUnixMs => rfl
  | failoverTick clock =>
      show (node.step (.failoverTick clock)).2.dispatch = node.dispatch
      unfold step
      dsimp only
      split <;> rfl
  | otherTask cache => rfl

theorem runsAs_receiver :
    RunsAs (step (K := K)) IngestNode.receiver UdpFecReceiver.step legacyCalls := by
  intro node op
  cases op with
  | datagram path peer packet clock =>
      show (node.receive path peer packet clock).receiver
        = exec UdpFecReceiver.step node.receiver (if _ then _ else _)
      cases hlane : lane path packet.bytes with
      | control => rw [if_neg (by decide), receive_control hlane]; rfl
      | audio => rw [if_neg (by decide), receive_audio hlane, processAudio_eq]; rfl
      | legacy =>
          obtain ⟨cache, heq⟩ := @receive_legacy K node path peer packet clock hlane
          rw [heq, if_pos rfl]
          rfl
      | relay =>
          rw [if_neg (by decide)]
          rcases @receive_relay K node path peer packet clock hlane with
            ⟨_, _, heq⟩ | ⟨_, _, ⟨_, _, _, _, heq⟩⟩
          · rw [heq]
            rfl
          · rw [heq]
            rfl
  | rotate force clock => rfl
  | expireFec now unixUs cutoffUnixMs => rfl
  | failoverTick clock =>
      show (node.step (.failoverTick clock)).2.receiver = node.receiver
      unfold step
      dsimp only
      split <;> rfl
  | otherTask cache => rfl

theorem runsAs_audio :
    RunsAs (step (K := K)) IngestNode.audio (AudioLane.audioStep K.inspect) audioCalls := by
  intro node op
  cases op with
  | datagram path peer packet clock =>
      show (node.receive path peer packet clock).audio
        = exec (AudioLane.audioStep K.inspect) node.audio (if _ then _ else _)
      cases hlane : lane path packet.bytes with
      | control =>
          rw [if_pos (Or.inl rfl), receive_control hlane]
          show _ = (AudioLane.audioStep K.inspect node.audio (.relay _ _ _ _)).2
          unfold lane at hlane
          split at hlane
          case isFalse =>
            split at hlane
            · cases hlane
            · split at hlane <;> cases hlane
          case isTrue hcontrol =>
            obtain ⟨rfl, hcontrol⟩ := hcontrol
            have hfst :
                (node.audio.relayNative.handleControl clock.now peer packet.bytes).1 = true :=
              (handleControl_fst _ _ _ _ _ _ _).trans hcontrol
            unfold AudioLane.audioStep
            dsimp only
            rw [if_neg (by decide)]
            generalize node.audio.relayNative.handleControl clock.now peer packet.bytes = handled
              at hfst ⊢
            obtain ⟨control, ack, native⟩ := handled
            obtain rfl : control = true := hfst
            rfl
      | audio =>
          rw [if_pos (Or.inr rfl), receive_audio hlane, processAudio_eq]
          show _ = (AudioLane.audioStep K.inspect node.audio (.relay _ _ _ _)).2
          unfold AudioLane.audioStep
          dsimp only
          cases path with
          | secondary => rw [if_pos (by decide)]
          | primary =>
              have hcontrol : isControl packet.bytes = false := by
                rw [Bool.eq_false_iff]
                intro hcontrol
                unfold lane at hlane
                rw [if_pos ⟨rfl, hcontrol⟩] at hlane
                cases hlane
              have hfst :
                  (node.audio.relayNative.handleControl clock.now peer packet.bytes).1 = false :=
                (handleControl_fst _ _ _ _ _ _ _).trans hcontrol
              have hsame := handleControl_false hfst
              rw [if_neg (by decide)]
              generalize node.audio.relayNative.handleControl clock.now peer packet.bytes = handled
                at hfst hsame ⊢
              obtain ⟨control, ack, native⟩ := handled
              obtain rfl : control = false := hfst
              dsimp only at hsame ⊢
              rw [hsame]
      | legacy =>
          obtain ⟨cache, heq⟩ := @receive_legacy K node path peer packet clock hlane
          rw [heq, if_neg (by decide)]
          rfl
      | relay =>
          rw [if_neg (by decide)]
          rcases @receive_relay K node path peer packet clock hlane with
            ⟨_, _, heq⟩ | ⟨_, _, ⟨_, _, _, _, heq⟩⟩
          · rw [heq]
            rfl
          · rw [heq]
            rfl
  | rotate force clock => rfl
  | expireFec now unixUs cutoffUnixMs => rfl
  | failoverTick clock =>
      show (node.step (.failoverTick clock)).2.audio = node.audio
      unfold step
      dsimp only
      split <;> rfl
  | otherTask cache => rfl

end IngestNode

end AvMesh.Ingest
