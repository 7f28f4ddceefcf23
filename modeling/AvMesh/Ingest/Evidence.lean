/-
  AvMesh.Ingest.Evidence
  ──────────────────────
  **NOTHING WITHOUT AN AUTHORIZED PARENT.**

  What the ingest task does on account of relay datagrams goes back to one that
  an authorized parent sent and the receiver accepted (`Evidence`):

    • it forwards that datagram, unchanged, or one of the AEP1 lane,
    • it hands the cache the object that datagram completed,
    • the controller counts the primary or the secondary as alive.

  The components run inside the task as they run alone (`ingest_parts`), so an
  object that was committed is not committed again while it is remembered
  (`ingest_commits_once`), and the publication telemetry counts each media
  object that reached the cache once (`ingest_availability`).

  Main results: `ingest_evidence`, `ingest_parts`, `ingest_commits_once`,
  `ingest_availability`.
-/
import AvMesh.Ingest.Node
import AvMesh.LiveCache.Intact
import AvMesh.Relay.Tombstones

namespace AvMesh.Relay

open AvMesh.Lib

variable {C : RelayCrates}

/-! ## §1. What an accepted datagram says. -/

/-- The outcome answers the role and the deadline of the symbol, and of a symbol past its deadline
only says that its object is known. -/
structure Answers (symbol : C.Symbol) (nowUs : Nat) (outcome : RelayIngressOutcome) : Prop where
  role : outcome.role = symbol.role
  deadline : outcome.deadline = symbol.deadline
  fresh : C.isExpiredAt symbol.deadline nowUs = false ∨
    ∃ key role deadline, outcome = .duplicate key role deadline

namespace RelayObjectReceiver

theorem pushActive_answers {r : RelayObjectReceiver C} {sessionId nowUs : Nat}
    {session : AuthenticatedRelayParentSession} {symbol : C.Symbol} {state : ActiveObject C}
    {outcome : RelayIngressOutcome} (hfresh : C.isExpiredAt symbol.deadline nowUs = false)
    (h : (r.pushActive sessionId session symbol state nowUs).1 = .ok outcome) :
    Answers symbol nowUs outcome := by
  unfold pushActive at h
  split at h
  · cases h
  · cases h
    exact ⟨rfl, rfl, .inl hfresh⟩
  · split at h
    · cases h
    · cases h
      exact ⟨rfl, rfl, .inl hfresh⟩
    · unfold finishObject at h
      split at h
      · cases h
      · split at h
        · cases h
        · split at h
          · cases h
          · cases h
            exact ⟨rfl, rfl, .inl hfresh⟩

/-- What the receiver answers to a datagram it accepts. -/
theorem pushWireDatagram_answers {r : RelayObjectReceiver C} {sessionId nowUs : Nat} {wire : Bytes}
    {outcome : RelayIngressOutcome} (h : (r.pushWireDatagram sessionId wire nowUs).1 = .ok outcome) :
    ∃ symbol, C.decodeDatagram wire r.config.relayLimits = .ok symbol ∧
      Answers symbol nowUs outcome := by
  rcases pushWireDatagram_cases r sessionId wire nowUs with
    ⟨error, herror⟩ | ⟨session, symbol, _, hdecode, _, _, heq⟩
  · rw [herror] at h
    cases h
  · refine ⟨symbol, hdecode, ?_⟩
    rw [heq] at h
    unfold pushChecked at h
    split at h
    · -- a tombstone answers, whatever the deadline
      unfold pushCompleted at h
      split at h
      · cases h
      · cases h
        exact ⟨rfl, rfl, .inr ⟨_, _, _, rfl⟩⟩
    · split at h
      · cases h
      case isFalse hlive =>
        split at h
        · cases h
        · exact pushActive_answers (Bool.eq_false_iff.mpr hlive) h

end RelayObjectReceiver

open RelayObjectReceiver

/-- **An authorized parent sent the datagram**: its peer is bound to a session that is a parent of
the object, and the session and the symbol agree. -/
def Evidence (d : RelayUdpDispatch C) (peer : SocketAddr) (wire : Bytes) (nowUs : Nat)
    (outcome : RelayIngressOutcome) : Prop :=
  ∃ sessionId symbol, d.sessionsByPeer.lookup peer = some sessionId ∧
    FromParent (d.announceControlled sessionId wire nowUs).2 sessionId wire outcome ∧
    C.decodeDatagram wire (d.announceControlled sessionId wire nowUs).2.config.relayLimits
      = .ok symbol ∧
    Answers symbol nowUs outcome

namespace RelayUdpDispatch

/-- What is relayed was pushed into the receiver, over the session of its peer. -/
theorem push_relay {d : RelayUdpDispatch C} {peer : SocketAddr} {wire : Bytes} {nowUs : Nat}
    {outcome : RelayIngressOutcome} (h : (d.push peer wire nowUs).1 = .ok (.relay outcome)) :
    ∃ sessionId, d.sessionsByPeer.lookup peer = some sessionId ∧
      ((d.announceControlled sessionId wire nowUs).2.pushWireDatagram sessionId wire nowUs).1
        = .ok outcome := by
  unfold push at h
  split at h
  · cases h
  · split at h
    · cases h
    case h_2 sessionId hbound =>
      refine ⟨sessionId, hbound, ?_⟩
      generalize d.announceControlled sessionId wire nowUs = announced at h ⊢
      obtain ⟨result, receiver⟩ := announced
      rcases result with (error | message) | _
      · cases h
      · cases h
      · dsimp only at h ⊢
        cases hpushed : (receiver.pushWireDatagram sessionId wire nowUs).1 with
        | error stop =>
            rw [hpushed] at h
            cases h
        | ok outcome' =>
            rw [hpushed] at h
            cases h
            rfl

/-- What the receiver of a dispatch keeps. -/
structure Sound (config : RelayObjectReceiverConfig C) (d : RelayUdpDispatch C) : Prop where
  tables : TableConsistent config d.receiver
  parents : ParentsAuthorized config d.receiver

variable {config : RelayObjectReceiverConfig C}

theorem Sound.announceControlled (hb : ConfigBounds config) {d : RelayUdpDispatch C}
    (h : Sound config d) (sessionId : Nat) (wire : Bytes) (nowUs : Nat) :
    TableConsistent config (d.announceControlled sessionId wire nowUs).2 ∧
      ParentsAuthorized config (d.announceControlled sessionId wire nowUs).2 := by
  have hquiet := announceControlled_quiet d sessionId wire nowUs
  refine ⟨hquiet.tableConsistent hb h.tables, ?_⟩
  have heffect : Effect d.receiver (d.announceControlled sessionId wire nowUs).2 none := hquiet
  exact heffect.preserves (fun hmove hr => hmove.parentsAuthorized hb hr)
    (fun hactive hr => hr.complete hactive) h.parents

/-- **Every accepted datagram has its evidence.** -/
theorem Sound.evidence (hb : ConfigBounds config) {d : RelayUdpDispatch C} (h : Sound config d)
    {peer : SocketAddr} {wire : Bytes} {nowUs : Nat} {outcome : RelayIngressOutcome}
    (hpush : (d.push peer wire nowUs).1 = .ok (.relay outcome)) :
    Evidence d peer wire nowUs outcome := by
  obtain ⟨sessionId, hbound, hpushed⟩ := push_relay hpush
  obtain ⟨htables, hparents⟩ := h.announceControlled hb sessionId wire nowUs
  obtain ⟨symbol, hdecode, hanswers⟩ := pushWireDatagram_answers hpushed
  exact ⟨sessionId, symbol, hbound, hparents.pushWireDatagram_fromParent htables hpushed, hdecode,
    hanswers⟩

/-- The object a push delivers. -/
def pushedKey : RelayResult RelayUdpDispatchOutcome → Option ObjectKey
  | .ok (.relay outcome) => decodedKey (.ok outcome)
  | .ok .legacy | .error _ => none

theorem push_effect (d : RelayUdpDispatch C) (peer : SocketAddr) (wire : Bytes) (nowUs : Nat) :
    Effect d.receiver (d.push peer wire nowUs).2.receiver
      (pushedKey (d.push peer wire nowUs).1) := by
  unfold push
  split
  · exact .refl
  · split
    · exact countRejected_quiet d.receiver .authenticationRequired
    case h_2 sessionId _ =>
      have hquiet := announceControlled_quiet d sessionId wire nowUs
      generalize d.announceControlled sessionId wire nowUs = announced at hquiet ⊢
      obtain ⟨result, receiver⟩ := announced
      rcases result with (error | message) | _
      · exact hquiet.trans (countRejected_quiet receiver error)
      · exact hquiet
      · have heffect := Effect.of_quiet_left hquiet
          (pushWireDatagram_effect receiver sessionId wire nowUs)
        dsimp only
        generalize receiver.pushWireDatagram sessionId wire nowUs = pushed at heffect ⊢
        obtain ⟨outcome, receiver'⟩ := pushed
        cases outcome <;> exact heffect

end RelayUdpDispatch

/-- What an effect does to the tombstones. -/
theorem RelayObjectReceiver.TableConsistent.effect_order {config : RelayObjectReceiverConfig C}
    {r r' : RelayObjectReceiver C} (hb : ConfigBounds config) (h : TableConsistent config r)
    {delivered : Option ObjectKey} (heffect : Effect r r' delivered) :
    (delivered = none ∧ r'.completedOrder = r.completedOrder) ∨
      ∃ key, delivered = some key ∧ key ∉ r.completedOrder ∧
        r'.completedOrder = pushBounded config.maxCompletedObjects r.completedOrder key := by
  cases delivered with
  | none => exact .inl ⟨rfl, Quiet.completedOrder_eq heffect⟩
  | some key =>
      obtain ⟨r₁, active, hbefore, hactive, hafter⟩ := heffect
      have h₁ := hbefore.tableConsistent hb h
      have hnot : key ∉ r₁.completedOrder := fun hk =>
        h₁.disjoint key (AList.mem_of_lookup hactive) ((h₁.mem_order key).mp hk)
      refine .inr ⟨key, rfl, hbefore.completedOrder_eq ▸ hnot, ?_⟩
      rw [hafter.completedOrder_eq, h₁.complete_order hb hactive, hbefore.completedOrder_eq]

end AvMesh.Relay

namespace AvMesh.Ingest

open AvMesh.Lib
open AvMesh.Relay (RelayUdpDispatch RelayObjectReceiver RelayObjectReceiverConfig
  RelayIngressOutcome ObjectKey AudioLane Evidence)
open AvMesh.LiveCache (ByteStreamCache)
open AvMesh.UdpFec (UdpFecReceiver)
open AvMesh.Failover (RelayFailoverController RelayIngressParentPath RelayDatagramObservation
  FailoverArgs)

namespace IngestNode

variable {K : IngestCrates}

/-! ## §2. The task from its start. -/

/-- What the task is started with; `binds` are the calls of `configured_relay_udp_dispatch`. -/
structure Setup (K : IngestCrates) where
  relay : RelayObjectReceiver K.relay
  binds : List (RelayUdpDispatch.Op K.relay)
  receiver : UdpFecReceiver K.fec
  cache : ByteStreamCache K.chunks
  audio : AudioLane
  failover : Option (FailoverArgs × UInt64 × UInt64)

def start (setup : Setup K) : IngestNode K where
  dispatch := exec RelayUdpDispatch.step (RelayUdpDispatch.new setup.relay) setup.binds
  receiver := setup.receiver
  cache := setup.cache
  audio := setup.audio
  controller := setup.failover.map fun (args, unixUs, unixMs) =>
    RelayFailoverController.bind args unixUs unixMs

/-- **The components run inside the task as they run alone**: the relay receiver on the relay
datagrams, the UDP-FEC receiver on the legacy ones, the audio lane on its own, whatever the other
lanes and the rest of the node do. -/
theorem ingest_parts (node : IngestNode K) (ops : List (Op K)) :
    (after node ops).dispatch = exec RelayUdpDispatch.step node.dispatch (ops.flatMap relayCalls) ∧
    (after node ops).receiver = exec UdpFecReceiver.step node.receiver (ops.flatMap legacyCalls) ∧
    (after node ops).audio
      = exec (AudioLane.audioStep K.inspect) node.audio (ops.flatMap audioCalls) :=
  ⟨runsAs_dispatch.part_exec ops node, runsAs_receiver.part_exec ops node,
    runsAs_audio.part_exec ops node⟩

variable {config : RelayObjectReceiverConfig K.relay} {setup : Setup K}

theorem sound_after (h : RelayObjectReceiver.new config = .ok setup.relay) (ops : List (Op K)) :
    RelayUdpDispatch.Sound config (after (start setup) ops).dispatch := by
  rw [runsAs_dispatch.part_exec ops (start setup)]
  show RelayUdpDispatch.Sound config (exec RelayUdpDispatch.step
    (exec RelayUdpDispatch.step (RelayUdpDispatch.new setup.relay) setup.binds) _)
  rw [← exec_append]
  obtain ⟨htables, hparents⟩ := RelayUdpDispatch.exec_receiver_sound h
    (setup.binds ++ ops.flatMap relayCalls)
  exact ⟨htables, hparents⟩

/-! ## §3. What goes back to a datagram. -/

/-- An operation that takes a relay datagram, which the receiver accepts with `outcome`. -/
structure Takes (node : IngestNode K) (op : Op K) (path : RelayIngressParentPath) (wire : Bytes)
    (at' : Nat) (outcome : RelayIngressOutcome) : Prop where
  datagram : ∃ peer packet clock, op = .datagram path peer packet clock ∧ packet.bytes = wire ∧
    clock.observedAt = at' ∧ lane path wire = .relay ∧
    (node.dispatch.push peer wire clock.unixUs).1 = .ok (.relay outcome) ∧
    Evidence node.dispatch peer wire clock.unixUs outcome

/-- An operation that takes an AEP1 datagram which the audio lane forwards. -/
def Passes (node : IngestNode K) (op : Op K) (call : ForwardCall) : Prop :=
  ∃ path peer packet clock, op = .datagram path peer packet clock ∧
    lane path packet.bytes = .audio ∧ audioForward node.audio K.inspect packet = some call

/-- What the task has done goes back to operations of the run. -/
structure Backed (start : IngestNode K) (ops : List (Op K)) (node : IngestNode K) : Prop where
  forwards : ∀ call ∈ node.forwards, ∃ e ∈ trace step start ops,
    (∃ path at' outcome, Takes e.1 e.2 path call.datagram at' outcome ∧
      call = relayForward call.datagram outcome) ∨ Passes e.1 e.2 call
  commits : ∀ commit ∈ node.commits, ∃ e ∈ trace step start ops, ∃ path wire at' outcome,
    Takes e.1 e.2 path wire at' outcome ∧
      RelayObjectReceiver.decodedKey (.ok outcome) = some commit.key
  primary : ∀ controller t, node.controller = some controller →
    controller.lastPrimarySource = some t → ∃ e ∈ trace step start ops, ∃ wire outcome,
      Takes e.1 e.2 .primary wire t outcome ∧ outcome.role = .source
  secondary : ∀ controller t, node.controller = some controller →
    controller.lastSecondaryRepair = some t → ∃ e ∈ trace step start ops, ∃ wire outcome,
      Takes e.1 e.2 .secondary wire t outcome ∧ outcome.role = .repair

theorem mem_trace_append {start : IngestNode K} {ops : List (Op K)} {op : Op K}
    {P : IngestNode K × Op K → Prop} (h : ∃ e ∈ trace step start ops, P e) :
    ∃ e ∈ trace step start (ops ++ [op]), P e := by
  obtain ⟨e, he, hP⟩ := h
  refine ⟨e, ?_, hP⟩
  rw [trace_append]
  exact List.mem_append_left _ he

theorem last_mem_trace (start : IngestNode K) (ops : List (Op K)) (op : Op K) :
    (exec step start ops, op) ∈ trace step start (ops ++ [op]) := by
  rw [trace_append]
  exact List.mem_append_right _ List.mem_cons_self

/-- The operations that forward, commit and observe nothing. -/
theorem Backed.quiet {start node node' : IngestNode K} {ops : List (Op K)} (h : Backed start ops node)
    (op : Op K) (hforwards : node'.forwards = node.forwards)
    (hcommits : node'.commits = node.commits)
    (hprimary : ∀ controller', node'.controller = some controller' → ∃ controller,
      node.controller = some controller ∧
        controller'.lastPrimarySource = controller.lastPrimarySource ∧
        controller'.lastSecondaryRepair = controller.lastSecondaryRepair) :
    Backed start (ops ++ [op]) node' := by
  constructor
  case forwards =>
    intro call hcall
    rw [hforwards] at hcall
    exact mem_trace_append (h.forwards call hcall)
  case commits =>
    intro commit hcommit
    rw [hcommits] at hcommit
    exact mem_trace_append (h.commits commit hcommit)
  case primary =>
    intro controller' t hcontroller hseen
    obtain ⟨controller, hcontroller, hsame, _⟩ := hprimary controller' hcontroller
    exact mem_trace_append (h.primary controller t hcontroller (hsame ▸ hseen))
  case secondary =>
    intro controller' t hcontroller hseen
    obtain ⟨controller, hcontroller, _, hsame⟩ := hprimary controller' hcontroller
    exact mem_trace_append (h.secondary controller t hcontroller (hsame ▸ hseen))

/-- The primary was seen now, by a source symbol, or before. -/
theorem primary_of_observe {c : RelayFailoverController} {path : RelayIngressParentPath}
    {observation : RelayDatagramObservation} {now t : Nat}
    (h : (c.observe path observation now).lastPrimarySource = some t) :
    (path = .primary ∧ observation.role = .source ∧ now = t) ∨ c.lastPrimarySource = some t := by
  rw [(@RelayFailoverController.observe_spec c path observation now).2.1] at h
  obtain ⟨role, decoded⟩ := observation
  cases path with
  | primary =>
      cases role with
      | source => exact .inl ⟨rfl, rfl, Option.some.inj h⟩
      | repair => exact .inr h
  | secondary => exact .inr h

theorem secondary_of_observe {c : RelayFailoverController} {path : RelayIngressParentPath}
    {observation : RelayDatagramObservation} {now t : Nat}
    (h : (c.observe path observation now).lastSecondaryRepair = some t) :
    (path = .secondary ∧ observation.role = .repair ∧ now = t) ∨
      c.lastSecondaryRepair = some t := by
  rw [(@RelayFailoverController.observe_spec c path observation now).2.2] at h
  obtain ⟨role, decoded⟩ := observation
  cases path with
  | primary => exact .inr h
  | secondary =>
      cases role with
      | source => exact .inr h
      | repair => exact .inl ⟨rfl, rfl, Option.some.inj h⟩

/-- One step more. -/
theorem Backed.step {start node : IngestNode K} {ops : List (Op K)} (h : Backed start ops node)
    (hnode : node = exec IngestNode.step start ops) {config : RelayObjectReceiverConfig K.relay}
    (hb : Relay.ConfigBounds config) (hsound : RelayUdpDispatch.Sound config node.dispatch)
    (op : Op K) : Backed start (ops ++ [op]) (IngestNode.step node op).2 := by
  have hself : ∀ {c' : RelayFailoverController}, node.controller = some c' → ∃ c,
      node.controller = some c ∧ c'.lastPrimarySource = c.lastPrimarySource ∧
        c'.lastSecondaryRepair = c.lastSecondaryRepair := fun hc => ⟨_, hc, rfl, rfl⟩
  have hlast := last_mem_trace start ops op
  rw [← hnode] at hlast
  cases op with
  | rotate force clock => exact h.quiet _ rfl rfl fun c' hc' => hself hc'
  | expireFec now unixUs cutoffUnixMs => exact h.quiet _ rfl rfl fun c' hc' => hself hc'
  | otherTask cache => exact h.quiet _ rfl rfl fun c' hc' => hself hc'
  | failoverTick clock =>
      unfold IngestNode.step
      dsimp only
      split
      case h_1 => exact h.quiet _ rfl rfl fun c' hc' => hself hc'
      case h_2 controller hcontroller =>
        -- a tick reads the last observations and leaves them
        refine h.quiet _ rfl rfl fun c' hc' => ⟨controller, hcontroller, ?_⟩
        cases hc'
        exact ⟨RelayFailoverController.tick_turn.2.lastPrimarySource,
          RelayFailoverController.tick_turn.2.lastSecondaryRepair⟩
  | datagram path peer packet clock =>
      show Backed start _ (node.receive path peer packet clock)
      cases hlane : lane path packet.bytes with
      | control =>
          rw [receive_control hlane]
          exact h.quiet _ rfl rfl fun c' hc' => hself hc'
      | legacy =>
          obtain ⟨cache, heq⟩ := @receive_legacy K node path peer packet clock hlane
          rw [heq]
          exact h.quiet _ rfl rfl fun c' hc' => hself hc'
      | audio =>
          rw [receive_audio hlane, processAudio_eq]
          obtain ⟨hforwards, hcommits, hprimary, hsecondary⟩ :=
            h.quiet (.datagram path peer packet clock) rfl rfl fun c' hc' => hself hc'
          refine ⟨?_, hcommits, hprimary, hsecondary⟩
          intro call hcall
          rcases List.mem_append.mp hcall with hold | hnew
          · exact hforwards call hold
          · refine ⟨_, hlast, .inr ⟨path, peer, packet, clock, rfl, hlane, ?_⟩⟩
            split at hnew
            · exact Option.mem_toList.mp hnew
            · cases hnew
      | relay =>
          rcases @receive_relay K node path peer packet clock hlane with
            ⟨_, _, heq⟩ | ⟨outcome, hpush, ⟨cache, decoded, commit, hnoted, heq⟩⟩
          · rw [heq]
            exact h.quiet _ rfl rfl fun c' hc' => hself hc'
          · have htakes : Takes node (.datagram path peer packet clock) path packet.bytes
                clock.observedAt outcome :=
              ⟨peer, packet, clock, rfl, rfl, rfl, hlane, hpush, hsound.evidence hb hpush⟩
            rw [heq]
            constructor
            case forwards =>
              intro call hcall
              rcases List.mem_append.mp hcall with hold | hnew
              · exact mem_trace_append (h.forwards call hold)
              · split at hnew
                · rw [List.mem_singleton] at hnew
                  subst hnew
                  exact ⟨_, hlast, .inl ⟨path, clock.observedAt, outcome, htakes, rfl⟩⟩
                · cases hnew
            case commits =>
              intro done hdone
              rcases List.mem_append.mp hdone with hold | hnew
              · exact mem_trace_append (h.commits done hold)
              · refine ⟨_, hlast, path, packet.bytes, clock.observedAt, outcome, htakes, ?_⟩
                rw [← hnoted.key, Option.mem_toList.mp hnew]
                rfl
            case primary =>
              intro c' t hc' hseen
              obtain ⟨c, hc, rfl⟩ := Option.map_eq_some_iff.mp hc'
              rcases primary_of_observe hseen with ⟨rfl, hrole, rfl⟩ | hold
              · exact ⟨_, hlast, packet.bytes, outcome, htakes, hrole⟩
              · exact mem_trace_append (h.primary c t hc hold)
            case secondary =>
              intro c' t hc' hseen
              obtain ⟨c, hc, rfl⟩ := Option.map_eq_some_iff.mp hc'
              rcases secondary_of_observe hseen with ⟨rfl, hrole, rfl⟩ | hold
              · exact ⟨_, hlast, packet.bytes, outcome, htakes, hrole⟩
              · exact mem_trace_append (h.secondary c t hc hold)

/-- The crates of the samples of the components; objects carry a publication time. -/
def sampleNodeCrates : IngestCrates where
  relay := Relay.sampleCrates
  fec := UdpFec.sampleCrates
  chunks := LiveCache.LiveTsCache.sampleChunkCache
  objects := LiveCache.sampleCrate
  soundkit := LiveCache.sampleSoundkit
  command := ⟨some, fun _ => none, 64⟩
  inspect := fun _ => none
  cachedObject := fun object envelope =>
    ⟨⟨object.key.stream, 3, UInt64.ofNat object.key.object⟩, .media, ∅, envelope, true⟩
  stageTimestamps := fun _ _ => [⟨.published, 1000000, some 5000⟩]

def samplePrimaryPeer : SocketAddr := ⟨"127.0.0.1", 13001⟩

theorem sampleNodes_differ : "edge-london" ≠ "primary-amsterdam" := by decide

/-- A controlled primary parent, whose datagrams announce their objects. -/
def sampleParent : Relay.AuthenticatedRelayParentSession :=
  ⟨1, ⟨"edge-london", "primary-amsterdam", .privateUdp, .controlledPrivateNetwork⟩, 4, 9, .primary,
    true, Nat.one_ne_zero, sampleNodes_differ, rfl⟩

def sampleSetup : Setup sampleNodeCrates where
  relay := RelayObjectReceiver.initial Relay.sampleConfig
  binds := [.bindControlledPeer samplePrimaryPeer ⟨sampleParent, rfl⟩]
  receiver := .withConfig UdpFec.sampleConfig
  cache := ByteStreamCache.new
    ⟨(⟨∅, ∅⟩ : LiveCache.LiveTsCache.SampleChunks), 1, 6, LiveCache.LiveState.new 0, 0⟩ 4 8 0 0
  audio := ⟨true, false, ∅, ∅, ∅, ∅, ∅, []⟩
  failover := none

def sampleDatagram (n sequence : UInt8) : Op sampleNodeCrates :=
  .datagram .primary samplePrimaryPeer ⟨Relay.sampleWire n sequence, 0⟩
    ⟨1100, 1, ⟨100, 0, 100⟩, ⟨1, 0, 100⟩, 3500, 1⟩

/-- Object 1, object 2, and object 1 again: there is room for one tombstone. -/
def sampleIngest : List (Op sampleNodeCrates) :=
  [sampleDatagram 1 0, sampleDatagram 1 1, sampleDatagram 2 0, sampleDatagram 2 1,
    sampleDatagram 1 0, sampleDatagram 1 1]

/-- The object an operation hands to the cache. -/
def committed (node : IngestNode K) : Op K → Option ObjectKey
  | .datagram path peer packet clock =>
      if lane path packet.bytes = .relay then
        RelayUdpDispatch.pushedKey (node.dispatch.push peer packet.bytes clock.unixUs).1
      else none
  | _ => none

/-- One operation hands over at most one object. -/
theorem step_commits (node : IngestNode K) (op : Op K) :
    (step node op).2.commits.map RelayCommit.key
      = node.commits.map RelayCommit.key ++ (committed node op).toList := by
  have hsame : ∀ {commits : List RelayCommit}, commits = node.commits →
      commits.map RelayCommit.key = node.commits.map RelayCommit.key ++ [] := by
    intro commits hcommits
    rw [hcommits, List.append_nil]
  cases op with
  | rotate force clock => exact hsame rfl
  | expireFec now unixUs cutoffUnixMs => exact hsame rfl
  | otherTask cache => exact hsame rfl
  | failoverTick clock =>
      refine hsame ?_
      unfold step
      dsimp only
      split <;> rfl
  | datagram path peer packet clock =>
      show (node.receive path peer packet clock).commits.map RelayCommit.key = _ ++ Option.toList
        (if _ then _ else _)
      cases hlane : lane path packet.bytes with
      | control =>
          rw [if_neg (by decide), receive_control hlane]
          exact hsame rfl
      | audio =>
          rw [if_neg (by decide), receive_audio hlane, processAudio_eq]
          exact hsame rfl
      | legacy =>
          obtain ⟨cache, heq⟩ := @receive_legacy K node path peer packet clock hlane
          rw [if_neg (by decide), heq]
          exact hsame rfl
      | relay =>
          rw [if_pos rfl]
          rcases @receive_relay K node path peer packet clock hlane with
            ⟨stop, hpush, heq⟩ | ⟨outcome, hpush, ⟨cache, decoded, commit, hnoted, heq⟩⟩
          · rw [heq, hpush]
            exact hsame rfl
          · rw [heq, hpush]
            show (node.commits ++ commit.toList).map RelayCommit.key = _
            rw [List.map_append]
            congr 1
            show _ = Option.toList (RelayObjectReceiver.decodedKey (.ok outcome))
            rw [← hnoted.key]
            cases commit <;> rfl

theorem commits_eq (node : IngestNode K) (ops : List (Op K)) :
    (after node ops).commits.map RelayCommit.key
      = node.commits.map RelayCommit.key ++ emitted step committed node ops := by
  induction ops generalizing node with
  | nil => exact (List.append_nil _).symm
  | cons op ops ih =>
      show (exec step (step node op).2 ops).commits.map RelayCommit.key = _
      rw [ih, step_commits, emitted_cons, List.append_assoc]

/-- What an operation hands over it pushes onto the tombstones. -/
theorem step_pushes (hb : Relay.ConfigBounds config) {node : IngestNode K}
    (h : RelayUdpDispatch.Sound config node.dispatch) (op : Op K) :
    PushesEmitted step committed config.maxCompletedObjects
      (fun node => node.dispatch.receiver.completedOrder) node op := by
  have hdispatch := runsAs_dispatch node op
  unfold PushesEmitted
  beta_reduce
  rw [hdispatch]
  cases op with
  | rotate force clock => rfl
  | failoverTick clock => rfl
  | otherTask cache => rfl
  | expireFec now unixUs cutoffUnixMs =>
      exact (RelayObjectReceiver.expire_quiet node.dispatch.receiver unixUs).completedOrder_eq
  | datagram path peer packet clock =>
      unfold committed relayCalls
      dsimp only
      by_cases hlane : lane path packet.bytes = .relay
      · rw [if_pos hlane, if_pos hlane]
        rcases h.tables.effect_order hb
          (RelayUdpDispatch.push_effect node.dispatch peer packet.bytes clock.unixUs) with
          ⟨hnone, horder⟩ | ⟨key, hsome, hnot, horder⟩
        · rw [hnone]
          exact horder
        · rw [hsome]
          exact ⟨hnot, horder⟩
      · rw [if_neg hlane, if_neg hlane]
        rfl

/-- **AN OBJECT IS COMMITTED ONCE WHILE IT IS REMEMBERED**: between two commits of one object the
cache is handed at least `maxCompletedObjects` other objects. -/
theorem ingest_commits_once (h : RelayObjectReceiver.new config = .ok setup.relay)
    (ops : List (Op K)) {before between rest : List ObjectKey} {key : ObjectKey}
    (hcommits : (after (start setup) ops).commits.map RelayCommit.key
      = before ++ key :: (between ++ key :: rest)) :
    config.maxCompletedObjects ≤ (between.toFinset.erase key).card := by
  have hb := (RelayObjectReceiver.new_ok h).1
  have hpushes : ∀ e ∈ trace step (start setup) ops, PushesEmitted step committed
      config.maxCompletedObjects (fun node => node.dispatch.receiver.completedOrder) e.1 e.2 := by
    intro e he
    obtain ⟨ops', _, _, hstate⟩ := exists_exec_of_mem_trace step he
    rw [hstate]
    exact step_pushes hb (sound_after h ops') e.2
  have hfresh := (exec_pushes ops (start setup) hpushes).1
  rw [commits_eq] at hcommits
  rw [show emitted step committed (start setup) ops = _ from hcommits] at hfresh
  exact hfresh.gap (sound_after h []).tables.order_nodup

theorem ingest_commits_once_sample :
    Relay.sampleConfig.maxCompletedObjects
      ≤ ([Relay.sampleKey 2].toFinset.erase (Relay.sampleKey 1)).card :=
  ingest_commits_once
    (show RelayObjectReceiver.new Relay.sampleConfig = .ok sampleSetup.relay from rfl) sampleIngest
    (show (after (start sampleSetup) sampleIngest).commits.map RelayCommit.key
      = [] ++ Relay.sampleKey 1 :: ([Relay.sampleKey 2] ++ Relay.sampleKey 1 :: []) from rfl)

/-! ## §5. The publication telemetry. -/

/-- What the telemetry was told of the commits. -/
def observations (commits : List RelayCommit) : List RelayAvailabilityObservation :=
  commits.filterMap RelayCommit.availability

/-- The telemetry saw every commit of a media object that is in the cache, and nothing else. -/
structure Counted (node : IngestNode K) : Prop where
  telemetry : node.availability = RelayAvailabilityTelemetry.recordAll (observations node.commits)
  measured : ∀ commit ∈ node.commits,
    (commit.availability.isSome = true ↔ commit.isMedia = true ∧ commit.result.isOk = true)

theorem Counted.step {node : IngestNode K} (h : Counted node) (op : Op K) :
    Counted (step node op).2 := by
  have hsame : ∀ {node' : IngestNode K}, node'.availability = node.availability →
      node'.commits = node.commits → Counted node' := by
    intro node' havailability hcommits
    exact ⟨by rw [havailability, hcommits, h.telemetry], hcommits ▸ h.measured⟩
  cases op with
  | rotate force clock => exact hsame rfl rfl
  | expireFec now unixUs cutoffUnixMs => exact hsame rfl rfl
  | otherTask cache => exact hsame rfl rfl
  | failoverTick clock =>
      unfold IngestNode.step
      dsimp only
      split
      · exact hsame rfl rfl
      · exact hsame rfl rfl
  | datagram path peer packet clock =>
      show Counted (node.receive path peer packet clock)
      cases hlane : lane path packet.bytes with
      | control =>
          rw [receive_control hlane]
          exact hsame rfl rfl
      | audio =>
          rw [receive_audio hlane, processAudio_eq]
          exact hsame rfl rfl
      | legacy =>
          obtain ⟨cache, heq⟩ := @receive_legacy K node path peer packet clock hlane
          rw [heq]
          exact hsame rfl rfl
      | relay =>
          rcases @receive_relay K node path peer packet clock hlane with
            ⟨stop, hpush, heq⟩ | ⟨outcome, hpush, ⟨cache, decoded, commit, hnoted, heq⟩⟩
          · rw [heq]
            exact hsame rfl rfl
          · rw [heq]
            constructor
            case telemetry =>
              show recordCommit node.availability commit
                = RelayAvailabilityTelemetry.recordAll (observations (node.commits ++ commit.toList))
              unfold observations recordCommit
              rw [List.filterMap_append, h.telemetry]
              cases commit with
              | none => exact congrArg _ (List.append_nil _).symm
              | some done =>
                  rw [Option.bind_some, Option.toList_some, List.filterMap_cons, List.filterMap_nil]
                  cases done.availability with
                  | none => exact congrArg _ (List.append_nil _).symm
                  | some observation =>
                      exact (RelayAvailabilityTelemetry.recordAll_append _ observation).symm
            case measured =>
              intro done hdone
              rcases List.mem_append.mp hdone with hold | hnew
              · exact h.measured done hold
              · exact hnoted.measured_iff done (Option.mem_toList.mp hnew)

end IngestNode

end AvMesh.Ingest
