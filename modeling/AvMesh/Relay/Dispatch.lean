/-
  AvMesh.Relay.Dispatch
  ─────────────────────
  **THE UDP SEAM OF THE RECEIVER** (`RelayUdpDispatch`).

  The dispatch maps the address of a UDP peer to a parent session.  A payload
  that does not start with the RLS1 magic is left to the legacy path; one from
  an unknown peer is rejected; one from a controlled peer first derives its own
  announcement (`ensure_controlled_announcement`); the rest goes to
  `push_wire_datagram`.

  The receiver inside a dispatch only ever takes the changes of
  `AvMesh.Relay.Moves` (`step_receiver_effect`), so what those keep holds of it
  too: `exec_receiver_sound`.
-/
import AvMesh.Relay.Parents

namespace AvMesh.Relay

open AvMesh.Lib

variable {C : RelayCrates}

/-! ## §1. Qualification-derived announcements. -/

/-- The announcement derived from a symbol.  RLS1 does not carry repair-cursor
state, so those two fields remain zero. -/
def derivedAnnouncement (symbol : C.Symbol) : C.Announcement where
  generation := symbol.generation
  subscriptionId := symbol.subscriptionId
  key := symbol.objectKey
  kind := symbol.objectKind
  deadline := symbol.deadline
  coding := symbol.coding
  initialRepairSymbols := 0
  nextPacketSequence := 0

namespace RelayObjectReceiver

def ensureControlledAnnouncement (r : RelayObjectReceiver C) (sessionId : Nat) (wire : Bytes)
    (nowUs : Nat) : RelayResult Unit × RelayObjectReceiver C :=
  match r.session sessionId with
  | .error stop => (.error stop, r)
  | .ok session =>
      if session.controlledQualification = false then (.error (.err .announcementRequired), r)
      else match C.decodeDatagram wire r.config.relayLimits with
        | .error e => (.error (.err (.relaySession e)), r)
        | .ok symbol =>
            match validateSessionSymbol session symbol with
            | .error stop => (.error stop, r)
            | .ok _ =>
                let announced := r.tryAnnounceObject sessionId (derivedAnnouncement symbol) nowUs
                (announced.1.map fun _ => (), announced.2)

end RelayObjectReceiver

/-! ## §2. The dispatch. -/

/-- `RELAY_SESSION_DATAGRAM_MAGIC`, the bytes `RLS1`. -/
def relaySessionDatagramMagic : Bytes := [82, 76, 83, 49]

def isRelaySessionDatagram (datagram : Bytes) : Bool :=
  relaySessionDatagramMagic.isPrefixOf datagram

inductive RelayUdpDispatchOutcome where
  | legacy
  | relay (outcome : RelayIngressOutcome)
  deriving Repr, DecidableEq

structure RelayUdpDispatch (C : RelayCrates) where
  receiver : RelayObjectReceiver C
  sessionsByPeer : Table SocketAddr Nat
  controlledAnnouncementSessions : ParentSet

namespace RelayUdpDispatch

def new (receiver : RelayObjectReceiver C) : RelayUdpDispatch C where
  receiver := receiver
  sessionsByPeer := ∅
  controlledAnnouncementSessions := ⟨[], List.nodup_nil⟩

/-- The peer is already bound to another session. -/
def peerConflict (d : RelayUdpDispatch C) (peer : SocketAddr) (sessionId : Nat) : Bool :=
  match d.sessionsByPeer.lookup peer with
  | some existing => existing != sessionId
  | none => false

/-- Register `session` and bind `peer` to it. -/
def bindPeer (d : RelayUdpDispatch C) (peer : SocketAddr)
    (session : AuthenticatedRelayParentSession) : RelayResult Unit × RelayUdpDispatch C :=
  match d.receiver.registerParentSessionInner session with
  | (.error stop, receiver) => (.error stop, { d with receiver := receiver })
  | (.ok _, receiver) =>
      (.ok (),
        { d with
          receiver := receiver
          sessionsByPeer := d.sessionsByPeer.insert peer session.sessionId })

def bindAuthenticatedPeer (d : RelayUdpDispatch C) (peer : SocketAddr)
    (session : AuthenticatedRelayParentSession) : RelayResult Unit × RelayUdpDispatch C :=
  if ¬(session.identity.kind = .privateUdp
      ∧ session.identity.trustMode = .privateAuthenticatedNetwork) then
    (.error (.err .authenticationRequired), d)
  else if d.peerConflict peer session.sessionId then (.error (.err (.udpPeerConflict peer)), d)
  else d.bindPeer peer session

def bindControlledPeer (d : RelayUdpDispatch C) (peer : SocketAddr)
    (session : ControlledRelayParentSession) : RelayResult Unit × RelayUdpDispatch C :=
  if d.peerConflict peer session.session.sessionId then
    (.error (.err (.udpPeerConflict peer)), d)
  else match d.bindPeer peer session.session with
    | (.error stop, d) => (.error stop, d)
    | (.ok _, d) =>
        (.ok (),
          { d with
            controlledAnnouncementSessions :=
              d.controlledAnnouncementSessions.insert session.session.sessionId })

/-- The announcement step of `push`: made for controlled sessions only. -/
def announceControlled (d : RelayUdpDispatch C) (sessionId : Nat) (datagram : Bytes)
    (nowUs : Nat) : RelayResult Unit × RelayObjectReceiver C :=
  if sessionId ∈ d.controlledAnnouncementSessions.val then
    d.receiver.ensureControlledAnnouncement sessionId datagram nowUs
  else (.ok (), d.receiver)

def push (d : RelayUdpDispatch C) (peer : SocketAddr) (datagram : Bytes) (nowUs : Nat) :
    RelayResult RelayUdpDispatchOutcome × RelayUdpDispatch C :=
  if isRelaySessionDatagram datagram = false then (.ok .legacy, d)
  else match d.sessionsByPeer.lookup peer with
    | none =>
        -- no bound session: the receiver never sees the bytes, only the counters do
        (.error (.err .authenticationRequired),
          { d with
            receiver := d.receiver.countReceived.recordRejection .authenticationRequired true })
    | some sessionId =>
        match d.announceControlled sessionId datagram nowUs with
        -- `push_wire_datagram` is not reached, so the dispatch counts in its place
        | (.error (.err error), receiver) =>
            (.error (.err error),
              { d with receiver := receiver.countReceived.recordRejection error true })
        | (.error (.panic message), receiver) =>
            (.error (.panic message), { d with receiver := receiver })
        | (.ok _, receiver) =>
            let pushed := receiver.pushWireDatagram sessionId datagram nowUs
            (pushed.1.map .relay, { d with receiver := pushed.2 })

/-! ## §3. The dispatch as a step system. -/

/-- The operations of a dispatch; `receiver_mut` gives access to those of its
receiver. -/
inductive Op (C : RelayCrates) where
  | bindAuthenticatedPeer (peer : SocketAddr) (session : AuthenticatedRelayParentSession)
  | bindControlledPeer (peer : SocketAddr) (session : ControlledRelayParentSession)
  | push (peer : SocketAddr) (datagram : Bytes) (nowUs : Nat)
  | receiver (op : RelayObjectReceiver.Op C)

inductive Reply where
  | bound (result : RelayResult Unit)
  | pushed (result : RelayResult RelayUdpDispatchOutcome)
  | receiver (reply : RelayObjectReceiver.Reply)
  deriving DecidableEq

def step (d : RelayUdpDispatch C) : Op C → Reply × RelayUdpDispatch C
  | .bindAuthenticatedPeer peer session =>
      let result := d.bindAuthenticatedPeer peer session
      (.bound result.1, result.2)
  | .bindControlledPeer peer session =>
      let result := d.bindControlledPeer peer session
      (.bound result.1, result.2)
  | .push peer datagram nowUs =>
      let result := d.push peer datagram nowUs
      (.pushed result.1, result.2)
  | .receiver op =>
      let result := RelayObjectReceiver.step d.receiver op
      (.receiver result.1, { d with receiver := result.2 })

/-! ## §4. What the dispatch does to its receiver. -/

open RelayObjectReceiver

theorem bindPeer_receiver (d : RelayUdpDispatch C) (peer : SocketAddr)
    (session : AuthenticatedRelayParentSession) :
    (d.bindPeer peer session).2.receiver
      = (d.receiver.registerParentSessionInner session).2 := by
  unfold bindPeer
  rcases d.receiver.registerParentSessionInner session with ⟨_ | _, receiver⟩ <;> rfl

/-- Binding a peer leaves the receiver alone or registers the session. -/
theorem bindAuthenticatedPeer_receiver (d : RelayUdpDispatch C) (peer : SocketAddr)
    (session : AuthenticatedRelayParentSession) :
    (d.bindAuthenticatedPeer peer session).2.receiver = d.receiver
      ∨ (d.bindAuthenticatedPeer peer session).2.receiver
        = (d.receiver.registerParentSessionInner session).2 := by
  unfold bindAuthenticatedPeer
  split
  · exact .inl rfl
  · split
    · exact .inl rfl
    · exact .inr (bindPeer_receiver d peer session)

theorem bindControlledPeer_receiver (d : RelayUdpDispatch C) (peer : SocketAddr)
    (session : ControlledRelayParentSession) :
    (d.bindControlledPeer peer session).2.receiver = d.receiver
      ∨ (d.bindControlledPeer peer session).2.receiver
        = (d.receiver.registerParentSessionInner session.session).2 := by
  unfold bindControlledPeer
  split
  · exact .inl rfl
  · refine .inr ?_
    rw [← bindPeer_receiver d peer session.session]
    rcases d.bindPeer peer session.session with ⟨_ | _, d'⟩ <;> rfl

/-- A derived announcement leaves the receiver alone or is an announcement. -/
theorem ensureControlledAnnouncement_receiver (r : RelayObjectReceiver C) (sessionId : Nat)
    (wire : Bytes) (nowUs : Nat) :
    (r.ensureControlledAnnouncement sessionId wire nowUs).2 = r
      ∨ ∃ announcement, (r.ensureControlledAnnouncement sessionId wire nowUs).2
        = (r.tryAnnounceObject sessionId announcement nowUs).2 := by
  unfold ensureControlledAnnouncement
  split
  · exact .inl rfl
  · split
    · exact .inl rfl
    · split
      · exact .inl rfl
      · split
        · exact .inl rfl
        · exact .inr ⟨_, rfl⟩

theorem announceControlled_receiver (d : RelayUdpDispatch C) (sessionId : Nat)
    (datagram : Bytes) (nowUs : Nat) :
    (d.announceControlled sessionId datagram nowUs).2 = d.receiver
      ∨ ∃ announcement, (d.announceControlled sessionId datagram nowUs).2
        = (d.receiver.tryAnnounceObject sessionId announcement nowUs).2 := by
  unfold announceControlled
  split
  · exact ensureControlledAnnouncement_receiver _ _ _ _
  · exact .inl rfl

theorem announceControlled_quiet (d : RelayUdpDispatch C) (sessionId : Nat) (datagram : Bytes)
    (nowUs : Nat) : Quiet d.receiver (d.announceControlled sessionId datagram nowUs).2 := by
  rcases announceControlled_receiver d sessionId datagram nowUs with h | ⟨announcement, h⟩
  · rw [h]
  · rw [h]
    exact tryAnnounceObject_quiet _ _ _ _

theorem countRejected_quiet (r : RelayObjectReceiver C) (error : RelayIngressError) :
    Quiet r (r.countReceived.recordRejection error true) :=
  quiet_counters r _

/-- **Every operation of the dispatch takes its receiver through moves and at
most one completion.** -/
theorem step_receiver_effect (d : RelayUdpDispatch C) (op : Op C) :
    ∃ delivered, Effect d.receiver (step d op).2.receiver delivered := by
  cases op with
  | bindAuthenticatedPeer peer session =>
      refine ⟨none, ?_⟩
      rcases bindAuthenticatedPeer_receiver d peer session with h | h
      · exact h ▸ .refl
      · exact h ▸ registerParentSessionInner_quiet _ _
  | bindControlledPeer peer session =>
      refine ⟨none, ?_⟩
      rcases bindControlledPeer_receiver d peer session with h | h
      · exact h ▸ .refl
      · exact h ▸ registerParentSessionInner_quiet _ _
  | push peer datagram nowUs =>
      show ∃ delivered, Effect d.receiver (d.push peer datagram nowUs).2.receiver delivered
      unfold push
      split
      · exact ⟨none, .refl⟩
      · split
        · exact ⟨none, countRejected_quiet d.receiver .authenticationRequired⟩
        next sessionId _ =>
          have hquiet := announceControlled_quiet d sessionId datagram nowUs
          rcases hannounced : d.announceControlled sessionId datagram nowUs with
            ⟨(error | message) | _, receiver⟩
          · rw [hannounced] at hquiet
            exact ⟨none, hquiet.trans (countRejected_quiet receiver error)⟩
          · rw [hannounced] at hquiet
            exact ⟨none, hquiet⟩
          · rw [hannounced] at hquiet
            exact ⟨_, Effect.of_quiet_left hquiet
              (pushWireDatagram_effect receiver sessionId datagram nowUs)⟩
  | receiver op => exact ⟨_, RelayObjectReceiver.step_effect d.receiver op⟩

/-- The receiver inside a dispatch keeps its tables consistent and its parents
authorized through every run of the dispatch. -/
theorem exec_receiver_sound {config : RelayObjectReceiverConfig C} {r : RelayObjectReceiver C}
    (h : RelayObjectReceiver.new config = .ok r) (ops : List (Op C)) :
    TableConsistent config (exec step (new r) ops).receiver
      ∧ ParentsAuthorized config (exec step (new r) ops).receiver := by
  have hb := (new_ok h).1
  refine exec_invariant step
    (fun d => TableConsistent config d.receiver ∧ ParentsAuthorized config d.receiver) ?_ ops
    ⟨new_tableConsistent h, exec_parentsAuthorized h []⟩
  rintro d op ⟨htables, hparents⟩
  obtain ⟨delivered, heffect⟩ := step_receiver_effect d op
  exact ⟨heffect.preserves (fun hmove hr => hmove.tableConsistent hb hr)
      (fun hactive hr => hr.complete hb hactive) htables,
    heffect.preserves (fun hmove hr => hmove.parentsAuthorized hb hr)
      (fun hactive hr => hr.complete hactive) hparents⟩

end RelayUdpDispatch

end AvMesh.Relay
