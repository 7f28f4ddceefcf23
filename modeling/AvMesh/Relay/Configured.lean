/-
  AvMesh.Relay.Configured
  ───────────────────────
  **FROM COMMAND-LINE FLAGS TO THE PARENTS OF AN OBJECT**
  (`Args::normalized`, `configured_relay_udp_dispatch`).

  The flags name up to two controlled parents.  `normalized` refuses the flag
  combinations that contradict each other, `configured_relay_udp_dispatch`
  registers parent session 1 for the primary lane and 2 for the secondary one,
  each with the role its promotion flag selects, and the receiver admits two
  parents of one object only when their roles differ (`add_parent_to_set`).

    • `configured_sessions` — the two sessions an accepted configuration makes:
      one generation, one subscription, and one role exactly when both lanes
      are promoted,
    • `announce_second` — what the receiver answers the second parent of an
      object, in every state that traffic can reach.

  Main result: `both_parents_serve_iff` — the two configured parents can serve
  one object if and only if not both of them are promoted, a combination
  `normalized` lets through.
-/
import AvMesh.Relay.Admitted
import AvMesh.Failover.Listener

namespace AvMesh

/-- `Display` of a socket address; an IPv6 address stands in brackets. -/
def SocketAddr.display (addr : SocketAddr) : String :=
  if addr.ip.toList.contains ':' then "[" ++ addr.ip ++ "]:" ++ toString addr.port
  else addr.ip ++ ":" ++ toString addr.port

/-- `addr.ip().is_unspecified()`. -/
def SocketAddr.isUnspecified (addr : SocketAddr) : Bool :=
  addr.ip == "0.0.0.0" || addr.ip == "::"

end AvMesh

namespace AvMesh.Relay

open AvMesh.Lib
open AvMesh.Failover (RelayForwardRole)

variable {C : RelayCrates}

/-! ## §1. The relay flags. -/

structure RelayForwardEndpoint where
  bind : SocketAddr
  target : SocketAddr
  role : RelayForwardRole
  deriving Repr, DecidableEq

structure RelayFailoverListenerEndpoint where
  bind : SocketAddr
  peer : SocketAddr
  forwardTarget : SocketAddr
  deriving Repr, DecidableEq

structure RelayFailoverControllerEndpoint where
  bind : SocketAddr
  target : SocketAddr
  deriving Repr, DecidableEq

/-- The flags of `Args` that the relay reads, with their defaults. -/
structure Args where
  fecBind : SocketAddr := ⟨"127.0.0.1", 12001⟩
  relayControlledLocal : Bool := false
  relayPrimaryPeer : Option SocketAddr := none
  relayPrimaryBind : Option SocketAddr := none
  relaySecondaryPeer : Option SocketAddr := none
  relaySecondaryBind : Option SocketAddr := none
  relayPrimaryId : String := "av-contrib-primary"
  relayPrimaryPromoted : Bool := false
  relaySecondaryId : String := "av-contrib-secondary"
  relaySecondaryPromoted : Bool := false
  relayTopologyGeneration : Nat := 1
  relaySubscriptionId : Nat := 1
  relayForwards : List RelayForwardEndpoint := []
  relayFailoverListeners : List RelayFailoverListenerEndpoint := []
  relayFailoverController : Option RelayFailoverControllerEndpoint := none
  relayPrimarySilenceMs : Nat := 250
  relayPrimaryRecoveryMs : Nat := 2000
  relaySecondaryWarmMs : Nat := 750
  relayFailoverHeartbeatMs : Nat := 100
  relayFailoverLeaseMs : Nat := 1000
  relayMaxDownstreamChildren : Nat := 4
  deriving Repr, DecidableEq

/-- What the setup of a dispatch takes from `relay_session`: its default limits
and the constructors of its identifiers. -/
structure RelaySessionCrate (C : RelayCrates) where
  /-- `RelayLimits::default()`. -/
  relayLimits : C.RelayLimits
  /-- `NodeId::new`. -/
  nodeId : String → Except RelaySessionError NodeId
  /-- `TopologyGeneration::new`. -/
  topologyGeneration : Nat → Except RelaySessionError Nat
  /-- `SubscriptionId::new`. -/
  subscriptionId : Nat → Except RelaySessionError Nat

/-! ## §2. `Args::normalized`, its relay section.

    The other sections of `normalized` check and clamp other flags. -/

/-- `if condition { bail!(message) }`. -/
def bailIf (condition : Bool) (message : String) : Except String Unit :=
  if condition then .error message else .ok ()

theorem bailIf_bind_eq_ok {α : Type} {condition : Bool} {message : String}
    {next : Unit → Except String α} {a : α} :
    (bailIf condition message >>= next) = .ok a ↔ condition = false ∧ next () = .ok a := by
  unfold bailIf
  cases condition with
  | true => exact ⟨nofun, fun h => nomatch h.1⟩
  | false => exact ⟨fun h => ⟨rfl, h⟩, fun h => h.2⟩

namespace Args

/-- The peer, bind and promotion flags of the two parents. -/
def normalizedParents (args : Args) : Except String Args := do
  bailIf ((args.relayPrimaryPeer.isSome || args.relaySecondaryPeer.isSome)
      && !args.relayControlledLocal)
    "--relay-primary-peer/--relay-secondary-peer require --relay-controlled-local"
  bailIf (args.relayPrimaryBind.isSome && args.relayPrimaryPeer.isNone)
    "--relay-primary-bind requires --relay-primary-peer"
  bailIf (args.relaySecondaryBind.isSome && args.relaySecondaryPeer.isNone)
    "--relay-secondary-bind requires --relay-secondary-peer"
  -- the primary lane shares the FEC socket
  let primaryBind :=
    if args.relayPrimaryPeer.isSome && args.relayPrimaryBind.isNone then some args.fecBind
    else args.relayPrimaryBind
  bailIf (primaryBind.any (· != args.fecBind))
    "--relay-primary-bind currently shares the --fec-bind socket"
  bailIf (args.relaySecondaryPeer.isSome && args.relaySecondaryBind.isNone)
    "--relay-secondary-peer requires --relay-secondary-bind"
  bailIf (args.relaySecondaryPromoted && args.relaySecondaryPeer.isNone)
    "--relay-secondary-promoted requires --relay-secondary-peer"
  bailIf (args.relayPrimaryPromoted && args.relayPrimaryPeer.isNone)
    "--relay-primary-promoted requires --relay-primary-peer"
  bailIf (args.relaySecondaryBind.any (· == args.fecBind))
    "--relay-secondary-bind must differ from --fec-bind"
  bailIf (args.relayControlledLocal && args.relayPrimaryPeer.isNone
      && args.relaySecondaryPeer.isNone)
    "--relay-controlled-local requires at least one configured relay peer"
  bailIf (args.relayPrimaryPeer.isSome && args.relayPrimaryPeer == args.relaySecondaryPeer)
    "primary and secondary relay peer addresses must differ"
  return { args with relayPrimaryBind := primaryBind }

/-- The loop over `relay_forwards`; `binds` and `targets` are those seen so far. -/
def checkForwards (args : Args) :
    List RelayForwardEndpoint → List SocketAddr → List SocketAddr → Except String Unit
  | [], _, _ => .ok ()
  | forward :: rest, binds, targets => do
      bailIf (forward.bind == forward.target)
        ("RelaySession forward bind and target require distinct sockets; both resolve to "
          ++ forward.bind.display)
      bailIf (forward.bind == args.fecBind || some forward.bind == args.relaySecondaryBind)
        ("RelaySession forward bind " ++ forward.bind.display
          ++ " conflicts with a RelaySession receive socket")
      bailIf (binds.contains forward.bind)
        ("duplicate RelaySession forward bind " ++ forward.bind.display)
      bailIf (targets.contains forward.target)
        ("duplicate RelaySession forward target " ++ forward.target.display)
      checkForwards args rest (forward.bind :: binds) (forward.target :: targets)

/-- The loop over `relay_failover_listeners`; the control binds it collected. -/
def checkListeners (args : Args) :
    List RelayFailoverListenerEndpoint → List SocketAddr → List SocketAddr →
      Except String (List SocketAddr)
  | [], binds, _ => .ok binds
  | listener :: rest, binds, targets => do
      match args.relayForwards.find? fun forward => forward.target == listener.forwardTarget with
      | none =>
          .error ("failover listener target " ++ listener.forwardTarget.display
            ++ " is not a compiled --relay-forward target")
      | some forward => do
          bailIf (forward.role != .repair)
            ("failover listener target " ++ listener.forwardTarget.display
              ++ " must select a repair-only warm forward")
          bailIf (listener.bind == listener.peer || listener.bind.isUnspecified)
            "failover listener requires a distinct, explicit local bind and controller peer"
          bailIf (binds.contains listener.bind)
            ("duplicate failover control bind " ++ listener.bind.display)
          bailIf (targets.contains listener.forwardTarget)
            ("duplicate failover control target " ++ listener.forwardTarget.display)
          checkListeners args rest (listener.bind :: binds) (listener.forwardTarget :: targets)

def checkFailover (args : Args) : Except String Unit := do
  if args.relayFailoverController.isSome then
    -- a controller needs a warm second parent to fail over to
    bailIf (!args.relayControlledLocal)
      "--relay-failover-controller requires --relay-controlled-local"
    bailIf (args.relaySecondaryPeer.isNone || !args.relaySecondaryPromoted)
      ("--relay-failover-controller requires a seeded --relay-secondary-peer with "
        ++ "--relay-secondary-promoted")
  bailIf (!args.relayFailoverListeners.isEmpty && !args.relayControlledLocal)
    "--relay-failover-listener requires --relay-controlled-local"
  let controlBinds ← args.checkListeners args.relayFailoverListeners [] []
  match args.relayFailoverController with
  | none => pure ()
  | some controller => do
      bailIf (controller.bind == controller.target || controller.bind.isUnspecified)
        "failover controller requires a distinct, explicit local bind and target"
      bailIf (controlBinds.contains controller.bind)
        ("duplicate failover control bind " ++ controller.bind.display)
  bailIf (args.relayPrimarySilenceMs == 0
      || args.relayPrimaryRecoveryMs < args.relayPrimarySilenceMs
      || args.relaySecondaryWarmMs < args.relayPrimarySilenceMs)
    ("relay failover windows require positive silence and recovery/warm windows at least as "
      ++ "large as silence")
  bailIf (args.relayFailoverHeartbeatMs == 0
      || args.relayFailoverLeaseMs < satMul args.relayFailoverHeartbeatMs 3
      || 60000 < args.relayFailoverLeaseMs)
    ("relay failover lease must be at most 60000ms and at least three heartbeat intervals")

/-- `Args::normalized`. -/
def normalized (S : RelaySessionCrate C) (args : Args) : Except String Args := do
  let args ← args.normalizedParents
  bailIf (args.relayMaxDownstreamChildren == 0) "--relay-max-downstream-children must be positive"
  bailIf (args.relayMaxDownstreamChildren < args.relayForwards.length)
    (toString args.relayForwards.length
      ++ " --relay-forward subscriptions exceed the configured child limit "
      ++ toString args.relayMaxDownstreamChildren)
  args.checkForwards args.relayForwards [] []
  args.checkFailover
  let _ ← (S.topologyGeneration args.relayTopologyGeneration).mapError
    fun _ => "--relay-topology-generation must be positive"
  let _ ← (S.subscriptionId args.relaySubscriptionId).mapError
    fun _ => "--relay-subscription-id must be positive"
  return args

end Args

/-! ## §3. `configured_relay_udp_dispatch`. -/

/-- What the setup answers: the outermost context of an error, or the receiver's
own error passed on. -/
inductive SetupError where
  | context (message : String)
  | relay (error : RelayIngressError)
  deriving Repr, DecidableEq

/-- One entry of the array the setup loops over. -/
structure ParentLane where
  sessionId : Nat
  peer : Option SocketAddr
  peerNodeId : String
  path : ParentPath

def Args.parentLanes (args : Args) : List ParentLane :=
  [{ sessionId := 1
     peer := args.relayPrimaryPeer
     peerNodeId := args.relayPrimaryId
     path := if args.relayPrimaryPromoted then .promotedSecondary else .primary },
   { sessionId := 2
     peer := args.relaySecondaryPeer
     peerNodeId := args.relaySecondaryId
     path := if args.relaySecondaryPromoted then .promotedSecondary else .secondary }]

/-- The body of that loop. -/
def bindLane (S : RelaySessionCrate C) (localNode : NodeId) (generation subscriptionId : Nat)
    (dispatch : RelayUdpDispatch C) (lane : ParentLane) :
    Outcome SetupError (RelayUdpDispatch C) :=
  match lane.peer with
  -- a parent without a peer address has no lane
  | none => .ok dispatch
  | some peer => do
      let peerNode ← (S.nodeId lane.peerNodeId).mapError
        fun _ => .err (.context ("invalid relay parent node identity " ++ lane.peerNodeId))
      let session ← (ControlledRelayParentSession.new lane.sessionId
          { localNode := localNode
            peer := peerNode
            kind := .privateUdp
            trustMode := .controlledPrivateNetwork }
          generation subscriptionId lane.path).mapError
        fun error => .err (.relay error)
      match dispatch.bindControlledPeer peer session with
      | (.ok _, dispatch) => .ok dispatch
      | (.error (.err error), _) => .error (.err (.relay error))
      | (.error (.panic message), _) => .error (.panic message)

def configuredRelayUdpDispatch (S : RelaySessionCrate C) (args : Args) (nodeId : String) :
    Outcome SetupError (RelayUdpDispatch C) := do
  let receiver ← (RelayObjectReceiver.new { relayLimits := S.relayLimits }).mapError
    fun _ => .err (.context "invalid RelaySession receive limits")
  let dispatch := RelayUdpDispatch.new receiver
  -- without controlled mode there are no parent lanes
  if args.relayControlledLocal = false then return dispatch
  let localNode ← (S.nodeId nodeId).mapError
    fun _ => .err (.context "invalid local RelaySession node identity")
  let generation ← (S.topologyGeneration args.relayTopologyGeneration).mapError
    fun _ => .err (.context "invalid RelaySession topology generation")
  let subscriptionId ← (S.subscriptionId args.relaySubscriptionId).mapError
    fun _ => .err (.context "invalid RelaySession subscription id")
  args.parentLanes.foldlM (bindLane S localNode generation subscriptionId) dispatch

/-! ## §4. The sessions of an accepted configuration. -/

/-- An accepted configuration with a parent is in controlled mode. -/
theorem Args.normalized_controlled {S : RelaySessionCrate C} {given args : Args}
    (h : given.normalized S = .ok args) (hpeer : args.relayPrimaryPeer.isSome = true) :
    args.relayControlledLocal = true := by
  unfold Args.normalized at h
  obtain ⟨normalized, hparents, h⟩ := except_bind_eq_ok.mp h
  -- the later sections and the identifiers are only checked
  simp only [bailIf_bind_eq_ok] at h
  obtain ⟨-, -, h⟩ := h
  obtain ⟨_, -, h⟩ := except_bind_eq_ok.mp h
  obtain ⟨_, -, h⟩ := except_bind_eq_ok.mp h
  obtain ⟨_, -, h⟩ := except_bind_eq_ok.mp h
  obtain ⟨_, -, h⟩ := except_bind_eq_ok.mp h
  obtain rfl : normalized = args := Except.ok.inj h
  -- the section of the parents changes the primary bind only
  unfold Args.normalizedParents at hparents
  simp only [bailIf_bind_eq_ok] at hparents
  obtain ⟨hmode, -, -, -, -, -, -, -, -, -, hlast⟩ := hparents
  cases Except.ok.inj hlast
  simpa [show given.relayPrimaryPeer.isSome = true from hpeer] using hmode

/-- `session` is what the setup makes of `lane`. -/
structure OfLane (lane : ParentLane) (generation subscriptionId : Nat)
    (session : AuthenticatedRelayParentSession) : Prop where
  id_eq : session.sessionId = lane.sessionId
  generation_eq : session.generation = generation
  subscription_eq : session.subscriptionId = subscriptionId
  path_eq : session.parentPath = lane.path

theorem ControlledRelayParentSession.new_ofLane {lane : ParentLane} {identity : CarrierIdentity}
    {generation subscriptionId : Nat} {session : ControlledRelayParentSession}
    (h : ControlledRelayParentSession.new lane.sessionId identity generation subscriptionId
      lane.path = .ok session) : OfLane lane generation subscriptionId session.session := by
  unfold ControlledRelayParentSession.new at h
  split at h
  · cases h
  · split at h
    · cases h
    · split at h
      · cases h
        exact ⟨rfl, rfl, rfl, rfl⟩
      · cases h

/-- A registration under a free id that goes through adds the session. -/
theorem RelayObjectReceiver.registerParentSessionInner_ok {r : RelayObjectReceiver C}
    {session : AuthenticatedRelayParentSession}
    (hnew : r.sessions.lookup session.sessionId = none)
    (h : (r.registerParentSessionInner session).1 = .ok ()) :
    (r.registerParentSessionInner session).2
      = { r with sessions := r.sessions.insert session.sessionId session } := by
  unfold registerParentSessionInner at h ⊢
  rw [hnew] at h ⊢
  dsimp only at h ⊢
  split at h
  · cases h
  next hroom => rw [if_neg hroom]

/-- A bind that goes through has registered its session. -/
theorem RelayUdpDispatch.bindControlledPeer_ok {d : RelayUdpDispatch C} {peer : SocketAddr}
    {session : ControlledRelayParentSession} (h : (d.bindControlledPeer peer session).1 = .ok ()) :
    (d.receiver.registerParentSessionInner session.session).1 = .ok ()
      ∧ (d.bindControlledPeer peer session).2.receiver
        = (d.receiver.registerParentSessionInner session.session).2 := by
  unfold bindControlledPeer bindPeer at h ⊢
  split at h
  · cases h
  next hpeer =>
    rw [if_neg hpeer]
    generalize d.receiver.registerParentSessionInner session.session = registered at h ⊢
    rcases registered with ⟨stop | _, receiver⟩
    · cases h
    · exact ⟨rfl, rfl⟩

open RelayUdpDispatch in
/-- Binding a lane that has a peer registers its session under a free id. -/
theorem bindLane_ok {S : RelaySessionCrate C} {localNode : NodeId}
    {generation subscriptionId : Nat} {dispatch dispatch' : RelayUdpDispatch C}
    {lane : ParentLane} {peer : SocketAddr} (hpeer : lane.peer = some peer)
    (hnew : dispatch.receiver.sessions.lookup lane.sessionId = none)
    (h : bindLane S localNode generation subscriptionId dispatch lane = .ok dispatch') :
    ∃ session : ControlledRelayParentSession,
      OfLane lane generation subscriptionId session.session
        ∧ dispatch' = (step dispatch (.bindControlledPeer peer session)).2
        ∧ dispatch'.receiver = { dispatch.receiver with
            sessions := dispatch.receiver.sessions.insert lane.sessionId session.session } := by
  unfold bindLane at h
  rw [hpeer] at h
  obtain ⟨peerNode, _, h⟩ := except_bind_eq_ok.mp h
  obtain ⟨session, hsession, h⟩ := except_bind_eq_ok.mp h
  have hlane := ControlledRelayParentSession.new_ofLane (except_mapError_eq_ok.mp hsession)
  refine ⟨session, hlane, ?_⟩
  show dispatch' = (dispatch.bindControlledPeer peer session).2 ∧ _
  split at h
  next bound hbind =>
    cases h
    obtain ⟨hregister, hreceiver⟩ := bindControlledPeer_ok (congrArg Prod.fst hbind)
    have hsessions := RelayObjectReceiver.registerParentSessionInner_ok
      (hlane.id_eq.symm ▸ hnew) hregister
    rw [← hreceiver, hbind, hlane.id_eq] at hsessions
    rw [hbind]
    exact ⟨rfl, hsessions⟩
  · cases h
  · cases h

/-- The two parent sessions of a configuration. -/
structure Lanes (args : Args) (sessions : Table Nat AuthenticatedRelayParentSession) : Prop where
  only : ∀ id session, sessions.lookup id = some session → id = 1 ∨ id = 2
  registered : ∀ id, id = 1 ∨ id = 2 → ∃ session, sessions.lookup id = some session
    ∧ session.sessionId = id ∧ session.controlledQualification = true
  agree : ∀ id₁ id₂ s₁ s₂, sessions.lookup id₁ = some s₁ → sessions.lookup id₂ = some s₂ →
    s₁.generation = s₂.generation ∧ s₁.subscriptionId = s₂.subscriptionId
  role : ∀ id₁ id₂ s₁ s₂, id₁ ≠ id₂ → sessions.lookup id₁ = some s₁ →
    sessions.lookup id₂ = some s₂ →
    (s₁.parentPath = s₂.parentPath
      ↔ args.relayPrimaryPromoted = true ∧ args.relaySecondaryPromoted = true)

/-- The session table after both lanes are bound. -/
def laneSessions (s₁ s₂ : AuthenticatedRelayParentSession) :
    Table Nat AuthenticatedRelayParentSession :=
  AList.insert 2 s₂ (AList.insert 1 s₁ ∅)

/-- The lanes give their sessions one role exactly when both are promoted. -/
theorem parentLanes_role (args : Args) :
    ((if args.relayPrimaryPromoted then ParentPath.promotedSecondary else .primary)
        = if args.relaySecondaryPromoted then .promotedSecondary else .secondary)
      ↔ args.relayPrimaryPromoted = true ∧ args.relaySecondaryPromoted = true := by
  cases args.relayPrimaryPromoted <;> cases args.relaySecondaryPromoted <;> decide

theorem lanes_of_sessions {args : Args} {generation subscriptionId : Nat}
    {s₁ s₂ : ControlledRelayParentSession}
    (h₁ : OfLane (args.parentLanes.get ⟨0, Nat.zero_lt_two⟩) generation subscriptionId s₁.session)
    (h₂ : OfLane (args.parentLanes.get ⟨1, Nat.one_lt_two⟩) generation subscriptionId s₂.session) :
    Lanes args (laneSessions s₁.session s₂.session) := by
  have hprimary : (laneSessions s₁.session s₂.session).lookup 1 = some s₁.session := by
    unfold laneSessions
    rw [AList.lookup_insert_ne (by decide), AList.lookup_insert]
  have hsecondary : (laneSessions s₁.session s₂.session).lookup 2 = some s₂.session := by
    unfold laneSessions
    rw [AList.lookup_insert]
  have honly : ∀ id session, (laneSessions s₁.session s₂.session).lookup id = some session →
      (id = 1 ∧ session = s₁.session) ∨ (id = 2 ∧ session = s₂.session) := by
    intro id session h
    unfold laneSessions at h
    rcases AList.lookup_of_insert h with ⟨rfl, rfl⟩ | ⟨_, h⟩
    · exact .inr ⟨rfl, rfl⟩
    · rcases AList.lookup_of_insert h with ⟨rfl, rfl⟩ | ⟨_, h⟩
      · exact .inl ⟨rfl, rfl⟩
      · cases h
  have hrole := parentLanes_role args
  have hpath₁ := h₁.path_eq
  have hpath₂ := h₂.path_eq
  refine ⟨?_, ?_, ?_, ?_⟩
  · intro id session h
    rcases honly id session h with ⟨rfl, _⟩ | ⟨rfl, _⟩
    · exact .inl rfl
    · exact .inr rfl
  · rintro id (rfl | rfl)
    · exact ⟨s₁.session, hprimary, h₁.id_eq, s₁.controlled⟩
    · exact ⟨s₂.session, hsecondary, h₂.id_eq, s₂.controlled⟩
  -- both lanes are made from the same two flags
  · have hgen : s₁.session.generation = s₂.session.generation :=
      h₁.generation_eq.trans h₂.generation_eq.symm
    have hsub : s₁.session.subscriptionId = s₂.session.subscriptionId :=
      h₁.subscription_eq.trans h₂.subscription_eq.symm
    intro id₁ id₂ t₁ t₂ ht₁ ht₂
    rcases honly id₁ t₁ ht₁ with ⟨_, rfl⟩ | ⟨_, rfl⟩ <;>
      rcases honly id₂ t₂ ht₂ with ⟨_, rfl⟩ | ⟨_, rfl⟩
    · exact ⟨rfl, rfl⟩
    · exact ⟨hgen, hsub⟩
    · exact ⟨hgen.symm, hsub.symm⟩
    · exact ⟨rfl, rfl⟩
  · intro id₁ id₂ t₁ t₂ hne ht₁ ht₂
    rcases honly id₁ t₁ ht₁ with ⟨rfl, rfl⟩ | ⟨rfl, rfl⟩ <;>
      rcases honly id₂ t₂ ht₂ with ⟨rfl, rfl⟩ | ⟨rfl, rfl⟩
    -- two different ids are the two lanes, in either order
    · exact absurd rfl hne
    · rw [hpath₁, hpath₂]
      exact hrole
    · rw [hpath₁, hpath₂]
      exact eq_comm.trans hrole
    · exact absurd rfl hne

open RelayUdpDispatch in
/-- **What an accepted configuration with both peers sets up**: a run of binds
from an empty dispatch, with exactly the two sessions of its lanes. -/
theorem configured_sessions {S : RelaySessionCrate C} {args : Args} {nodeId : String}
    {dispatch : RelayUdpDispatch C} {primary secondary : SocketAddr}
    (hcontrolled : args.relayControlledLocal = true)
    (hprimary : args.relayPrimaryPeer = some primary)
    (hsecondary : args.relaySecondaryPeer = some secondary)
    (h : configuredRelayUdpDispatch S args nodeId = .ok dispatch) :
    ∃ receiver binds sessions,
      RelayObjectReceiver.new { relayLimits := S.relayLimits } = .ok receiver
        ∧ dispatch = exec step (new receiver) binds
        ∧ dispatch.receiver = { RelayObjectReceiver.initial { relayLimits := S.relayLimits } with
            sessions := sessions }
        ∧ Lanes args sessions := by
  unfold configuredRelayUdpDispatch at h
  obtain ⟨receiver, hreceiver, h⟩ := except_bind_eq_ok.mp h
  have hreceiver := except_mapError_eq_ok.mp hreceiver
  rw [hcontrolled] at h
  simp only [Bool.true_eq_false, if_false] at h
  obtain ⟨localNode, _, h⟩ := except_bind_eq_ok.mp h
  obtain ⟨generation, _, h⟩ := except_bind_eq_ok.mp h
  obtain ⟨subscriptionId, _, h⟩ := except_bind_eq_ok.mp h
  obtain ⟨first, hfirst, h⟩ := except_bind_eq_ok.mp h
  rw [List.foldlM_cons] at h
  obtain ⟨second, hsecond, h⟩ := except_bind_eq_ok.mp h
  cases Except.ok.inj h
  have hempty : receiver = RelayObjectReceiver.initial { relayLimits := S.relayLimits } := by
    unfold RelayObjectReceiver.new at hreceiver
    obtain ⟨_, _, hinitial⟩ := except_bind_eq_ok.mp hreceiver
    exact (Except.ok.inj hinitial).symm
  subst hempty
  -- the primary lane goes into an empty table, the secondary one beside it
  obtain ⟨s₁, hlane₁, hstep₁, hreceiver₁⟩ := bindLane_ok hprimary (by rfl) hfirst
  obtain ⟨s₂, hlane₂, hstep₂, hreceiver₂⟩ := bindLane_ok hsecondary (by
    rw [hreceiver₁]
    exact AList.lookup_insert_ne (show (2 : Nat) ≠ 1 by decide)) hsecond
  rw [hreceiver₁] at hreceiver₂
  refine ⟨_, [.bindControlledPeer primary s₁, .bindControlledPeer secondary s₂],
    laneSessions s₁.session s₂.session, hreceiver, ?_, hreceiver₂,
    lanes_of_sessions hlane₁ hlane₂⟩
  rw [hstep₂, hstep₁]
  rfl

/-! ## §5. The second parent of an object. -/

/-- `first` and `second` are the two configured parents, in either order. -/
def OtherParent (first second : Nat) : Prop :=
  (first = 1 ∧ second = 2) ∨ (first = 2 ∧ second = 1)

instance (first second : Nat) : Decidable (OtherParent first second) :=
  inferInstanceAs (Decidable (_ ∨ _))

/-- Both lanes are promoted. -/
def Args.BothPromoted (args : Args) : Prop :=
  args.relayPrimaryPromoted = true ∧ args.relaySecondaryPromoted = true

instance (args : Args) : Decidable args.BothPromoted := inferInstanceAs (Decidable (_ ∧ _))

namespace RelayObjectReceiver

/-- The object announced as `announcement` is being assembled at `nowUs`, its
deadline still ahead, and `id` is one of its parents. -/
def AssembledFrom (r : RelayObjectReceiver C) (id : Nat) (announcement : C.Announcement)
    (nowUs : Nat) : Prop :=
  C.isExpiredAt announcement.deadline nowUs = false
    ∧ ∃ state, state ∈ (r.expireIfDue nowUs).objects.lookup announcement.key
      ∧ state.announcement = announcement ∧ id ∈ state.parentSessions.val

/-- The object announced as `announcement` is complete, and `id` was one of its
parents. -/
def CompletedFrom (r : RelayObjectReceiver C) (id : Nat) (announcement : C.Announcement) : Prop :=
  ∃ done, done ∈ r.completed.lookup announcement.key
    ∧ done.announcement = announcement ∧ id ∈ done.parentSessions.val

/-- What holds of a configured receiver in every state traffic can reach. -/
structure LaneState (args : Args) (config : RelayObjectReceiverConfig C)
    (r : RelayObjectReceiver C) : Prop where
  tables : TableConsistent config r
  parents : ParentsAuthorized config r
  lanes : Lanes args r.sessions
  admissible : ∀ announcement, r.Known announcement →
    Admissible config.relayLimits announcement

variable {args : Args} {config : RelayObjectReceiverConfig C} {r r' : RelayObjectReceiver C}
  {announcement : C.Announcement} {first second nowUs : Nat} {parents : ParentSet}

theorem LaneState.carry (h : LaneState args config r) (hcarries : Carries r r')
    (htables : TableConsistent config r') (hparents : ParentsAuthorized config r') :
    LaneState args config r' := by
  refine ⟨htables, hparents, hcarries.sessions_eq ▸ h.lanes, ?_⟩
  intro a hknown
  rcases hcarries.known a hknown with hknown | hadmissible
  · exact h.admissible a hknown
  · rw [h.parents.config_eq] at hadmissible
    exact hadmissible

theorem LaneState.expireIfDue (hb : ConfigBounds config) (h : LaneState args config r)
    (nowUs : Nat) : LaneState args config (r.expireIfDue nowUs) := by
  have hquiet : Effect r (r.expireIfDue nowUs) none := expireIfDue_quiet r nowUs
  refine h.carry (expireIfDue_carries r nowUs) ?_ ?_
  · exact hquiet.preserves (fun hmove hr => hmove.tableConsistent hb hr)
      (fun hactive hr => hr.complete hb hactive) h.tables
  · exact hquiet.preserves (fun hmove hr => hmove.parentsAuthorized hb hr)
      (fun hactive hr => hr.complete hactive) h.parents

/-- The checks of an announcement pass for the other parent of the object. -/
theorem LaneState.checkAnnouncement_second (h : LaneState args config r)
    (hids : OtherParent first second) (hlive : r.Live announcement.key)
    (hknown : r.Known announcement)
    (hauthorized : Authorized config r.sessions parents announcement)
    (hfirst : first ∈ parents.val) :
    ∃ session, r.sessions.lookup second = some session ∧ session.sessionId = second
      ∧ r.checkAnnouncement second announcement = .ok session := by
  have hsecond : second = 1 ∨ second = 2 := by
    unfold OtherParent at hids
    omega
  obtain ⟨session, hsession, hid, _⟩ := h.lanes.registered second hsecond
  refine ⟨session, hsession, hid, ?_⟩
  -- both lanes have the generation and the subscription of the announcement
  obtain ⟨s₁, hs₁, hgeneration, hsubscription⟩ := hauthorized.registered first hfirst
  obtain ⟨hgen, hsub⟩ := h.lanes.agree _ _ _ _ hsession hs₁
  have hadmissible := h.admissible announcement hknown
  have hlogical : r.logicalKeys.lookup (LogicalObjectIdentity.from announcement.key)
      = some announcement.key := (h.tables.logical _ _).mpr ⟨rfl, hlive⟩
  have hfound : r.session second = .ok session := by
    unfold RelayObjectReceiver.session
    rw [hsession]
  have hvalid : validateSessionAnnouncement session announcement = .ok () := by
    refine if_neg ?_
    rw [hgen, hsub, hgeneration, hsubscription]
    simp
  have hconflict : r.logicalConflict announcement.key = false := by
    unfold logicalConflict
    rw [hlogical]
    simp
  unfold checkAnnouncement
  rw [h.parents.config_eq]
  -- the five checks, in the order of the function
  refine except_bind_eq_ok.mpr ⟨session, hfound, ?_⟩
  refine except_bind_eq_ok.mpr ⟨(), hvalid, ?_⟩
  refine except_bind_eq_ok.mpr ⟨(), except_mapError_eq_ok.mpr hadmissible.coding, ?_⟩
  refine except_bind_eq_ok.mpr ⟨(), if_neg (Nat.not_lt.mpr hadmissible.repair), ?_⟩
  refine except_bind_eq_ok.mpr ⟨(), if_neg ?_, rfl⟩
  rw [hconflict]
  simp

/-- Nothing but the roles decides whether the other parent is added. -/
theorem LaneState.addParent_second (h : LaneState args config r)
    (hmax : config.maxParentsPerObject = 2) (hids : OtherParent first second)
    (hauthorized : Authorized config r.sessions parents announcement)
    (hfirst : first ∈ parents.val) {session : AuthenticatedRelayParentSession}
    (hsession : r.sessions.lookup second = some session) (hid : session.sessionId = second) :
    addParentToSet r.sessions parents session r.config.maxParentsPerObject
      = if args.BothPromoted then .error (.err .parentRoleConflict)
        else .ok (parents.insert second) := by
  obtain ⟨s₁, hs₁, _⟩ := hauthorized.registered first hfirst
  have hne : first ≠ second := by
    unfold OtherParent at hids
    omega
  have hrole : s₁.parentPath = session.parentPath ↔ args.BothPromoted :=
    h.lanes.role first second s₁ session hne hs₁ hsession
  have hcontrolled : ∀ id s, r.sessions.lookup id = some s → s.controlledQualification = true := by
    intro id s hs
    obtain ⟨t, ht, _, hcontrolled⟩ := h.lanes.registered id (h.lanes.only id s hs)
    cases Option.some.inj (hs.symm.trans ht)
    exact hcontrolled
  unfold addParentToSet
  rw [hid, h.parents.config_eq, hmax]
  by_cases hmem : second ∈ parents.val
  · -- already a parent, so the two roles differ
    have hcompatible := hauthorized.compatible first hfirst second hmem hne s₁ session hs₁ hsession
    have hset : parents.insert second = parents := Subtype.ext (List.insert_of_mem hmem)
    rw [if_pos hmem, if_neg fun hboth => hcompatible.1 (hrole.mpr hboth), hset]
  · -- the first parent is the only one
    have hall : ∀ id ∈ parents.val, id = first := by
      intro id hidmem
      obtain ⟨s, hs, _⟩ := hauthorized.registered id hidmem
      have honly := h.lanes.only id s hs
      have hother : id ≠ second := fun heq => hmem (heq ▸ hidmem)
      unfold OtherParent at hids
      omega
    have hsingle : parents.val = [first] :=
      List.perm_singleton.mp ((List.perm_ext_iff_of_nodup parents.property
        (List.nodup_singleton first)).mpr fun id => by
          rw [List.mem_singleton]
          exact ⟨hall id, fun heq => heq ▸ hfirst⟩)
    rw [if_neg hmem, hsingle]
    -- one round of the loop: only the role check can fail
    unfold checkParents
    rw [hs₁]
    simp only [List.length_singleton, checkParents, hcontrolled first s₁ hs₁,
      hcontrolled second session hsession, and_self, not_true, and_false, if_false, hrole]
    by_cases hboth : args.BothPromoted
    · rw [if_pos hboth, if_pos hboth]
      rfl
    · rw [if_neg hboth, if_neg hboth]
      rfl

/-- **What the other parent of an object being assembled is answered.** -/
theorem LaneState.announce_second (hb : ConfigBounds config) (h : LaneState args config r)
    (hmax : config.maxParentsPerObject = 2) (hids : OtherParent first second)
    (hassembled : r.AssembledFrom first announcement nowUs) :
    (r.announceObject second announcement nowUs).1
      = if args.BothPromoted then .error (.err .parentRoleConflict) else .ok .joined := by
  obtain ⟨hdeadline, state, hstate, heq, hfirst⟩ := hassembled
  have hscanned := h.expireIfDue hb nowUs
  have hmem : announcement.key ∈ (r.expireIfDue nowUs).objects := AList.mem_of_lookup hstate
  have hauthorized : Authorized config (r.expireIfDue nowUs).sessions state.parentSessions
      announcement := heq ▸ (hscanned.parents.active _ state hstate).parents
  obtain ⟨session, hsession, hid, hcheck⟩ := hscanned.checkAnnouncement_second hids (.inl hmem)
    (.inl ⟨_, state, hstate, heq⟩) hauthorized hfirst
  have hcompleted : (r.expireIfDue nowUs).completed.lookup announcement.key = none :=
    AList.lookup_eq_none.mpr (hscanned.tables.disjoint _ hmem)
  unfold announceObject
  rw [recordIfRejected_fst]
  unfold tryAnnounceObject announceScanned
  -- not complete, not expired and assembled already: the call joins
  rw [hcheck]
  simp only [hcompleted, hdeadline, Option.mem_def.mp hstate, Bool.false_eq_true, if_false]
  unfold joinActive
  rw [if_neg (not_not.mpr heq),
    hscanned.addParent_second hmax hids hauthorized hfirst hsession hid]
  by_cases hboth : args.BothPromoted
  · rw [if_pos hboth, if_pos hboth]
  · rw [if_neg hboth, if_neg hboth]

/-- **What the other parent of a completed object is answered.** -/
theorem LaneState.announce_second_completed (hb : ConfigBounds config)
    (h : LaneState args config r) (hmax : config.maxParentsPerObject = 2)
    (hids : OtherParent first second) (hdone : r.CompletedFrom first announcement) :
    (r.announceObject second announcement nowUs).1
      = if args.BothPromoted then .error (.err .parentRoleConflict) else .ok .alreadyComplete := by
  obtain ⟨done, hdone, heq, hfirst⟩ := hdone
  have hscanned := h.expireIfDue hb nowUs
  -- a scan leaves the tombstones alone
  have hdone : (r.expireIfDue nowUs).completed.lookup announcement.key = some done :=
    (expireIfDue_scanOf r nowUs).completed_eq ▸ hdone
  have hauthorized : Authorized config (r.expireIfDue nowUs).sessions done.parentSessions
      announcement := heq ▸ (hscanned.parents.completed _ done hdone).parents
  obtain ⟨session, hsession, hid, hcheck⟩ := hscanned.checkAnnouncement_second hids
    (.inr (AList.mem_of_lookup hdone)) (.inr ⟨_, done, hdone, heq⟩) hauthorized hfirst
  unfold announceObject
  rw [recordIfRejected_fst]
  unfold tryAnnounceObject announceScanned
  -- complete already: the call only rejoins
  rw [hcheck]
  simp only [hdone]
  unfold rejoinCompleted
  rw [if_neg (not_not.mpr heq),
    hscanned.addParent_second hmax hids hauthorized hfirst hsession hid]
  by_cases hboth : args.BothPromoted
  · rw [if_pos hboth, if_pos hboth]
  · rw [if_neg hboth, if_neg hboth]

end RelayObjectReceiver

/-! ## §6. Every run of traffic. -/

open RelayUdpDispatch in
/-- **The receiver of an accepted configuration, after any traffic.** -/
theorem configured_laneState {S : RelaySessionCrate C} {given args : Args} {nodeId : String}
    {dispatch : RelayUdpDispatch C} (hargs : given.normalized S = .ok args)
    (hprimary : args.relayPrimaryPeer.isSome = true)
    (hsecondary : args.relaySecondaryPeer.isSome = true)
    (hdispatch : configuredRelayUdpDispatch S args nodeId = .ok dispatch) (ops : List (Op C))
    (htraffic : ∀ op ∈ ops, op.isTraffic = true) :
    ConfigBounds { relayLimits := S.relayLimits : RelayObjectReceiverConfig C }
      ∧ RelayObjectReceiver.LaneState args { relayLimits := S.relayLimits }
        (exec step dispatch ops).receiver := by
  have hcontrolled := Args.normalized_controlled hargs hprimary
  obtain ⟨primary, hprimary⟩ := Option.isSome_iff_exists.mp hprimary
  obtain ⟨secondary, hsecondary⟩ := Option.isSome_iff_exists.mp hsecondary
  obtain ⟨receiver, binds, sessions, hnew, hbinds, hreceiver, hlanes⟩ :=
    configured_sessions hcontrolled hprimary hsecondary hdispatch
  -- no object has been announced yet
  have hempty : ∀ announcement, ¬dispatch.receiver.Known announcement := by
    rw [hreceiver]
    rintro announcement (⟨key, state, hstate, _⟩ | ⟨key, done, hdone, _⟩)
    · cases hstate
    · cases hdone
  have hstart := exec_receiver_sound hnew binds
  have hend := exec_receiver_sound hnew (binds ++ ops)
  rw [← hbinds] at hstart
  rw [exec_append, ← hbinds] at hend
  refine ⟨(RelayObjectReceiver.new_ok hnew).1, ?_⟩
  have hconfigured : RelayObjectReceiver.LaneState args { relayLimits := S.relayLimits }
      dispatch.receiver :=
    ⟨hstart.1, hstart.2, hreceiver ▸ hlanes, fun announcement hknown => absurd hknown (hempty announcement)⟩
  exact hconfigured.carry (exec_carries dispatch ops htraffic) hend.1 hend.2

open RelayUdpDispatch in
/-- **Two configured parents can serve one object exactly when not both are
promoted.**  Whatever traffic an accepted configuration with two peers has
seen, the other parent of an object is joined while the object is assembled,
and answered as complete afterwards, if and only if the two promotion flags
are not both set. -/
theorem both_parents_serve_iff {S : RelaySessionCrate C} {given args : Args} {nodeId : String}
    {dispatch : RelayUdpDispatch C} (hargs : given.normalized S = .ok args)
    (hprimary : args.relayPrimaryPeer.isSome = true)
    (hsecondary : args.relaySecondaryPeer.isSome = true)
    (hdispatch : configuredRelayUdpDispatch S args nodeId = .ok dispatch) (ops : List (Op C))
    (htraffic : ∀ op ∈ ops, op.isTraffic = true) {first second : Nat}
    (hids : OtherParent first second) (announcement : C.Announcement) (nowUs : Nat) :
    ((exec step dispatch ops).receiver.AssembledFrom first announcement nowUs →
        (((exec step dispatch ops).receiver.announceObject second announcement nowUs).1
            = .ok .joined
          ↔ ¬(args.relayPrimaryPromoted = true ∧ args.relaySecondaryPromoted = true)))
      ∧ ((exec step dispatch ops).receiver.CompletedFrom first announcement →
        (((exec step dispatch ops).receiver.announceObject second announcement nowUs).1
            = .ok .alreadyComplete
          ↔ ¬(args.relayPrimaryPromoted = true ∧ args.relaySecondaryPromoted = true))) := by
  obtain ⟨hb, hstate⟩ := configured_laneState hargs hprimary hsecondary hdispatch ops htraffic
  refine ⟨?_, ?_⟩
  · intro hassembled
    rw [hstate.announce_second hb rfl hids hassembled]
    show _ ↔ ¬args.BothPromoted
    by_cases hboth : args.BothPromoted
    · simp [hboth]
    · simp [hboth]
  · intro hcompleted
    rw [hstate.announce_second_completed hb rfl hids hcompleted]
    show _ ↔ ¬args.BothPromoted
    by_cases hboth : args.BothPromoted
    · simp [hboth]
    · simp [hboth]

/-- The identifiers as the crate takes them: none is empty or zero. -/
def sampleSessionCrate : RelaySessionCrate sampleCrates where
  relayLimits := (64 : Nat)
  nodeId := fun text => if text = "" then .error (.other "node id") else .ok text
  topologyGeneration := fun n => if n = 0 then .error (.other "topology_generation") else .ok n
  subscriptionId := fun n => if n = 0 then .error (.other "subscription_id") else .ok n

/-- Two parents with the given promotion flags. -/
def sampleArgs (primaryPromoted secondaryPromoted : Bool) : Args where
  relayControlledLocal := true
  relayPrimaryPeer := some ⟨"127.0.0.1", 13001⟩
  relayPrimaryBind := some ⟨"127.0.0.1", 12001⟩
  relaySecondaryPeer := some ⟨"127.0.0.1", 13002⟩
  relaySecondaryBind := some ⟨"127.0.0.1", 12002⟩
  relayPrimaryPromoted := primaryPromoted
  relaySecondaryPromoted := secondaryPromoted
  relayTopologyGeneration := 4
  relaySubscriptionId := 9

/-- The dispatch of those flags. -/
def sampleDispatch (primaryPromoted secondaryPromoted : Bool) : RelayUdpDispatch sampleCrates :=
  match configuredRelayUdpDispatch sampleSessionCrate (sampleArgs primaryPromoted secondaryPromoted)
      "edge-london" with
  | .ok dispatch => dispatch
  | .error _ => RelayUdpDispatch.new (RelayObjectReceiver.initial sampleConfig)

open RelayUdpDispatch in
/-- The secondary lane promoted: the primary announces object 5, the secondary
joins it. -/
theorem both_parents_serve_iff_warm :
    ((exec step (sampleDispatch false true)
        [.receiver (.announceObject 1 (sampleAnnouncement 5 1) 10)]).receiver.announceObject 2
          (sampleAnnouncement 5 1) 20).1 = .ok .joined :=
  ((@both_parents_serve_iff sampleCrates sampleSessionCrate (sampleArgs false true)
      (sampleArgs false true) "edge-london" (sampleDispatch false true) (by rfl) rfl rfl (by rfl)
      [.receiver (.announceObject 1 (sampleAnnouncement 5 1) 10)] (by decide) 1 2 (by decide)
      (sampleAnnouncement 5 1) 20).1 ⟨by decide, by decide⟩).mpr (by decide)

open RelayUdpDispatch in
/-- **Both lanes promoted: one of them can never serve.**  The flags are
accepted and the dispatch is set up, the primary starts object 5, and the
secondary is rejected for its role. -/
theorem promoted_pair_rejected :
    (sampleArgs true true).normalized sampleSessionCrate = .ok (sampleArgs true true)
      ∧ configuredRelayUdpDispatch sampleSessionCrate (sampleArgs true true) "edge-london"
        = .ok (sampleDispatch true true)
      ∧ ((sampleDispatch true true).receiver.announceObject 1 (sampleAnnouncement 5 1) 10).1
        = .ok .started
      ∧ ((exec step (sampleDispatch true true)
          [.receiver (.announceObject 1 (sampleAnnouncement 5 1) 10)]).receiver.announceObject 2
            (sampleAnnouncement 5 1) 20).1 = .error (.err .parentRoleConflict) :=
  ⟨by rfl, by rfl, by decide, by decide⟩

end AvMesh.Relay
