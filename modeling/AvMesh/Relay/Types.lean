/-
  AvMesh.Relay.Types
  ──────────────────
  **THE DATA MODEL OF THE RELAY INGRESS** (`relay_ingress.rs`).

  Identities, sessions, configuration, outcomes and errors, under the names
  of the source.  What the receiver takes from the crates it builds on
  (`relay_session`, `media_object`, `raptorq_datagram_fec`) is bundled in
  `RelayCrates`: the opaque types and the functions of those crates that the
  receiver calls.  Everything downstream is parametric in it.

  A payload byte string is a `List UInt8`.  Sizes and times are `Nat`; where
  the source saturates or checks an addition the model does so too
  (`AvMesh.Lib.Machine`).  Enumerations of the crates that the source names
  only in part end in an `other` constructor for the variants it never names.
-/
import AvMesh.Lib.Machine
import AvMesh.Lib.Table

namespace AvMesh.Relay

open AvMesh.Lib

/-! ## §1. Identities and media objects. -/

/-- The canonical identity of a media object; `payloadHash` makes it
content-addressed. -/
structure ObjectKey where
  tenant : String
  stream : String
  track : String
  epoch : Nat
  group : Nat
  object : Nat
  version : Nat
  payloadHash : Bytes
  deriving Repr, DecidableEq

/-- An `ObjectKey` without its content hash. -/
structure LogicalObjectIdentity where
  tenant : String
  stream : String
  track : String
  epoch : Nat
  group : Nat
  object : Nat
  version : Nat
  deriving Repr, DecidableEq

/-- `LogicalObjectIdentity::from(&ObjectKey)`. -/
def LogicalObjectIdentity.from (key : ObjectKey) : LogicalObjectIdentity where
  tenant := key.tenant
  stream := key.stream
  track := key.track
  epoch := key.epoch
  group := key.group
  object := key.object
  version := key.version

/-- `media_object::ObjectKind`. -/
inductive ObjectKind where
  | initialization
  | codecConfiguration
  | discontinuity
  | media
  deriving Repr, DecidableEq

/-- `raptorq_datagram_fec::MediaObjectKind`, the kind carried on the wire. -/
inductive MediaObjectKind where
  | initialization
  | codecConfig
  | data
  | videoKeyframe
  | videoDelta
  | audio
  | other (tag : Nat)
  deriving Repr, DecidableEq

inductive MediaDatagramRole where
  | source
  | repair
  deriving Repr, DecidableEq

/-- What the receiver reads of a decoded `media_object::MediaObject`. -/
structure MediaObject where
  key : ObjectKey
  kind : ObjectKind
  isKeyframe : Bool
  deriving Repr, DecidableEq

structure MediaDeadline where
  expiresAtUs : Nat
  deriving Repr, DecidableEq

/-! ## §2. Parent sessions. -/

inductive CarrierKind where
  | quicDatagram
  | privateUdp
  | other (tag : Nat)
  deriving Repr, DecidableEq

inductive TrustMode where
  | authenticatedSession
  | privateAuthenticatedNetwork
  | controlledPrivateNetwork
  | other (tag : Nat)
  deriving Repr, DecidableEq

inductive ParentPath where
  | primary
  | secondary
  | promotedSecondary
  | other (tag : Nat)
  deriving Repr, DecidableEq

abbrev NodeId := String

structure CarrierIdentity where
  localNode : NodeId
  peer : NodeId
  kind : CarrierKind
  trustMode : TrustMode
  deriving Repr, DecidableEq

/-- The carriers of an authenticated session. -/
def CarrierIdentity.isAuthenticated (identity : CarrierIdentity) : Bool :=
  match identity.kind, identity.trustMode with
  | .quicDatagram, .authenticatedSession => true
  | .privateUdp, .privateAuthenticatedNetwork => true
  | _, _ => false

/-- The carrier of a controlled qualification session. -/
def CarrierIdentity.isControlled (identity : CarrierIdentity) : Bool :=
  match identity.kind, identity.trustMode with
  | .privateUdp, .controlledPrivateNetwork => true
  | _, _ => false

/-- A parent session.  The fields are private in the source, so a value exists
only if one of the two constructors of §6 accepted it: the last three fields
are what those check. -/
structure AuthenticatedRelayParentSession where
  sessionId : Nat
  identity : CarrierIdentity
  generation : Nat
  subscriptionId : Nat
  parentPath : ParentPath
  controlledQualification : Bool
  sessionId_ne_zero : sessionId ≠ 0
  nodes_differ : identity.localNode ≠ identity.peer
  carrier : (if controlledQualification then identity.isControlled else identity.isAuthenticated)
    = true
  deriving Repr, DecidableEq

/-- `ControlledRelayParentSession(AuthenticatedRelayParentSession)`. -/
structure ControlledRelayParentSession where
  session : AuthenticatedRelayParentSession
  controlled : session.controlledQualification = true
  deriving Repr, DecidableEq

/-! ## §3. Errors, outcomes, counters. -/

/-- `relay_session::Error`: the two variants the source matches on, and the
rest. -/
inductive RelaySessionError where
  | codingProfileConflict
  | objectIdentityConflict
  | other (message : String)
  deriving Repr, DecidableEq

inductive RelayIngressError where
  | invalidConfig (field reason : String)
  | limitExceeded (field : String) (actual maximum : Nat)
  | invalidSessionId
  | invalidCarrierIdentity (reason : String)
  | authenticationRequired
  | parentSessionMissing (id : Nat)
  | parentSessionConflict (id : Nat)
  | udpPeerConflict (peer : SocketAddr)
  | announcementRequired
  | announcementConflict
  | objectIdentityConflict
  | parentLimitExceeded
  | parentRoleConflict
  | unauthorizedParent
  | deadlineExpired
  | datagramLimitExceeded
  | bufferedDatagramLimitExceeded
  | symbolReplayConflict
  | relaySession (error : RelaySessionError)
  deriving Repr, DecidableEq

abbrev RelayResult (α : Type) := Outcome RelayIngressError α

inductive RelayAnnouncementOutcome where
  | started
  | joined
  | alreadyComplete
  deriving Repr, DecidableEq

inductive RelayIngressOutcome where
  | buffered (key : ObjectKey) (role : MediaDatagramRole) (deadline : MediaDeadline)
  | decoded (object : MediaObject) (envelope : Bytes) (role : MediaDatagramRole)
      (deadline : MediaDeadline) (parentCount acceptedDatagrams : Nat)
  | duplicate (key : ObjectKey) (role : MediaDatagramRole) (deadline : MediaDeadline)
  deriving Repr, DecidableEq

/-- The object an ingress outcome is about. -/
def RelayIngressOutcome.key : RelayIngressOutcome → ObjectKey
  | .buffered key _ _ => key
  | .decoded object _ _ _ _ _ => object.key
  | .duplicate key _ _ => key

structure RelayIngressCounters where
  datagramsReceived : Nat := 0
  datagramsRejected : Nat := 0
  sourceDatagrams : Nat := 0
  repairDatagrams : Nat := 0
  duplicateDatagrams : Nat := 0
  decodedObjects : Nat := 0
  repairAssistedObjects : Nat := 0
  fecRecoveredObjects : Nat := 0
  fecRecoveredSourceSymbols : Nat := 0
  expiredObjects : Nat := 0
  conflictDrops : Nat := 0
  authenticationDrops : Nat := 0
  deadlineDrops : Nat := 0
  deriving Repr, DecidableEq

/-- Work released by an expiry scan. -/
structure RelayObjectExpiry where
  objects : Nat := 0
  releasedObjectBytes : Nat := 0
  releasedDatagrams : Nat := 0
  deriving Repr, DecidableEq

/-! ## §4. Announcements, symbols, and the crates below. -/

/-- `relay_session::ObjectAnnouncement`, over the crate's coding profiles. -/
structure ObjectAnnouncement (CodingProfile : Type) where
  generation : Nat
  subscriptionId : Nat
  key : ObjectKey
  kind : MediaObjectKind
  deadline : MediaDeadline
  coding : CodingProfile
  initialRepairSymbols : Nat
  nextPacketSequence : Nat
  deriving DecidableEq

/-- `relay_session::RelayDatagram`, one decoded RLS1 symbol. -/
structure RelayDatagram (CodingProfile PathIntent : Type) where
  generation : Nat
  subscriptionId : Nat
  objectKey : ObjectKey
  objectKind : MediaObjectKind
  deadline : MediaDeadline
  coding : CodingProfile
  role : MediaDatagramRole
  pathIntent : PathIntent
  fecDatagram : Bytes

/-- The types and functions of the crates below that the receiver uses.  A
fallible call that takes `&mut self` returns the object it leaves behind, also
when it fails. -/
structure RelayCrates where
  RelayLimits : Type
  CodingProfile : Type
  PathIntent : Type
  ObjectAssembler : Type
  decEqCodingProfile : DecidableEq CodingProfile
  /-- `RelayLimits::validate`. -/
  validateLimits : RelayLimits → Except RelaySessionError Unit
  maxExtraRepairSymbols : RelayLimits → Nat
  /-- `coding.validate(limits)`. -/
  validateCoding : CodingProfile → RelayLimits → Except RelaySessionError Unit
  transferLength : CodingProfile → Nat
  sourceSymbols : CodingProfile → Nat
  /-- `MediaDeadline::is_expired_at`. -/
  isExpiredAt : MediaDeadline → Nat → Bool
  /-- `ParentPath::permits`. -/
  permits : ParentPath → PathIntent → Bool
  /-- `decode_datagram`: the RLS1 wire decoder. -/
  decodeDatagram : Bytes → RelayLimits → Except RelaySessionError (RelayDatagram CodingProfile PathIntent)
  /-- `DatagramFecHeader::decode`, of which the receiver reads `packet_sequence`. -/
  decodePacketSequence : Bytes → Except RelaySessionError Nat
  /-- `PayloadHash::digest`. -/
  digest : Bytes → Bytes
  /-- `ObjectAssembler::new`. -/
  newAssembler : ObjectAnnouncement CodingProfile → RelayLimits →
    Except RelaySessionError ObjectAssembler
  /-- `ObjectAssembler::push_symbol`. -/
  pushSymbol : ObjectAssembler → RelayDatagram CodingProfile PathIntent →
    Except RelaySessionError (Option MediaObject) × ObjectAssembler
  /-- `ObjectAssembler::take_completed_envelope`. -/
  takeCompletedEnvelope : ObjectAssembler → Option Bytes × ObjectAssembler

instance (C : RelayCrates) : DecidableEq C.CodingProfile := C.decEqCodingProfile

/-- Announcements over the coding profiles of `C`. -/
abbrev RelayCrates.Announcement (C : RelayCrates) := ObjectAnnouncement C.CodingProfile

/-- Symbols over the coding profiles and path intents of `C`. -/
abbrev RelayCrates.Symbol (C : RelayCrates) := RelayDatagram C.CodingProfile C.PathIntent

/-! ## §5. Configuration. -/

def hardMaxParentSessions : Nat := 65536
def hardMaxActiveObjects : Nat := 65536
def hardMaxParentsPerObject : Nat := 2
def hardMaxDatagramsPerObject : Nat := 65536
def hardMaxBufferedDatagrams : Nat := 262144
def hardMaxBufferedObjectBytes : Nat := 512 * 1024 * 1024
def hardMaxCompletedObjects : Nat := 65536

structure RelayObjectReceiverConfig (C : RelayCrates) where
  relayLimits : C.RelayLimits
  maxParentSessions : Nat := 4096
  maxActiveObjects : Nat := 4096
  maxParentsPerObject : Nat := 2
  maxDatagramsPerObject : Nat := 32768
  maxBufferedDatagrams : Nat := 131072
  maxBufferedObjectBytes : Nat := 128 * 1024 * 1024
  maxCompletedObjects : Nat := 4096
  objectInactivityTimeoutUs : Nat := 10000000
  expiryScanIntervalUs : Nat := 250000

def validateNonzeroBound (field : String) (value maximum : Nat) : Except RelayIngressError Unit :=
  if value = 0 then .error (.invalidConfig field "bound must be positive")
  else if value > maximum then .error (.limitExceeded field value maximum)
  else .ok ()

/-- `RelayObjectReceiverConfig::validate`. -/
def RelayObjectReceiverConfig.validate {C : RelayCrates} (config : RelayObjectReceiverConfig C) :
    Except RelayIngressError Unit := do
  (C.validateLimits config.relayLimits).mapError .relaySession
  validateNonzeroBound "max_parent_sessions" config.maxParentSessions hardMaxParentSessions
  validateNonzeroBound "max_active_objects" config.maxActiveObjects hardMaxActiveObjects
  validateNonzeroBound "max_parents_per_object" config.maxParentsPerObject hardMaxParentsPerObject
  validateNonzeroBound "max_datagrams_per_object" config.maxDatagramsPerObject
    hardMaxDatagramsPerObject
  validateNonzeroBound "max_buffered_datagrams" config.maxBufferedDatagrams
    hardMaxBufferedDatagrams
  validateNonzeroBound "max_buffered_object_bytes" config.maxBufferedObjectBytes
    hardMaxBufferedObjectBytes
  validateNonzeroBound "max_completed_objects" config.maxCompletedObjects hardMaxCompletedObjects
  if config.objectInactivityTimeoutUs = 0 then
    throw (.invalidConfig "object_inactivity_timeout_us" "bound must be positive")
  if config.expiryScanIntervalUs = 0 then
    throw (.invalidConfig "expiry_scan_interval_us" "bound must be positive")

/-- What a validated configuration guarantees of its ceilings: each is
positive and at most its hard maximum. -/
structure ConfigBounds {C : RelayCrates} (config : RelayObjectReceiverConfig C) : Prop where
  parentSessions : 0 < config.maxParentSessions ∧ config.maxParentSessions ≤ hardMaxParentSessions
  activeObjects : 0 < config.maxActiveObjects ∧ config.maxActiveObjects ≤ hardMaxActiveObjects
  parentsPerObject :
    0 < config.maxParentsPerObject ∧ config.maxParentsPerObject ≤ hardMaxParentsPerObject
  datagramsPerObject :
    0 < config.maxDatagramsPerObject ∧ config.maxDatagramsPerObject ≤ hardMaxDatagramsPerObject
  bufferedDatagrams :
    0 < config.maxBufferedDatagrams ∧ config.maxBufferedDatagrams ≤ hardMaxBufferedDatagrams
  bufferedObjectBytes :
    0 < config.maxBufferedObjectBytes ∧ config.maxBufferedObjectBytes ≤ hardMaxBufferedObjectBytes
  completedObjects :
    0 < config.maxCompletedObjects ∧ config.maxCompletedObjects ≤ hardMaxCompletedObjects

theorem validateNonzeroBound_ok {field : String} {value maximum : Nat}
    (h : validateNonzeroBound field value maximum = .ok ()) : 0 < value ∧ value ≤ maximum := by
  unfold validateNonzeroBound at h
  split at h
  · cases h
  · split at h
    · cases h
    · omega

theorem RelayObjectReceiverConfig.validate_bounds {C : RelayCrates}
    {config : RelayObjectReceiverConfig C} (h : config.validate = .ok ()) :
    ConfigBounds config := by
  unfold RelayObjectReceiverConfig.validate at h
  obtain ⟨_, _, h⟩ := except_bind_eq_ok.mp h
  obtain ⟨_, hsessions, h⟩ := except_bind_eq_ok.mp h
  obtain ⟨_, hactive, h⟩ := except_bind_eq_ok.mp h
  obtain ⟨_, hparents, h⟩ := except_bind_eq_ok.mp h
  obtain ⟨_, hdatagrams, h⟩ := except_bind_eq_ok.mp h
  obtain ⟨_, hbuffered, h⟩ := except_bind_eq_ok.mp h
  obtain ⟨_, hbytes, h⟩ := except_bind_eq_ok.mp h
  obtain ⟨_, hcompleted, _⟩ := except_bind_eq_ok.mp h
  exact ⟨validateNonzeroBound_ok hsessions, validateNonzeroBound_ok hactive,
    validateNonzeroBound_ok hparents, validateNonzeroBound_ok hdatagrams,
    validateNonzeroBound_ok hbuffered, validateNonzeroBound_ok hbytes,
    validateNonzeroBound_ok hcompleted⟩

/-! ## §6. Constructing sessions. -/

/-- `AuthenticatedRelayParentSession::new`. -/
def AuthenticatedRelayParentSession.new (sessionId : Nat) (identity : CarrierIdentity)
    (generation subscriptionId : Nat) (parentPath : ParentPath) :
    Except RelayIngressError AuthenticatedRelayParentSession :=
  if hid : sessionId = 0 then .error .invalidSessionId
  else if hnodes : identity.localNode = identity.peer then
    .error (.invalidCarrierIdentity "local and peer node identities must differ")
  else if hcarrier : identity.isAuthenticated = true then
    .ok ⟨sessionId, identity, generation, subscriptionId, parentPath, false, hid, hnodes, hcarrier⟩
  else .error .authenticationRequired

/-- `ControlledRelayParentSession::new`. -/
def ControlledRelayParentSession.new (sessionId : Nat) (identity : CarrierIdentity)
    (generation subscriptionId : Nat) (parentPath : ParentPath) :
    Except RelayIngressError ControlledRelayParentSession :=
  if hid : sessionId = 0 then .error .invalidSessionId
  else if hnodes : identity.localNode = identity.peer then
    .error (.invalidCarrierIdentity "local and peer node identities must differ")
  else if hcarrier : identity.isControlled = true then
    .ok ⟨⟨sessionId, identity, generation, subscriptionId, parentPath, true, hid, hnodes,
      hcarrier⟩, rfl⟩
  else .error (.invalidCarrierIdentity
    "controlled qualification uses private UDP with ControlledPrivateNetwork trust")

end AvMesh.Relay
