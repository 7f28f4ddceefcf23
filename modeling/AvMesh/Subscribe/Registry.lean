/-
  AvMesh.Subscribe.Registry
  ─────────────────────────
  **THE CURRENT SUBSCRIBE BINDINGS OF AN EDGE** (`CurrentSubscribeRegistry`).

  The controller installs bindings and sends ordered invalidations on separate
  lanes.  A registry maps a binding key to the installed binding, a revision and
  whether it is still active; a gap in the invalidations closes it until a
  snapshot at a later boundary replaces everything.

  Every method holds the lock of the registry from its first read to its last
  write, so a method is one step and a run is a list of them.  As elsewhere an
  operation returns its result with the state it leaves behind.

    • the maps are `BTreeMap`s: the two loops that hand out revisions go through
      the keys in order (`inKeyOrder`),
    • `saturating_add(1).max(1)` on revisions is `bumpRevision`.
-/
import AvMesh.Lib.Machine
import AvMesh.Lib.StepSystem
import AvMesh.Lib.Table
import Mathlib.Data.List.Sort

namespace AvMesh.Subscribe

open AvMesh.Lib

/-! ## §1. The media crates. -/

inductive MediaClass where
  | program
  | source
  | screen
  | metadata
  | talkback
  | takeChunk
  deriving Repr, DecidableEq

/-- The identifiers and limits of the media crates. -/
structure MediaCrates where
  TenantId : Type
  SessionId : Type
  ParticipantId : Type
  EndpointId : Type
  EdgeId : Type
  SourceId : Type
  AudienceId : Type
  decEqSessionId : DecidableEq SessionId
  decEqEndpointId : DecidableEq EndpointId
  /-- `EndpointId::as_str`. -/
  endpointStr : EndpointId → String
  /-- The place of a class in the order of `MediaClass`. -/
  mediaClassRank : MediaClass → Nat
  /-- `MEDIA_CONTROL_MAX_GENERATION`. -/
  maxGeneration : UInt64
  /-- `MEDIA_CONTROL_MAX_CLOCK_SKEW_SECONDS`. -/
  maxClockSkewSeconds : Int
  /-- `MAX_COMPACT_JWS_BYTES`. -/
  maxCompactJwsBytes : Nat

instance (C : MediaCrates) : DecidableEq C.SessionId := C.decEqSessionId

instance (C : MediaCrates) : DecidableEq C.EndpointId := C.decEqEndpointId

/-- `MAX_ACTIVE_SUBSCRIPTIONS`. -/
def maxActiveSubscriptions : Nat := 65536

/-! ## §2. Errors. -/

inductive EdgeSubscribeErrorCode where
  | invalidConfiguration
  | unknownBinding
  | revokedBinding
  | invalidationGap
  | capabilityTooLarge
  | invalidCapability
  | invalidSignature
  | wrongScope
  | capabilityReplay
  | capabilityExpired
  | proofRequired
  | proofMismatch
  | malformedObject
  | nonCanonicalObject
  | catalogLaneMismatch
  | sourceNotAllowed
  | audienceNotAllowed
  | channelLimit
  | bitrateLimit
  | objectExpired
  | capacity
  | relayScope
  | deliveryPurged
  | datagramLimit
  deriving Repr, DecidableEq

structure EdgeSubscribeError where
  code : EdgeSubscribeErrorCode
  field : String
  deriving Repr, DecidableEq

abbrev EdgeResult (α : Type) := Except EdgeSubscribeError α

/-- The answer of a registry that missed an invalidation. -/
def gapError : EdgeSubscribeError := ⟨.invalidationGap, "invalidation_sequence"⟩

/-! ## §3. Bindings. -/

/-- A generation is positive and within the range of the control plane. -/
def ValidGeneration (C : MediaCrates) (generation : Nat) : Prop :=
  generation ≠ 0 ∧ generation ≤ C.maxGeneration.toNat

instance (C : MediaCrates) (generation : Nat) : Decidable (ValidGeneration C generation) :=
  inferInstanceAs (Decidable (_ ∧ _))

/-- The authorization state of one endpoint, class and generation. -/
structure CurrentSubscribeBinding (C : MediaCrates) where
  tenantId : C.TenantId
  sessionId : C.SessionId
  sessionEpoch : Nat
  mediaAuthorizationEpoch : Nat
  subjectGrantEpoch : Nat
  mediaPolicyVersion : Nat
  classAuthorizationEpoch : Option Nat
  bindingGeneration : Nat
  topologyGeneration : Nat
  participantId : C.ParticipantId
  endpointId : C.EndpointId
  mediaClass : MediaClass
  edgeId : C.EdgeId
  clockSkewSeconds : Int
  generations_valid : ∀ generation ∈ [sessionEpoch, mediaAuthorizationEpoch, subjectGrantEpoch,
    mediaPolicyVersion, bindingGeneration, topologyGeneration], ValidGeneration C generation
  class_valid : ∀ generation ∈ classAuthorizationEpoch.toList, ValidGeneration C generation
  skew_valid : 0 ≤ clockSkewSeconds ∧ clockSkewSeconds ≤ C.maxClockSkewSeconds
  class_ne_takeChunk : mediaClass ≠ .takeChunk

variable {C : MediaCrates}

/-- `CurrentSubscribeBinding::new`. -/
def CurrentSubscribeBinding.new (tenantId : C.TenantId) (sessionId : C.SessionId)
    (sessionEpoch mediaAuthorizationEpoch subjectGrantEpoch mediaPolicyVersion : Nat)
    (classAuthorizationEpoch : Option Nat) (bindingGeneration topologyGeneration : Nat)
    (participantId : C.ParticipantId) (endpointId : C.EndpointId) (mediaClass : MediaClass)
    (edgeId : C.EdgeId) (clockSkewSeconds : Int) : EdgeResult (CurrentSubscribeBinding C) :=
  if hgenerations : ∀ generation ∈ [sessionEpoch, mediaAuthorizationEpoch, subjectGrantEpoch,
      mediaPolicyVersion, bindingGeneration, topologyGeneration], ValidGeneration C generation then
    if hbinding : (∀ generation ∈ classAuthorizationEpoch.toList, ValidGeneration C generation)
        ∧ (0 ≤ clockSkewSeconds ∧ clockSkewSeconds ≤ C.maxClockSkewSeconds)
        ∧ mediaClass ≠ .takeChunk then
      .ok {
        tenantId, sessionId, sessionEpoch, mediaAuthorizationEpoch, subjectGrantEpoch
        mediaPolicyVersion, classAuthorizationEpoch, bindingGeneration, topologyGeneration
        participantId, endpointId, mediaClass, edgeId, clockSkewSeconds
        generations_valid := hgenerations
        class_valid := hbinding.1
        skew_valid := hbinding.2.1
        class_ne_takeChunk := hbinding.2.2 }
    else .error ⟨.invalidConfiguration, "subscribe_binding"⟩
  else .error ⟨.invalidConfiguration, "authorization_generation"⟩

structure SubscribeBindingKey where
  endpointId : String
  mediaClass : MediaClass
  bindingGeneration : Nat
  deriving Repr, DecidableEq

/-- The order of the keys: by endpoint, then class, then generation. -/
def keyLe (C : MediaCrates) (a b : SubscribeBindingKey) : Prop :=
  a.endpointId < b.endpointId
    ∨ (a.endpointId = b.endpointId
      ∧ (C.mediaClassRank a.mediaClass < C.mediaClassRank b.mediaClass
        ∨ (C.mediaClassRank a.mediaClass = C.mediaClassRank b.mediaClass
          ∧ a.bindingGeneration ≤ b.bindingGeneration)))

instance (C : MediaCrates) : DecidableRel (keyLe C) := fun _ _ =>
  inferInstanceAs (Decidable (_ ∨ _))

/-- The keys of a map, in the order in which it is iterated. -/
def inKeyOrder (C : MediaCrates) {V : Type} (map : Table SubscribeBindingKey V) :
    List SubscribeBindingKey :=
  map.keys.insertionSort (keyLe C)

/-- The key under which a binding of the endpoint, class and generation is
stored. -/
def bindingKey (endpointId : C.EndpointId) (mediaClass : MediaClass) (bindingGeneration : Nat) :
    SubscribeBindingKey :=
  ⟨C.endpointStr endpointId, mediaClass, bindingGeneration⟩

def CurrentSubscribeBinding.key (binding : CurrentSubscribeBinding C) : SubscribeBindingKey :=
  bindingKey binding.endpointId binding.mediaClass binding.bindingGeneration

structure RegisteredSubscribeBinding (C : MediaCrates) where
  binding : CurrentSubscribeBinding C
  revision : Nat
  active : Bool

/-- The authorization of one connection, for the binding at one revision. -/
structure SubscriptionLease (C : MediaCrates) where
  binding : CurrentSubscribeBinding C
  bindingRevision : Nat
  capabilityId : String
  connectionId : String
  sourceIds : List C.SourceId
  audienceIds : List C.AudienceId
  maxChannels : Nat
  maxBitrate : Nat
  maxDatagramBytes : Nat
  expiresAt : Int

/-! ## §4. Invalidations. -/

structure SubscribeInvalidationV1 (C : MediaCrates) where
  deliverySequence : Nat
  sessionId : C.SessionId
  sessionEpoch : Nat
  mediaAuthorizationEpoch : Nat
  mediaPolicyVersion : Nat
  endpointId : Option C.EndpointId
  subjectGrantEpoch : Option Nat

inductive InvalidationOutcome where
  | applied (invalidatedBindings : Nat)
  | duplicate
  deriving Repr, DecidableEq

namespace SubscribeInvalidationV1

/-- The event passes the checks that come before the lock. -/
def WellFormed (event : SubscribeInvalidationV1 C) : Prop :=
  (∀ generation ∈ [event.deliverySequence, event.sessionEpoch, event.mediaAuthorizationEpoch,
      event.mediaPolicyVersion], ValidGeneration C generation)
    ∧ event.endpointId.isSome = event.subjectGrantEpoch.isSome
    ∧ ∀ generation ∈ event.subjectGrantEpoch.toList, ValidGeneration C generation

instance (event : SubscribeInvalidationV1 C) : Decidable event.WellFormed :=
  inferInstanceAs (Decidable (_ ∧ _))

/-- `session_stale`. -/
def sessionStale (event : SubscribeInvalidationV1 C) (binding : CurrentSubscribeBinding C) : Bool :=
  decide (binding.sessionEpoch < event.sessionEpoch)
    || decide (binding.mediaAuthorizationEpoch < event.mediaAuthorizationEpoch)
    || decide (binding.mediaPolicyVersion < event.mediaPolicyVersion)

/-- `subject_stale`. -/
def subjectStale (event : SubscribeInvalidationV1 C) (binding : CurrentSubscribeBinding C) : Bool :=
  match event.endpointId with
  | none => false
  | some endpointId =>
      decide (binding.endpointId = endpointId)
        && match event.subjectGrantEpoch with
          | none => false
          | some epoch => decide (binding.subjectGrantEpoch < epoch)

/-- The event makes the binding stale: it is about its session, and one of its
generations is behind. -/
def stale (event : SubscribeInvalidationV1 C) (binding : CurrentSubscribeBinding C) : Bool :=
  decide (binding.sessionId = event.sessionId)
    && (event.sessionStale binding || event.subjectStale binding)

end SubscribeInvalidationV1

/-! ## §5. The registry. -/

/-- The state behind the lock of the registry. -/
structure CurrentSubscribeRegistry (C : MediaCrates) where
  nextRevision : Nat
  lastInvalidationSequence : Nat
  requiredSnapshotBoundary : Nat
  synchronized : Bool
  bindings : Table SubscribeBindingKey (RegisteredSubscribeBinding C)

/-- `revision.saturating_add(1).max(1)`. -/
def bumpRevision (revision : Nat) : Nat := max (satAdd revision 1) 1

namespace CurrentSubscribeRegistry

def new (C : MediaCrates) (snapshotBoundarySequence : Nat) :
    EdgeResult (CurrentSubscribeRegistry C) :=
  if C.maxGeneration.toNat < snapshotBoundarySequence then
    .error ⟨.invalidConfiguration, "snapshot_boundary_sequence"⟩
  else
    .ok {
      nextRevision := 0
      lastInvalidationSequence := snapshotBoundarySequence
      requiredSnapshotBoundary := 0
      synchronized := true
      bindings := ∅ }

def install (r : CurrentSubscribeRegistry C) (binding : CurrentSubscribeBinding C) :
    EdgeResult Nat × CurrentSubscribeRegistry C :=
  if r.synchronized = false then (.error gapError, r)
  -- a revoked binding still occupies its key
  else if binding.key ∈ r.bindings then
    (.error ⟨.invalidConfiguration, "subscribe_binding"⟩, r)
  else if maxActiveSubscriptions ≤ r.bindings.size then
    (.error ⟨.capacity, "subscribe_bindings"⟩, r)
  else
    let revision := bumpRevision r.nextRevision
    (.ok revision,
      { r with
        nextRevision := revision
        bindings := r.bindings.insert binding.key ⟨binding, revision, true⟩ })

/-- The variables of the loop of `apply_invalidation`. -/
structure Revocation (C : MediaCrates) where
  bindings : Table SubscribeBindingKey (RegisteredSubscribeBinding C)
  revision : Nat
  invalidated : Nat

/-- The loop of `apply_invalidation`. -/
def revokeEach (event : SubscribeInvalidationV1 C) :
    List SubscribeBindingKey → Revocation C → Revocation C
  | [], v => v
  | key :: keys, v =>
      match v.bindings.lookup key with
      | none => revokeEach event keys v
      | some registered =>
          if registered.active = true ∧ event.stale registered.binding = true then
            revokeEach event keys {
              bindings := v.bindings.replace key
                { registered with revision := bumpRevision v.revision, active := false }
              revision := bumpRevision v.revision
              invalidated := satAdd v.invalidated 1 }
          else revokeEach event keys v

/-- The bindings after the loop over all of them. -/
def revoke (r : CurrentSubscribeRegistry C) (event : SubscribeInvalidationV1 C) : Revocation C :=
  revokeEach event (inKeyOrder C r.bindings) ⟨r.bindings, r.nextRevision, 0⟩

def applyInvalidation (r : CurrentSubscribeRegistry C) (event : SubscribeInvalidationV1 C) :
    EdgeResult InvalidationOutcome × CurrentSubscribeRegistry C :=
  if ¬event.WellFormed then (.error ⟨.invalidConfiguration, "invalidation_event"⟩, r)
  -- an old event is a duplicate, in a gap as well
  else if event.deliverySequence ≤ r.lastInvalidationSequence then (.ok .duplicate, r)
  -- once closed, the next event closes it again: only a snapshot reopens
  else if r.synchronized = false
      ∨ event.deliverySequence ≠ satAdd r.lastInvalidationSequence 1 then
    (.error gapError,
      { r with
        synchronized := false
        requiredSnapshotBoundary := max r.requiredSnapshotBoundary event.deliverySequence })
  else
    (.ok (.applied (r.revoke event).invalidated),
      { r with
        lastInvalidationSequence := event.deliverySequence
        bindings := (r.revoke event).bindings
        nextRevision := (r.revoke event).revision })

/-- The first loop of `install_snapshot`: no key twice. -/
def collectUnique : List (CurrentSubscribeBinding C) →
    Table SubscribeBindingKey (CurrentSubscribeBinding C) →
    EdgeResult (Table SubscribeBindingKey (CurrentSubscribeBinding C))
  | [], unique => .ok unique
  | binding :: bindings, unique =>
      if binding.key ∈ unique then .error ⟨.invalidConfiguration, "snapshot_binding"⟩
      else collectUnique bindings (unique.insert binding.key binding)

/-- The second loop of `install_snapshot`: a new revision for each binding. -/
def registerEach (unique : Table SubscribeBindingKey (CurrentSubscribeBinding C)) :
    List SubscribeBindingKey → Nat × Table SubscribeBindingKey (RegisteredSubscribeBinding C) →
    Nat × Table SubscribeBindingKey (RegisteredSubscribeBinding C)
  | [], registered => registered
  | key :: keys, registered =>
      match unique.lookup key with
      | none => registerEach unique keys registered
      | some binding =>
          registerEach unique keys
            (bumpRevision registered.1,
              registered.2.insert key ⟨binding, bumpRevision registered.1, true⟩)

def installSnapshot (r : CurrentSubscribeRegistry C) (boundarySequence : Nat)
    (bindings : List (CurrentSubscribeBinding C)) :
    EdgeResult Unit × CurrentSubscribeRegistry C :=
  if C.maxGeneration.toNat < boundarySequence then
    (.error ⟨.invalidConfiguration, "snapshot_boundary_sequence"⟩, r)
  else if maxActiveSubscriptions < bindings.length then
    (.error ⟨.capacity, "snapshot_bindings"⟩, r)
  else match collectUnique bindings ∅ with
    | .error error => (.error error, r)
    | .ok unique =>
        -- the lock is taken here: only the two boundaries depend on the state
        if boundarySequence < r.lastInvalidationSequence
            ∨ boundarySequence < r.requiredSnapshotBoundary then
          (.error ⟨.invalidConfiguration, "snapshot_boundary_sequence"⟩, r)
        else
          let replacement := registerEach unique (inKeyOrder C unique) (r.nextRevision, ∅)
          (.ok (),
            { nextRevision := replacement.1
              lastInvalidationSequence := boundarySequence
              requiredSnapshotBoundary := 0
              synchronized := true
              bindings := replacement.2 })

def acknowledgedSequence (r : CurrentSubscribeRegistry C) : Option Nat :=
  if r.synchronized then some r.lastInvalidationSequence else none

def resolve (r : CurrentSubscribeRegistry C) (endpointId : C.EndpointId) (mediaClass : MediaClass)
    (bindingGeneration : Nat) : EdgeResult (RegisteredSubscribeBinding C) :=
  if r.synchronized = false then .error gapError
  else match r.bindings.lookup (bindingKey endpointId mediaClass bindingGeneration) with
    | none => .error ⟨.unknownBinding, "subscribe_binding"⟩
    | some registered =>
        if registered.active = false then .error ⟨.revokedBinding, "subscribe_binding"⟩
        else .ok registered

def revalidate (r : CurrentSubscribeRegistry C) (lease : SubscriptionLease C) : EdgeResult Unit :=
  match r.resolve lease.binding.endpointId lease.binding.mediaClass
      lease.binding.bindingGeneration with
  | .error error => .error error
  | .ok current =>
      if current.revision ≠ lease.bindingRevision then
        .error ⟨.revokedBinding, "subscribe_binding"⟩
      else .ok ()

/-! ## §6. The registry as a step system. -/

inductive Op (C : MediaCrates) where
  | install (binding : CurrentSubscribeBinding C)
  | applyInvalidation (event : SubscribeInvalidationV1 C)
  | installSnapshot (boundarySequence : Nat) (bindings : List (CurrentSubscribeBinding C))

inductive Reply where
  | installed (result : EdgeResult Nat)
  | invalidated (result : EdgeResult InvalidationOutcome)
  | snapshot (result : EdgeResult Unit)

def step (r : CurrentSubscribeRegistry C) : Op C → Reply × CurrentSubscribeRegistry C
  | .install binding => ((.installed (r.install binding).1), (r.install binding).2)
  | .applyInvalidation event =>
      (.invalidated (r.applyInvalidation event).1, (r.applyInvalidation event).2)
  | .installSnapshot boundarySequence bindings =>
      (.snapshot (r.installSnapshot boundarySequence bindings).1,
        (r.installSnapshot boundarySequence bindings).2)

/-- The operation installs a snapshot. -/
def snapshotInstalled (r : CurrentSubscribeRegistry C) : Op C → Bool
  | .installSnapshot boundarySequence bindings =>
      (r.installSnapshot boundarySequence bindings).1.isOk
  | _ => false

/-- The invalidation the operation applies. -/
def appliedEvent (r : CurrentSubscribeRegistry C) : Op C → Option (SubscribeInvalidationV1 C)
  | .applyInvalidation event =>
      match (r.applyInvalidation event).1 with
      | .ok (.applied _) => some event
      | _ => none
  | _ => none

end CurrentSubscribeRegistry

/-! ## §7. A concrete instance of the crates. -/

def sampleMediaClassRank : MediaClass → Nat
  | .program => 0
  | .source => 1
  | .screen => 2
  | .metadata => 3
  | .talkback => 4
  | .takeChunk => 5

/-- Every identifier is its own text. -/
def sampleMedia : MediaCrates where
  TenantId := String
  SessionId := String
  ParticipantId := String
  EndpointId := String
  EdgeId := String
  SourceId := String
  AudienceId := String
  decEqSessionId := inferInstance
  decEqEndpointId := inferInstance
  endpointStr := id
  mediaClassRank := sampleMediaClassRank
  maxGeneration := 9007199254740991
  maxClockSkewSeconds := 60
  maxCompactJwsBytes := 16384

/-- A source binding whose generations are all 1. -/
def sampleBinding : CurrentSubscribeBinding sampleMedia where
  tenantId := "tenant-1"
  sessionId := "session-1"
  sessionEpoch := 1
  mediaAuthorizationEpoch := 1
  subjectGrantEpoch := 1
  mediaPolicyVersion := 1
  classAuthorizationEpoch := none
  bindingGeneration := 1
  topologyGeneration := 1
  participantId := "participant-1"
  endpointId := "endpoint-1"
  mediaClass := .source
  edgeId := "edge-1"
  clockSkewSeconds := 5
  generations_valid := by decide
  class_valid := by decide
  skew_valid := by decide
  class_ne_takeChunk := by decide

/-- An invalidation of the session that moves its epoch. -/
def sampleEvent (deliverySequence sessionEpoch : Nat) : SubscribeInvalidationV1 sampleMedia where
  deliverySequence := deliverySequence
  sessionId := "session-1"
  sessionEpoch := sessionEpoch
  mediaAuthorizationEpoch := 1
  mediaPolicyVersion := 1
  endpointId := none
  subjectGrantEpoch := none

/-- The registry before anything is installed. -/
def sampleRegistry : CurrentSubscribeRegistry sampleMedia where
  nextRevision := 0
  lastInvalidationSequence := 0
  requiredSnapshotBoundary := 0
  synchronized := true
  bindings := ∅

end AvMesh.Subscribe
