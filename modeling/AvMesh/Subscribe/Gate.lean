/-
  AvMesh.Subscribe.Gate
  ─────────────────────
  **THE SUBSCRIBE GATE OF AN EDGE** (`EdgeSubscribeGate`) **AND THE CALLS IN
  FLIGHT.**

  `authorize` resolves a binding, hands it to the capability verifier, which asks
  the admission guard of the call, and grants a lease.  It takes the locks of the
  registry and of the admissions for a moment each, so other calls and other
  changes of the registry happen in between.  The call is therefore cut at these
  moments:

      beginAuthorize    the checks of the request, the resolve, the reservation id
      checkAndAdmit     the verifier asks the guard, as often as it likes
      finishAuthorize   what the verifier answered; commit or rollback; the lease

  The verifier is the environment: a run of `EdgeState` chooses when it asks the
  guard and what it answers.
-/
import AvMesh.Subscribe.Registry

namespace AvMesh.Subscribe

open AvMesh.Lib

variable {C : MediaCrates}

/-! ## §1. Requests and capabilities. -/

structure EdgeSubscribeRequest (C : MediaCrates) where
  compactJws : String
  endpointId : C.EndpointId
  mediaClass : MediaClass
  bindingGeneration : Nat
  requestedSourceId : Option C.SourceId
  requestedAudienceId : Option C.AudienceId
  connectionId : String
  authenticatedClientKeyThumbprint : Option String
  nowUnixSeconds : Int

/-- What the verifier is told about the request: `operation` is always
`Subscribe`, and `contributor_id` and `take_id` are always absent. -/
structure CurrentMediaAuthorizationContextV1 (C : MediaCrates) where
  binding : CurrentSubscribeBinding C
  sourceId : Option C.SourceId
  audienceId : Option C.AudienceId
  now : Int

structure VerifiedSubscribeCapability (C : MediaCrates) where
  capabilityId : String
  sourceIds : List C.SourceId
  audienceIds : List C.AudienceId
  maxChannels : Nat
  maxBitrate : Nat
  maxDatagramBytes : Nat
  clientKeyThumbprint : Option String
  expiresAt : Int

/-- The codes of the verifier that the gate tells apart. -/
inductive CapabilityVerifierErrorCode where
  | invalidSignature
  | authorizationRejected
  | replayAdmissionRejected
  | segmentTooLarge
  | other
  deriving Repr, DecidableEq

structure CapabilityVerifierError where
  code : CapabilityVerifierErrorCode
  /-- `claims_code() == Some(Expired)`. -/
  claimsExpired : Bool
  field : String
  deriving Repr, DecidableEq

def mapVerifierError (error : CapabilityVerifierError) : EdgeSubscribeError :=
  let code :=
    if error.claimsExpired then EdgeSubscribeErrorCode.capabilityExpired
    else match error.code with
      | .invalidSignature => .invalidSignature
      | .authorizationRejected => .wrongScope
      | .replayAdmissionRejected => .capabilityReplay
      | .segmentTooLarge => .capabilityTooLarge
      | .other => .invalidCapability
  ⟨code, error.field⟩

/-! ## §2. The admission guard. -/

structure SubscribeAdmissionFingerprint where
  endpointId : String
  mediaClass : MediaClass
  bindingGeneration : Nat
  connectionId : String
  deriving Repr, DecidableEq

inductive AdmissionState where
  | pending (reservationId : Nat)
  | committed
  deriving Repr, DecidableEq

structure StoredAdmission where
  fingerprint : SubscribeAdmissionFingerprint
  expiresAt : Int
  state : AdmissionState
  deriving Repr, DecidableEq

/-- What the verifier reports to the guard. -/
structure ReplayAdmissionV1 where
  capabilityId : String
  expiresAt : Int
  deriving Repr, DecidableEq

inductive ReplayAdmissionRejection where
  | capacity
  | replay
  deriving Repr, DecidableEq

structure SubscribeAdmissionGuard where
  fingerprint : SubscribeAdmissionFingerprint
  now : Int
  reservationId : Nat
  pendingCapabilityId : Option String
  deriving Repr, DecidableEq

abbrev Admissions := Table String StoredAdmission

namespace SubscribeAdmissionGuard

/-- `commit`: only a reservation of this guard is committed. -/
def commit (guard : SubscribeAdmissionGuard) (admissions : Admissions) : Admissions :=
  match guard.pendingCapabilityId with
  | none => admissions
  | some capabilityId =>
      match admissions.lookup capabilityId with
      | none => admissions
      | some stored =>
          if stored.state = .pending guard.reservationId then
            admissions.replace capabilityId { stored with state := .committed }
          else admissions

/-- `rollback`, which also runs when an uncommitted guard is dropped. -/
def rollback (guard : SubscribeAdmissionGuard) (admissions : Admissions) : Admissions :=
  match guard.pendingCapabilityId with
  | none => admissions
  | some capabilityId =>
      match admissions.lookup capabilityId with
      | none => admissions
      | some stored =>
          if stored.state = .pending guard.reservationId then admissions.erase capabilityId
          else admissions

def checkAndAdmit (guard : SubscribeAdmissionGuard) (admissions : Admissions)
    (admission : ReplayAdmissionV1) :
    Except ReplayAdmissionRejection Unit × SubscribeAdmissionGuard × Admissions :=
  -- the expired ones go first, whatever the answer; capacity is asked only of new ids
  let live := admissions.retain fun _ previous => decide (guard.now < previous.expiresAt)
  if admission.capabilityId ∉ live ∧ maxActiveSubscriptions ≤ live.size then
    (.error .capacity, guard, live)
  else match live.lookup admission.capabilityId with
    | none =>
        (.ok (), { guard with pendingCapabilityId := some admission.capabilityId },
          live.insert admission.capabilityId
            ⟨guard.fingerprint, admission.expiresAt, .pending guard.reservationId⟩)
    | some stored =>
        -- the same connection may renew what it committed; `guard` reserves nothing then
        if stored.fingerprint = guard.fingerprint ∧ stored.state = .committed then
          (.ok (), guard,
            live.replace admission.capabilityId { stored with expiresAt := admission.expiresAt })
        else if stored.fingerprint = guard.fingerprint
            ∧ stored.state = .pending guard.reservationId then
          (.ok (), guard, live)
        else (.error .replay, guard, live)

end SubscribeAdmissionGuard

/-! ## §3. The gate. -/

structure EdgeSubscribeMetrics where
  admitted : Nat
  rejected : Nat
  rejectionReasons : EdgeSubscribeErrorCode → Nat

/-- `fetch_add(1)`, which wraps. -/
def fetchAdd (n : Nat) : Nat := (n + 1) % (u64Max + 1)

structure EdgeSubscribeGate (C : MediaCrates) where
  registry : CurrentSubscribeRegistry C
  admissions : Admissions
  nextReservationId : Nat
  metrics : EdgeSubscribeMetrics

/-- A call of `authorize` that has resolved its binding. -/
structure AuthorizeCall (C : MediaCrates) where
  request : EdgeSubscribeRequest C
  registered : RegisteredSubscribeBinding C
  context : CurrentMediaAuthorizationContextV1 C
  guard : SubscribeAdmissionGuard

/-- `exact_selector`: talkback asks for one audience, every other class for one
source. -/
def EdgeSubscribeRequest.exactSelector (request : EdgeSubscribeRequest C) : Bool :=
  match request.mediaClass with
  | .talkback => request.requestedSourceId.isNone && request.requestedAudienceId.isSome
  | .program | .source | .screen | .metadata =>
      request.requestedSourceId.isSome && request.requestedAudienceId.isNone
  | .takeChunk => false

def isAsciiGraphic (c : Char) : Bool := decide (33 ≤ c.toNat) && decide (c.toNat ≤ 126)

/-- `MAX_CONNECTION_ID_BYTES`. -/
def maxConnectionIdBytes : Nat := 128

/-- The checks of `authorize_strict` before the resolve. -/
def EdgeSubscribeRequest.check (request : EdgeSubscribeRequest C) : EdgeResult Unit :=
  if request.compactJws.isEmpty ∨ C.maxCompactJwsBytes < request.compactJws.utf8ByteSize then
    .error ⟨.capabilityTooLarge, "authorization"⟩
  else if request.connectionId.isEmpty
      ∨ maxConnectionIdBytes < request.connectionId.utf8ByteSize
      ∨ ¬request.connectionId.toList.all isAsciiGraphic then
    .error ⟨.invalidConfiguration, "connection_id"⟩
  else if ¬request.exactSelector then .error ⟨.invalidConfiguration, "requested_scope"⟩
  else .ok ()

namespace EdgeSubscribeGate

def new (registry : CurrentSubscribeRegistry C) : EdgeSubscribeGate C where
  registry := registry
  admissions := ∅
  nextReservationId := 1
  metrics := ⟨0, 0, fun _ => 0⟩

def recordRejection (gate : EdgeSubscribeGate C) (error : EdgeSubscribeError) :
    EdgeSubscribeGate C :=
  { gate with
    metrics := { gate.metrics with
      rejected := fetchAdd gate.metrics.rejected
      rejectionReasons := fun code =>
        if code = error.code then fetchAdd (gate.metrics.rejectionReasons code)
        else gate.metrics.rejectionReasons code } }

/-- `authorize` up to the call of the verifier. -/
def beginAuthorize (gate : EdgeSubscribeGate C) (request : EdgeSubscribeRequest C) :
    EdgeResult (AuthorizeCall C) × EdgeSubscribeGate C :=
  match request.check with
  | .error error => (.error error, gate.recordRejection error)
  | .ok _ =>
      match gate.registry.resolve request.endpointId request.mediaClass
          request.bindingGeneration with
      | .error error => (.error error, gate.recordRejection error)
      | .ok registered =>
          (.ok {
              request := request
              registered := registered
              context := {
                binding := registered.binding
                sourceId := request.requestedSourceId
                audienceId := request.requestedAudienceId
                now := request.nowUnixSeconds }
              guard := {
                fingerprint := {
                  endpointId := C.endpointStr request.endpointId
                  mediaClass := request.mediaClass
                  bindingGeneration := request.bindingGeneration
                  connectionId := request.connectionId }
                now := request.nowUnixSeconds
                reservationId := gate.nextReservationId
                pendingCapabilityId := none } },
            { gate with nextReservationId := fetchAdd gate.nextReservationId })

/-- The checks of `authorize_strict` after the verifier answered. -/
def checkVerified (request : EdgeSubscribeRequest C)
    (result : Except CapabilityVerifierError (VerifiedSubscribeCapability C)) :
    EdgeResult (VerifiedSubscribeCapability C) :=
  match result with
  | .error error => .error (mapVerifierError error)
  | .ok verified =>
      if verified.expiresAt ≤ request.nowUnixSeconds then
        .error ⟨.capabilityExpired, "expires_at"⟩
      else match verified.clientKeyThumbprint, request.authenticatedClientKeyThumbprint with
        | some _, none => .error ⟨.proofRequired, "client_key_thumbprint"⟩
        | some expected, some actual =>
            if expected ≠ actual then .error ⟨.proofMismatch, "client_key_thumbprint"⟩
            else .ok verified
        | none, _ => .ok verified

/-- The lease a call grants for a verified capability. -/
def leaseFor (call : AuthorizeCall C) (verified : VerifiedSubscribeCapability C) :
    SubscriptionLease C where
  binding := call.registered.binding
  bindingRevision := call.registered.revision
  capabilityId := verified.capabilityId
  connectionId := call.request.connectionId
  sourceIds := verified.sourceIds
  audienceIds := verified.audienceIds
  maxChannels := verified.maxChannels
  maxBitrate := verified.maxBitrate
  maxDatagramBytes := verified.maxDatagramBytes
  expiresAt := verified.expiresAt

/-- `authorize` from the answer of the verifier on. -/
def finishAuthorize (gate : EdgeSubscribeGate C) (call : AuthorizeCall C)
    (result : Except CapabilityVerifierError (VerifiedSubscribeCapability C)) :
    EdgeResult (SubscriptionLease C) × EdgeSubscribeGate C :=
  match checkVerified call.request result with
  | .error error =>
      -- the uncommitted guard is dropped on the way out
      (.error error,
        { gate with admissions := call.guard.rollback gate.admissions }.recordRejection error)
  | .ok verified =>
      (.ok (leaseFor call verified),
        { gate with
          admissions := call.guard.commit gate.admissions
          metrics := { gate.metrics with admitted := fetchAdd gate.metrics.admitted } })

def revalidate (gate : EdgeSubscribeGate C) (lease : SubscriptionLease C)
    (nowUnixSeconds : Int) : EdgeResult Unit × EdgeSubscribeGate C :=
  if lease.expiresAt ≤ nowUnixSeconds then
    (.error ⟨.capabilityExpired, "expires_at"⟩,
      gate.recordRejection ⟨.capabilityExpired, "expires_at"⟩)
  else match gate.registry.revalidate lease with
    | .error error => (.error error, gate.recordRejection error)
    | .ok _ => (.ok (), gate)

end EdgeSubscribeGate

/-! ## §4. The gate and its callers as a step system. -/

/-- A gate with the calls of `authorize` that are waiting for the verifier. -/
structure EdgeState (C : MediaCrates) where
  gate : EdgeSubscribeGate C
  calls : Table Nat (AuthorizeCall C)

namespace EdgeState

inductive Op (C : MediaCrates) where
  | registry (op : CurrentSubscribeRegistry.Op C)
  | beginAuthorize (call : Nat) (request : EdgeSubscribeRequest C)
  | checkAndAdmit (call : Nat) (admission : ReplayAdmissionV1)
  | finishAuthorize (call : Nat)
      (result : Except CapabilityVerifierError (VerifiedSubscribeCapability C))
  | revalidate (lease : SubscriptionLease C) (nowUnixSeconds : Int)

inductive Reply (C : MediaCrates) where
  | registry (reply : CurrentSubscribeRegistry.Reply)
  | begun (result : EdgeResult Unit)
  | admission (result : Except ReplayAdmissionRejection Unit)
  | finished (result : EdgeResult (SubscriptionLease C))
  | revalidated (result : EdgeResult Unit)
  /-- The operation names a call that is, or is not, in flight. -/
  | ignored

def new (registry : CurrentSubscribeRegistry C) : EdgeState C := ⟨.new registry, ∅⟩

def step (e : EdgeState C) : Op C → Reply C × EdgeState C
  | .registry op =>
      let stepped := e.gate.registry.step op
      (.registry stepped.1, { e with gate := { e.gate with registry := stepped.2 } })
  | .beginAuthorize call request =>
      if call ∈ e.calls then (.ignored, e)
      else
        let begun := e.gate.beginAuthorize request
        match begun.1 with
        | .error error => (.begun (.error error), { e with gate := begun.2 })
        | .ok entry => (.begun (.ok ()), ⟨begun.2, e.calls.insert call entry⟩)
  | .checkAndAdmit call admission =>
      -- called by the verifier while it holds the guard of the call
      match e.calls.lookup call with
      | none => (.ignored, e)
      | some entry =>
          let checked := entry.guard.checkAndAdmit e.gate.admissions admission
          (.admission checked.1,
            { gate := { e.gate with admissions := checked.2.2 }
              calls := e.calls.replace call { entry with guard := checked.2.1 } })
  | .finishAuthorize call result =>
      match e.calls.lookup call with
      | none => (.ignored, e)
      | some entry =>
          let finished := e.gate.finishAuthorize entry result
          (.finished finished.1, ⟨finished.2, e.calls.erase call⟩)
  | .revalidate lease nowUnixSeconds =>
      let revalidated := e.gate.revalidate lease nowUnixSeconds
      (.revalidated revalidated.1, { e with gate := revalidated.2 })

/-- The lease an operation grants. -/
def grantedLease (e : EdgeState C) (op : Op C) : Option (SubscriptionLease C) :=
  match (step e op).1 with
  | .finished (.ok lease) => some lease
  | _ => none

/-- The operations of a run that go to the registry. -/
def registryOps (ops : List (Op C)) : List (CurrentSubscribeRegistry.Op C) :=
  ops.filterMap fun op =>
    match op with
    | .registry op => some op
    | _ => none

end EdgeState

/-! ## §5. A concrete request. -/

def sampleRequest : EdgeSubscribeRequest sampleMedia where
  compactJws := "header.claims.signature"
  endpointId := "endpoint-1"
  mediaClass := .source
  bindingGeneration := 1
  requestedSourceId := some "source-1"
  requestedAudienceId := none
  connectionId := "connection-1"
  authenticatedClientKeyThumbprint := none
  nowUnixSeconds := 1000

def sampleCapability : VerifiedSubscribeCapability sampleMedia where
  capabilityId := "capability-1"
  sourceIds := ["source-1"]
  audienceIds := []
  maxChannels := 2
  maxBitrate := 256000
  maxDatagramBytes := 1200
  clientKeyThumbprint := none
  expiresAt := 2000

end AvMesh.Subscribe
