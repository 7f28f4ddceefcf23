/-
  AvMesh.Relay.Receiver
  ─────────────────────
  **THE BOUNDED CROSS-PARENT OBJECT RECEIVER** (`RelayObjectReceiver`).

  The receiver owns five tables (sessions, active objects, logical keys,
  completed objects and their eviction order) and two running totals.  Each
  operation is a function of the receiver that returns its result together
  with the receiver it leaves behind — ALSO when the result is an error, since
  an early return of the source keeps the mutations made before it.

  `try_announce_object` and `try_push_wire_datagram` are cut into the named
  pieces below, in the order of the source:

      announceScanned → checkAnnouncement → rejoinCompleted | joinActive | startObject
      pushScanned     → checkSymbol → pushChecked → pushCompleted | pushActive
      pushActive      → admitSymbol → recordSymbol → finishObject

  `step` drives the receiver through its five public operations.
-/
import AvMesh.Relay.Types
import AvMesh.Lib.StepSystem

namespace AvMesh.Relay

open AvMesh.Lib

variable {C : RelayCrates}

/-! ## §1. The state. -/

structure SymbolFingerprint where
  datagramHash : Bytes
  role : MediaDatagramRole
  deriving Repr, DecidableEq

/-- A `HashSet<u64>` of session ids. -/
abbrev ParentSet := { ids : List Nat // ids.Nodup }

/-- `HashSet::insert`. -/
def ParentSet.insert (parents : ParentSet) (id : Nat) : ParentSet :=
  ⟨parents.val.insert id, parents.property.insert⟩

structure ActiveObject (C : RelayCrates) where
  announcement : C.Announcement
  assembler : C.ObjectAssembler
  parentSessions : ParentSet
  symbols : Table Nat SymbolFingerprint
  sourceSymbols : Nat
  repairSymbols : Nat
  reservedBytes : Nat
  lastActivityUs : Nat

structure CompletedObject (C : RelayCrates) where
  announcement : C.Announcement
  parentSessions : ParentSet

structure RelayObjectReceiver (C : RelayCrates) where
  config : RelayObjectReceiverConfig C
  sessions : Table Nat AuthenticatedRelayParentSession
  objects : Table ObjectKey (ActiveObject C)
  logicalKeys : Table LogicalObjectIdentity ObjectKey
  completed : Table ObjectKey (CompletedObject C)
  completedOrder : List ObjectKey
  bufferedObjectBytes : Nat
  bufferedDatagrams : Nat
  counters : RelayIngressCounters
  nextExpiryScanUs : Option Nat

namespace RelayObjectReceiver

/-- The receiver before any operation. -/
def initial (config : RelayObjectReceiverConfig C) : RelayObjectReceiver C where
  config := config
  sessions := ∅
  objects := ∅
  logicalKeys := ∅
  completed := ∅
  completedOrder := []
  bufferedObjectBytes := 0
  bufferedDatagrams := 0
  counters := {}
  nextExpiryScanUs := none

/-- `RelayObjectReceiver::new`. -/
def new (config : RelayObjectReceiverConfig C) :
    Except RelayIngressError (RelayObjectReceiver C) := do
  config.validate
  return initial config

/-! ## §2. Sessions. -/

def registerParentSessionInner (r : RelayObjectReceiver C)
    (session : AuthenticatedRelayParentSession) : RelayResult Unit × RelayObjectReceiver C :=
  match r.sessions.lookup session.sessionId with
  | some existing =>
      -- replaying an identical registration is idempotent
      if existing = session then (.ok (), r)
      else (.error (.err (.parentSessionConflict session.sessionId)), r)
  | none =>
      if r.config.maxParentSessions ≤ r.sessions.size then
        (.error (.err (.limitExceeded "parent_sessions" (satAdd r.sessions.size 1)
          r.config.maxParentSessions)), r)
      else
        (.ok (), { r with sessions := r.sessions.insert session.sessionId session })

/-- `self.session(session_id)`. -/
def session (r : RelayObjectReceiver C) (sessionId : Nat) :
    RelayResult AuthenticatedRelayParentSession :=
  match r.sessions.lookup sessionId with
  | some session => .ok session
  | none => .error (.err (.parentSessionMissing sessionId))

/-! ## §3. Removing and completing objects. -/

def removeActiveObject (r : RelayObjectReceiver C) (key : ObjectKey) (removeLogicalKey : Bool) :
    Option (ActiveObject C) × RelayObjectReceiver C :=
  match r.objects.lookup key with
  | none => (none, r)
  | some state =>
      (some state,
        { r with
          objects := r.objects.erase key
          -- `saturating_sub`, twice
          bufferedObjectBytes := r.bufferedObjectBytes - state.reservedBytes
          bufferedDatagrams := r.bufferedDatagrams - state.symbols.size
          -- a decoded object keeps its logical key, for its tombstone
          logicalKeys :=
            if removeLogicalKey then r.logicalKeys.erase (LogicalObjectIdentity.from key)
            else r.logicalKeys })

/-- The eviction loop of `insert_completed`: the order, tombstones and logical
keys left once fewer than `maxCompleted` tombstones remain or the order runs
out. -/
def evictCompleted (maxCompleted : Nat) :
    List ObjectKey → Table ObjectKey (CompletedObject C) →
      Table LogicalObjectIdentity ObjectKey →
      List ObjectKey × Table ObjectKey (CompletedObject C) × Table LogicalObjectIdentity ObjectKey
  | [], completed, logical => ([], completed, logical)
  | evicted :: order, completed, logical =>
      if maxCompleted ≤ completed.size then
        if evicted ∈ completed then
          evictCompleted maxCompleted order (completed.erase evicted)
            (logical.erase (LogicalObjectIdentity.from evicted))
        -- popped from the order without a tombstone: the loop goes on
        else evictCompleted maxCompleted order completed logical
      else (evicted :: order, completed, logical)

def insertCompleted (r : RelayObjectReceiver C) (key : ObjectKey) (done : CompletedObject C) :
    RelayObjectReceiver C :=
  let left := evictCompleted r.config.maxCompletedObjects r.completedOrder r.completed r.logicalKeys
  { r with
    completedOrder := left.1 ++ [key]
    completed := left.2.1.insert key done
    logicalKeys := left.2.2 }

/-! ## §4. Expiry. -/

/-- The objects an expiry scan at `nowUs` removes. -/
def isExpired (r : RelayObjectReceiver C) (nowUs : Nat) (state : ActiveObject C) : Bool :=
  C.isExpiredAt state.announcement.deadline nowUs
    || decide (r.config.objectInactivityTimeoutUs ≤ nowUs - state.lastActivityUs)

def expiredKeys (r : RelayObjectReceiver C) (nowUs : Nat) : List ObjectKey :=
  (r.objects.entries.filter fun e => r.isExpired nowUs e.2).map Sigma.fst

/-- The removal loop of `expire`. -/
def removeExpired : List ObjectKey → RelayObjectExpiry → RelayObjectReceiver C →
    RelayObjectExpiry × RelayObjectReceiver C
  | [], result, r => (result, r)
  | key :: keys, result, r =>
      match r.removeActiveObject key true with
      | (some state, r) =>
          removeExpired keys
            { objects := satAdd result.objects 1
              releasedObjectBytes := satAdd result.releasedObjectBytes state.reservedBytes
              releasedDatagrams := satAdd result.releasedDatagrams state.symbols.size } r
      | (none, r) => removeExpired keys result r

def expire (r : RelayObjectReceiver C) (nowUs : Nat) :
    RelayObjectExpiry × RelayObjectReceiver C :=
  let scanned := removeExpired (r.expiredKeys nowUs) {} r
  (scanned.1,
    { scanned.2 with
      counters := { scanned.2.counters with
        expiredObjects := satAdd scanned.2.counters.expiredObjects scanned.1.objects }
      nextExpiryScanUs := some (satAdd nowUs scanned.2.config.expiryScanIntervalUs) })

def expiryDue (r : RelayObjectReceiver C) (nowUs : Nat) : Bool :=
  match r.nextExpiryScanUs with
  | some nextScan => decide (nextScan ≤ nowUs)
  | none => true -- no scan so far

def expireIfDue (r : RelayObjectReceiver C) (nowUs : Nat) : RelayObjectReceiver C :=
  if r.expiryDue nowUs then (r.expire nowUs).2 else r

/-! ## §5. Rejections. -/

def recordRejection (r : RelayObjectReceiver C) (error : RelayIngressError) (datagram : Bool) :
    RelayObjectReceiver C :=
  let counters :=
    if datagram then
      { r.counters with datagramsRejected := satAdd r.counters.datagramsRejected 1 }
    else r.counters
  { r with
    counters := match error with
      | .authenticationRequired | .parentSessionMissing _ | .unauthorizedParent =>
          { counters with authenticationDrops := satAdd counters.authenticationDrops 1 }
      | .deadlineExpired =>
          { counters with deadlineDrops := satAdd counters.deadlineDrops 1 }
      | .announcementConflict | .objectIdentityConflict | .symbolReplayConflict
      | .relaySession .codingProfileConflict | .relaySession .objectIdentityConflict =>
          { counters with conflictDrops := satAdd counters.conflictDrops 1 }
      | _ => counters }

/-- Record an `Err` result.  A panic unwinds past the recording. -/
def recordIfRejected {α : Type} (result : RelayResult α × RelayObjectReceiver C)
    (datagram : Bool) : RelayResult α × RelayObjectReceiver C :=
  match result.1 with
  | .error (.err error) => (result.1, result.2.recordRejection error datagram)
  | _ => result

end RelayObjectReceiver

/-! ## §6. Parent authorization. -/

/-- `if condition { return Err(error) }`. -/
def rejectIf (condition : Prop) [Decidable condition] (error : RelayIngressError) :
    RelayResult Unit :=
  if condition then .error (.err error) else .ok ()

/-- The loop of `add_parent_to_set` over the present parents. -/
def checkParents (sessions : Table Nat AuthenticatedRelayParentSession)
    (candidate : AuthenticatedRelayParentSession) : List Nat → RelayResult Unit
  | [] => .ok ()
  | existingId :: rest =>
      match sessions.lookup existingId with
      | none => .error (.panic "object parent sessions remain registered")
      | some existing =>
          -- two parents on one node are admitted only as a qualification pair
          if existing.identity.peer = candidate.identity.peer
              ∧ ¬(existing.controlledQualification ∧ candidate.controlledQualification) then
            .error (.err (.parentSessionConflict candidate.sessionId))
          else if existing.parentPath = candidate.parentPath then
            .error (.err .parentRoleConflict)
          else checkParents sessions candidate rest

def addParentToSet (sessions : Table Nat AuthenticatedRelayParentSession)
    (parentSessions : ParentSet) (candidate : AuthenticatedRelayParentSession)
    (maxParents : Nat) : RelayResult ParentSet :=
  if candidate.sessionId ∈ parentSessions.val then .ok parentSessions
  else if maxParents ≤ parentSessions.val.length then .error (.err .parentLimitExceeded)
  else do
    checkParents sessions candidate parentSessions.val
    return parentSessions.insert candidate.sessionId

def validateSessionAnnouncement (session : AuthenticatedRelayParentSession)
    (announcement : C.Announcement) : RelayResult Unit :=
  rejectIf (announcement.generation ≠ session.generation
      ∨ announcement.subscriptionId ≠ session.subscriptionId)
    .unauthorizedParent

def validateSessionSymbol (session : AuthenticatedRelayParentSession) (symbol : C.Symbol) :
    RelayResult Unit :=
  rejectIf (symbol.generation ≠ session.generation
      ∨ symbol.subscriptionId ≠ session.subscriptionId
      ∨ C.permits session.parentPath symbol.pathIntent = false)
    .unauthorizedParent

def validateCompletedSymbol (done : CompletedObject C)
    (session : AuthenticatedRelayParentSession) (symbol : C.Symbol) : RelayResult Unit :=
  rejectIf (session.sessionId ∉ done.parentSessions.val
      ∨ symbol.generation ≠ done.announcement.generation
      ∨ symbol.subscriptionId ≠ done.announcement.subscriptionId
      ∨ symbol.objectKind ≠ done.announcement.kind
      ∨ symbol.deadline ≠ done.announcement.deadline
      ∨ symbol.coding ≠ done.announcement.coding
      ∨ C.permits session.parentPath symbol.pathIntent = false)
    .unauthorizedParent

/-- The `compatible` table of `validate_object_kind`. -/
def kindCompatible (object : MediaObject) (announced : MediaObjectKind) : Bool :=
  match object.kind with
  | .initialization => announced == .initialization
  | .codecConfiguration => announced == .codecConfig
  | .discontinuity => announced == .data
  | .media =>
      if object.isKeyframe then announced == .videoKeyframe
      else announced == .audio || announced == .videoDelta || announced == .data
        || announced == .videoKeyframe

def validateObjectKind (object : MediaObject) (announced : MediaObjectKind) : RelayResult Unit :=
  rejectIf (kindCompatible object announced = false) .objectIdentityConflict

namespace RelayObjectReceiver

/-- Another key already holds the logical identity of `key`. -/
def logicalConflict (r : RelayObjectReceiver C) (key : ObjectKey) : Bool :=
  match r.logicalKeys.lookup (LogicalObjectIdentity.from key) with
  | some existing => existing != key
  | none => false

/-! ## §7. Announcements. -/

/-- The checks of `try_announce_object` before any table is consulted for the
object itself. -/
def checkAnnouncement (r : RelayObjectReceiver C) (sessionId : Nat)
    (announcement : C.Announcement) : RelayResult AuthenticatedRelayParentSession := do
  let session ← r.session sessionId
  validateSessionAnnouncement session announcement
  (C.validateCoding announcement.coding r.config.relayLimits).mapError
    fun e => .err (.relaySession e)
  rejectIf (announcement.initialRepairSymbols > C.maxExtraRepairSymbols r.config.relayLimits)
    (.limitExceeded "initial_repair_symbols" announcement.initialRepairSymbols
      (C.maxExtraRepairSymbols r.config.relayLimits))
  rejectIf (r.logicalConflict announcement.key) .objectIdentityConflict
  return session

/-- An announcement of an object that is already complete. -/
def rejoinCompleted (r : RelayObjectReceiver C) (session : AuthenticatedRelayParentSession)
    (announcement : C.Announcement) (done : CompletedObject C) :
    RelayResult RelayAnnouncementOutcome × RelayObjectReceiver C :=
  if done.announcement ≠ announcement then (.error (.err .announcementConflict), r)
  else match addParentToSet r.sessions done.parentSessions session r.config.maxParentsPerObject with
    | .error stop => (.error stop, r)
    | .ok parents =>
        (.ok .alreadyComplete,
          { r with
            completed :=
              r.completed.replace announcement.key { done with parentSessions := parents } })

/-- An announcement of an object that is being assembled. -/
def joinActive (r : RelayObjectReceiver C) (session : AuthenticatedRelayParentSession)
    (announcement : C.Announcement) (active : ActiveObject C) (nowUs : Nat) :
    RelayResult RelayAnnouncementOutcome × RelayObjectReceiver C :=
  if active.announcement ≠ announcement then (.error (.err .announcementConflict), r)
  else match
      addParentToSet r.sessions active.parentSessions session r.config.maxParentsPerObject with
    | .error stop => (.error stop, r)
    | .ok parents =>
        (.ok .joined,
          { r with
            objects := r.objects.replace announcement.key
              { active with parentSessions := parents, lastActivityUs := nowUs } })

/-- An announcement of an object unknown so far. -/
def startObject (r : RelayObjectReceiver C) (sessionId : Nat) (announcement : C.Announcement)
    (nowUs : Nat) : RelayResult RelayAnnouncementOutcome × RelayObjectReceiver C :=
  if r.config.maxActiveObjects ≤ r.objects.size then
    (.error (.err (.limitExceeded "active_objects" (satAdd r.objects.size 1)
      r.config.maxActiveObjects)), r)
  else match checkedAdd r.bufferedObjectBytes (C.transferLength announcement.coding) with
    | none =>
        (.error (.err (.limitExceeded "buffered_object_bytes" u64Max
          r.config.maxBufferedObjectBytes)), r)
    | some requested =>
        if requested > r.config.maxBufferedObjectBytes then
          (.error (.err (.limitExceeded "buffered_object_bytes" requested
            r.config.maxBufferedObjectBytes)), r)
        else match C.newAssembler announcement r.config.relayLimits with
          | .error e => (.error (.err (.relaySession e)), r)
          | .ok assembler =>
              (.ok .started,
                { r with
                  logicalKeys :=
                    r.logicalKeys.insert (LogicalObjectIdentity.from announcement.key)
                      announcement.key
                  objects := r.objects.insert announcement.key
                    { announcement := announcement
                      assembler := assembler
                      parentSessions := ⟨[sessionId], List.nodup_singleton sessionId⟩
                      symbols := ∅
                      sourceSymbols := 0
                      repairSymbols := 0
                      reservedBytes := C.transferLength announcement.coding
                      lastActivityUs := nowUs }
                  bufferedObjectBytes := requested })

/-- `try_announce_object` after its expiry scan. -/
def announceScanned (r : RelayObjectReceiver C) (sessionId : Nat)
    (announcement : C.Announcement) (nowUs : Nat) :
    RelayResult RelayAnnouncementOutcome × RelayObjectReceiver C :=
  match r.checkAnnouncement sessionId announcement with
  | .error stop => (.error stop, r)
  | .ok session =>
      -- the tombstone comes before the deadline: a completed object is answered
      -- even when its deadline has passed
      match r.completed.lookup announcement.key with
      | some done => r.rejoinCompleted session announcement done
      | none =>
          if C.isExpiredAt announcement.deadline nowUs then
            (.error (.err .deadlineExpired), r)
          else match r.objects.lookup announcement.key with
            | some active => r.joinActive session announcement active nowUs
            | none => r.startObject sessionId announcement nowUs

def tryAnnounceObject (r : RelayObjectReceiver C) (sessionId : Nat)
    (announcement : C.Announcement) (nowUs : Nat) :
    RelayResult RelayAnnouncementOutcome × RelayObjectReceiver C :=
  (r.expireIfDue nowUs).announceScanned sessionId announcement nowUs

def announceObject (r : RelayObjectReceiver C) (sessionId : Nat)
    (announcement : C.Announcement) (nowUs : Nat) :
    RelayResult RelayAnnouncementOutcome × RelayObjectReceiver C :=
  recordIfRejected (r.tryAnnounceObject sessionId announcement nowUs) false

/-! ## §8. Datagrams. -/

/-- Count one datagram by its role. -/
def countRole (counters : RelayIngressCounters) : MediaDatagramRole → RelayIngressCounters
  | .source => { counters with sourceDatagrams := satAdd counters.sourceDatagrams 1 }
  | .repair => { counters with repairDatagrams := satAdd counters.repairDatagrams 1 }

/-- Answer `Duplicate` and count it. -/
def answerDuplicate (r : RelayObjectReceiver C) (symbol : C.Symbol) :
    RelayResult RelayIngressOutcome × RelayObjectReceiver C :=
  (.ok (.duplicate symbol.objectKey symbol.role symbol.deadline),
    { r with
      counters := countRole
        { r.counters with duplicateDatagrams := satAdd r.counters.duplicateDatagrams 1 }
        symbol.role })

/-- The checks on a decoded symbol that do not depend on its object. -/
def checkSymbol (r : RelayObjectReceiver C) (session : AuthenticatedRelayParentSession)
    (symbol : C.Symbol) : RelayResult Unit := do
  validateSessionSymbol session symbol
  rejectIf (r.logicalConflict symbol.objectKey) .objectIdentityConflict

/-- A symbol of a completed object. -/
def pushCompleted (r : RelayObjectReceiver C) (session : AuthenticatedRelayParentSession)
    (symbol : C.Symbol) (done : CompletedObject C) :
    RelayResult RelayIngressOutcome × RelayObjectReceiver C :=
  match validateCompletedSymbol done session symbol with
  | .error stop => (.error stop, r)
  | .ok _ => r.answerDuplicate symbol

/-- What the admission checks say of a symbol of an active object. -/
inductive Admission where
  | duplicate
  | accepted (packetSequence : Nat) (fingerprint : SymbolFingerprint)
  deriving DecidableEq

/-- How a symbol compares with the symbols its object already has. -/
def classifySymbol (r : RelayObjectReceiver C) (state : ActiveObject C) (packetSequence : Nat)
    (fingerprint : SymbolFingerprint) : RelayResult Admission :=
  match state.symbols.lookup packetSequence with
  | some existing =>
      if existing = fingerprint then .ok .duplicate
      else .error (.err .symbolReplayConflict)
  | none =>
      if r.config.maxDatagramsPerObject ≤ state.symbols.size then
        .error (.err .datagramLimitExceeded)
      else if r.config.maxBufferedDatagrams ≤ r.bufferedDatagrams then
        .error (.err .bufferedDatagramLimitExceeded)
      else .ok (.accepted packetSequence fingerprint)

/-- The checks on a symbol of an active object before the decoder is touched. -/
def admitSymbol (r : RelayObjectReceiver C) (sessionId : Nat)
    (session : AuthenticatedRelayParentSession) (symbol : C.Symbol) (state : ActiveObject C) :
    RelayResult Admission := do
  rejectIf (sessionId ∉ state.parentSessions.val
      ∨ C.permits session.parentPath symbol.pathIntent = false)
    .unauthorizedParent
  let packetSequence ← (C.decodePacketSequence symbol.fecDatagram).mapError
    fun e => .err (.relaySession e)
  r.classifySymbol state packetSequence ⟨C.digest symbol.fecDatagram, symbol.role⟩

/-- The active object after one more symbol was recorded. -/
def withSymbol (state : ActiveObject C) (assembler : C.ObjectAssembler) (packetSequence : Nat)
    (fingerprint : SymbolFingerprint) (role : MediaDatagramRole) (nowUs : Nat) :
    ActiveObject C :=
  { state with
    assembler := assembler
    symbols := state.symbols.insert packetSequence fingerprint
    sourceSymbols :=
      match role with
      | .source => satAdd state.sourceSymbols 1
      | .repair => state.sourceSymbols
    repairSymbols :=
      match role with
      | .source => state.repairSymbols
      | .repair => satAdd state.repairSymbols 1
    lastActivityUs := nowUs }

/-- Record an admitted symbol in the tables and counters. -/
def recordSymbol (r : RelayObjectReceiver C) (symbol : C.Symbol) (state : ActiveObject C) :
    RelayObjectReceiver C :=
  { r with
    objects := r.objects.replace symbol.objectKey state
    counters := countRole r.counters symbol.role
    bufferedDatagrams := satAdd r.bufferedDatagrams 1 }

/-- The counters after an object decoded out of `active`. -/
def countDecoded (counters : RelayIngressCounters) (active : ActiveObject C) :
    RelayIngressCounters :=
  let missing := C.sourceSymbols active.announcement.coding - active.sourceSymbols
  { counters with
    decodedObjects := satAdd counters.decodedObjects 1
    repairAssistedObjects :=
      if 0 < active.repairSymbols then satAdd counters.repairAssistedObjects 1
      else counters.repairAssistedObjects
    fecRecoveredObjects :=
      if 0 < missing then satAdd counters.fecRecoveredObjects 1
      else counters.fecRecoveredObjects
    fecRecoveredSourceSymbols :=
      if 0 < missing then satAdd counters.fecRecoveredSourceSymbols missing
      else counters.fecRecoveredSourceSymbols }

/-- `take_completed_envelope` on the assembler of the object at `key`. -/
def takeEnvelope (r : RelayObjectReceiver C) (key : ObjectKey) (state : ActiveObject C) :
    Option Bytes × RelayObjectReceiver C :=
  ((C.takeCompletedEnvelope state.assembler).1,
    { r with
      objects := r.objects.replace key
        { state with assembler := (C.takeCompletedEnvelope state.assembler).2 } })

/-- The end of a push whose symbol completed `object`: `r` already holds the
recorded symbol in `state`. -/
def finishObject (r : RelayObjectReceiver C) (symbol : C.Symbol) (state : ActiveObject C)
    (object : MediaObject) : RelayResult RelayIngressOutcome × RelayObjectReceiver C :=
  match validateObjectKind object state.announcement.kind with
  -- the early return leaves the recorded symbol behind
  | .error stop => (.error stop, r)
  | .ok _ =>
      match r.takeEnvelope symbol.objectKey state with
      | (none, r) =>
          (.error (.panic "a completed object must retain its validated canonical envelope"), r)
      | (some envelope, r) =>
          -- by the key of the DECODED object, not the one of the symbol
          match r.removeActiveObject object.key false with
          | (none, r) => (.error (.panic "decoded object has active receive state"), r)
          | (some active, r) =>
              (.ok (.decoded object envelope symbol.role symbol.deadline
                  active.parentSessions.val.length active.symbols.size),
                { r with counters := countDecoded r.counters active }.insertCompleted object.key
                  { announcement := active.announcement
                    parentSessions := active.parentSessions })

/-- A symbol of an active object. -/
def pushActive (r : RelayObjectReceiver C) (sessionId : Nat)
    (session : AuthenticatedRelayParentSession) (symbol : C.Symbol) (state : ActiveObject C)
    (nowUs : Nat) : RelayResult RelayIngressOutcome × RelayObjectReceiver C :=
  match r.admitSymbol sessionId session symbol state with
  | .error stop => (.error stop, r)
  | .ok .duplicate => r.answerDuplicate symbol
  | .ok (.accepted packetSequence fingerprint) =>
      match C.pushSymbol state.assembler symbol with
      -- the `?` returns before the symbol is recorded, but `push_symbol` has run
      | (.error e, assembler) =>
          (.error (.err (.relaySession e)),
            { r with
              objects := r.objects.replace symbol.objectKey { state with assembler := assembler } })
      | (.ok none, assembler) =>
          (.ok (.buffered symbol.objectKey symbol.role symbol.deadline),
            r.recordSymbol symbol
              (withSymbol state assembler packetSequence fingerprint symbol.role nowUs))
      | (.ok (some object), assembler) =>
          (r.recordSymbol symbol
              (withSymbol state assembler packetSequence fingerprint symbol.role nowUs)).finishObject
            symbol (withSymbol state assembler packetSequence fingerprint symbol.role nowUs) object

/-- `try_push_wire_datagram` from the lookup of the object on. -/
def pushChecked (r : RelayObjectReceiver C) (sessionId : Nat)
    (session : AuthenticatedRelayParentSession) (symbol : C.Symbol) (nowUs : Nat) :
    RelayResult RelayIngressOutcome × RelayObjectReceiver C :=
  match r.completed.lookup symbol.objectKey with
  | some done => r.pushCompleted session symbol done
  | none =>
      -- a second scan, this one unconditional
      if C.isExpiredAt symbol.deadline nowUs then
        (.error (.err .deadlineExpired), (r.expire nowUs).2)
      else match r.objects.lookup symbol.objectKey with
        | none => (.error (.err .announcementRequired), r)
        | some state => r.pushActive sessionId session symbol state nowUs

/-- `try_push_wire_datagram` after its expiry scan. -/
def pushScanned (r : RelayObjectReceiver C) (sessionId : Nat)
    (session : AuthenticatedRelayParentSession) (symbol : C.Symbol) (nowUs : Nat) :
    RelayResult RelayIngressOutcome × RelayObjectReceiver C :=
  match r.checkSymbol session symbol with
  | .error stop => (.error stop, r)
  | .ok _ => r.pushChecked sessionId session symbol nowUs

def tryPushWireDatagram (r : RelayObjectReceiver C) (sessionId : Nat) (wire : Bytes)
    (nowUs : Nat) : RelayResult RelayIngressOutcome × RelayObjectReceiver C :=
  match r.session sessionId with
  | .error stop => (.error stop, r)
  | .ok session =>
      match C.decodeDatagram wire r.config.relayLimits with
      | .error e => (.error (.err (.relaySession e)), r)
      | .ok symbol =>
          -- unlike an announcement, a datagram refused above triggers no scan
          (r.expireIfDue nowUs).pushScanned sessionId session symbol nowUs

/-- Count one received datagram. -/
def countReceived (r : RelayObjectReceiver C) : RelayObjectReceiver C :=
  { r with
    counters :=
      { r.counters with datagramsReceived := satAdd r.counters.datagramsReceived 1 } }

def pushWireDatagram (r : RelayObjectReceiver C) (sessionId : Nat) (wire : Bytes)
    (nowUs : Nat) : RelayResult RelayIngressOutcome × RelayObjectReceiver C :=
  recordIfRejected (r.countReceived.tryPushWireDatagram sessionId wire nowUs) true

/-! ## §9. The receiver as a step system. -/

/-- The public operations of the receiver.  `register_parent_session` is only
ever given a session built by `AuthenticatedRelayParentSession::new`. -/
inductive Op (C : RelayCrates) where
  | registerParentSession (session : AuthenticatedRelayParentSession)
      (h : session.controlledQualification = false)
  | registerControlledParentSession (session : ControlledRelayParentSession)
  | announceObject (sessionId : Nat) (announcement : C.Announcement) (nowUs : Nat)
  | pushWireDatagram (sessionId : Nat) (wire : Bytes) (nowUs : Nat)
  | expire (nowUs : Nat)

inductive Reply where
  | registered (result : RelayResult Unit)
  | announced (result : RelayResult RelayAnnouncementOutcome)
  | pushed (result : RelayResult RelayIngressOutcome)
  | expired (expiry : RelayObjectExpiry)
  deriving DecidableEq

def step (r : RelayObjectReceiver C) : Op C → Reply × RelayObjectReceiver C
  | .registerParentSession session _ =>
      let result := r.registerParentSessionInner session
      (.registered result.1, result.2)
  | .registerControlledParentSession session =>
      let result := r.registerParentSessionInner session.session
      (.registered result.1, result.2)
  | .announceObject sessionId announcement nowUs =>
      let result := r.announceObject sessionId announcement nowUs
      (.announced result.1, result.2)
  | .pushWireDatagram sessionId wire nowUs =>
      let result := r.pushWireDatagram sessionId wire nowUs
      (.pushed result.1, result.2)
  | .expire nowUs =>
      let result := r.expire nowUs
      (.expired result.1, result.2)

end RelayObjectReceiver

/-! ## §10. A concrete instance of the crates.

    Enough of the crates below to run the receiver: an object is complete once
    `sourceSymbols` symbols of it have been pushed, and a datagram is the RLS1
    magic followed by the object number, the packet sequence, the announced
    kind, the role and the kind inside the payload. -/

structure SampleCoding where
  blockId : Nat
  sourceSymbols : Nat
  transferLength : Nat
  deriving Repr, DecidableEq

inductive SampleIntent where
  | source
  | repair
  deriving Repr, DecidableEq

structure SampleAssembler where
  announcement : ObjectAnnouncement SampleCoding
  received : List Bytes
  envelope : Option Bytes

def sampleKey (n : Nat) : ObjectKey :=
  ⟨"tenant", "77", "muxed-fmp4", 1, 3, n, 1, [UInt8.ofNat n]⟩

def sampleKind : UInt8 → MediaObjectKind
  | 0 => .initialization
  | _ => .videoKeyframe

/-- The object inside a payload whose last byte is its kind. -/
def sampleObject (key : ObjectKey) (payload : Bytes) : MediaObject :=
  match payload.getLast? with
  | some 0 => ⟨key, .initialization, false⟩
  | _ => ⟨key, .media, true⟩

def sampleCoding (n : Nat) : SampleCoding := ⟨n, 2, 100⟩

def sampleDecode : Bytes → Except RelaySessionError (RelayDatagram SampleCoding SampleIntent)
  | [82, 76, 83, 49, n, sequence, kind, role, payloadKind] =>
      .ok {
        generation := 4
        subscriptionId := 9
        objectKey := sampleKey n.toNat
        objectKind := sampleKind kind
        deadline := ⟨2000000⟩
        coding := sampleCoding n.toNat
        role := if role = 0 then .source else .repair
        pathIntent := if role = 0 then .source else .repair
        fecDatagram := [sequence, payloadKind] }
  | _ => .error (.other "malformed RLS1 datagram")

def samplePush (assembler : SampleAssembler) (symbol : RelayDatagram SampleCoding SampleIntent) :
    Except RelaySessionError (Option MediaObject) × SampleAssembler :=
  if symbol.coding ≠ assembler.announcement.coding then
    (.error .codingProfileConflict, assembler)
  else if assembler.announcement.coding.sourceSymbols ≤ assembler.received.length + 1 then
    (.ok (some (sampleObject assembler.announcement.key symbol.fecDatagram)),
      { assembler with
        received := symbol.fecDatagram :: assembler.received
        envelope := some symbol.fecDatagram })
  else
    (.ok none, { assembler with received := symbol.fecDatagram :: assembler.received })

def sampleCrates : RelayCrates where
  RelayLimits := Nat
  CodingProfile := SampleCoding
  PathIntent := SampleIntent
  ObjectAssembler := SampleAssembler
  decEqCodingProfile := inferInstance
  validateLimits := fun _ => .ok ()
  maxExtraRepairSymbols := fun limits => limits
  validateCoding := fun coding _ =>
    if coding.sourceSymbols = 0 then .error (.other "source_symbols") else .ok ()
  transferLength := SampleCoding.transferLength
  sourceSymbols := SampleCoding.sourceSymbols
  isExpiredAt := fun deadline nowUs => decide (deadline.expiresAtUs ≤ nowUs)
  permits := fun path intent =>
    match path, intent with
    | .secondary, .source => false
    | _, _ => true
  decodeDatagram := fun wire _ => sampleDecode wire
  decodePacketSequence := fun payload =>
    match payload with
    | sequence :: _ => .ok sequence.toNat
    | [] => .error (.other "empty")
  digest := fun payload => payload
  newAssembler := fun announcement _ => .ok ⟨announcement, [], none⟩
  pushSymbol := samplePush
  takeCompletedEnvelope := fun assembler =>
    (assembler.envelope, { assembler with envelope := none })

def sampleIdentity (peer : NodeId) : CarrierIdentity :=
  ⟨"edge-london", peer, .quicDatagram, .authenticatedSession⟩

/-- The primary parent, authenticated by its QUIC session. -/
def samplePrimary : AuthenticatedRelayParentSession :=
  ⟨1, sampleIdentity "primary-amsterdam", 4, 9, .primary, false, by decide, by decide, rfl⟩

theorem samplePrimary_uncontrolled : samplePrimary.controlledQualification = false := rfl

/-- The secondary parent. -/
def sampleSecondary : AuthenticatedRelayParentSession :=
  ⟨2, sampleIdentity "secondary-paris", 4, 9, .secondary, false, by decide, by decide, rfl⟩

def sampleAnnouncement (n : Nat) (kind : UInt8) : sampleCrates.Announcement where
  generation := 4
  subscriptionId := 9
  key := sampleKey n
  kind := sampleKind kind
  deadline := ⟨2000000⟩
  coding := sampleCoding n
  initialRepairSymbols := 0
  nextPacketSequence := 0

/-- A source datagram of object `n` whose payload kind agrees with the announced
one. -/
def sampleWire (n sequence : UInt8) : Bytes := [82, 76, 83, 49, n, sequence, 1, 0, 1]

def sampleConfig : RelayObjectReceiverConfig sampleCrates where
  relayLimits := (64 : Nat)
  maxCompletedObjects := 1

end AvMesh.Relay
