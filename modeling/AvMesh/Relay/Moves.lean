/-
  AvMesh.Relay.Moves
  ──────────────────
  **WHAT AN OPERATION CAN DO TO THE TABLES.**

  Every operation of the receiver is a sequence of a few elementary changes:
  the `Move`s below, each with the guard under which the code makes it, and
  `complete`, the one change that turns an active object into a tombstone.

    • `expire_quiet`, `tryAnnounceObject_quiet` — expiry and announcements are
      sequences of moves and never complete an object,
    • `tryPushWireDatagram_effect` — a datagram completes an object exactly
      when the reply is `Decoded`, and then that object,
    • `step_effect` — the same for every operation.

  An invariant of the tables is proved once per move; the operations are not
  opened again.
-/
import AvMesh.Relay.Receiver
import Mathlib.Logic.Relation

namespace AvMesh.Relay.RelayObjectReceiver

open AvMesh.Lib

variable {C : RelayCrates}

/-! ## §1. Elementary changes. -/

/-- One elementary change of the receiver that completes no object. -/
inductive Move : RelayObjectReceiver C → RelayObjectReceiver C → Prop where
  /-- Counters and the time of the next scan. -/
  | bookkeep (r : RelayObjectReceiver C) (counters : RelayIngressCounters) (next : Option Nat) :
      Move r { r with counters := counters, nextExpiryScanUs := next }
  | addSession (r : RelayObjectReceiver C) (session : AuthenticatedRelayParentSession)
      (hnew : r.sessions.lookup session.sessionId = none)
      (hroom : r.sessions.size < r.config.maxParentSessions) :
      Move r { r with sessions := r.sessions.insert session.sessionId session }
  | dropObject (r : RelayObjectReceiver C) (key : ObjectKey) (state : ActiveObject C)
      (hstate : r.objects.lookup key = some state) :
      Move r (r.removeActiveObject key true).2
  | start (r r' : RelayObjectReceiver C) (sessionId : Nat)
      (session : AuthenticatedRelayParentSession) (announcement : C.Announcement) (nowUs : Nat)
      (hsession : r.sessions.lookup sessionId = some session)
      (hvalid : validateSessionAnnouncement session announcement = .ok ())
      (hlogical : r.logicalConflict announcement.key = false)
      (hcompleted : r.completed.lookup announcement.key = none)
      (hobjects : r.objects.lookup announcement.key = none)
      (hstart : r.startObject sessionId announcement nowUs = (.ok .started, r')) :
      Move r r'
  | joinActive (r : RelayObjectReceiver C) (sessionId : Nat)
      (session : AuthenticatedRelayParentSession) (key : ObjectKey) (active : ActiveObject C)
      (parents : ParentSet) (nowUs : Nat)
      (hsession : r.sessions.lookup sessionId = some session)
      (hvalid : validateSessionAnnouncement session active.announcement = .ok ())
      (hactive : r.objects.lookup key = some active)
      (hparents : addParentToSet r.sessions active.parentSessions session
        r.config.maxParentsPerObject = .ok parents) :
      Move r { r with
        objects := r.objects.replace key
          { active with parentSessions := parents, lastActivityUs := nowUs } }
  | joinCompleted (r : RelayObjectReceiver C) (sessionId : Nat)
      (session : AuthenticatedRelayParentSession) (key : ObjectKey) (done : CompletedObject C)
      (parents : ParentSet)
      (hsession : r.sessions.lookup sessionId = some session)
      (hvalid : validateSessionAnnouncement session done.announcement = .ok ())
      (hdone : r.completed.lookup key = some done)
      (hparents : addParentToSet r.sessions done.parentSessions session
        r.config.maxParentsPerObject = .ok parents) :
      Move r { r with completed := r.completed.replace key { done with parentSessions := parents } }
  /-- A symbol the assembler refused. -/
  | refuseSymbol (r : RelayObjectReceiver C) (symbol : C.Symbol) (state : ActiveObject C)
      (hstate : r.objects.lookup symbol.objectKey = some state) :
      Move r { r with
        objects := r.objects.replace symbol.objectKey
          { state with assembler := (C.pushSymbol state.assembler symbol).2 } }
  | recordSymbol (r : RelayObjectReceiver C) (symbol : C.Symbol) (state : ActiveObject C)
      (packetSequence : Nat) (fingerprint : SymbolFingerprint) (nowUs : Nat)
      (hstate : r.objects.lookup symbol.objectKey = some state)
      (hnew : state.symbols.lookup packetSequence = none)
      (hsymbols : state.symbols.size < r.config.maxDatagramsPerObject)
      (hbuffered : r.bufferedDatagrams < r.config.maxBufferedDatagrams) :
      Move r (r.recordSymbol symbol (withSymbol state (C.pushSymbol state.assembler symbol).2
        packetSequence fingerprint symbol.role nowUs))
  | takeEnvelope (r : RelayObjectReceiver C) (key : ObjectKey) (state : ActiveObject C)
      (hstate : r.objects.lookup key = some state) :
      Move r { r with
        objects := r.objects.replace key
          { state with assembler := (C.takeCompletedEnvelope state.assembler).2 } }

/-- Any number of moves: the receiver changed, but completed no object. -/
abbrev Quiet : RelayObjectReceiver C → RelayObjectReceiver C → Prop :=
  Relation.ReflTransGen Move

/-- Turn the active object `active` into a tombstone. -/
def complete (r : RelayObjectReceiver C) (key : ObjectKey) (active : ActiveObject C) :
    RelayObjectReceiver C :=
  (r.removeActiveObject key false).2.insertCompleted key
    { announcement := active.announcement, parentSessions := active.parentSessions }

theorem Move.quiet {r r' : RelayObjectReceiver C} (h : Move r r') : Quiet r r' :=
  Relation.ReflTransGen.single h

/-- Moves change counters and the scan time freely. -/
theorem quiet_counters (r : RelayObjectReceiver C) (counters : RelayIngressCounters) :
    Quiet r { r with counters := counters } :=
  (Move.bookkeep r counters r.nextExpiryScanUs).quiet

theorem recordRejection_quiet (r : RelayObjectReceiver C) (error : RelayIngressError)
    (datagram : Bool) : Quiet r (r.recordRejection error datagram) :=
  quiet_counters r _

theorem recordIfRejected_quiet {α : Type} (result : RelayResult α × RelayObjectReceiver C)
    (datagram : Bool) : Quiet result.2 (recordIfRejected result datagram).2 := by
  unfold recordIfRejected
  split
  · exact recordRejection_quiet _ _ _
  · exact .refl

@[simp] theorem recordIfRejected_fst {α : Type} (result : RelayResult α × RelayObjectReceiver C)
    (datagram : Bool) : (recordIfRejected result datagram).1 = result.1 := by
  unfold recordIfRejected
  split <;> rfl

theorem removeActiveObject_none {r : RelayObjectReceiver C} {key : ObjectKey}
    (removeLogicalKey : Bool) (h : r.objects.lookup key = none) :
    r.removeActiveObject key removeLogicalKey = (none, r) := by
  unfold removeActiveObject
  rw [h]

theorem removeActiveObject_eq {r : RelayObjectReceiver C} {key : ObjectKey}
    {state : ActiveObject C} (removeLogicalKey : Bool)
    (h : r.objects.lookup key = some state) :
    r.removeActiveObject key removeLogicalKey = (some state,
      { r with
        objects := r.objects.erase key
        bufferedObjectBytes := r.bufferedObjectBytes - state.reservedBytes
        bufferedDatagrams := r.bufferedDatagrams - state.symbols.size
        logicalKeys :=
          if removeLogicalKey then r.logicalKeys.erase (LogicalObjectIdentity.from key)
          else r.logicalKeys }) := by
  unfold removeActiveObject
  rw [h]

/-! ## §2. Sessions and expiry. -/

theorem rejectIf_ok {condition : Prop} [Decidable condition] {error : RelayIngressError}
    (h : rejectIf condition error = .ok ()) : ¬condition := by
  unfold rejectIf at h
  split at h
  · cases h
  · assumption

theorem registerParentSessionInner_quiet (r : RelayObjectReceiver C)
    (session : AuthenticatedRelayParentSession) :
    Quiet r (r.registerParentSessionInner session).2 := by
  unfold registerParentSessionInner
  split
  next existing _ =>
    split <;> exact .refl
  next hnew =>
    split
    · exact .refl
    · exact (Move.addSession r session hnew (by omega)).quiet

theorem session_ok {r : RelayObjectReceiver C} {sessionId : Nat}
    {session : AuthenticatedRelayParentSession} (h : r.session sessionId = .ok session) :
    r.sessions.lookup sessionId = some session := by
  unfold RelayObjectReceiver.session at h
  split at h
  next s hs =>
    cases h
    exact hs
  next => cases h

/-- **The rule for the removal loop**: what dropping one active object keeps,
the loop keeps. -/
theorem removeExpired_keeps {I : RelayObjectReceiver C → Prop}
    (hdrop : ∀ r key state, r.objects.lookup key = some state → I r →
      I (r.removeActiveObject key true).2) (keys : List ObjectKey) :
    ∀ (result : RelayObjectExpiry) (r : RelayObjectReceiver C), I r →
      I (removeExpired keys result r).2 := by
  induction keys with
  | nil => intro result r h; exact h
  | cons key keys ih =>
      intro result r h
      unfold removeExpired
      cases hstate : r.objects.lookup key with
      | none =>
          rw [removeActiveObject_none true hstate]
          exact ih result r h
      | some state =>
          have hdropped := hdrop r key state hstate h
          rw [removeActiveObject_eq true hstate] at hdropped ⊢
          exact ih _ _ hdropped

theorem removeExpired_quiet (keys : List ObjectKey) (result : RelayObjectExpiry)
    (r : RelayObjectReceiver C) : Quiet r (removeExpired keys result r).2 := by
  refine removeExpired_keeps ?_ keys result r .refl
  intro r' key state hstate hquiet
  exact hquiet.tail (Move.dropObject r' key state hstate)

theorem expire_quiet (r : RelayObjectReceiver C) (nowUs : Nat) : Quiet r (r.expire nowUs).2 :=
  (removeExpired_quiet _ _ _).tail (Move.bookkeep _ _ _)

theorem expireIfDue_quiet (r : RelayObjectReceiver C) (nowUs : Nat) :
    Quiet r (r.expireIfDue nowUs) := by
  unfold expireIfDue
  split
  · exact expire_quiet r nowUs
  · exact .refl

/-! ## §3. Announcements. -/

/-- What `checkAnnouncement` has established when it lets an announcement
through. -/
theorem checkAnnouncement_ok {r : RelayObjectReceiver C} {sessionId : Nat}
    {announcement : C.Announcement} {session : AuthenticatedRelayParentSession}
    (h : r.checkAnnouncement sessionId announcement = .ok session) :
    r.sessions.lookup sessionId = some session
      ∧ validateSessionAnnouncement session announcement = .ok ()
      ∧ r.logicalConflict announcement.key = false := by
  unfold checkAnnouncement at h
  obtain ⟨s, hs, h⟩ := except_bind_eq_ok.mp h
  obtain ⟨_, hvalid, h⟩ := except_bind_eq_ok.mp h
  obtain ⟨_, _, h⟩ := except_bind_eq_ok.mp h
  obtain ⟨_, _, h⟩ := except_bind_eq_ok.mp h
  obtain ⟨_, hlogical, h⟩ := except_bind_eq_ok.mp h
  cases h
  exact ⟨session_ok hs, hvalid, Bool.eq_false_iff.mpr (rejectIf_ok hlogical)⟩

theorem rejoinCompleted_quiet {r : RelayObjectReceiver C} {sessionId : Nat}
    {session : AuthenticatedRelayParentSession} {announcement : C.Announcement}
    {done : CompletedObject C} (hsession : r.sessions.lookup sessionId = some session)
    (hvalid : validateSessionAnnouncement session announcement = .ok ())
    (hdone : r.completed.lookup announcement.key = some done) :
    Quiet r (r.rejoinCompleted session announcement done).2 := by
  unfold rejoinCompleted
  split
  next => exact .refl
  next heq =>
    split
    next => exact .refl
    next parents hparents =>
      have hann : done.announcement = announcement := not_not.mp heq
      exact (Move.joinCompleted r sessionId session announcement.key done parents hsession
        (hann.symm ▸ hvalid) hdone hparents).quiet

theorem joinActive_quiet {r : RelayObjectReceiver C} {sessionId : Nat}
    {session : AuthenticatedRelayParentSession} {announcement : C.Announcement}
    {active : ActiveObject C} {nowUs : Nat}
    (hsession : r.sessions.lookup sessionId = some session)
    (hvalid : validateSessionAnnouncement session announcement = .ok ())
    (hactive : r.objects.lookup announcement.key = some active) :
    Quiet r (r.joinActive session announcement active nowUs).2 := by
  unfold joinActive
  split
  next => exact .refl
  next heq =>
    split
    next => exact .refl
    next parents hparents =>
      have hann : active.announcement = announcement := not_not.mp heq
      exact (Move.joinActive r sessionId session announcement.key active parents nowUs hsession
        (hann.symm ▸ hvalid) hactive hparents).quiet

/-- `startObject` either starts the object or changes nothing. -/
theorem startObject_cases (r : RelayObjectReceiver C) (sessionId : Nat)
    (announcement : C.Announcement) (nowUs : Nat) :
    (∃ r', r.startObject sessionId announcement nowUs = (.ok .started, r'))
      ∨ ∃ error, r.startObject sessionId announcement nowUs = (.error (.err error), r) := by
  unfold startObject
  split
  · exact .inr ⟨_, rfl⟩
  · split
    · exact .inr ⟨_, rfl⟩
    · split
      · exact .inr ⟨_, rfl⟩
      · split
        · exact .inr ⟨_, rfl⟩
        · exact .inl ⟨_, rfl⟩

theorem startObject_quiet {r : RelayObjectReceiver C} {sessionId : Nat}
    {session : AuthenticatedRelayParentSession} {announcement : C.Announcement} {nowUs : Nat}
    (hsession : r.sessions.lookup sessionId = some session)
    (hvalid : validateSessionAnnouncement session announcement = .ok ())
    (hlogical : r.logicalConflict announcement.key = false)
    (hcompleted : r.completed.lookup announcement.key = none)
    (hobjects : r.objects.lookup announcement.key = none) :
    Quiet r (r.startObject sessionId announcement nowUs).2 := by
  rcases startObject_cases r sessionId announcement nowUs with ⟨r', h⟩ | ⟨e, h⟩
  · rw [h]
    exact (Move.start r r' sessionId session announcement nowUs hsession hvalid hlogical
      hcompleted hobjects h).quiet
  · rw [h]

theorem announceScanned_quiet (r : RelayObjectReceiver C) (sessionId : Nat)
    (announcement : C.Announcement) (nowUs : Nat) :
    Quiet r (r.announceScanned sessionId announcement nowUs).2 := by
  unfold announceScanned
  cases hcheck : r.checkAnnouncement sessionId announcement with
  | error stop => exact .refl
  | ok session =>
      obtain ⟨hsession, hvalid, hlogical⟩ := checkAnnouncement_ok hcheck
      dsimp only
      cases hcompleted : r.completed.lookup announcement.key with
      | some done => exact rejoinCompleted_quiet hsession hvalid hcompleted
      | none =>
          dsimp only
          split
          · exact .refl
          · cases hobjects : r.objects.lookup announcement.key with
            | some active => exact joinActive_quiet hsession hvalid hobjects
            | none =>
                exact startObject_quiet hsession hvalid hlogical hcompleted hobjects

/-- **Announcements never complete an object.** -/
theorem tryAnnounceObject_quiet (r : RelayObjectReceiver C) (sessionId : Nat)
    (announcement : C.Announcement) (nowUs : Nat) :
    Quiet r (r.tryAnnounceObject sessionId announcement nowUs).2 :=
  (expireIfDue_quiet r nowUs).trans (announceScanned_quiet _ sessionId announcement nowUs)

/-! ## §4. Datagrams. -/

/-- The object a datagram delivered, if its reply is `Decoded`. -/
def decodedKey : RelayResult RelayIngressOutcome → Option ObjectKey
  | .ok (.decoded object _ _ _ _ _) => some object.key
  | _ => none

/-- What an operation that delivered the given object (if any) did to the
tables: moves only, or moves around the completion of that object. -/
def Effect (r r' : RelayObjectReceiver C) : Option ObjectKey → Prop
  | none => Quiet r r'
  | some key => ∃ r₁ active, Quiet r r₁ ∧ r₁.objects.lookup key = some active
      ∧ Quiet (r₁.complete key active) r'

theorem Effect.of_quiet_left {r r₁ r' : RelayObjectReceiver C} {delivered : Option ObjectKey}
    (h₁ : Quiet r r₁) (h : Effect r₁ r' delivered) : Effect r r' delivered := by
  cases delivered with
  | none => exact h₁.trans h
  | some key =>
      obtain ⟨r₂, active, h₂, hactive, h'⟩ := h
      exact ⟨r₂, active, h₁.trans h₂, hactive, h'⟩

theorem Effect.of_quiet_right {r r₁ r' : RelayObjectReceiver C} {delivered : Option ObjectKey}
    (h : Effect r r₁ delivered) (h₁ : Quiet r₁ r') : Effect r r' delivered := by
  cases delivered with
  | none => exact h.trans h₁
  | some key =>
      obtain ⟨r₂, active, h₂, hactive, h'⟩ := h
      exact ⟨r₂, active, h₂, hactive, h'.trans h₁⟩

theorem answerDuplicate_quiet (r : RelayObjectReceiver C) (symbol : C.Symbol) :
    Quiet r (r.answerDuplicate symbol).2 :=
  quiet_counters r _

theorem finishObject_effect {r : RelayObjectReceiver C} {symbol : C.Symbol}
    {state : ActiveObject C} (object : MediaObject)
    (hstate : r.objects.lookup symbol.objectKey = some state) :
    Effect r (r.finishObject symbol state object).2
      (decodedKey (r.finishObject symbol state object).1) := by
  unfold finishObject
  cases hkind : validateObjectKind object state.announcement.kind with
  | error stop => exact .refl
  | ok _ =>
      have htake : Quiet r (r.takeEnvelope symbol.objectKey state).2 :=
        (Move.takeEnvelope r symbol.objectKey state hstate).quiet
      dsimp only
      rcases htaken : r.takeEnvelope symbol.objectKey state with ⟨envelope, r₁⟩
      rw [htaken] at htake
      cases envelope with
      | none => exact htake
      | some envelope =>
          dsimp only
          cases hactive : r₁.objects.lookup object.key with
          | none =>
              rw [removeActiveObject_none false hactive]
              exact htake
          | some active =>
              -- the counters move before the tombstone enters, which is the same
              -- as completing the object first
              rw [removeActiveObject_eq false hactive]
              refine ⟨r₁, active, htake, hactive, ?_⟩
              unfold RelayObjectReceiver.complete
              rw [removeActiveObject_eq false hactive]
              exact quiet_counters _ _

/-- What `admitSymbol` has established when it admits a symbol. -/
theorem admitSymbol_accepted {r : RelayObjectReceiver C} {sessionId : Nat}
    {session : AuthenticatedRelayParentSession} {symbol : C.Symbol} {state : ActiveObject C}
    {packetSequence : Nat} {fingerprint : SymbolFingerprint}
    (h : r.admitSymbol sessionId session symbol state = .ok (.accepted packetSequence fingerprint)) :
    state.symbols.lookup packetSequence = none
      ∧ state.symbols.size < r.config.maxDatagramsPerObject
      ∧ r.bufferedDatagrams < r.config.maxBufferedDatagrams := by
  unfold admitSymbol at h
  obtain ⟨_, _, h⟩ := except_bind_eq_ok.mp h
  obtain ⟨sequence, _, h⟩ := except_bind_eq_ok.mp h
  unfold classifySymbol at h
  split at h
  next =>
    split at h <;> cases h
  next hnone =>
    split at h
    · cases h
    · split at h
      · cases h
      · cases h
        exact ⟨hnone, by omega, by omega⟩

theorem pushActive_effect {r : RelayObjectReceiver C} {symbol : C.Symbol}
    {state : ActiveObject C} (sessionId : Nat) (session : AuthenticatedRelayParentSession)
    (nowUs : Nat) (hstate : r.objects.lookup symbol.objectKey = some state) :
    Effect r (r.pushActive sessionId session symbol state nowUs).2
      (decodedKey (r.pushActive sessionId session symbol state nowUs).1) := by
  unfold pushActive
  split
  next => exact .refl
  next => exact answerDuplicate_quiet r symbol
  next packetSequence fingerprint hadmission =>
    -- admitted: the assembler refuses the symbol, buffers it or completes an object
    obtain ⟨hnew, hsymbols, hbuffered⟩ := admitSymbol_accepted hadmission
    have hrecord := (Move.recordSymbol r symbol state packetSequence fingerprint nowUs hstate hnew
      hsymbols hbuffered).quiet
    split
    next e assembler hpush =>
      have hrefuse := Move.refuseSymbol r symbol state hstate
      rw [hpush] at hrefuse
      exact hrefuse.quiet
    next assembler hpush =>
      rw [hpush] at hrecord
      exact hrecord
    next object assembler hpush =>
      rw [hpush] at hrecord
      exact Effect.of_quiet_left hrecord
        (finishObject_effect object (AList.lookup_replace_self _ hstate))

theorem pushChecked_effect (r : RelayObjectReceiver C) (sessionId : Nat)
    (session : AuthenticatedRelayParentSession) (symbol : C.Symbol) (nowUs : Nat) :
    Effect r (r.pushChecked sessionId session symbol nowUs).2
      (decodedKey (r.pushChecked sessionId session symbol nowUs).1) := by
  unfold pushChecked
  split
  next done _ =>
    unfold pushCompleted
    split
    · exact .refl
    · exact answerDuplicate_quiet r symbol
  next =>
    split
    · exact expire_quiet r nowUs
    · split
      · exact .refl
      next state hstate => exact pushActive_effect sessionId session nowUs hstate

/-- `checkSymbol` answers with an error or lets the symbol through. -/
theorem checkSymbol_cases (r : RelayObjectReceiver C) (session : AuthenticatedRelayParentSession)
    (symbol : C.Symbol) :
    (∃ error, r.checkSymbol session symbol = .error (.err error))
      ∨ (r.checkSymbol session symbol = .ok ()
        ∧ validateSessionSymbol session symbol = .ok ()
        ∧ r.logicalConflict symbol.objectKey = false) := by
  unfold checkSymbol validateSessionSymbol
  simp only [rejectIf]
  split
  next => exact .inl ⟨_, rfl⟩
  next =>
    by_cases hconflict : r.logicalConflict symbol.objectKey = true
    · exact .inl ⟨.objectIdentityConflict, by simp [hconflict]; rfl⟩
    · exact .inr ⟨by simp [hconflict]; rfl, rfl, by simpa using hconflict⟩

/-- A datagram is refused before its object is looked up, or its session and
its symbol passed the checks and `pushChecked` answers. -/
theorem pushWireDatagram_cases (r : RelayObjectReceiver C) (sessionId : Nat) (wire : Bytes)
    (nowUs : Nat) :
    (∃ error, (r.pushWireDatagram sessionId wire nowUs).1 = .error (.err error))
      ∨ ∃ session symbol, r.sessions.lookup sessionId = some session
        ∧ C.decodeDatagram wire r.config.relayLimits = .ok symbol
        ∧ validateSessionSymbol session symbol = .ok ()
        ∧ (r.countReceived.expireIfDue nowUs).logicalConflict symbol.objectKey = false
        ∧ (r.pushWireDatagram sessionId wire nowUs).1
          = ((r.countReceived.expireIfDue nowUs).pushChecked sessionId session symbol nowUs).1 := by
  unfold pushWireDatagram
  rw [recordIfRejected_fst]
  unfold tryPushWireDatagram
  cases hsession : r.countReceived.session sessionId with
  | error stop =>
      unfold RelayObjectReceiver.session at hsession
      split at hsession
      · cases hsession
      · cases hsession
        exact .inl ⟨_, rfl⟩
  | ok session =>
      dsimp only
      split
      next e _ => exact .inl ⟨_, rfl⟩
      next symbol hdecode =>
        unfold pushScanned
        rcases checkSymbol_cases (r.countReceived.expireIfDue nowUs) session symbol with
          ⟨error, hcheck⟩ | ⟨hcheck, hvalid, hlogical⟩
        · rw [hcheck]
          exact .inl ⟨error, rfl⟩
        · rw [hcheck]
          exact .inr ⟨session, symbol, session_ok hsession, hdecode, hvalid, hlogical, rfl⟩

/-- **A datagram completes an object exactly when its reply is `Decoded`**, and
then the object it delivers. -/
theorem tryPushWireDatagram_effect (r : RelayObjectReceiver C) (sessionId : Nat) (wire : Bytes)
    (nowUs : Nat) :
    Effect r (r.tryPushWireDatagram sessionId wire nowUs).2
      (decodedKey (r.tryPushWireDatagram sessionId wire nowUs).1) := by
  unfold tryPushWireDatagram
  split
  next => exact .refl
  next session _ =>
    split
    next => exact .refl
    next symbol _ =>
      refine Effect.of_quiet_left (expireIfDue_quiet r nowUs) ?_
      unfold pushScanned
      split
      · exact .refl
      · exact pushChecked_effect _ sessionId session symbol nowUs

theorem pushWireDatagram_effect (r : RelayObjectReceiver C) (sessionId : Nat) (wire : Bytes)
    (nowUs : Nat) :
    Effect r (r.pushWireDatagram sessionId wire nowUs).2
      (decodedKey (r.pushWireDatagram sessionId wire nowUs).1) := by
  unfold pushWireDatagram
  rw [recordIfRejected_fst]
  -- counting the datagram and recording its rejection frame the call
  have hreceived : Quiet r r.countReceived := quiet_counters r _
  refine Effect.of_quiet_left hreceived ?_
  exact (tryPushWireDatagram_effect r.countReceived sessionId wire nowUs).of_quiet_right
    (recordIfRejected_quiet _ _)

/-! ## §5. Every operation. -/

/-- The object an operation delivered. -/
def Reply.decodedKey : Reply → Option ObjectKey
  | .pushed result => RelayObjectReceiver.decodedKey result
  | _ => none

/-- **What one operation of the receiver does to the tables.** -/
theorem step_effect (r : RelayObjectReceiver C) (op : Op C) :
    Effect r (step r op).2 (step r op).1.decodedKey := by
  cases op with
  | registerParentSession session _ => exact registerParentSessionInner_quiet r session
  | registerControlledParentSession session =>
      exact registerParentSessionInner_quiet r session.session
  | announceObject sessionId announcement nowUs =>
      exact (tryAnnounceObject_quiet r sessionId announcement nowUs).trans
        (recordIfRejected_quiet _ _)
  | pushWireDatagram sessionId wire nowUs => exact pushWireDatagram_effect r sessionId wire nowUs
  | expire nowUs => exact expire_quiet r nowUs

/-- A property that the moves and the completion of an object keep is kept by
every operation. -/
theorem Effect.preserves {I : RelayObjectReceiver C → Prop}
    (hmove : ∀ {r r' : RelayObjectReceiver C}, Move r r' → I r → I r')
    (hcomplete : ∀ {r : RelayObjectReceiver C} {key : ObjectKey} {active : ActiveObject C},
      r.objects.lookup key = some active → I r → I (r.complete key active))
    {r r' : RelayObjectReceiver C} {delivered : Option ObjectKey}
    (h : Effect r r' delivered) (hr : I r) : I r' := by
  have hquiet : ∀ {a b : RelayObjectReceiver C}, Quiet a b → I a → I b := by
    intro a b hab ha
    induction hab with
    | refl => exact ha
    | tail _ hlast ih => exact hmove hlast ih
  cases delivered with
  | none => exact hquiet h hr
  | some key =>
      obtain ⟨r₁, active, h₁, hactive, h'⟩ := h
      exact hquiet h' (hcomplete hactive (hquiet h₁ hr))

end AvMesh.Relay.RelayObjectReceiver
