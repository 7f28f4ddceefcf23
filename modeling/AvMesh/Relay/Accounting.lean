/-
  AvMesh.Relay.Accounting
  ───────────────────────
  **DATAGRAM ACCOUNTING OF THE RELAY INGRESS.**

  Each received RLS1 datagram should be counted once, as rejected, as source or
  as repair.  `Counted` says what one datagram does to the four counters, over
  every path of the dispatch and the receiver:

    • an early rejection counts it as rejected,
    • an accepted datagram — buffered, decoded or duplicate — by its role,
    • a late kind mismatch as BOTH: the role was counted when the symbol was
      recorded, the rejection after it.

  So the books balance after a run exactly when no datagram of the run was a
  late kind mismatch (`exec_accounts_iff`).
-/
import AvMesh.Relay.Dispatch
import AvMesh.Relay.Rejections

namespace AvMesh.Relay

open AvMesh.Lib

variable {C : RelayCrates}

/-! ## §1. The four counters. -/

namespace RelayIngressCounters

/-- Every received datagram is counted as rejected, source or repair. -/
def Accounted (c : RelayIngressCounters) : Prop :=
  c.datagramsReceived = c.datagramsRejected + c.sourceDatagrams + c.repairDatagrams

instance (c : RelayIngressCounters) : Decidable c.Accounted :=
  inferInstanceAs (Decidable (_ = _))

/-- The four counters of the accounting are the same. -/
structure SameTally (c c' : RelayIngressCounters) : Prop where
  received : c'.datagramsReceived = c.datagramsReceived
  rejected : c'.datagramsRejected = c.datagramsRejected
  source : c'.sourceDatagrams = c.sourceDatagrams
  repair : c'.repairDatagrams = c.repairDatagrams

theorem SameTally.refl (c : RelayIngressCounters) : SameTally c c := ⟨rfl, rfl, rfl, rfl⟩

theorem SameTally.trans {c₁ c₂ c₃ : RelayIngressCounters} (h₁₂ : SameTally c₁ c₂)
    (h₂₃ : SameTally c₂ c₃) : SameTally c₁ c₃ :=
  ⟨h₂₃.received.trans h₁₂.received, h₂₃.rejected.trans h₁₂.rejected,
    h₂₃.source.trans h₁₂.source, h₂₃.repair.trans h₁₂.repair⟩

/-- One received datagram was counted `rejected` times as rejected and `roles`
times by its role. -/
structure Counted (c c' : RelayIngressCounters) (rejected roles : Nat) : Prop where
  received : c'.datagramsReceived = c.datagramsReceived + 1
  rejected : c'.datagramsRejected = c.datagramsRejected + rejected
  roles : c'.sourceDatagrams + c'.repairDatagrams
    = c.sourceDatagrams + c.repairDatagrams + roles

/-- No counter of the accounting is about to saturate. -/
structure Room (c : RelayIngressCounters) : Prop where
  received : c.datagramsReceived < u64Max
  rejected : c.datagramsRejected < u64Max
  roles : c.sourceDatagrams + c.repairDatagrams < u64Max

theorem Room.of_sameTally {c c' : RelayIngressCounters} (h : Room c) (hsame : SameTally c c') :
    Room c' := by
  obtain ⟨h₁, h₂, h₃, h₄⟩ := hsame
  constructor
  case received =>
    rw [h₁]; exact h.received
  case rejected =>
    rw [h₂]; exact h.rejected
  case roles =>
    rw [h₃, h₄]; exact h.roles

theorem Counted.of_sameTally {c₁ c₂ c₃ c₄ : RelayIngressCounters} {rejected roles : Nat}
    (h₁₂ : SameTally c₁ c₂) (h : Counted c₂ c₃ rejected roles) (h₃₄ : SameTally c₃ c₄) :
    Counted c₁ c₄ rejected roles := by
  obtain ⟨hreceived, hrejected, hroles⟩ := h
  constructor
  case received =>
    rw [h₃₄.received, hreceived, h₁₂.received]
  case rejected =>
    rw [h₃₄.rejected, hrejected, h₁₂.rejected]
  case roles =>
    rw [h₃₄.source, h₃₄.repair, hroles, h₁₂.source, h₁₂.repair]

end RelayIngressCounters

open RelayIngressCounters

namespace RelayObjectReceiver

variable {r : RelayObjectReceiver C}

/-! ## §2. What does not count. -/

theorem removeActiveObject_counters (r : RelayObjectReceiver C) (key : ObjectKey)
    (removeLogicalKey : Bool) :
    (r.removeActiveObject key removeLogicalKey).2.counters = r.counters := by
  unfold removeActiveObject
  split <;> rfl

theorem removeExpired_counters (keys : List ObjectKey) (result : RelayObjectExpiry)
    (r : RelayObjectReceiver C) : (removeExpired keys result r).2.counters = r.counters := by
  refine removeExpired_keeps (I := fun r' => r'.counters = r.counters) ?_ keys result r rfl
  intro r' key state _ hsame
  rw [removeActiveObject_counters, hsame]

theorem expire_sameTally (r : RelayObjectReceiver C) (nowUs : Nat) :
    SameTally r.counters (r.expire nowUs).2.counters := by
  rw [← removeExpired_counters (r.expiredKeys nowUs) {} r]
  exact ⟨rfl, rfl, rfl, rfl⟩

theorem expireIfDue_sameTally (r : RelayObjectReceiver C) (nowUs : Nat) :
    SameTally r.counters (r.expireIfDue nowUs).counters := by
  unfold expireIfDue
  split
  · exact expire_sameTally r nowUs
  · exact .refl _

theorem announceScanned_counters (r : RelayObjectReceiver C) (sessionId : Nat)
    (announcement : C.Announcement) (nowUs : Nat) :
    (r.announceScanned sessionId announcement nowUs).2.counters = r.counters := by
  unfold announceScanned
  split
  · rfl
  · split
    · unfold rejoinCompleted
      split
      · rfl
      · split <;> rfl
    · split
      · rfl
      · split
        · unfold joinActive
          split
          · rfl
          · split <;> rfl
        · rcases startObject_cases r sessionId announcement nowUs with ⟨r', h⟩ | ⟨error, h⟩
          · obtain ⟨_, _, _, _, rfl⟩ := startObject_started h
            rw [h]
          · rw [h]

theorem tryAnnounceObject_sameTally (r : RelayObjectReceiver C) (sessionId : Nat)
    (announcement : C.Announcement) (nowUs : Nat) :
    SameTally r.counters (r.tryAnnounceObject sessionId announcement nowUs).2.counters := by
  unfold tryAnnounceObject
  rw [announceScanned_counters]
  exact expireIfDue_sameTally r nowUs

theorem registerParentSessionInner_counters (r : RelayObjectReceiver C)
    (session : AuthenticatedRelayParentSession) :
    (r.registerParentSessionInner session).2.counters = r.counters := by
  unfold registerParentSessionInner
  split
  · split <;> rfl
  · split <;> rfl

/-- A rejected announcement is not a rejected datagram. -/
theorem recordRejection_announcement (r : RelayObjectReceiver C) (error : RelayIngressError) :
    SameTally r.counters (r.recordRejection error false).counters := by
  unfold recordRejection
  dsimp only
  split <;> exact ⟨rfl, rfl, rfl, rfl⟩

theorem announceObject_sameTally (r : RelayObjectReceiver C) (sessionId : Nat)
    (announcement : C.Announcement) (nowUs : Nat) :
    SameTally r.counters (r.announceObject sessionId announcement nowUs).2.counters := by
  unfold announceObject recordIfRejected
  split
  · exact (tryAnnounceObject_sameTally r sessionId announcement nowUs).trans
      (recordRejection_announcement _ _)
  · exact tryAnnounceObject_sameTally r sessionId announcement nowUs

/-! ## §3. What one datagram counts. -/

/-- An early rejection counts the datagram once. -/
theorem countRejected_counted (r : RelayObjectReceiver C) (error : RelayIngressError)
    (hroom : Room r.counters) :
    Counted r.counters (r.countReceived.recordRejection error true).counters 1 0 := by
  have hreceived := satAdd_of_lt_bound hroom.received le_rfl
  have hrejected := satAdd_of_lt_bound hroom.rejected le_rfl
  unfold recordRejection
  dsimp only
  split <;> exact ⟨hreceived, hrejected, rfl⟩

theorem countRole_roles {c : RelayIngressCounters} (role : MediaDatagramRole) (hroom : Room c) :
    (countRole c role).sourceDatagrams + (countRole c role).repairDatagrams
      = c.sourceDatagrams + c.repairDatagrams + 1 := by
  have hroles := hroom.roles
  cases role with
  | source =>
      show satAdd c.sourceDatagrams 1 + c.repairDatagrams = _
      rw [satAdd_of_le (by omega)]
      omega
  | repair =>
      show c.sourceDatagrams + satAdd c.repairDatagrams 1 = _
      rw [satAdd_of_le (by omega)]
      omega

/-- The symbol is the late kind mismatch of §2 of `AvMesh.Relay.Rejections`. -/
def Late (r : RelayObjectReceiver C) (sessionId : Nat)
    (session : AuthenticatedRelayParentSession) (symbol : C.Symbol) (nowUs : Nat) : Prop :=
  ∃ state packetSequence fingerprint object,
    r.LateAt sessionId session symbol nowUs state packetSequence fingerprint object

/-- A call counted its datagram once: an error left the tally to its caller,
anything else counted the role. -/
def CountsOnce (c : RelayIngressCounters) (role : MediaDatagramRole)
    (result : RelayResult RelayIngressOutcome × RelayObjectReceiver C) : Prop :=
  (∃ error, result.1 = .error (.err error) ∧ SameTally c result.2.counters)
    ∨ ((∀ error, result.1 ≠ .error (.err error))
      ∧ SameTally (countRole c role) result.2.counters)

theorem rejectIf_error {condition : Prop} [Decidable condition] {error : RelayIngressError}
    {stop : Stop RelayIngressError} (h : rejectIf condition error = .error stop) :
    stop = .err error := by
  unfold rejectIf at h
  split at h
  · cases h
    rfl
  · cases h

theorem answerDuplicate_countsOnce (r : RelayObjectReceiver C) (symbol : C.Symbol) :
    CountsOnce r.counters symbol.role (r.answerDuplicate symbol) := by
  refine .inr ⟨fun error => nofun, ?_⟩
  unfold answerDuplicate
  cases symbol.role <;> exact ⟨rfl, rfl, rfl, rfl⟩

/-- Completing an object counts nothing more. -/
theorem finishObject_tally {symbol : C.Symbol} {state : ActiveObject C} {object : MediaObject}
    (hkind : kindCompatible object state.announcement.kind = true) :
    (∀ error, (r.finishObject symbol state object).1 ≠ .error (.err error))
      ∧ SameTally r.counters (r.finishObject symbol state object).2.counters := by
  have hok : validateObjectKind object state.announcement.kind = .ok () := by
    unfold validateObjectKind rejectIf
    rw [if_neg (by rw [hkind]; exact Bool.noConfusion)]
  have htake : (r.takeEnvelope symbol.objectKey state).2.counters = r.counters := rfl
  unfold finishObject
  rw [hok]
  dsimp only
  rcases htaken : r.takeEnvelope symbol.objectKey state with ⟨_ | envelope, r₁⟩
  · rw [htaken] at htake
    exact ⟨fun error => nofun, htake ▸ .refl _⟩
  · rw [htaken] at htake
    have hremove := removeActiveObject_counters r₁ object.key false
    dsimp only at htake ⊢
    rcases hremoved : r₁.removeActiveObject object.key false with ⟨_ | active, r₂⟩
    · rw [hremoved] at hremove
      dsimp only at hremove ⊢
      rw [hremove, htake]
      exact ⟨fun error => nofun, .refl _⟩
    · rw [hremoved] at hremove
      dsimp only at hremove ⊢
      rw [← htake, ← hremove]
      exact ⟨fun error => nofun, ⟨rfl, rfl, rfl, rfl⟩⟩

theorem admitSymbol_error {sessionId : Nat} {session : AuthenticatedRelayParentSession}
    {symbol : C.Symbol} {state : ActiveObject C} {stop : Stop RelayIngressError}
    (h : r.admitSymbol sessionId session symbol state = .error stop) :
    ∃ error, stop = .err error := by
  cases stop with
  | err error => exact ⟨error, rfl⟩
  | panic message => exact absurd h (noPanic_admitSymbol r sessionId session symbol state message)

/-- **A checked symbol counts once, unless it is late.** -/
theorem pushChecked_countsOnce {sessionId nowUs : Nat}
    {session : AuthenticatedRelayParentSession} {symbol : C.Symbol}
    (hchecked : r.checkSymbol session symbol = .ok ())
    (hlate : ¬r.Late sessionId session symbol nowUs) :
    CountsOnce r.counters symbol.role (r.pushChecked sessionId session symbol nowUs) := by
  unfold pushChecked
  split
  next done _ =>
    unfold pushCompleted
    split
    next stop hstop =>
      cases rejectIf_error hstop
      exact .inl ⟨_, rfl, .refl _⟩
    next => exact answerDuplicate_countsOnce r symbol
  next hdone =>
    split
    · exact .inl ⟨_, rfl, expire_sameTally r nowUs⟩
    next htime =>
      split
      · exact .inl ⟨_, rfl, .refl _⟩
      next state hactive =>
        unfold pushActive
        split
        next stop hstop =>
          obtain ⟨error, rfl⟩ := admitSymbol_error hstop
          exact .inl ⟨error, rfl, .refl _⟩
        next => exact answerDuplicate_countsOnce r symbol
        next packetSequence fingerprint hadmission =>
          split
          next e assembler _ => exact .inl ⟨_, rfl, .refl _⟩
          next assembler _ => exact .inr ⟨fun error => nofun, .refl _⟩
          next object assembler hpush =>
            -- not being late, the decoded object has the announced kind
            have hkind : kindCompatible object state.announcement.kind = true := by
              by_contra hmismatch
              exact hlate ⟨state, packetSequence, fingerprint, object, hchecked, hdone,
                Bool.eq_false_iff.mpr htime, hactive, hadmission, by rw [hpush],
                Bool.eq_false_iff.mpr hmismatch⟩
            exact .inr (finishObject_tally hkind)

theorem countRole_sameTally {c c' : RelayIngressCounters} (role : MediaDatagramRole)
    (h : SameTally c c') : SameTally (countRole c role) (countRole c' role) := by
  obtain ⟨hreceived, hrejected, hsource, hrepair⟩ := h
  cases role with
  | source => exact ⟨hreceived, hrejected, congrArg (satAdd · 1) hsource, hrepair⟩
  | repair => exact ⟨hreceived, hrejected, hsource, congrArg (satAdd · 1) hrepair⟩

theorem CountsOnce.of_sameTally {c c' : RelayIngressCounters} {role : MediaDatagramRole}
    {result : RelayResult RelayIngressOutcome × RelayObjectReceiver C} (hc : SameTally c c')
    (h : CountsOnce c' role result) : CountsOnce c role result := by
  rcases h with ⟨error, herror, hsame⟩ | ⟨hok, hsame⟩
  · exact .inl ⟨error, herror, hc.trans hsame⟩
  · exact .inr ⟨hok, (countRole_sameTally role hc).trans hsame⟩

theorem tryPushWireDatagram_countsOnce {sessionId nowUs : Nat} {wire : Bytes}
    (hlate : ¬r.LateKindMismatch sessionId wire nowUs) :
    ∃ role, CountsOnce r.countReceived.counters role
      (r.countReceived.tryPushWireDatagram sessionId wire nowUs) := by
  unfold tryPushWireDatagram
  cases hsession : r.countReceived.session sessionId with
  | error stop =>
      unfold RelayObjectReceiver.session at hsession
      split at hsession
      · cases hsession
      · cases hsession
        exact ⟨.source, .inl ⟨_, rfl, .refl _⟩⟩
  | ok session =>
      dsimp only
      split
      next e _ => exact ⟨.source, .inl ⟨_, rfl, .refl _⟩⟩
      next symbol hdecode =>
        refine ⟨symbol.role,
          CountsOnce.of_sameTally (expireIfDue_sameTally r.countReceived nowUs) ?_⟩
        unfold pushScanned
        rcases checkSymbol_cases (r.countReceived.expireIfDue nowUs) session symbol with
          ⟨error, hcheck⟩ | ⟨hcheck, _, _⟩
        · rw [hcheck]
          exact .inl ⟨error, rfl, .refl _⟩
        · rw [hcheck]
          refine pushChecked_countsOnce hcheck ?_
          rintro ⟨state, packetSequence, fingerprint, object, hat⟩
          obtain ⟨counters, hscan⟩ := countReceived_scan r nowUs
          rw [hscan] at hat
          exact hlate ⟨session, symbol, state, packetSequence, fingerprint, object,
            session_ok hsession, hdecode, hat.of_withCounters⟩

/-- Counting the reception of a datagram, and its role. -/
theorem countReceived_counted (hroom : Room r.counters) {c : RelayIngressCounters}
    (role : MediaDatagramRole)
    (h : SameTally (countRole r.countReceived.counters role) c) :
    Counted r.counters c 0 1 := by
  have hroles : (countRole r.countReceived.counters role).sourceDatagrams
      + (countRole r.countReceived.counters role).repairDatagrams
        = r.counters.sourceDatagrams + r.counters.repairDatagrams + 1 := by
    have := countRole_roles role hroom
    cases role <;> exact this
  have hreceived := satAdd_of_lt_bound hroom.received le_rfl
  constructor
  case received =>
    rw [h.received, ← hreceived]
    cases role <;> rfl
  case rejected =>
    rw [h.rejected]
    cases role <;> rfl
  case roles =>
    rw [h.source, h.repair, hroles]

/-- The tally after a rejection is recorded. -/
theorem recordRejection_tally (r : RelayObjectReceiver C) (error : RelayIngressError)
    {c : RelayIngressCounters} {rejected roles : Nat}
    (h : Counted c r.counters rejected roles) (hroom : r.counters.datagramsRejected < u64Max) :
    Counted c (r.recordRejection error true).counters (rejected + 1) roles := by
  have hrejected : satAdd r.counters.datagramsRejected 1 = c.datagramsRejected + (rejected + 1) := by
    rw [satAdd_of_lt_bound hroom le_rfl, h.rejected, Nat.add_assoc]
  unfold recordRejection
  dsimp only
  split <;> exact ⟨h.received, hrejected, h.roles⟩

/-- **What one datagram counts**: once, or twice if it is late. -/
theorem pushWireDatagram_counted (r : RelayObjectReceiver C) (sessionId : Nat) (wire : Bytes)
    (nowUs : Nat) (hroom : Room r.counters) :
    ∃ rejected roles, rejected ≤ 1 ∧ roles ≤ 1
      ∧ Counted r.counters (r.pushWireDatagram sessionId wire nowUs).2.counters rejected roles
      ∧ (r.LateKindMismatch sessionId wire nowUs → rejected + roles = 2)
      ∧ (¬r.LateKindMismatch sessionId wire nowUs → rejected + roles = 1) := by
  unfold pushWireDatagram
  by_cases hlate : r.LateKindMismatch sessionId wire nowUs
  · -- the role was counted with the symbol, the rejection is recorded on the way out
    refine ⟨1, 1, le_rfl, le_rfl, ?_, fun _ => rfl, fun hnot => absurd hlate hnot⟩
    obtain ⟨session, symbol, state, packetSequence, fingerprint, object, hsession, hdecode, hat⟩ :=
      hlate
    rw [LateAt.tryPushWireDatagram_eq (r := r.countReceived) hsession hdecode hat.countReceived]
    have hcounted := countReceived_counted hroom symbol.role
      (countRole_sameTally symbol.role (expireIfDue_sameTally r.countReceived nowUs))
    refine recordRejection_tally (RelayObjectReceiver.recordSymbol _ symbol _) _ hcounted ?_
    show (countRole _ symbol.role).datagramsRejected < u64Max
    rw [hcounted.rejected]
    exact hroom.rejected
  · obtain ⟨role, hcounts⟩ := tryPushWireDatagram_countsOnce hlate
    rcases hcounts with ⟨error, herror, hsame⟩ | ⟨hok, hsame⟩
    · refine ⟨1, 0, le_rfl, Nat.zero_le _, ?_, fun h => absurd h hlate, fun _ => rfl⟩
      unfold recordIfRejected
      rw [herror]
      have hreceived := satAdd_of_lt_bound hroom.received le_rfl
      have hcounted : Counted r.counters
          (r.countReceived.tryPushWireDatagram sessionId wire nowUs).2.counters 0 0 :=
        ⟨hsame.received.trans hreceived, hsame.rejected, by rw [hsame.source, hsame.repair]; rfl⟩
      exact recordRejection_tally _ error hcounted (by rw [hcounted.rejected]; exact hroom.rejected)
    · refine ⟨0, 1, Nat.zero_le _, le_rfl, ?_, fun h => absurd h hlate, fun _ => rfl⟩
      have hcounted := countReceived_counted hroom role hsame
      unfold recordIfRejected
      split
      next error herror => exact absurd herror (hok error)
      next => exact hcounted

end RelayObjectReceiver

namespace RelayUdpDispatch

open RelayObjectReceiver

/-! ## §4. Every run of the dispatch. -/

/-- The operation hands a datagram to the relay ingress. -/
def Op.isDatagram : Op C → Bool
  | .push _ _ _ => true
  | .receiver (.pushWireDatagram _ _ _) => true
  | _ => false

/-- The operation hands a late kind mismatch to the receiver: for a payload of a
bound peer, to the receiver as the announcement step leaves it. -/
def LateDatagram (d : RelayUdpDispatch C) : Op C → Prop
  | .push peer datagram nowUs =>
      isRelaySessionDatagram datagram = true
        ∧ ∃ sessionId, d.sessionsByPeer.lookup peer = some sessionId
          ∧ (d.announceControlled sessionId datagram nowUs).1 = .ok ()
          ∧ (d.announceControlled sessionId datagram nowUs).2.LateKindMismatch sessionId datagram
              nowUs
  | .receiver (.pushWireDatagram sessionId wire nowUs) =>
      d.receiver.LateKindMismatch sessionId wire nowUs
  | _ => False

/-- What one operation does to the tally: nothing, or one datagram is
counted. -/
def StepTally (d : RelayUdpDispatch C) (op : Op C) : Prop :=
  (¬d.LateDatagram op ∧ SameTally d.receiver.counters (step d op).2.receiver.counters)
    ∨ (op.isDatagram = true ∧ ∃ rejected roles, rejected ≤ 1 ∧ roles ≤ 1
      ∧ Counted d.receiver.counters (step d op).2.receiver.counters rejected roles
      ∧ (d.LateDatagram op → rejected + roles = 2)
      ∧ (¬d.LateDatagram op → rejected + roles = 1))

theorem announceControlled_sameTally (d : RelayUdpDispatch C) (sessionId : Nat)
    (datagram : Bytes) (nowUs : Nat) :
    SameTally d.receiver.counters
      (d.announceControlled sessionId datagram nowUs).2.counters := by
  rcases announceControlled_receiver d sessionId datagram nowUs with h | ⟨announcement, h⟩
  · rw [h]
    exact .refl _
  · rw [h]
    exact tryAnnounceObject_sameTally _ _ _ _

/-- The reply and the receiver of a payload, by how far it gets. -/
theorem push_receiver (d : RelayUdpDispatch C) (peer : SocketAddr) {datagram : Bytes}
    (nowUs : Nat) (hrelay : isRelaySessionDatagram datagram = true) :
    (d.sessionsByPeer.lookup peer = none
        ∧ (d.push peer datagram nowUs).2.receiver
          = d.receiver.countReceived.recordRejection .authenticationRequired true)
      ∨ ∃ sessionId, d.sessionsByPeer.lookup peer = some sessionId
        ∧ ((∃ error, (d.announceControlled sessionId datagram nowUs).1 = .error (.err error)
            ∧ (d.push peer datagram nowUs).2.receiver
              = (d.announceControlled sessionId datagram nowUs).2.countReceived.recordRejection
                error true)
          ∨ (∃ message, (d.announceControlled sessionId datagram nowUs).1 = .error (.panic message)
            ∧ (d.push peer datagram nowUs).2.receiver
              = (d.announceControlled sessionId datagram nowUs).2)
          ∨ ((d.announceControlled sessionId datagram nowUs).1 = .ok ()
            ∧ (d.push peer datagram nowUs).2.receiver
              = ((d.announceControlled sessionId datagram nowUs).2.pushWireDatagram sessionId
                datagram nowUs).2)) := by
  unfold push
  rw [if_neg (by rw [hrelay]; exact Bool.noConfusion)]
  cases hpeer : d.sessionsByPeer.lookup peer with
  | none => exact .inl ⟨rfl, rfl⟩
  | some sessionId =>
      refine .inr ⟨sessionId, rfl, ?_⟩
      dsimp only
      rcases d.announceControlled sessionId datagram nowUs with ⟨(error | message) | _, receiver⟩
      · exact .inl ⟨error, rfl, rfl⟩
      · exact .inr (.inl ⟨message, rfl, rfl⟩)
      · exact .inr (.inr ⟨rfl, rfl⟩)

theorem push_stepTally (d : RelayUdpDispatch C) (peer : SocketAddr) (datagram : Bytes)
    (nowUs : Nat) (hroom : Room d.receiver.counters) :
    StepTally d (.push peer datagram nowUs) := by
  cases hrelay : isRelaySessionDatagram datagram with
  | false =>
      refine .inl ⟨fun hlate => ?_, ?_⟩
      · rw [hlate.1] at hrelay
        cases hrelay
      · show SameTally _ (d.push peer datagram nowUs).2.receiver.counters
        unfold push
        rw [if_pos hrelay]
        exact .refl _
  | true =>
      unfold StepTally
      rw [show (step d (.push peer datagram nowUs)).2.receiver
        = (d.push peer datagram nowUs).2.receiver from rfl]
      rcases push_receiver d peer nowUs hrelay with
        ⟨hpeer, heq⟩ | ⟨sessionId, hpeer, hcase⟩
      · -- an unknown peer: the dispatch itself counts and rejects the datagram
        rw [heq]
        refine .inr ⟨rfl, 1, 0, le_rfl, Nat.zero_le _, countRejected_counted _ _ hroom, ?_,
          fun _ => rfl⟩
        rintro ⟨_, sessionId, hbound, _⟩
        rw [hpeer] at hbound
        cases hbound
      · have hsame := announceControlled_sameTally d sessionId datagram nowUs
        have hlate : d.LateDatagram (.push peer datagram nowUs)
            ↔ (d.announceControlled sessionId datagram nowUs).1 = .ok ()
              ∧ (d.announceControlled sessionId datagram nowUs).2.LateKindMismatch sessionId
                datagram nowUs := by
          constructor
          · rintro ⟨_, sessionId', hbound, hok, hlate⟩
            cases Option.some.inj (hpeer.symm.trans hbound)
            exact ⟨hok, hlate⟩
          · rintro ⟨hok, hlate⟩
            exact ⟨hrelay, sessionId, hpeer, hok, hlate⟩
        rw [hlate]
        rcases hcase with ⟨error, herror, heq⟩ | ⟨message, hpanic, heq⟩ | ⟨hok, heq⟩
        · -- the announcement of a controlled peer failed: rejected by the dispatch
          rw [heq, herror]
          exact .inr ⟨rfl, 1, 0, le_rfl, Nat.zero_le _,
            Counted.of_sameTally hsame (countRejected_counted _ error (hroom.of_sameTally hsame))
              (.refl _),
            fun hl => absurd hl.1 nofun, fun _ => rfl⟩
        · rw [heq, hpanic]
          exact .inl ⟨fun hl => absurd hl.1 nofun, hsame⟩
        · obtain ⟨rejected, roles, h₁, h₂, hcounted, hl, hnl⟩ :=
            pushWireDatagram_counted (d.announceControlled sessionId datagram nowUs).2 sessionId
              datagram nowUs (hroom.of_sameTally hsame)
          rw [heq, hok]
          exact .inr ⟨rfl, rejected, roles, h₁, h₂,
            Counted.of_sameTally hsame hcounted (.refl _),
            fun h => hl h.2, fun h => hnl fun h' => h ⟨rfl, h'⟩⟩

/-- **What one operation counts.** -/
theorem step_tally (d : RelayUdpDispatch C) (op : Op C)
    (hroom : op.isDatagram = true → Room d.receiver.counters) : StepTally d op := by
  cases op with
  | bindAuthenticatedPeer peer session =>
      refine .inl ⟨nofun, ?_⟩
      show SameTally _ (d.bindAuthenticatedPeer peer session).2.receiver.counters
      rcases bindAuthenticatedPeer_receiver d peer session with h | h
      · rw [h]
        exact .refl _
      · rw [h, registerParentSessionInner_counters]
        exact .refl _
  | bindControlledPeer peer session =>
      refine .inl ⟨nofun, ?_⟩
      show SameTally _ (d.bindControlledPeer peer session).2.receiver.counters
      rcases bindControlledPeer_receiver d peer session with h | h
      · rw [h]
        exact .refl _
      · rw [h, registerParentSessionInner_counters]
        exact .refl _
  | push peer datagram nowUs => exact push_stepTally d peer datagram nowUs (hroom rfl)
  | receiver op =>
      cases op with
      | registerParentSession session _ =>
          refine .inl ⟨nofun, ?_⟩
          show SameTally _ (d.receiver.registerParentSessionInner session).2.counters
          rw [registerParentSessionInner_counters]
          exact .refl _
      | registerControlledParentSession session =>
          refine .inl ⟨nofun, ?_⟩
          show SameTally _ (d.receiver.registerParentSessionInner session.session).2.counters
          rw [registerParentSessionInner_counters]
          exact .refl _
      | announceObject sessionId announcement nowUs =>
          exact .inl ⟨nofun, announceObject_sameTally _ _ _ _⟩
      | pushWireDatagram sessionId wire nowUs =>
          exact .inr ⟨rfl, pushWireDatagram_counted d.receiver sessionId wire nowUs (hroom rfl)⟩
      | expire nowUs => exact .inl ⟨nofun, expire_sameTally _ _⟩

/-- The balance of the books: nothing is counted more often than datagrams are
received, and no received datagram is left uncounted. -/
structure Books (c : RelayIngressCounters) : Prop where
  rejected_le : c.datagramsRejected ≤ c.datagramsReceived
  roles_le : c.sourceDatagrams + c.repairDatagrams ≤ c.datagramsReceived
  received_le : c.datagramsReceived ≤ c.datagramsRejected + c.sourceDatagrams + c.repairDatagrams

theorem Books.room {c : RelayIngressCounters} (h : Books c) (hroom : c.datagramsReceived < u64Max) :
    Room c :=
  ⟨hroom, h.rejected_le.trans_lt hroom, h.roles_le.trans_lt hroom⟩

/-- A run from any balanced state: it ends accounted exactly when it started so
and met no late datagram. -/
theorem exec_accounted_iff_from (ops : List (Op C)) :
    ∀ d : RelayUdpDispatch C, Books d.receiver.counters →
      d.receiver.counters.datagramsReceived + ops.countP Op.isDatagram ≤ u64Max →
      ((exec step d ops).receiver.counters.Accounted
        ↔ d.receiver.counters.Accounted ∧ ∀ e ∈ trace step d ops, ¬LateDatagram e.1 e.2) := by
  induction ops with
  | nil => intro d _ _; simp
  | cons op ops ih =>
      intro d hbooks hfew
      -- `Books` with the number of datagrams to come keeps every counter below saturation
      rw [List.countP_cons] at hfew
      have hroom : op.isDatagram = true → Room d.receiver.counters := by
        intro hdatagram
        rw [if_pos hdatagram] at hfew
        exact hbooks.room (by omega)
      have htally := step_tally d op hroom
      obtain ⟨hrejected, hroles, hreceived⟩ := hbooks
      simp only [exec_cons, trace_cons, List.mem_cons, forall_eq_or_imp]
      rcases htally with ⟨hlate, hr, hj, hs, hp⟩ |
          ⟨hdatagram, rejected, roles, h₁, h₂, ⟨hr, hj, hs⟩, hl, hnl⟩
      · rw [ih _ (by constructor <;> omega) (by omega)]
        simp only [Accounted, hr, hj, hs, hp]
        tauto
      · rw [if_pos hdatagram] at hfew
        -- a late datagram tips the balance for good: nothing is counted less
        -- often than it is received
        have hbooks' : Books (step d op).2.receiver.counters := by
          by_cases h : d.LateDatagram op
          · have := hl h
            constructor <;> omega
          · have := hnl h
            constructor <;> omega
        rw [ih _ hbooks' (by omega)]
        unfold Accounted
        by_cases h : d.LateDatagram op
        · have := hl h
          constructor
          · rintro ⟨heq, _⟩
            omega
          · rintro ⟨_, hnot, _⟩
            exact absurd h hnot
        · have := hnl h
          constructor
          · rintro ⟨heq, hrest⟩
            exact ⟨by omega, h, hrest⟩
          · rintro ⟨heq, _, hrest⟩
            exact ⟨by omega, hrest⟩

/-- **WHEN THE BOOKS BALANCE.**  After every run of fewer than 2⁶⁴ datagrams,
from bound, controlled and unknown peers in any order, every received datagram
is counted once — as rejected, source or repair — exactly when none of them was
a late kind mismatch. -/
theorem exec_accounts_iff {config : RelayObjectReceiverConfig C} {r : RelayObjectReceiver C}
    (h : RelayObjectReceiver.new config = .ok r) (ops : List (Op C))
    (hfew : ops.countP Op.isDatagram ≤ u64Max) :
    (exec step (new r) ops).receiver.counters.Accounted
      ↔ ∀ e ∈ trace step (new r) ops, ¬LateDatagram e.1 e.2 := by
  obtain ⟨_, rfl⟩ := new_ok h
  rw [exec_accounted_iff_from ops (new (initial config)) ⟨le_rfl, le_rfl, le_rfl⟩ (by
    show 0 + _ ≤ _
    omega)]
  exact ⟨fun hrun => hrun.2, fun hrun => ⟨rfl, hrun⟩⟩

def samplePeer : SocketAddr := ⟨"10.0.0.2", 5000⟩

/-- A primary parent behind an authenticated private underlay. -/
def samplePrivatePrimary : AuthenticatedRelayParentSession :=
  ⟨1, ⟨"edge-london", "primary-amsterdam", .privateUdp, .privateAuthenticatedNetwork⟩, 4, 9,
    .primary, false, Nat.one_ne_zero, by decide, rfl⟩

/-- A bound peer sends one of the two symbols of object 1, an unknown peer the
other, and the bound peer a payload of the legacy framing. -/
def sampleTraffic : List (Op sampleCrates) :=
  [.bindAuthenticatedPeer samplePeer samplePrivatePrimary,
    .receiver (.announceObject 1 (sampleAnnouncement 1 1) 1000),
    .push samplePeer (sampleWire 1 0) 1100,
    .push ⟨"10.0.0.9", 5000⟩ (sampleWire 1 1) 1150,
    .push samplePeer [82, 81, 68, 50] 1150]

theorem exec_accounts_iff_sampleTraffic :
    (exec step (new (initial sampleConfig)) sampleTraffic).receiver.counters.datagramsReceived = 2
      ∧ ∀ e ∈ trace step (new (initial sampleConfig)) sampleTraffic, ¬LateDatagram e.1 e.2 :=
  ⟨by decide,
    (exec_accounts_iff (show RelayObjectReceiver.new sampleConfig = .ok _ from rfl) sampleTraffic
      (by decide)).mp (by decide)⟩

/-- The bound peer completes object 1 with the payload of an initialization
segment: two datagrams are received and three are counted. -/
theorem lateDatagram_counted_twice :
    ((exec step (new (initial sampleConfig)) (sampleTraffic.take 3
        ++ [.push samplePeer [82, 76, 83, 49, 1, 1, 1, 0, 0] 1200])).receiver.counters
          = { datagramsReceived := 2, datagramsRejected := 1, sourceDatagrams := 2,
              conflictDrops := 1 })
      ∧ ¬(exec step (new (initial sampleConfig)) (sampleTraffic.take 3
        ++ [.push samplePeer [82, 76, 83, 49, 1, 1, 1, 0, 0] 1200])).receiver.counters.Accounted :=
  ⟨by decide, by decide⟩

end RelayUdpDispatch

end AvMesh.Relay
