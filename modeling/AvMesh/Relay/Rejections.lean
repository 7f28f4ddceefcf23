/-
  AvMesh.Relay.Rejections
  ───────────────────────
  **WHAT A REJECTED DATAGRAM LEAVES BEHIND.**

  A rejected datagram should leave nothing behind but its counters and the
  expiry scans it triggered (`scansOf`).  Every early rejection does: the checks
  run before anything is recorded, and a symbol the assembler refuses leaves the
  assembler as it was (`RefusalKeepsAssembler`).

  One rejection is late.  `validate_object_kind` runs on the DECODED object,
  after the symbol has been recorded, counted and marked as activity
  (`LateKindMismatch`), and its error does not take that back.
  `rejected_leaves_scans_iff` says that this is the only exception.
-/
import AvMesh.Relay.Tables

namespace AvMesh.Relay

open AvMesh.Lib

variable {C : RelayCrates}

/-- What the receiver relies on from `relay_session`: `push_symbol` leaves the
assembler unchanged when it returns an error. -/
def RefusalKeepsAssembler (C : RelayCrates) : Prop :=
  ∀ (assembler : C.ObjectAssembler) (symbol : C.Symbol) (e : RelaySessionError),
    (C.pushSymbol assembler symbol).1 = .error e → (C.pushSymbol assembler symbol).2 = assembler

namespace RelayObjectReceiver

variable {r : RelayObjectReceiver C}

/-! ## §1. The scans of a datagram. -/

/-- The second scan of a push, made for a symbol past its deadline: only when
the symbol passes the checks and has no tombstone. -/
def deadlineScan (r : RelayObjectReceiver C) (session : AuthenticatedRelayParentSession)
    (symbol : C.Symbol) (nowUs : Nat) : RelayObjectReceiver C :=
  match r.checkSymbol session symbol, r.completed.lookup symbol.objectKey with
  | .ok _, none => if C.isExpiredAt symbol.deadline nowUs then (r.expire nowUs).2 else r
  | _, _ => r

/-- The receiver after only the expiry scans that `push_wire_datagram` runs. -/
def scansOf (r : RelayObjectReceiver C) (sessionId : Nat) (wire : Bytes) (nowUs : Nat) :
    RelayObjectReceiver C :=
  match r.session sessionId, C.decodeDatagram wire r.config.relayLimits with
  | .ok session, .ok symbol => (r.expireIfDue nowUs).deadlineScan session symbol nowUs
  | _, _ => r

/-- The receiver with other counters. -/
def withCounters (r : RelayObjectReceiver C) (counters : RelayIngressCounters) :
    RelayObjectReceiver C :=
  { r with counters := counters }

/-- `r'` is `r` but for its counters. -/
def SameButCounters (r r' : RelayObjectReceiver C) : Prop := ∃ counters, r' = r.withCounters counters

theorem removeActiveObject_withCounters (r : RelayObjectReceiver C)
    (counters : RelayIngressCounters) (key : ObjectKey) (removeLogicalKey : Bool) :
    (r.withCounters counters).removeActiveObject key removeLogicalKey
      = ((r.removeActiveObject key removeLogicalKey).1,
        (r.removeActiveObject key removeLogicalKey).2.withCounters counters) := by
  cases hstate : r.objects.lookup key with
  | none =>
      rw [removeActiveObject_none _ hstate,
        removeActiveObject_none (r := r.withCounters counters) _ hstate]
  | some state =>
      rw [removeActiveObject_eq _ hstate,
        removeActiveObject_eq (r := r.withCounters counters) _ hstate]
      rfl

theorem removeExpired_withCounters (counters : RelayIngressCounters) (keys : List ObjectKey) :
    ∀ (result : RelayObjectExpiry) (r : RelayObjectReceiver C),
      removeExpired keys result (r.withCounters counters)
        = ((removeExpired keys result r).1,
          (removeExpired keys result r).2.withCounters counters) := by
  induction keys with
  | nil => intro result r; rfl
  | cons key keys ih =>
      intro result r
      unfold removeExpired
      rw [removeActiveObject_withCounters]
      rcases r.removeActiveObject key true with ⟨_ | state, r'⟩
      · exact ih result r'
      · exact ih _ r'

/-- Scans do not read the counters. -/
theorem expire_sameButCounters (r : RelayObjectReceiver C) (counters : RelayIngressCounters)
    (nowUs : Nat) :
    SameButCounters (r.expire nowUs).2 ((r.withCounters counters).expire nowUs).2 := by
  have hkeys : (r.withCounters counters).expiredKeys nowUs = r.expiredKeys nowUs := rfl
  unfold expire
  rw [hkeys, removeExpired_withCounters]
  exact ⟨_, rfl⟩

theorem expireIfDue_sameButCounters (r : RelayObjectReceiver C) (counters : RelayIngressCounters)
    (nowUs : Nat) :
    SameButCounters (r.expireIfDue nowUs) ((r.withCounters counters).expireIfDue nowUs) := by
  have hdue : (r.withCounters counters).expiryDue nowUs = r.expiryDue nowUs := rfl
  unfold expireIfDue
  rw [hdue]
  split
  · exact expire_sameButCounters r counters nowUs
  · exact ⟨counters, rfl⟩

theorem SameButCounters.trans {r₁ r₂ r₃ : RelayObjectReceiver C} (h₁₂ : SameButCounters r₁ r₂)
    (h₂₃ : SameButCounters r₂ r₃) : SameButCounters r₁ r₃ := by
  obtain ⟨_, rfl⟩ := h₁₂
  obtain ⟨counters, rfl⟩ := h₂₃
  exact ⟨counters, rfl⟩

/-- Recording a rejection changes only counters. -/
theorem recordIfRejected_sameButCounters {α : Type}
    (result : RelayResult α × RelayObjectReceiver C) (datagram : Bool) :
    SameButCounters result.2 (recordIfRejected result datagram).2 := by
  unfold recordIfRejected
  split
  · exact ⟨_, rfl⟩
  · exact ⟨result.2.counters, rfl⟩

/-! ## §2. The late rejection. -/

/-- The symbol is admitted and completes an object whose kind is not the
announced one. -/
structure LateAt (r : RelayObjectReceiver C) (sessionId : Nat)
    (session : AuthenticatedRelayParentSession) (symbol : C.Symbol) (nowUs : Nat)
    (state : ActiveObject C) (packetSequence : Nat) (fingerprint : SymbolFingerprint)
    (object : MediaObject) : Prop where
  checked : r.checkSymbol session symbol = .ok ()
  not_completed : r.completed.lookup symbol.objectKey = none
  in_time : C.isExpiredAt symbol.deadline nowUs = false
  active : r.objects.lookup symbol.objectKey = some state
  admitted : r.admitSymbol sessionId session symbol state = .ok (.accepted packetSequence fingerprint)
  decoded : (C.pushSymbol state.assembler symbol).1 = .ok (some object)
  mismatch : kindCompatible object state.announcement.kind = false

/-- The datagram is, after the due scan, the new symbol that completes an object
of another kind than the announced one. -/
def LateKindMismatch (r : RelayObjectReceiver C) (sessionId : Nat) (wire : Bytes) (nowUs : Nat) :
    Prop :=
  ∃ session symbol state packetSequence fingerprint object,
    r.sessions.lookup sessionId = some session
      ∧ C.decodeDatagram wire r.config.relayLimits = .ok symbol
      ∧ (r.expireIfDue nowUs).LateAt sessionId session symbol nowUs state packetSequence fingerprint
          object

/-- What the late rejection leaves: the symbol stays recorded. -/
theorem LateAt.pushChecked_eq {sessionId nowUs : Nat} {session : AuthenticatedRelayParentSession}
    {symbol : C.Symbol} {state : ActiveObject C} {packetSequence : Nat}
    {fingerprint : SymbolFingerprint} {object : MediaObject}
    (h : r.LateAt sessionId session symbol nowUs state packetSequence fingerprint object) :
    r.pushChecked sessionId session symbol nowUs
      = (.error (.err .objectIdentityConflict),
        r.recordSymbol symbol (withSymbol state (C.pushSymbol state.assembler symbol).2
          packetSequence fingerprint symbol.role nowUs)) := by
  have hpush : C.pushSymbol state.assembler symbol
      = (.ok (some object), (C.pushSymbol state.assembler symbol).2) :=
    Prod.ext h.decoded rfl
  unfold pushChecked
  rw [h.not_completed]
  dsimp only
  rw [h.in_time, if_neg Bool.false_ne_true, h.active]
  dsimp only
  unfold pushActive
  rw [h.admitted]
  dsimp only
  rw [hpush]
  dsimp only
  unfold finishObject validateObjectKind rejectIf
  rw [if_pos (by exact h.mismatch)]

/-- Once a symbol is recorded, only the kind of its object can still reject it. -/
theorem finishObject_rejected {symbol : C.Symbol} {state : ActiveObject C} {object : MediaObject}
    {error : RelayIngressError}
    (h : (r.finishObject symbol state object).1 = .error (.err error)) :
    kindCompatible object state.announcement.kind = false := by
  unfold finishObject validateObjectKind rejectIf at h
  split at h
  next stop hkind =>
    split at hkind
    next hmismatch => exact hmismatch
    next => cases hkind
  next =>
    -- the other ways out are `Decoded` and the two panics
    split at h
    · cases h
    · split at h
      · cases h
      · cases h

/-- A symbol of an active object that is rejected, but not for the kind of its
object, leaves the receiver as it was. -/
theorem pushActive_rejected (hcrate : RefusalKeepsAssembler C) {sessionId nowUs : Nat}
    {session : AuthenticatedRelayParentSession} {symbol : C.Symbol} {state : ActiveObject C}
    {error : RelayIngressError} (hactive : r.objects.lookup symbol.objectKey = some state)
    (hkinds : ∀ packetSequence fingerprint object,
      r.admitSymbol sessionId session symbol state = .ok (.accepted packetSequence fingerprint) →
      (C.pushSymbol state.assembler symbol).1 = .ok (some object) →
      kindCompatible object state.announcement.kind ≠ false)
    (h : (r.pushActive sessionId session symbol state nowUs).1 = .error (.err error)) :
    (r.pushActive sessionId session symbol state nowUs).2 = r := by
  unfold pushActive at h ⊢
  cases hadmission : r.admitSymbol sessionId session symbol state with
  | error stop => rfl
  | ok admission =>
      rw [hadmission] at h
      cases admission with
      | duplicate => cases h
      | accepted packetSequence fingerprint =>
          dsimp only at h ⊢
          rcases hpush : C.pushSymbol state.assembler symbol with ⟨e | _ | object, assembler⟩
          · -- refused by the assembler, which is as before
            have hkept := hcrate state.assembler symbol e (by rw [hpush])
            rw [hpush] at hkept
            dsimp only at hkept ⊢
            rw [hkept, AList.replace_lookup_self hactive]
          · rw [hpush] at h
            cases h
          · rw [hpush] at h
            have hmismatch := finishObject_rejected h
            exact absurd hmismatch
              (hkinds packetSequence fingerprint object hadmission (by rw [hpush]))

/-- **Any other rejection of a checked symbol leaves only the deadline scan.** -/
theorem pushChecked_rejected (hcrate : RefusalKeepsAssembler C) {sessionId nowUs : Nat}
    {session : AuthenticatedRelayParentSession} {symbol : C.Symbol} {error : RelayIngressError}
    (hchecked : r.checkSymbol session symbol = .ok ())
    (hlate : ∀ state packetSequence fingerprint object,
      ¬r.LateAt sessionId session symbol nowUs state packetSequence fingerprint object)
    (h : (r.pushChecked sessionId session symbol nowUs).1 = .error (.err error)) :
    (r.pushChecked sessionId session symbol nowUs).2 = r.deadlineScan session symbol nowUs := by
  unfold deadlineScan
  rw [hchecked]
  unfold pushChecked at h ⊢
  cases hdone : r.completed.lookup symbol.objectKey with
  | some done =>
      rw [hdone] at h
      dsimp only at h ⊢
      unfold pushCompleted at h ⊢
      split at h
      · rfl
      · cases h
  | none =>
      rw [hdone] at h
      dsimp only at h ⊢
      cases htime : C.isExpiredAt symbol.deadline nowUs with
      | true => rfl
      | false =>
          rw [htime, if_neg Bool.false_ne_true] at h
          rw [if_neg Bool.false_ne_true, if_neg Bool.false_ne_true]
          cases hactive : r.objects.lookup symbol.objectKey with
          | none => rfl
          | some state =>
              rw [hactive] at h
              refine pushActive_rejected hcrate hactive ?_ h
              intro packetSequence fingerprint object hadmission hpush hmismatch
              exact hlate state packetSequence fingerprint object
                ⟨hchecked, hdone, htime, hactive, hadmission, hpush, hmismatch⟩

/-! ## §3. Whole datagrams. -/

/-- The receiver in which a datagram's symbol is looked up is the scanned one. -/
theorem countReceived_scan (r : RelayObjectReceiver C) (nowUs : Nat) :
    SameButCounters (r.expireIfDue nowUs) (r.countReceived.expireIfDue nowUs) :=
  expireIfDue_sameButCounters r _ nowUs

theorem deadlineScan_sameButCounters (r : RelayObjectReceiver C) (counters : RelayIngressCounters)
    (session : AuthenticatedRelayParentSession) (symbol : C.Symbol) (nowUs : Nat) :
    SameButCounters (r.deadlineScan session symbol nowUs)
      ((r.withCounters counters).deadlineScan session symbol nowUs) := by
  have hchecked : (r.withCounters counters).checkSymbol session symbol
      = r.checkSymbol session symbol := rfl
  have hcompleted : (r.withCounters counters).completed = r.completed := rfl
  unfold deadlineScan
  rw [hchecked, hcompleted]
  split
  · split
    · exact expire_sameButCounters r counters nowUs
    · exact ⟨counters, rfl⟩
  · exact ⟨counters, rfl⟩

/-- The late rejection does not depend on the counters. -/
theorem LateAt.of_withCounters {counters : RelayIngressCounters} {sessionId nowUs : Nat}
    {session : AuthenticatedRelayParentSession} {symbol : C.Symbol} {state : ActiveObject C}
    {packetSequence : Nat} {fingerprint : SymbolFingerprint} {object : MediaObject}
    (h : (r.withCounters counters).LateAt sessionId session symbol nowUs state packetSequence
      fingerprint object) :
    r.LateAt sessionId session symbol nowUs state packetSequence fingerprint object :=
  ⟨h.checked, h.not_completed, h.in_time, h.active, h.admitted, h.decoded, h.mismatch⟩

theorem LateAt.withCounters {sessionId nowUs : Nat}
    {session : AuthenticatedRelayParentSession} {symbol : C.Symbol} {state : ActiveObject C}
    {packetSequence : Nat} {fingerprint : SymbolFingerprint} {object : MediaObject}
    (h : r.LateAt sessionId session symbol nowUs state packetSequence fingerprint object)
    (counters : RelayIngressCounters) :
    (r.withCounters counters).LateAt sessionId session symbol nowUs state packetSequence
      fingerprint object :=
  ⟨h.checked, h.not_completed, h.in_time, h.active, h.admitted, h.decoded, h.mismatch⟩

/-- **Without a late kind mismatch a rejected datagram leaves only its scans.** -/
theorem tryPushWireDatagram_rejected (hcrate : RefusalKeepsAssembler C) {sessionId nowUs : Nat}
    {wire : Bytes} {error : RelayIngressError}
    (hlate : ¬r.LateKindMismatch sessionId wire nowUs)
    (h : (r.countReceived.tryPushWireDatagram sessionId wire nowUs).1 = .error (.err error)) :
    SameButCounters (r.scansOf sessionId wire nowUs)
      (r.countReceived.tryPushWireDatagram sessionId wire nowUs).2 := by
  have hsession : r.countReceived.session sessionId = r.session sessionId := rfl
  have hconfig : r.countReceived.config = r.config := rfl
  unfold scansOf
  unfold tryPushWireDatagram at h ⊢
  rw [hsession, hconfig] at h ⊢
  cases hs : r.session sessionId with
  | error stop => exact ⟨_, rfl⟩
  | ok session =>
      rw [hs] at h
      dsimp only at h ⊢
      cases hd : C.decodeDatagram wire r.config.relayLimits with
      | error e => exact ⟨_, rfl⟩
      | ok symbol =>
          rw [hd] at h
          dsimp only at h ⊢
          -- the due scan of the counted receiver is that of `r`, but for counters
          obtain ⟨counters, hscan⟩ := countReceived_scan r nowUs
          rw [hscan] at h ⊢
          unfold pushScanned at h ⊢
          cases hchecked : (r.expireIfDue nowUs).checkSymbol session symbol with
          | error stop =>
              have hchecked' : ((r.expireIfDue nowUs).withCounters counters).checkSymbol session
                  symbol = .error stop := hchecked
              rw [hchecked']
              unfold deadlineScan
              rw [hchecked]
              exact ⟨counters, rfl⟩
          | ok _ =>
              have hchecked' : ((r.expireIfDue nowUs).withCounters counters).checkSymbol session
                  symbol = .ok () := hchecked
              rw [hchecked'] at h ⊢
              rw [pushChecked_rejected hcrate hchecked' ?_ h]
              · exact deadlineScan_sameButCounters _ counters session symbol nowUs
              · intro state packetSequence fingerprint object hat
                exact hlate ⟨session, symbol, state, packetSequence, fingerprint, object,
                  session_ok hs, hd, hat.of_withCounters⟩

/-- What a push does on a late kind mismatch. -/
theorem LateAt.tryPushWireDatagram_eq {sessionId nowUs : Nat} {wire : Bytes}
    {session : AuthenticatedRelayParentSession} {symbol : C.Symbol} {state : ActiveObject C}
    {packetSequence : Nat} {fingerprint : SymbolFingerprint} {object : MediaObject}
    (hsession : r.sessions.lookup sessionId = some session)
    (hdecode : C.decodeDatagram wire r.config.relayLimits = .ok symbol)
    (hat : (r.expireIfDue nowUs).LateAt sessionId session symbol nowUs state packetSequence
      fingerprint object) :
    r.tryPushWireDatagram sessionId wire nowUs
      = (.error (.err .objectIdentityConflict),
        (r.expireIfDue nowUs).recordSymbol symbol
          (withSymbol state (C.pushSymbol state.assembler symbol).2 packetSequence fingerprint
            symbol.role nowUs)) := by
  unfold tryPushWireDatagram RelayObjectReceiver.session
  rw [hsession]
  dsimp only
  rw [hdecode]
  dsimp only
  unfold pushScanned
  rw [hat.checked]
  dsimp only
  rw [hat.pushChecked_eq]

/-- The receiver that counted the datagram sees the same late mismatch. -/
theorem LateAt.countReceived {sessionId nowUs : Nat}
    {session : AuthenticatedRelayParentSession} {symbol : C.Symbol} {state : ActiveObject C}
    {packetSequence : Nat} {fingerprint : SymbolFingerprint} {object : MediaObject}
    (hat : (r.expireIfDue nowUs).LateAt sessionId session symbol nowUs state packetSequence
      fingerprint object) :
    (r.countReceived.expireIfDue nowUs).LateAt sessionId session symbol nowUs state packetSequence
      fingerprint object := by
  obtain ⟨counters, hscan⟩ := countReceived_scan r nowUs
  rw [hscan]
  exact hat.withCounters counters

/-- A late kind mismatch is rejected, and the symbol it recorded is still
there. -/
theorem LateKindMismatch.leaves_symbol {sessionId nowUs : Nat} {wire : Bytes}
    (h : r.LateKindMismatch sessionId wire nowUs) :
    (r.pushWireDatagram sessionId wire nowUs).1 = .error (.err .objectIdentityConflict)
      ∧ ¬SameButCounters (r.scansOf sessionId wire nowUs)
        (r.pushWireDatagram sessionId wire nowUs).2 := by
  obtain ⟨session, symbol, state, packetSequence, fingerprint, object, hsession, hdecode, hat⟩ := h
  have htry := LateAt.tryPushWireDatagram_eq (r := r.countReceived) hsession hdecode
    hat.countReceived
  constructor
  · unfold pushWireDatagram
    rw [recordIfRejected_fst, htry]
  · rintro ⟨counters', hsame⟩
    -- compare what the two states hold under the packet sequence
    have hscans : r.scansOf sessionId wire nowUs = r.expireIfDue nowUs := by
      unfold scansOf RelayObjectReceiver.session
      rw [hsession, hdecode]
      dsimp only
      unfold deadlineScan
      rw [hat.checked, hat.not_completed]
      dsimp only
      rw [hat.in_time, if_neg Bool.false_ne_true]
    have hobjects : (r.pushWireDatagram sessionId wire nowUs).2.objects
        = (r.expireIfDue nowUs).objects := by
      rw [hsame, hscans]
      rfl
    have hpushed : (r.pushWireDatagram sessionId wire nowUs).2.objects
        = (r.expireIfDue nowUs).objects.replace symbol.objectKey
          (withSymbol state (C.pushSymbol state.assembler symbol).2 packetSequence fingerprint
            symbol.role nowUs) := by
      obtain ⟨counters, hscan⟩ := countReceived_scan r nowUs
      unfold pushWireDatagram
      rw [htry, hscan]
      rfl
    have hlookup := AList.lookup_replace_self
      (withSymbol state (C.pushSymbol state.assembler symbol).2 packetSequence fingerprint
        symbol.role nowUs) hat.active
    rw [← hpushed, hobjects, hat.active] at hlookup
    have hsymbols : state.symbols = state.symbols.insert packetSequence fingerprint :=
      congrArg ActiveObject.symbols (Option.some.inj hlookup)
    -- but an admitted symbol was new
    have hnew := (admitSymbol_accepted hat.admitted).1
    rw [hsymbols, AList.lookup_insert] at hnew
    cases hnew

/-- **WHEN A REJECTED DATAGRAM IS FREE OF SIDE EFFECTS.**  In every state, a
rejected datagram leaves the receiver as its expiry scans alone would have left
it, but for the counters, exactly when it is not a late kind mismatch. -/
theorem rejected_leaves_scans_iff (hcrate : RefusalKeepsAssembler C) (r : RelayObjectReceiver C)
    (sessionId : Nat) (wire : Bytes) (nowUs : Nat) :
    ((∃ error, (r.pushWireDatagram sessionId wire nowUs).1 = .error (.err error)) →
        SameButCounters (r.scansOf sessionId wire nowUs)
          (r.pushWireDatagram sessionId wire nowUs).2)
      ↔ ¬r.LateKindMismatch sessionId wire nowUs := by
  constructor
  · intro hfree hlate
    obtain ⟨hrejected, hleaves⟩ := hlate.leaves_symbol
    exact hleaves (hfree ⟨_, hrejected⟩)
  · rintro hlate ⟨error, herror⟩
    unfold pushWireDatagram at herror ⊢
    rw [recordIfRejected_fst] at herror
    exact (tryPushWireDatagram_rejected hcrate hlate herror).trans
      (recordIfRejected_sameButCounters _ _)

theorem sampleCrates_refusalKeeps : RefusalKeepsAssembler sampleCrates := by
  intro assembler symbol e h
  have h' : (samplePush assembler symbol).1 = .error e := h
  show (samplePush assembler symbol).2 = assembler
  unfold samplePush at h' ⊢
  split
  · rfl
  next hcoding =>
    rw [if_neg hcoding] at h'
    split at h' <;> cases h'

/-- Object 1 is announced as a video keyframe and has one of its two symbols. -/
def sampleHalf : List (Op sampleCrates) :=
  [.registerParentSession samplePrimary samplePrimary_uncontrolled,
    .announceObject 1 (sampleAnnouncement 1 1) 1000,
    .pushWireDatagram 1 (sampleWire 1 0) 1100]

/-- A datagram of a session that is not registered is rejected without a
trace. -/
theorem rejected_leaves_scans_iff_unregistered :
    ((exec step (initial sampleConfig) sampleHalf).pushWireDatagram 2 (sampleWire 1 1) 1200).1
        = .error (.err (.parentSessionMissing 2))
      ∧ SameButCounters
        ((exec step (initial sampleConfig) sampleHalf).scansOf 2 (sampleWire 1 1) 1200)
        ((exec step (initial sampleConfig) sampleHalf).pushWireDatagram 2 (sampleWire 1 1) 1200).2 := by
  have hrejected : ((exec step (initial sampleConfig) sampleHalf).pushWireDatagram 2
      (sampleWire 1 1) 1200).1 = .error (.err (.parentSessionMissing 2)) := by decide
  refine ⟨hrejected, (rejected_leaves_scans_iff sampleCrates_refusalKeeps _ _ _ _).mpr ?_
    ⟨_, hrejected⟩⟩
  rintro ⟨session, _, _, _, _, _, hsession, _⟩
  have hnone : (exec step (initial sampleConfig) sampleHalf).sessions.lookup 2 = none := by decide
  rw [hnone] at hsession
  cases hsession

/-- The second symbol of object 1 completes a payload that is an
initialization segment.  It is rejected, and yet recorded: its object has two
symbols now where the scans leave one. -/
theorem lateKindMismatch_stays_recorded :
    RefusalKeepsAssembler sampleCrates
      ∧ ((exec step (initial sampleConfig) sampleHalf).pushWireDatagram 1
        [82, 76, 83, 49, 1, 1, 1, 0, 0] 1200).1 = .error (.err .objectIdentityConflict)
      ∧ ¬SameButCounters
        ((exec step (initial sampleConfig) sampleHalf).scansOf 1
          [82, 76, 83, 49, 1, 1, 1, 0, 0] 1200)
        ((exec step (initial sampleConfig) sampleHalf).pushWireDatagram 1
          [82, 76, 83, 49, 1, 1, 1, 0, 0] 1200).2 := by
  refine ⟨sampleCrates_refusalKeeps, by decide, ?_⟩
  have hscans : ((exec step (initial sampleConfig) sampleHalf).scansOf 1
      [82, 76, 83, 49, 1, 1, 1, 0, 0] 1200).bufferedDatagrams = 1 := by decide
  have hpushed : ((exec step (initial sampleConfig) sampleHalf).pushWireDatagram 1
      [82, 76, 83, 49, 1, 1, 1, 0, 0] 1200).2.bufferedDatagrams = 2 := by decide
  rintro ⟨counters, hsame⟩
  rw [hsame] at hpushed
  exact absurd (hscans.symm.trans hpushed) (by decide)

end RelayObjectReceiver

end AvMesh.Relay
