/-
  AvMesh.Relay.Parents
  ────────────────────
  **PARENT AUTHORIZATION OF THE RELAY RECEIVER.**

  Membership in the parent set of an object is decided when a parent announces
  it and enforced on every receive path.  `ParentsAuthorized` carries it
  through every transition:

    • a parent set is a nonempty, bounded set of registered sessions whose
      generation and subscription are those of the announcement (`Authorized`),
    • two parents of one object hold different roles, and share a peer only if
      both are controlled qualification sessions (`Compatible`),
    • an object is stored under the key it was announced with, together with an
      assembler that was built for that announcement (`AssemblerFor`).

  Every accepted datagram then comes from a parent of the very object it is
  about (`pushWireDatagram_fromParent`), and the lookup of a parent's session
  never fails (`Authorized.noPanic_addParentToSet`).
-/
import AvMesh.Relay.Tables

namespace AvMesh.Relay

open AvMesh.Lib

variable {C : RelayCrates}

/-! ## §1. Parent sets. -/

/-- Two sessions may be parents of one object. -/
def Compatible (s₁ s₂ : AuthenticatedRelayParentSession) : Prop :=
  s₁.parentPath ≠ s₂.parentPath
    ∧ (s₁.identity.peer = s₂.identity.peer →
        s₁.controlledQualification = true ∧ s₂.controlledQualification = true)

theorem Compatible.symm {s₁ s₂ : AuthenticatedRelayParentSession} (h : Compatible s₁ s₂) :
    Compatible s₂ s₁ :=
  ⟨h.1.symm, fun hpeer => (h.2 hpeer.symm).symm⟩

/-- The parents of an object with the given announcement. -/
structure Authorized (config : RelayObjectReceiverConfig C)
    (sessions : Table Nat AuthenticatedRelayParentSession) (parents : ParentSet)
    (announcement : C.Announcement) : Prop where
  nonempty : parents.val ≠ []
  size_le : parents.val.length ≤ config.maxParentsPerObject
  registered : ∀ id ∈ parents.val, ∃ session, sessions.lookup id = some session
    ∧ session.generation = announcement.generation
    ∧ session.subscriptionId = announcement.subscriptionId
  compatible : ∀ id₁ ∈ parents.val, ∀ id₂ ∈ parents.val, id₁ ≠ id₂ →
    ∀ s₁ s₂, sessions.lookup id₁ = some s₁ → sessions.lookup id₂ = some s₂ → Compatible s₁ s₂

/-- The assemblers that can be found behind an announcement. -/
inductive AssemblerFor (announcement : C.Announcement) : C.ObjectAssembler → Prop where
  | new {limits : C.RelayLimits} {assembler : C.ObjectAssembler}
      (h : C.newAssembler announcement limits = .ok assembler) :
      AssemblerFor announcement assembler
  | pushSymbol {assembler : C.ObjectAssembler} (symbol : C.Symbol)
      (h : AssemblerFor announcement assembler) :
      AssemblerFor announcement (C.pushSymbol assembler symbol).2
  | takeCompletedEnvelope {assembler : C.ObjectAssembler}
      (h : AssemblerFor announcement assembler) :
      AssemblerFor announcement (C.takeCompletedEnvelope assembler).2

/-- What the receiver relies on from `relay_session`: an assembler only returns
an object whose key is the one it was built for. -/
def AssemblerKeepsKey (C : RelayCrates) : Prop :=
  ∀ (announcement : C.Announcement) (assembler : C.ObjectAssembler) (symbol : C.Symbol)
    (object : MediaObject), AssemblerFor announcement assembler →
    (C.pushSymbol assembler symbol).1 = .ok (some object) → object.key = announcement.key

variable {config : RelayObjectReceiverConfig C}
  {sessions : Table Nat AuthenticatedRelayParentSession}
  {session : AuthenticatedRelayParentSession} {announcement : C.Announcement}
  {parents parents' : ParentSet}

theorem validateSessionAnnouncement_ok
    (h : validateSessionAnnouncement session announcement = .ok ()) :
    session.generation = announcement.generation
      ∧ session.subscriptionId = announcement.subscriptionId := by
  have hnot := RelayObjectReceiver.rejectIf_ok h
  rw [not_or, not_not, not_not] at hnot
  exact ⟨hnot.1.symm, hnot.2.symm⟩

/-- Registering one more session keeps a parent set authorized. -/
theorem Authorized.addSession (h : Authorized config sessions parents announcement)
    (hnew : sessions.lookup session.sessionId = none) :
    Authorized config (sessions.insert session.sessionId session) parents announcement := by
  -- the new session has a new id, so the parents' sessions are looked up as before
  have hkeep : ∀ id ∈ parents.val,
      (sessions.insert session.sessionId session).lookup id = sessions.lookup id := by
    intro id hid
    obtain ⟨s, hs, _⟩ := h.registered id hid
    refine AList.lookup_insert_ne ?_
    rintro rfl
    rw [hnew] at hs
    cases hs
  constructor
  case nonempty => exact h.nonempty
  case size_le => exact h.size_le
  case registered =>
    intro id hid
    rw [hkeep id hid]
    exact h.registered id hid
  case compatible =>
    intro id₁ h₁ id₂ h₂
    rw [hkeep id₁ h₁, hkeep id₂ h₂]
    exact h.compatible id₁ h₁ id₂ h₂

/-- The parent set of a newly started object. -/
theorem Authorized.start (hb : ConfigBounds config) {id : Nat}
    (hsession : sessions.lookup id = some session)
    (hvalid : validateSessionAnnouncement session announcement = .ok ()) :
    Authorized config sessions ⟨[id], List.nodup_singleton id⟩ announcement := by
  constructor
  case nonempty => exact List.cons_ne_nil _ _
  case size_le => exact hb.parentsPerObject.1
  case registered =>
    intro id' hid
    rw [List.mem_singleton] at hid
    exact ⟨session, hid ▸ hsession, validateSessionAnnouncement_ok hvalid⟩
  case compatible =>
    intro id₁ h₁ id₂ h₂ hne
    rw [List.mem_singleton] at h₁ h₂
    exact absurd (h₁.trans h₂.symm) hne

/-- What the loop of `add_parent_to_set` has checked when it runs through. -/
theorem checkParents_ok {ids : List Nat} (h : checkParents sessions session ids = .ok ()) :
    ∀ id ∈ ids, ∃ existing, sessions.lookup id = some existing ∧ Compatible existing session := by
  induction ids with
  | nil => intro id hid; cases hid
  | cons head ids ih =>
      unfold checkParents at h
      split at h
      · cases h
      next existing hexisting =>
        split at h
        · cases h
        next hpeer =>
          split at h
          · cases h
          next hpath =>
            intro id hid
            rcases List.mem_cons.mp hid with rfl | hid
            · refine ⟨existing, hexisting, hpath, ?_⟩
              intro heq
              simpa [heq] using hpeer
            · exact ih h id hid

/-- **Adding a parent keeps a parent set authorized.** -/
theorem Authorized.addParent (h : Authorized config sessions parents announcement)
    (hsession : sessions.lookup session.sessionId = some session)
    (hvalid : validateSessionAnnouncement session announcement = .ok ())
    (hadd : addParentToSet sessions parents session config.maxParentsPerObject = .ok parents') :
    Authorized config sessions parents' announcement := by
  unfold addParentToSet at hadd
  split at hadd
  · cases hadd
    exact h
  next hnotin =>
    split at hadd
    · cases hadd
    next hroom =>
      obtain ⟨_, hchecked, hadd⟩ := except_bind_eq_ok.mp hadd
      cases hadd
      have hval : (parents.insert session.sessionId).val = session.sessionId :: parents.val :=
        List.insert_of_not_mem hnotin
      have hcompat := checkParents_ok hchecked
      constructor
      case nonempty =>
        rw [hval]
        exact List.cons_ne_nil _ _
      case size_le =>
        rw [hval, List.length_cons]
        omega
      case registered =>
        intro id hid
        rw [hval] at hid
        rcases List.mem_cons.mp hid with rfl | hid
        · exact ⟨session, hsession, validateSessionAnnouncement_ok hvalid⟩
        · exact h.registered id hid
      case compatible =>
        -- a pair either contains the new parent, which was checked against
        -- every old one, or was compatible before
        have hnew : ∀ id ∈ parents.val, ∀ s, sessions.lookup id = some s → Compatible s session := by
          intro id hid s hs
          obtain ⟨existing, hexisting, hc⟩ := hcompat id hid
          cases Option.some.inj (hexisting.symm.trans hs)
          exact hc
        intro id₁ h₁ id₂ h₂ hne s₁ s₂ hs₁ hs₂
        rw [hval] at h₁ h₂
        rcases List.mem_cons.mp h₁ with rfl | h₁
        · cases Option.some.inj (hsession.symm.trans hs₁)
          rcases List.mem_cons.mp h₂ with rfl | h₂
          · exact absurd rfl hne
          · exact (hnew id₂ h₂ s₂ hs₂).symm
        · rcases List.mem_cons.mp h₂ with rfl | h₂
          · cases Option.some.inj (hsession.symm.trans hs₂)
            exact hnew id₁ h₁ s₁ hs₁
          · exact h.compatible id₁ h₁ id₂ h₂ hne s₁ s₂ hs₁ hs₂

theorem noPanic_checkParents {ids : List Nat}
    (hregistered : ∀ id ∈ ids, ∃ s, sessions.lookup id = some s) :
    NoPanic (checkParents sessions session ids) := by
  induction ids with
  | nil => exact .ok ()
  | cons head ids ih =>
      obtain ⟨existing, hexisting⟩ := hregistered head List.mem_cons_self
      unfold checkParents
      rw [hexisting]
      dsimp only
      split
      · exact .err _
      · split
        · exact .err _
        · exact ih fun id hid => hregistered id (List.mem_cons_of_mem _ hid)

/-- **The sessions of the parents are found**: adding a parent to an authorized
set does not reach the `expect`. -/
theorem Authorized.noPanic_addParentToSet (h : Authorized config sessions parents announcement)
    (candidate : AuthenticatedRelayParentSession) (maxParents : Nat) :
    NoPanic (addParentToSet sessions parents candidate maxParents) := by
  unfold addParentToSet
  split
  · exact .ok _
  · split
    · exact .err _
    · have hregistered : ∀ id ∈ parents.val, ∃ s, sessions.lookup id = some s := fun id hid =>
        (h.registered id hid).imp fun _ hs => hs.1
      exact (noPanic_checkParents hregistered).bind fun _ => .ok _

namespace RelayObjectReceiver

/-! ## §2. The invariant of the receiver. -/

variable {r r' : RelayObjectReceiver C}

structure ActiveSound (config : RelayObjectReceiverConfig C)
    (sessions : Table Nat AuthenticatedRelayParentSession) (key : ObjectKey)
    (state : ActiveObject C) : Prop where
  key_eq : state.announcement.key = key
  assembler : AssemblerFor state.announcement state.assembler
  parents : Authorized config sessions state.parentSessions state.announcement

structure CompletedSound (config : RelayObjectReceiverConfig C)
    (sessions : Table Nat AuthenticatedRelayParentSession) (key : ObjectKey)
    (done : CompletedObject C) : Prop where
  key_eq : done.announcement.key = key
  parents : Authorized config sessions done.parentSessions done.announcement

structure ParentsAuthorized (config : RelayObjectReceiverConfig C) (r : RelayObjectReceiver C) :
    Prop where
  config_eq : r.config = config
  session_id : ∀ id session, r.sessions.lookup id = some session → session.sessionId = id
  active : ∀ key state, r.objects.lookup key = some state →
    ActiveSound config r.sessions key state
  completed : ∀ key done, r.completed.lookup key = some done →
    CompletedSound config r.sessions key done

/-- Putting a sound object under its key. -/
theorem ParentsAuthorized.replaceObject (h : ParentsAuthorized config r) {key : ObjectKey}
    {state state' : ActiveObject C} (hstate : r.objects.lookup key = some state)
    (hsound : ActiveSound config r.sessions key state') :
    ∀ k s, (r.objects.replace key state').lookup k = some s →
      ActiveSound config r.sessions k s := by
  intro k s hs
  rcases AList.lookup_of_replace hstate hs with ⟨rfl, rfl⟩ | ⟨_, hold⟩
  · exact hsound
  · exact h.active k s hold

theorem Move.parentsAuthorized (hb : ConfigBounds config) (hmove : Move r r')
    (h : ParentsAuthorized config r) : ParentsAuthorized config r' := by
  cases hmove with
  | bookkeep counters next => exact { h with }
  | addSession session hnew hroom =>
      exact {
        config_eq := h.config_eq
        session_id := by
          intro id s hs
          rcases AList.lookup_of_insert hs with ⟨rfl, rfl⟩ | ⟨_, hold⟩
          · rfl
          · exact h.session_id id s hold
        active := fun key state hstate =>
          { h.active key state hstate with
            parents := (h.active key state hstate).parents.addSession hnew }
        completed := fun key done hdone =>
          { h.completed key done hdone with
            parents := (h.completed key done hdone).parents.addSession hnew } }
  | dropObject key state hstate =>
      rw [removeActiveObject_eq true hstate]
      refine { h with active := ?_ }
      intro k s hs
      exact h.active k s (AList.lookup_of_erase hs).2
  | start _ sessionId session announcement nowUs hsession hvalid hlogical hcompleted hobjects
      hstart =>
      obtain ⟨assembler, hassembler, _, _, rfl⟩ := startObject_started hstart
      refine { h with active := ?_ }
      intro k s hs
      rcases AList.lookup_of_insert hs with ⟨rfl, rfl⟩ | ⟨_, hold⟩
      · exact ⟨rfl, .new hassembler, Authorized.start hb hsession hvalid⟩
      · exact h.active k s hold
  | joinActive sessionId session key active parents nowUs hsession hvalid hactive hparents =>
      have hsound := h.active key active hactive
      have hid := h.session_id sessionId session hsession
      rw [h.config_eq] at hparents
      refine { h with active := h.replaceObject hactive ⟨hsound.key_eq, hsound.assembler, ?_⟩ }
      exact hsound.parents.addParent (hid ▸ hsession) hvalid hparents
  | joinCompleted sessionId session key done parents hsession hvalid hdone hparents =>
      have hsound := h.completed key done hdone
      have hid := h.session_id sessionId session hsession
      rw [h.config_eq] at hparents
      refine { h with completed := ?_ }
      intro k d hd
      rcases AList.lookup_of_replace hdone hd with ⟨rfl, rfl⟩ | ⟨_, hold⟩
      · exact ⟨hsound.key_eq, hsound.parents.addParent (hid ▸ hsession) hvalid hparents⟩
      · exact h.completed k d hold
  | refuseSymbol symbol state hstate =>
      have hsound := h.active _ state hstate
      exact { h with
        active := h.replaceObject hstate
          ⟨hsound.key_eq, hsound.assembler.pushSymbol symbol, hsound.parents⟩ }
  | recordSymbol symbol state packetSequence fingerprint nowUs hstate hnew hsymbols hbuffered =>
      have hsound := h.active _ state hstate
      exact { h with
        active := h.replaceObject hstate
          ⟨hsound.key_eq, hsound.assembler.pushSymbol symbol, hsound.parents⟩ }
  | takeEnvelope key state hstate =>
      have hsound := h.active key state hstate
      exact { h with
        active := h.replaceObject hstate
          ⟨hsound.key_eq, hsound.assembler.takeCompletedEnvelope, hsound.parents⟩ }

/-- The eviction loop only removes tombstones. -/
theorem lookup_of_evictCompleted {maxCompleted : Nat} {key : ObjectKey}
    {done : CompletedObject C} :
    ∀ (order : List ObjectKey) (completed : Table ObjectKey (CompletedObject C))
      (logical : Table LogicalObjectIdentity ObjectKey),
      (evictCompleted maxCompleted order completed logical).2.1.lookup key = some done →
        completed.lookup key = some done := by
  intro order
  induction order with
  | nil => intro completed logical h; exact h
  | cons oldest order ih =>
      intro completed logical h
      unfold evictCompleted at h
      split at h
      · split at h
        · exact (AList.lookup_of_erase (ih _ _ h)).2
        · exact ih _ _ h
      · exact h

theorem ParentsAuthorized.complete (h : ParentsAuthorized config r) {key : ObjectKey}
    {active : ActiveObject C} (hactive : r.objects.lookup key = some active) :
    ParentsAuthorized config (r.complete key active) := by
  unfold RelayObjectReceiver.complete
  rw [removeActiveObject_eq false hactive]
  refine { h with active := ?_, completed := ?_ }
  · intro k s hs
    have herased : (r.objects.erase key).lookup k = some s := hs
    exact h.active k s (AList.lookup_of_erase herased).2
  · intro k d hd
    unfold insertCompleted at hd
    dsimp only at hd
    rcases AList.lookup_of_insert hd with ⟨rfl, rfl⟩ | ⟨_, hkept⟩
    · -- the tombstone takes over the parents of the active object
      have hsound := h.active _ active hactive
      exact ⟨hsound.key_eq, hsound.parents⟩
    · exact h.completed k d (lookup_of_evictCompleted _ _ _ hkept)

theorem step_parentsAuthorized (hb : ConfigBounds config) (r : RelayObjectReceiver C) (op : Op C)
    (h : ParentsAuthorized config r) : ParentsAuthorized config (step r op).2 :=
  (step_effect r op).preserves (fun hmove hr => hmove.parentsAuthorized hb hr)
    (fun hactive hr => hr.complete hactive) h

theorem exec_parentsAuthorized (h : RelayObjectReceiver.new config = .ok r) (ops : List (Op C)) :
    ParentsAuthorized config (exec step r ops) := by
  obtain ⟨hb, rfl⟩ := new_ok h
  refine exec_invariant step _ (step_parentsAuthorized hb) ops ?_
  exact {
    config_eq := rfl
    session_id := fun id s hs => by simp [initial] at hs
    active := fun key s hs => by simp [initial] at hs
    completed := fun key d hd => by simp [initial] at hd }

/-! ## §3. Accepted datagrams come from parents. -/

/-- The parent set of a live object. -/
def parentsOf (r : RelayObjectReceiver C) (key : ObjectKey) : Option ParentSet :=
  match r.objects.lookup key with
  | some state => some state.parentSessions
  | none => (r.completed.lookup key).map CompletedObject.parentSessions

/-- The datagram came from a parent of the object its symbol belongs to, the
parent's session agrees with the symbol, and — with assemblers that keep their
key — the outcome is about that object. -/
def FromParent (r : RelayObjectReceiver C) (sessionId : Nat) (wire : Bytes)
    (outcome : RelayIngressOutcome) : Prop :=
  ∃ symbol session parents,
    C.decodeDatagram wire r.config.relayLimits = .ok symbol
      ∧ r.sessions.lookup sessionId = some session
      ∧ r.parentsOf symbol.objectKey = some parents
      ∧ sessionId ∈ parents.val
      ∧ session.generation = symbol.generation
      ∧ session.subscriptionId = symbol.subscriptionId
      ∧ C.permits session.parentPath symbol.pathIntent = true
      ∧ (AssemblerKeepsKey C → outcome.key = symbol.objectKey)

/-- What a scan can do: forget active objects. -/
structure ScanOf (r r' : RelayObjectReceiver C) : Prop where
  completed_eq : r'.completed = r.completed
  objects_sub : ∀ key state, r'.objects.lookup key = some state → r.objects.lookup key = some state

theorem removeExpired_scanOf (keys : List ObjectKey) (result : RelayObjectExpiry)
    (r : RelayObjectReceiver C) : ScanOf r (removeExpired keys result r).2 := by
  refine removeExpired_keeps ?_ keys result r ⟨rfl, fun _ _ h => h⟩
  intro r' key state hstate hscan
  rw [removeActiveObject_eq true hstate]
  refine ⟨hscan.completed_eq, ?_⟩
  intro k s hs
  exact hscan.objects_sub k s (AList.lookup_of_erase hs).2

theorem expireIfDue_scanOf (r : RelayObjectReceiver C) (nowUs : Nat) :
    ScanOf r (r.expireIfDue nowUs) := by
  unfold expireIfDue
  split
  · exact { removeExpired_scanOf _ _ _ with }
  · exact ⟨rfl, fun _ _ h => h⟩

/-- An accepted symbol of an active object: its sender is a parent, and the
outcome is about the symbol's object unless the assembler said otherwise. -/
theorem pushActive_ok {sessionId nowUs : Nat} {session : AuthenticatedRelayParentSession}
    {symbol : C.Symbol} {state : ActiveObject C} {outcome : RelayIngressOutcome}
    (h : (r.pushActive sessionId session symbol state nowUs).1 = .ok outcome) :
    sessionId ∈ state.parentSessions.val
      ∧ (outcome.key = symbol.objectKey
        ∨ ∃ object, (C.pushSymbol state.assembler symbol).1 = .ok (some object)
          ∧ outcome.key = object.key) := by
  unfold pushActive at h
  cases hadmission : r.admitSymbol sessionId session symbol state with
  | error stop =>
      rw [hadmission] at h
      cases h
  | ok admission =>
      have hparent : sessionId ∈ state.parentSessions.val := by
        unfold admitSymbol at hadmission
        obtain ⟨_, hauth, _⟩ := except_bind_eq_ok.mp hadmission
        have hnot := rejectIf_ok hauth
        rw [not_or, not_not] at hnot
        exact hnot.1
      refine ⟨hparent, ?_⟩
      rw [hadmission] at h
      cases admission with
      | duplicate =>
          cases h
          exact .inl rfl
      | accepted packetSequence fingerprint =>
          dsimp only at h
          split at h
          next => cases h
          next =>
            cases h
            exact .inl rfl
          next object assembler hpush =>
            refine .inr ⟨object, by rw [hpush], ?_⟩
            unfold finishObject at h
            split at h
            · cases h
            · split at h
              · cases h
              · split at h
                · cases h
                · cases h
                  rfl

theorem pushCompleted_ok {session : AuthenticatedRelayParentSession} {symbol : C.Symbol}
    {done : CompletedObject C} {outcome : RelayIngressOutcome}
    (h : (r.pushCompleted session symbol done).1 = .ok outcome) :
    session.sessionId ∈ done.parentSessions.val ∧ outcome.key = symbol.objectKey := by
  unfold pushCompleted at h
  split at h
  · cases h
  next hvalid =>
    have hnot := rejectIf_ok hvalid
    rw [not_or, not_not] at hnot
    cases h
    exact ⟨hnot.1, rfl⟩

/-- **Every accepted datagram comes from a parent of its object.** -/
theorem ParentsAuthorized.pushWireDatagram_fromParent (h : ParentsAuthorized config r)
    (htables : TableConsistent config r) {sessionId nowUs : Nat} {wire : Bytes}
    {outcome : RelayIngressOutcome}
    (hok : (r.pushWireDatagram sessionId wire nowUs).1 = .ok outcome) :
    FromParent r sessionId wire outcome := by
  rcases pushWireDatagram_cases r sessionId wire nowUs with
    ⟨error, herror⟩ | ⟨session, symbol, hsession, hdecode, hvalid, _, heq⟩
  · rw [herror] at hok
    cases hok
  · rw [heq] at hok
    have hnot := rejectIf_ok hvalid
    simp only [not_or, not_not, Bool.not_eq_false] at hnot
    obtain ⟨hgeneration, hsubscription, hpermits⟩ := hnot
    have hscan : ScanOf r (r.countReceived.expireIfDue nowUs) :=
      { expireIfDue_scanOf r.countReceived nowUs with }
    unfold pushChecked at hok
    split at hok
    next done hdone =>
      -- a late symbol: the scan left the tombstone alone, and a tombstone's key is
      -- not active, so `parentsOf` reads the parents of the tombstone
      obtain ⟨hparent, hkey⟩ := pushCompleted_ok hok
      rw [hscan.completed_eq] at hdone
      rw [h.session_id _ _ hsession] at hparent
      have hnone : r.objects.lookup symbol.objectKey = none := by
        rw [AList.lookup_eq_none]
        intro hactive
        exact htables.disjoint _ hactive (AList.mem_of_lookup hdone)
      have hparents : r.parentsOf symbol.objectKey = some done.parentSessions := by
        unfold parentsOf
        rw [hnone, hdone]
        rfl
      exact ⟨symbol, session, done.parentSessions, hdecode, hsession, hparents, hparent,
        hgeneration.symm, hsubscription.symm, hpermits, fun _ => hkey⟩
    next =>
      split at hok
      · cases hok
      · split at hok
        · cases hok
        next state hstate =>
          obtain ⟨hparent, hkey⟩ := pushActive_ok hok
          have hstate' := hscan.objects_sub _ _ hstate
          have hparents : r.parentsOf symbol.objectKey = some state.parentSessions := by
            unfold parentsOf
            rw [hstate']
          refine ⟨symbol, session, state.parentSessions, hdecode, hsession, hparents, hparent,
            hgeneration.symm, hsubscription.symm, hpermits, ?_⟩
          intro hkeeps
          rcases hkey with hkey | ⟨object, hpush, hkey⟩
          · exact hkey
          · have hsound := h.active _ state hstate'
            rw [hkey, hkeeps _ _ symbol object hsound.assembler hpush, hsound.key_eq]

/-! ## §4. The parents' sessions are found. -/

/-- The message a call panicked with. -/
def Reply.panicMessage : Reply → Option String
  | .registered (.error (.panic message)) => some message
  | .announced (.error (.panic message)) => some message
  | .pushed (.error (.panic message)) => some message
  | _ => none

theorem noPanic_rejectIf (condition : Prop) [Decidable condition] (error : RelayIngressError) :
    NoPanic (rejectIf condition error) := by
  unfold rejectIf
  split
  · exact .err error
  · exact .ok ()

theorem noPanic_session (r : RelayObjectReceiver C) (sessionId : Nat) :
    NoPanic (r.session sessionId) := by
  unfold RelayObjectReceiver.session
  split
  · exact .ok _
  · exact .err _

theorem noPanic_checkAnnouncement (r : RelayObjectReceiver C) (sessionId : Nat)
    (announcement : C.Announcement) : NoPanic (r.checkAnnouncement sessionId announcement) := by
  unfold checkAnnouncement
  refine (noPanic_session r sessionId).bind fun session => ?_
  refine (noPanic_rejectIf _ _).bind fun _ => ?_
  refine (NoPanic.mapError _ _).bind fun _ => ?_
  refine (noPanic_rejectIf _ _).bind fun _ => ?_
  refine (noPanic_rejectIf _ _).bind fun _ => ?_
  exact .ok session

theorem noPanic_admitSymbol (r : RelayObjectReceiver C) (sessionId : Nat)
    (session : AuthenticatedRelayParentSession) (symbol : C.Symbol) (state : ActiveObject C) :
    NoPanic (r.admitSymbol sessionId session symbol state) := by
  unfold admitSymbol
  refine (noPanic_rejectIf _ _).bind fun _ => ?_
  refine (NoPanic.mapError _ _).bind fun packetSequence => ?_
  unfold classifySymbol
  split
  · split
    · exact .ok _
    · exact .err _
  · split
    · exact .err _
    · split
      · exact .err _
      · exact .ok _

theorem registered_panicMessage (r : RelayObjectReceiver C)
    (session : AuthenticatedRelayParentSession) :
    (Reply.registered (r.registerParentSessionInner session).1).panicMessage
      ≠ some "object parent sessions remain registered" := by
  unfold registerParentSessionInner
  split
  · split <;> exact nofun
  · split <;> exact nofun

/-- Announcements never panic. -/
theorem ParentsAuthorized.noPanic_announceScanned (h : ParentsAuthorized config r)
    (sessionId : Nat) (announcement : C.Announcement) (nowUs : Nat) :
    NoPanic (r.announceScanned sessionId announcement nowUs).1 := by
  unfold announceScanned
  cases hcheck : r.checkAnnouncement sessionId announcement with
  | error stop => exact (noPanic_checkAnnouncement r sessionId announcement).error hcheck
  | ok session =>
      dsimp only
      cases hdone : r.completed.lookup announcement.key with
      | some done =>
          dsimp only
          unfold rejoinCompleted
          split
          · exact .err _
          · split
            next stop hstop =>
              exact ((h.completed _ done hdone).parents.noPanic_addParentToSet _ _).error hstop
            next => exact .ok _
      | none =>
          dsimp only
          split
          · exact .err _
          · cases hactive : r.objects.lookup announcement.key with
            | some active =>
                dsimp only
                unfold joinActive
                split
                · exact .err _
                · split
                  next stop hstop =>
                    exact ((h.active _ active hactive).parents.noPanic_addParentToSet _ _).error
                      hstop
                  next => exact .ok _
            | none =>
                rcases startObject_cases r sessionId announcement nowUs with ⟨_, heq⟩ | ⟨_, heq⟩
                · rw [heq]
                  exact .ok _
                · rw [heq]
                  exact .err _

/-- The two `expect`s a datagram can reach, neither of which looks up a
parent's session. -/
theorem pushWireDatagram_panic {sessionId nowUs : Nat} {wire : Bytes} {message : String}
    (h : (r.pushWireDatagram sessionId wire nowUs).1 = .error (.panic message)) :
    message = "a completed object must retain its validated canonical envelope"
      ∨ message = "decoded object has active receive state" := by
  rcases pushWireDatagram_cases r sessionId wire nowUs with
    ⟨error, herror⟩ | ⟨session, symbol, _, _, _, _, heq⟩
  · rw [herror] at h
    cases h
  · rw [heq] at h
    unfold pushChecked at h
    split at h
    · unfold pushCompleted at h
      split at h
      next stop hstop => exact absurd h (((noPanic_rejectIf _ _).error hstop) message)
      next => cases h
    · split at h
      · cases h
      · split at h
        · cases h
        next state _ =>
          unfold pushActive at h
          split at h
          next stop hstop =>
            have hadmission : NoPanic ((r.countReceived.expireIfDue nowUs).admitSymbol sessionId
                session symbol state) := noPanic_admitSymbol _ _ _ _ _
            exact absurd h ((hadmission.error hstop) message)
          next => cases h
          next =>
            split at h
            · cases h
            · cases h
            · unfold finishObject at h
              split at h
              next stop hstop => exact absurd h (((noPanic_rejectIf _ _).error hstop) message)
              next =>
                split at h
                · cases h
                  exact .inl rfl
                · split at h
                  · cases h
                    exact .inr rfl
                  · cases h

/-- In a state with authorized parents no operation fails to find a parent's
session. -/
theorem ParentsAuthorized.step_panicMessage (hb : ConfigBounds config)
    (h : ParentsAuthorized config r) (op : Op C) :
    (step r op).1.panicMessage ≠ some "object parent sessions remain registered" := by
  cases op with
  | registerParentSession session _ => exact registered_panicMessage r session
  | registerControlledParentSession session => exact registered_panicMessage r session.session
  | announceObject sessionId announcement nowUs =>
      have hscanned : ParentsAuthorized config (r.expireIfDue nowUs) :=
        (show Effect r (r.expireIfDue nowUs) none from expireIfDue_quiet r nowUs).preserves
          (fun hmove hr => hmove.parentsAuthorized hb hr) (fun hactive hr => hr.complete hactive) h
      have hno := hscanned.noPanic_announceScanned sessionId announcement nowUs
      show (Reply.announced (r.announceObject sessionId announcement nowUs).1).panicMessage ≠ _
      unfold announceObject
      rw [recordIfRejected_fst]
      unfold tryAnnounceObject
      rcases hresult : ((r.expireIfDue nowUs).announceScanned sessionId announcement nowUs).1 with
        (error | message) | outcome
      · exact nofun
      · exact absurd hresult (hno message)
      · exact nofun
  | pushWireDatagram sessionId wire nowUs =>
      show (Reply.pushed (r.pushWireDatagram sessionId wire nowUs).1).panicMessage ≠ _
      rcases hresult : (r.pushWireDatagram sessionId wire nowUs).1 with
        (error | message) | outcome
      · exact nofun
      · rcases pushWireDatagram_panic hresult with rfl | rfl
        · decide
        · decide
      · exact nofun
  | expire nowUs => exact nofun

/-! ## §5. Every run. -/

/-- **PARENT AUTHORIZATION.**  In every reachable state the parents of every
active and every completed object are authorized, every accepted datagram comes
from a parent of its object, and the session of a parent is always found. -/
theorem exec_parents_authorized {config : RelayObjectReceiverConfig C}
    {r : RelayObjectReceiver C} (h : RelayObjectReceiver.new config = .ok r)
    (ops : List (Op C)) :
    (∀ key state, (exec step r ops).objects.lookup key = some state →
        Authorized config (exec step r ops).sessions state.parentSessions state.announcement)
      ∧ (∀ key done, (exec step r ops).completed.lookup key = some done →
        Authorized config (exec step r ops).sessions done.parentSessions done.announcement)
      ∧ (∀ sessionId wire nowUs outcome,
        ((exec step r ops).pushWireDatagram sessionId wire nowUs).1 = .ok outcome →
          FromParent (exec step r ops) sessionId wire outcome)
      ∧ ∀ op, (step (exec step r ops) op).1.panicMessage
          ≠ some "object parent sessions remain registered" := by
  have hauth := exec_parentsAuthorized h ops
  have htables := exec_tableConsistent h ops
  refine ⟨?_, ?_, ?_, ?_⟩
  · intro key state hstate
    exact (hauth.active key state hstate).parents
  · intro key done hdone
    exact (hauth.completed key done hdone).parents
  · intro sessionId wire nowUs outcome hok
    exact hauth.pushWireDatagram_fromParent htables hok
  · exact hauth.step_panicMessage (new_ok h).1

theorem sampleCrates_assemblerFor {announcement : sampleCrates.Announcement}
    {assembler : sampleCrates.ObjectAssembler} (h : AssemblerFor announcement assembler) :
    SampleAssembler.announcement assembler = announcement := by
  induction h with
  | new h =>
      cases h
      rfl
  | pushSymbol symbol _ ih =>
      rw [← ih]
      show (samplePush _ symbol).2.announcement = _
      unfold samplePush
      split
      · rfl
      · split <;> rfl
  | takeCompletedEnvelope _ ih => exact ih

theorem sampleCrates_keepsKey : AssemblerKeepsKey sampleCrates := by
  intro announcement assembler symbol object hfor hpush
  rw [← sampleCrates_assemblerFor hfor]
  have hpush' : (samplePush assembler symbol).1 = .ok (some object) := hpush
  unfold samplePush at hpush'
  split at hpush'
  · cases hpush'
  · split at hpush'
    · cases hpush'
      unfold sampleObject
      split <;> rfl
    · cases hpush'

/-- Two parents of object 1: the primary's second symbol is accepted. -/
def sampleJoin : List (Op sampleCrates) :=
  [.registerParentSession samplePrimary samplePrimary_uncontrolled,
    .registerParentSession sampleSecondary rfl,
    .announceObject 1 (sampleAnnouncement 1 1) 1000,
    .announceObject 2 (sampleAnnouncement 1 1) 1000,
    .pushWireDatagram 1 (sampleWire 1 0) 1100]

theorem exec_parents_authorized_sampleJoin :
    ((exec step (initial sampleConfig) sampleJoin).parentsOf (sampleKey 1)).map Subtype.val
        = some [2, 1]
      ∧ FromParent (exec step (initial sampleConfig) sampleJoin) 1 (sampleWire 1 1)
        (.decoded ⟨sampleKey 1, .media, true⟩ [1, 1] .source ⟨2000000⟩ 2 2)
      ∧ AssemblerKeepsKey sampleCrates :=
  ⟨by decide,
    (exec_parents_authorized (show RelayObjectReceiver.new sampleConfig = .ok _ from rfl)
      sampleJoin).2.2.1 1 (sampleWire 1 1) 1200 _ (by decide),
    sampleCrates_keepsKey⟩

end RelayObjectReceiver

end AvMesh.Relay
