/-
  AvMesh.Relay.Admitted
  ─────────────────────
  **WHAT TRAFFIC CAN ADD TO A RECEIVER.**

  Announcements, datagrams and expiry scans are the traffic of a receiver: the
  operations that register no session.  They leave the sessions as they are,
  and an announcement the receiver knows afterwards (of an active object or of
  a tombstone) was known before or has just passed the coding checks of
  `try_announce_object`:

    • `Carries` — the step relation, reflexive and transitive,
    • `announceScanned_carries` — the one place where an announcement enters,
    • `pushWireDatagram_carries` — a datagram adds none,
    • `RelayUdpDispatch.step_carries` — the same for the traffic of a dispatch.

  `Move` cannot say this: it does not record the coding checks, and every
  sequence of moves may register a session.
-/
import AvMesh.Relay.Tombstones
import AvMesh.Relay.Dispatch

namespace AvMesh.Relay

open AvMesh.Lib

variable {C : RelayCrates}

/-- The checks of `try_announce_object` that depend only on the announcement
and the configured limits. -/
structure Admissible (limits : C.RelayLimits) (announcement : C.Announcement) : Prop where
  coding : C.validateCoding announcement.coding limits = .ok ()
  repair : announcement.initialRepairSymbols ≤ C.maxExtraRepairSymbols limits

namespace RelayObjectReceiver

/-! ## §1. Known announcements. -/

/-- Some object of the receiver, active or completed, was announced so. -/
def Known (r : RelayObjectReceiver C) (announcement : C.Announcement) : Prop :=
  (∃ key state, r.objects.lookup key = some state ∧ state.announcement = announcement)
    ∨ ∃ key done, r.completed.lookup key = some done ∧ done.announcement = announcement

/-- From `r` to `r'` no session was registered and every new announcement was
admissible. -/
structure Carries (r r' : RelayObjectReceiver C) : Prop where
  config_eq : r'.config = r.config
  sessions_eq : r'.sessions = r.sessions
  known : ∀ announcement, r'.Known announcement →
    r.Known announcement ∨ Admissible r.config.relayLimits announcement

variable {r r₁ r₂ r₃ r' : RelayObjectReceiver C}

theorem Carries.refl (r : RelayObjectReceiver C) : Carries r r :=
  ⟨rfl, rfl, fun _ h => .inl h⟩

theorem Carries.trans (h₁₂ : Carries r₁ r₂) (h₂₃ : Carries r₂ r₃) : Carries r₁ r₃ := by
  refine ⟨h₂₃.config_eq.trans h₁₂.config_eq, h₂₃.sessions_eq.trans h₁₂.sessions_eq, ?_⟩
  intro announcement hknown
  rcases h₂₃.known announcement hknown with hknown | hadmissible
  · exact h₁₂.known announcement hknown
  · rw [h₁₂.config_eq] at hadmissible
    exact .inr hadmissible

/-- A receiver whose objects and tombstones come from those of `r` carries it. -/
theorem Carries.of_tables (hconfig : r'.config = r.config) (hsessions : r'.sessions = r.sessions)
    (hobjects : ∀ key state, r'.objects.lookup key = some state →
      ∃ old, r.objects.lookup key = some old ∧ old.announcement = state.announcement)
    (hcompleted : ∀ key done, r'.completed.lookup key = some done → r.Known done.announcement) :
    Carries r r' := by
  refine ⟨hconfig, hsessions, ?_⟩
  rintro announcement (⟨key, state, hstate, rfl⟩ | ⟨key, done, hdone, rfl⟩)
  · obtain ⟨old, hold, heq⟩ := hobjects key state hstate
    exact .inl (.inl ⟨key, old, hold, heq⟩)
  · exact .inl (hcompleted key done hdone)

theorem known_of_completed {key : ObjectKey} {done : CompletedObject C}
    (h : r.completed.lookup key = some done) : r.Known done.announcement :=
  .inr ⟨key, done, h, rfl⟩

/-- Counters and the time of the next scan. -/
theorem bookkeep_carries (r : RelayObjectReceiver C) (counters : RelayIngressCounters)
    (next : Option Nat) : Carries r { r with counters := counters, nextExpiryScanUs := next } :=
  .of_tables rfl rfl (fun _ state h => ⟨state, h, rfl⟩) (fun _ _ h => known_of_completed h)

/-- An active object is replaced by one with the same announcement. -/
theorem replace_carries {key : ObjectKey} {state state' : ActiveObject C}
    (hstate : r.objects.lookup key = some state)
    (hsame : state'.announcement = state.announcement) (counters : RelayIngressCounters)
    (buffered : Nat) :
    Carries r { r with
      objects := r.objects.replace key state'
      counters := counters
      bufferedDatagrams := buffered } := by
  refine .of_tables rfl rfl ?_ fun _ _ h => known_of_completed h
  intro k s hs
  rcases AList.lookup_of_replace hstate hs with ⟨rfl, rfl⟩ | ⟨_, hold⟩
  · exact ⟨state, hstate, hsame.symm⟩
  · exact ⟨s, hold, rfl⟩

theorem removeActiveObject_carries (r : RelayObjectReceiver C) (key : ObjectKey)
    (removeLogicalKey : Bool) : Carries r (r.removeActiveObject key removeLogicalKey).2 := by
  cases hstate : r.objects.lookup key with
  | none =>
      rw [removeActiveObject_none removeLogicalKey hstate]
      exact .refl r
  | some state =>
      rw [removeActiveObject_eq removeLogicalKey hstate]
      exact .of_tables rfl rfl (fun _ s hs => ⟨s, (AList.lookup_of_erase hs).2, rfl⟩)
        (fun _ _ h => known_of_completed h)

/-- A tombstone enters with the announcement of an object known before. -/
theorem insertCompleted_carries (r : RelayObjectReceiver C) (key : ObjectKey)
    {done : CompletedObject C} (r₀ : RelayObjectReceiver C) (hr : Carries r₀ r)
    (hknown : r₀.Known done.announcement) : Carries r₀ (r.insertCompleted key done) := by
  refine ⟨hr.config_eq, hr.sessions_eq, ?_⟩
  rintro announcement (⟨k, state, hstate, rfl⟩ | ⟨k, d, hd, rfl⟩)
  · exact hr.known _ (.inl ⟨k, state, hstate, rfl⟩)
  · rcases AList.lookup_of_insert hd with ⟨rfl, rfl⟩ | ⟨_, hold⟩
    · exact .inl hknown
    · exact hr.known _ (known_of_completed (lookup_of_evictCompleted _ _ _ hold))

/-! ## §2. Expiry and rejections. -/

theorem expire_carries (r : RelayObjectReceiver C) (nowUs : Nat) :
    Carries r (r.expire nowUs).2 := by
  -- the objects go one by one, then the scan is counted
  have hremoved : Carries r (removeExpired (r.expiredKeys nowUs) {} r).2 := by
    refine removeExpired_keeps (I := fun r' => Carries r r') ?_ _ {} r (.refl r)
    intro r' key state _ hcarried
    exact hcarried.trans (removeActiveObject_carries r' key true)
  exact hremoved.trans (bookkeep_carries _ _ _)

theorem expireIfDue_carries (r : RelayObjectReceiver C) (nowUs : Nat) :
    Carries r (r.expireIfDue nowUs) := by
  unfold expireIfDue
  split
  · exact expire_carries r nowUs
  · exact .refl r

theorem recordRejection_carries (r : RelayObjectReceiver C) (error : RelayIngressError)
    (datagram : Bool) : Carries r (r.recordRejection error datagram) :=
  bookkeep_carries r _ r.nextExpiryScanUs

theorem recordIfRejected_carries {α : Type} (result : RelayResult α × RelayObjectReceiver C)
    (datagram : Bool) : Carries result.2 (recordIfRejected result datagram).2 := by
  unfold recordIfRejected
  split
  · exact recordRejection_carries _ _ _
  · exact .refl _

/-! ## §3. Announcements. -/

/-- An announcement that passed the checks of the receiver is admissible. -/
theorem checkAnnouncement_admissible {sessionId : Nat} {announcement : C.Announcement}
    {session : AuthenticatedRelayParentSession}
    (h : r.checkAnnouncement sessionId announcement = .ok session) :
    Admissible r.config.relayLimits announcement := by
  unfold checkAnnouncement at h
  obtain ⟨_, _, h⟩ := except_bind_eq_ok.mp h
  obtain ⟨_, _, h⟩ := except_bind_eq_ok.mp h
  obtain ⟨_, hcoding, h⟩ := except_bind_eq_ok.mp h
  obtain ⟨_, hrepair, h⟩ := except_bind_eq_ok.mp h
  exact ⟨except_mapError_eq_ok.mp hcoding, Nat.le_of_not_lt (rejectIf_ok hrepair)⟩

theorem rejoinCompleted_carries (session : AuthenticatedRelayParentSession)
    {announcement : C.Announcement} {done : CompletedObject C}
    (hdone : r.completed.lookup announcement.key = some done) :
    Carries r (r.rejoinCompleted session announcement done).2 := by
  unfold rejoinCompleted
  split
  · exact .refl r
  · split
    · exact .refl r
    · refine .of_tables rfl rfl (fun _ state h => ⟨state, h, rfl⟩) ?_
      intro k d hd
      -- a rejoin changes the parents of the tombstone, not its announcement
      rcases AList.lookup_of_replace hdone hd with ⟨rfl, rfl⟩ | ⟨_, hold⟩
      · show r.Known done.announcement
        exact known_of_completed hdone
      · exact known_of_completed hold

theorem joinActive_carries (session : AuthenticatedRelayParentSession)
    {announcement : C.Announcement} {active : ActiveObject C} (nowUs : Nat)
    (hactive : r.objects.lookup announcement.key = some active) :
    Carries r (r.joinActive session announcement active nowUs).2 := by
  unfold joinActive
  split
  · exact .refl r
  · split
    · exact .refl r
    · exact replace_carries hactive (by rfl) r.counters r.bufferedDatagrams

theorem startObject_carries (sessionId : Nat) {announcement : C.Announcement} (nowUs : Nat)
    (hadmissible : Admissible r.config.relayLimits announcement) :
    Carries r (r.startObject sessionId announcement nowUs).2 := by
  rcases startObject_cases r sessionId announcement nowUs with ⟨r', h⟩ | ⟨error, h⟩
  · rw [h]
    obtain ⟨_, _, _, _, rfl⟩ := startObject_started h
    refine ⟨rfl, rfl, ?_⟩
    rintro a (⟨k, state, hstate, rfl⟩ | ⟨k, done, hdone, rfl⟩)
    -- the new entry is the announcement that passed the checks
    · rcases AList.lookup_of_insert hstate with ⟨rfl, rfl⟩ | ⟨_, hold⟩
      · exact .inr hadmissible
      · exact .inl (.inl ⟨k, state, hold, rfl⟩)
    · exact .inl (known_of_completed hdone)
  · rw [h]
    exact .refl r

/-- **The one place where an announcement enters the tables.** -/
theorem announceScanned_carries (r : RelayObjectReceiver C) (sessionId : Nat)
    (announcement : C.Announcement) (nowUs : Nat) :
    Carries r (r.announceScanned sessionId announcement nowUs).2 := by
  unfold announceScanned
  cases hcheck : r.checkAnnouncement sessionId announcement with
  | error stop => exact .refl r
  | ok session =>
      dsimp only
      cases hcompleted : r.completed.lookup announcement.key with
      | some done => exact rejoinCompleted_carries session hcompleted
      | none =>
          dsimp only
          split
          · exact .refl r
          · cases hobjects : r.objects.lookup announcement.key with
            | some active => exact joinActive_carries session nowUs hobjects
            | none =>
                exact startObject_carries sessionId nowUs (checkAnnouncement_admissible hcheck)

theorem tryAnnounceObject_carries (r : RelayObjectReceiver C) (sessionId : Nat)
    (announcement : C.Announcement) (nowUs : Nat) :
    Carries r (r.tryAnnounceObject sessionId announcement nowUs).2 :=
  (expireIfDue_carries r nowUs).trans (announceScanned_carries _ sessionId announcement nowUs)

/-! ## §4. Datagrams. -/

theorem finishObject_carries {symbol : C.Symbol} {state : ActiveObject C} (object : MediaObject)
    (hstate : r.objects.lookup symbol.objectKey = some state) :
    Carries r (r.finishObject symbol state object).2 := by
  unfold finishObject
  cases hkind : validateObjectKind object state.announcement.kind with
  | error stop => exact .refl r
  | ok _ =>
      have htake : Carries r (r.takeEnvelope symbol.objectKey state).2 :=
        replace_carries hstate (by rfl) r.counters r.bufferedDatagrams
      dsimp only
      rcases htaken : r.takeEnvelope symbol.objectKey state with ⟨envelope, r₁⟩
      rw [htaken] at htake
      cases envelope with
      | none => exact htake
      | some envelope =>
          have hremove := removeActiveObject_carries r₁ object.key false
          dsimp only
          cases hactive : r₁.objects.lookup object.key with
          | none =>
              rw [removeActiveObject_none false hactive]
              exact htake
          | some active =>
              rw [removeActiveObject_eq false hactive] at hremove ⊢
              -- the tombstone keeps the announcement of the object it replaces
              refine htake.trans (insertCompleted_carries _ object.key r₁ ?_
                (.inl ⟨object.key, active, hactive, rfl⟩))
              exact hremove.trans (bookkeep_carries _ _ _)

theorem pushActive_carries {sessionId nowUs : Nat} {session : AuthenticatedRelayParentSession}
    {symbol : C.Symbol} {state : ActiveObject C}
    (hstate : r.objects.lookup symbol.objectKey = some state) :
    Carries r (r.pushActive sessionId session symbol state nowUs).2 := by
  unfold pushActive
  split
  · exact .refl r
  · exact bookkeep_carries r _ r.nextExpiryScanUs
  next packetSequence fingerprint _ =>
    have hrecord : ∀ assembler, Carries r (r.recordSymbol symbol
        (withSymbol state assembler packetSequence fingerprint symbol.role nowUs)) :=
      fun assembler => replace_carries hstate (by rfl) _ _
    -- refused by the assembler, taken, or the last symbol of the object
    split
    · exact replace_carries hstate (by rfl) r.counters r.bufferedDatagrams
    next assembler _ => exact hrecord assembler
    next object assembler _ =>
      exact (hrecord assembler).trans
        (finishObject_carries object (AList.lookup_replace_self _ hstate))

/-- **A datagram adds no announcement.** -/
theorem pushWireDatagram_carries (r : RelayObjectReceiver C) (sessionId : Nat) (wire : Bytes)
    (nowUs : Nat) : Carries r (r.pushWireDatagram sessionId wire nowUs).2 := by
  have hreceived : Carries r r.countReceived := bookkeep_carries r _ r.nextExpiryScanUs
  refine hreceived.trans (Carries.trans ?_ (recordIfRejected_carries _ true))
  unfold tryPushWireDatagram
  split
  · exact .refl _
  next session _ =>
    split
    · exact .refl _
    next symbol _ =>
      refine (expireIfDue_carries _ nowUs).trans ?_
      unfold pushScanned
      split
      · exact .refl _
      · unfold pushChecked
        split
        · unfold pushCompleted
          split
          · exact .refl _
          · exact bookkeep_carries _ _ _
        · split
          · exact expire_carries _ nowUs
          · split
            · exact .refl _
            next state hstate => exact pushActive_carries hstate

/-! ## §5. Traffic. -/

/-- The operations that register no session. -/
def Op.isTraffic : Op C → Bool
  | .registerParentSession _ _ | .registerControlledParentSession _ => false
  | .announceObject _ _ _ | .pushWireDatagram _ _ _ | .expire _ => true

theorem step_carries (r : RelayObjectReceiver C) {op : Op C} (h : op.isTraffic = true) :
    Carries r (step r op).2 := by
  cases op with
  -- traffic registers no session
  | registerParentSession session hs => simp [Op.isTraffic] at h
  | registerControlledParentSession session => simp [Op.isTraffic] at h
  | announceObject sessionId announcement nowUs =>
      exact (tryAnnounceObject_carries r sessionId announcement nowUs).trans
        (recordIfRejected_carries _ false)
  | pushWireDatagram sessionId wire nowUs => exact pushWireDatagram_carries r sessionId wire nowUs
  | expire nowUs => exact expire_carries r nowUs

end RelayObjectReceiver

namespace RelayUdpDispatch

open RelayObjectReceiver

/-- The operations of a dispatch that bind no peer. -/
def Op.isTraffic : Op C → Bool
  | .bindAuthenticatedPeer _ _ | .bindControlledPeer _ _ => false
  | .push _ _ _ => true
  | .receiver op => RelayObjectReceiver.Op.isTraffic op

theorem announceControlled_carries (d : RelayUdpDispatch C) (sessionId : Nat) (datagram : Bytes)
    (nowUs : Nat) : Carries d.receiver (d.announceControlled sessionId datagram nowUs).2 := by
  rcases announceControlled_receiver d sessionId datagram nowUs with h | ⟨announcement, h⟩
  · rw [h]
    exact .refl _
  · rw [h]
    exact tryAnnounceObject_carries _ _ _ _

theorem countRejected_carries (r : RelayObjectReceiver C) (error : RelayIngressError) :
    Carries r (r.countReceived.recordRejection error true) :=
  bookkeep_carries r _ r.nextExpiryScanUs

/-- **The traffic of a dispatch carries its receiver.** -/
theorem step_carries (d : RelayUdpDispatch C) {op : Op C} (h : op.isTraffic = true) :
    Carries d.receiver (step d op).2.receiver := by
  cases op with
  | bindAuthenticatedPeer peer session => simp [Op.isTraffic] at h
  | bindControlledPeer peer session => simp [Op.isTraffic] at h
  | receiver op => exact RelayObjectReceiver.step_carries d.receiver h
  | push peer datagram nowUs =>
      show Carries d.receiver (d.push peer datagram nowUs).2.receiver
      unfold push
      split
      · exact .refl _
      · split
        · exact countRejected_carries d.receiver .authenticationRequired
        next sessionId _ =>
          have hannounced := announceControlled_carries d sessionId datagram nowUs
          rcases heq : d.announceControlled sessionId datagram nowUs with
            ⟨(error | message) | _, receiver⟩
          -- rejected, a panic, or passed on as a datagram
          · rw [heq] at hannounced
            exact hannounced.trans (countRejected_carries receiver error)
          · rw [heq] at hannounced
            exact hannounced
          · rw [heq] at hannounced
            exact hannounced.trans (pushWireDatagram_carries receiver sessionId datagram nowUs)

/-- A run of traffic carries the receiver it started with. -/
theorem exec_carries (d : RelayUdpDispatch C) (ops : List (Op C))
    (htraffic : ∀ op ∈ ops, op.isTraffic = true) :
    Carries d.receiver (exec step d ops).receiver := by
  induction ops using List.reverseRecOn with
  | nil => exact .refl _
  | append_singleton ops op ih =>
      rw [exec_append]
      have hbefore := ih fun o ho => htraffic o (List.mem_append_left _ ho)
      exact hbefore.trans (step_carries _ (htraffic op (by simp)))

end RelayUdpDispatch

end AvMesh.Relay
