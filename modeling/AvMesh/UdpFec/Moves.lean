/-
  AvMesh.UdpFec.Moves
  ───────────────────
  **WHAT AN OPERATION CAN DO TO THE FLOWS AND OBJECTS.**

  A datagram takes the receiver through a few elementary changes (`Move`), each
  with the guard under which the code makes it, and completes at most one block
  (`complete`).  An expiry scan may in addition forget an idle flow together
  with the blocks it remembers (`ScanMove`).

    • `expireInactiveAt_scan` — what a scan does,
    • `pushReceived_effect` — a datagram completes a block exactly when the
      reply is `Decoded`, and then that block of its flow.
-/
import AvMesh.UdpFec.Receiver
import Mathlib.Logic.Relation

namespace AvMesh.UdpFec.UdpFecReceiver

open AvMesh.Lib

variable {C : FecCrates} {r r' : UdpFecReceiver C}

/-! ## §1. Elementary changes. -/

/-- One elementary change of the receiver that completes no block and forgets
none. -/
inductive Move : UdpFecReceiver C → UdpFecReceiver C → Prop where
  /-- Counters, the last error and the time of the next scan. -/
  | bookkeep (r : UdpFecReceiver C) (counters : UdpFecReceiverCounters)
      (lastError : Option (UdpFecReceiveError C)) (next : Option Instant) :
      Move r { r with counters := counters, lastError := lastError, nextExpiryScan := next }
  | touchFlow (r : UdpFecReceiver C) (flow : FlowKey) (state : FlowState)
      (header : C.DatagramFecHeader) (now : Instant) (hstate : r.flows.lookup flow = some state) :
      Move r (r.touchFlow flow state header now)
  | start (r r' : UdpFecReceiver C) (key : ObjectKey) (transferLength : Nat) (now : Instant)
      (hnew : r.objects.lookup key = none)
      (hcompleted : r.isCompleted key.flow key.blockId = false)
      (hstart : r.startObject key transferLength now = .ok r') :
      Move r r'
  | acceptDatagram (r : UdpFecReceiver C) (key : ObjectKey) (state : ObjectState C)
      (decoder : C.DatagramFecDecoder) (now : Instant)
      (hstate : r.objects.lookup key = some state)
      (hobject : state.acceptedDatagrams < r.config.maxDatagramsPerObject.toNat)
      (hbuffered : r.bufferedDatagrams < r.config.maxBufferedDatagrams.toNat) :
      Move r (r.acceptDatagram key state decoder now)
  | removeObject (r : UdpFecReceiver C) (key : ObjectKey) (state : ObjectState C)
      (hstate : r.objects.lookup key = some state) :
      Move r (r.removeObject key).2
  /-- A flow without objects and without remembered blocks. -/
  | dropFlow (r : UdpFecReceiver C) (flow : FlowKey) (state : FlowState)
      (hstate : r.flows.lookup flow = some state) (hidle : state.activeObjects = 0)
      (hempty : state.completed = ∅) :
      Move r { r with flows := r.flows.erase flow }

abbrev Quiet : UdpFecReceiver C → UdpFecReceiver C → Prop := Relation.ReflTransGen Move

/-- One elementary change of an expiry scan. -/
inductive ScanMove : UdpFecReceiver C → UdpFecReceiver C → Prop where
  | move {r r' : UdpFecReceiver C} (h : Move r r') : ScanMove r r'
  /-- A flow without objects, whatever blocks it remembers. -/
  | dropFlow (r : UdpFecReceiver C) (flow : FlowKey) (state : FlowState)
      (hstate : r.flows.lookup flow = some state) (hidle : state.activeObjects = 0) :
      ScanMove r { r with flows := r.flows.erase flow }

abbrev Scan : UdpFecReceiver C → UdpFecReceiver C → Prop := Relation.ReflTransGen ScanMove

/-- Release the object at `key` and remember its block as completed. -/
def complete (r : UdpFecReceiver C) (key : ObjectKey) : UdpFecReceiver C :=
  let released := (r.removeObject key).2
  match released.flows.lookup key.flow with
  | none => released
  | some state =>
      { released with
        flows := released.flows.replace key.flow
          (state.markCompleted key.blockId released.config.maxCompletedObjectsPerFlow) }

theorem Move.quiet (h : Move r r') : Quiet r r' := Relation.ReflTransGen.single h

theorem quiet_counters (r : UdpFecReceiver C) (counters : UdpFecReceiverCounters) :
    Quiet r { r with counters := counters } :=
  (Move.bookkeep r counters r.lastError r.nextExpiryScan).quiet

theorem reject_quiet {α : Type} (r : UdpFecReceiver C) (error : UdpFecReceiveError C) :
    Quiet r (r.reject (α := α) error).2 :=
  (Move.bookkeep r _ _ r.nextExpiryScan).quiet

/-! ## §2. Expiry scans. -/

theorem removeObject_none {key : ObjectKey} (h : r.objects.lookup key = none) :
    r.removeObject key = (none, r) := by
  unfold removeObject
  rw [h]

theorem removeObject_some {key : ObjectKey} {state : ObjectState C}
    (h : r.objects.lookup key = some state) :
    r.removeObject key = (some state, (r.removeObject key).2) := by
  unfold removeObject
  rw [h]

/-- **The rule for the object loop**: what releasing one object keeps, the loop
keeps. -/
theorem removeExpired_keeps {I : UdpFecReceiver C → Prop}
    (hremove : ∀ r key state, r.objects.lookup key = some state → I r → I (r.removeObject key).2)
    (keys : List ObjectKey) :
    ∀ (expiry : UdpFecExpiry) (r : UdpFecReceiver C), I r → I (removeExpired keys expiry r).2 := by
  induction keys with
  | nil => intro expiry r h; exact h
  | cons key keys ih =>
      intro expiry r h
      unfold removeExpired
      cases hstate : r.objects.lookup key with
      | none =>
          rw [removeObject_none hstate]
          exact ih expiry r h
      | some state =>
          rw [removeObject_some hstate]
          exact ih _ _ (hremove r key state hstate h)

/-- **The rule for the flow loop**: what dropping one listed flow keeps, the loop
keeps. -/
theorem removeFlows_keeps {I : UdpFecReceiver C → Prop} (flows : List FlowKey)
    (hdrop : ∀ flow ∈ flows, ∀ r : UdpFecReceiver C, flow ∈ r.flows → I r →
      I { r with flows := r.flows.erase flow }) :
    ∀ (expiry : UdpFecExpiry) (r : UdpFecReceiver C), I r → I (removeFlows flows expiry r).2 := by
  induction flows with
  | nil => intro expiry r h; exact h
  | cons flow flows ih =>
      have hrest := ih fun other hother => hdrop other (List.mem_cons_of_mem _ hother)
      intro expiry r h
      unfold removeFlows
      split
      next hmem => exact hrest _ _ (hdrop flow List.mem_cons_self r hmem h)
      next => exact hrest expiry r h

theorem removeExpired_quiet (keys : List ObjectKey) (expiry : UdpFecExpiry)
    (r : UdpFecReceiver C) : Quiet r (removeExpired keys expiry r).2 := by
  refine removeExpired_keeps ?_ keys expiry r .refl
  intro r' key state hstate hquiet
  exact hquiet.tail (Move.removeObject r' key state hstate)

theorem Quiet.scan (h : Quiet r r') : Scan r r' := by
  induction h with
  | refl => exact .refl
  | tail _ hlast ih => exact ih.tail (.move hlast)

/-- The flow loop: a flow listed as idle is idle when its turn comes, since the
loop only removes flows. -/
theorem removeFlows_scan (flows : List FlowKey) (expiry : UdpFecExpiry) (r : UdpFecReceiver C)
    (hidle : ∀ flow ∈ flows, ∀ state, r.flows.lookup flow = some state →
      state.activeObjects = 0) :
    Scan r (removeFlows flows expiry r).2 := by
  -- carried through the loop: what is left of the listed flows is still idle
  have hkept := removeFlows_keeps (I := fun r' => Scan r r' ∧ ∀ flow ∈ flows, ∀ state,
    r'.flows.lookup flow = some state → state.activeObjects = 0) flows ?_ expiry r ⟨.refl, hidle⟩
  · exact hkept.1
  · intro flow hflow r' hmem h
    obtain ⟨hscan, hidle'⟩ := h
    obtain ⟨state, hstate⟩ := AList.exists_lookup_of_mem hmem
    refine ⟨hscan.tail (ScanMove.dropFlow r' flow state hstate (hidle' flow hflow state hstate)), ?_⟩
    intro other hother otherState hlookup
    exact hidle' other hother otherState (AList.lookup_of_erase hlookup).2

theorem expiredFlows_idle (now : Instant) :
    ∀ flow ∈ r.expiredFlows now, ∀ state, r.flows.lookup flow = some state →
      state.activeObjects = 0 := by
  intro flow hflow state hstate
  unfold expiredFlows at hflow
  obtain ⟨⟨key, found⟩, hentry, hkey⟩ := List.mem_map.mp hflow
  obtain ⟨hmem, hcond⟩ := List.mem_filter.mp hentry
  have hkey' : key = flow := hkey
  subst hkey'
  -- the entry of a flow is the one its lookup finds
  have hfound := AList.lookup_eq_some_iff.mpr hmem
  rw [hstate] at hfound
  rw [Option.some.inj hfound]
  exact (of_decide_eq_true hcond).1

theorem scanInactiveAt_scan (r : UdpFecReceiver C) (now : Instant) :
    Scan r (r.scanInactiveAt now).2 := by
  have hobjects : Quiet r (removeExpired (r.expiredObjects now) {} r.countScan).2 :=
    (quiet_counters r _).trans (removeExpired_quiet _ _ _)
  have hflows := removeFlows_scan _ (removeExpired (r.expiredObjects now) {} r.countScan).1 _
    (expiredFlows_idle (r := (removeExpired (r.expiredObjects now) {} r.countScan).2) now)
  exact ((Quiet.scan hobjects).trans hflows).trans (Quiet.scan (quiet_counters _ _))

theorem expireInactiveAt_scan (r : UdpFecReceiver C) (now : Instant) :
    Scan r (r.expireInactiveAt now).2 :=
  (scanInactiveAt_scan r now).tail (.move (Move.bookkeep _ _ _ _))

theorem expireInactiveIfDue_scan (r : UdpFecReceiver C) (now : Instant) :
    Scan r (r.expireInactiveIfDue now) := by
  unfold expireInactiveIfDue
  split
  · split
    · exact .refl
    · exact expireInactiveAt_scan r now
  · exact expireInactiveAt_scan r now

/-! ## §3. Datagrams. -/

/-- The block a datagram of `flow` completed, if its reply is `Decoded`. -/
def decodedKey (flow : FlowKey) : FecResult C UdpFecPushOutcome → Option ObjectKey
  | .ok (.decoded blockId _) => some ⟨flow, blockId⟩
  | _ => none

/-- What a datagram that completed the given block (if any) did. -/
def Effect (r r' : UdpFecReceiver C) : Option ObjectKey → Prop
  | none => Quiet r r'
  | some key => ∃ r₁ state, Quiet r r₁ ∧ r₁.objects.lookup key = some state
      ∧ Quiet (r₁.complete key) r'

theorem Effect.of_quiet_left {r₁ : UdpFecReceiver C} {decoded : Option ObjectKey}
    (h₁ : Quiet r r₁) (h : Effect r₁ r' decoded) : Effect r r' decoded := by
  cases decoded with
  | none => exact h₁.trans h
  | some key =>
      obtain ⟨r₂, state, h₂, hstate, h'⟩ := h
      exact ⟨r₂, state, h₁.trans h₂, hstate, h'⟩

theorem completeObject_effect {key : ObjectKey} {state : ObjectState C} (payload : Bytes)
    (hstate : r.objects.lookup key = some state) :
    Effect r (r.completeObject key payload).2
      (decodedKey key.flow (r.completeObject key payload).1) := by
  unfold completeObject
  dsimp only
  cases hflow : (r.removeObject key).2.flows.lookup key.flow with
  | none => exact (Move.removeObject r key state hstate).quiet
  | some flowState =>
      have hcomplete : r.complete key = { (r.removeObject key).2 with
          flows := (r.removeObject key).2.flows.replace key.flow
            (flowState.markCompleted key.blockId
              (r.removeObject key).2.config.maxCompletedObjectsPerFlow) } := by
        unfold complete
        dsimp only
        rw [hflow]
      refine ⟨r, state, .refl, hstate, ?_⟩
      rw [hcomplete]
      exact quiet_counters _ _

theorem failObject_quiet {key : ObjectKey} {state : ObjectState C} (isNewFlow : Bool)
    (error : C.DatagramFecError) (hstate : r.objects.lookup key = some state) :
    Quiet r (r.failObject key isNewFlow error).2 := by
  unfold failObject
  have hremove := (Move.removeObject r key state hstate).quiet
  have hflow : Quiet (r.removeObject key).2 ((r.removeObject key).2.removeEmptyFlow key.flow) := by
    unfold removeEmptyFlow
    split
    · exact .refl
    next flowState hlookup =>
      split
      next hempty => exact (Move.dropFlow _ key.flow flowState hlookup hempty.1 hempty.2).quiet
      next => exact .refl
  cases isNewFlow with
  | false => exact hremove.trans (reject_quiet _ _)
  | true => exact (hremove.trans hflow).trans (reject_quiet _ _)

theorem pushDecoder_effect {key : ObjectKey} {state : ObjectState C} (fecDatagram : Bytes)
    (isNewFlow : Bool) (now : Instant) (hstate : r.objects.lookup key = some state)
    (hobject : state.acceptedDatagrams < r.config.maxDatagramsPerObject.toNat)
    (hbuffered : r.bufferedDatagrams < r.config.maxBufferedDatagrams.toNat) :
    Effect r (r.pushDecoder key state fecDatagram isNewFlow now).2
      (decodedKey key.flow (r.pushDecoder key state fecDatagram isNewFlow now).1) := by
  have haccept : ∀ decoder, Quiet r (r.acceptDatagram key state decoder now) := fun decoder =>
    (Move.acceptDatagram r key state decoder now hstate hobject hbuffered).quiet
  -- after the datagram is accepted the object is still there
  have hpresent : ∀ decoder, (r.acceptDatagram key state decoder now).objects.lookup key
      = some (state.accept decoder now) := fun decoder => AList.lookup_replace_self _ hstate
  unfold pushDecoder
  rcases C.pushDatagram state.decoder fecDatagram with ⟨error | _ | payload, decoder⟩
  · exact (haccept decoder).trans (failObject_quiet isNewFlow error (hpresent decoder))
  · exact (haccept decoder).trans (quiet_counters _ _)
  · exact Effect.of_quiet_left (haccept decoder)
      (completeObject_effect payload (hpresent decoder))

theorem pushObject_effect {key : ObjectKey} {state : ObjectState C}
    (header : C.DatagramFecHeader) (fecDatagram : Bytes) (isNewFlow : Bool) (now : Instant)
    (hstate : r.objects.lookup key = some state)
    (hobject : state.acceptedDatagrams < r.config.maxDatagramsPerObject.toNat)
    (hbuffered : r.bufferedDatagrams < r.config.maxBufferedDatagrams.toNat) :
    Effect r (r.pushObject key header fecDatagram isNewFlow now).2
      (decodedKey key.flow (r.pushObject key header fecDatagram isNewFlow now).1) := by
  unfold pushObject
  cases hflow : r.flows.lookup key.flow with
  | none => exact .refl
  | some flowState =>
      have hstate' : (r.touchFlow key.flow flowState header now).objects.lookup key = some state :=
        hstate
      dsimp only
      rw [hstate']
      exact Effect.of_quiet_left (Move.touchFlow r key.flow flowState header now hflow).quiet
        (pushDecoder_effect fecDatagram isNewFlow now hstate' hobject hbuffered)

/-- The state `startObject` leaves. -/
theorem startObject_ok {key : ObjectKey} {transferLength : Nat} {now : Instant}
    (h : r.startObject key transferLength now = .ok r') :
    (key.flow ∈ r.flows ∨ r.flows.size < r.config.maxFlows.toNat)
      ∧ r.objects.size < r.config.maxActiveObjects.toNat
      ∧ r.activeInFlow key.flow < r.config.maxActiveObjectsPerFlow.toNat
      ∧ r.bufferedObjectBytes + transferLength ≤ r.config.maxBufferedObjectBytes.toNat
      ∧ r' = { r with
          flows := reserveActive r.flows key.flow now
          objects := r.objects.insert key
            { decoder := C.newDecoder
              transferLength := transferLength
              acceptedDatagrams := 0
              lastActivity := now }
          bufferedObjectBytes := r.bufferedObjectBytes + transferLength } := by
  unfold startObject at h
  split at h
  · cases h
  next hflows =>
    split at h
    · cases h
    next hobjects =>
      split at h
      · cases h
      next hactive =>
        split at h
        · cases h
        next reserved hreserved =>
          obtain ⟨hadd, hle⟩ := Option.filter_eq_some_iff.mp hreserved
          have hsum := checkedAdd_eq_some hadd
          have hle' := of_decide_eq_true hle
          subst hsum
          cases h
          refine ⟨?_, by omega, by omega, hle', rfl⟩
          by_cases hmem : key.flow ∈ r.flows
          · exact .inl hmem
          · exact .inr (Nat.lt_of_not_le fun hfull => hflows ⟨hmem, hfull⟩)

theorem pushBlock_effect {key : ObjectKey} (header : C.DatagramFecHeader) (fecDatagram : Bytes)
    (now : Instant) (hcompleted : r.isCompleted key.flow key.blockId = false) :
    Effect r (r.pushBlock key header fecDatagram now).2
      (decodedKey key.flow (r.pushBlock key header fecDatagram now).1) := by
  unfold pushBlock
  split
  · exact reject_quiet r _
  next hbuffered =>
    split
    next hnew =>
      split
      · exact reject_quiet r _
      next hzero =>
        split
        · exact reject_quiet r _
        next started hstart =>
          -- a new object has taken no datagram yet, so its limit is only zero's problem
          have hmove := Move.start r started key _ now hnew hcompleted hstart
          obtain ⟨_, _, _, _, rfl⟩ := startObject_ok hstart
          refine Effect.of_quiet_left hmove.quiet (pushObject_effect header fecDatagram _ now
            (AList.lookup_insert _) ?_ (by exact Nat.lt_of_not_le hbuffered))
          show 0 < r.config.maxDatagramsPerObject.toNat
          exact Nat.pos_of_ne_zero fun h => hzero (UInt64.toNat_inj.mp h)
    next state hstate =>
      split
      · exact (Move.removeObject r key state hstate).quiet.trans (reject_quiet _ _)
      next hobject =>
        exact pushObject_effect header fecDatagram _ now hstate (by omega) (by omega)

/-- **A datagram completes a block exactly when its reply is `Decoded`**, and
then that block of its flow. -/
theorem pushReceived_effect (r : UdpFecReceiver C) (peer : SocketAddr) (datagram : Bytes)
    (now : Instant) :
    Effect r (r.pushReceived peer datagram now).2
      (decodedKey (classify C peer datagram).1 (r.pushReceived peer datagram now).1) := by
  unfold pushReceived
  split
  · exact reject_quiet r _
  · unfold pushFlow
    split
    · exact reject_quiet r _
    · split
      · exact reject_quiet r _
      · unfold pushHeader
        split
        · exact reject_quiet r _
        · split
          · unfold answerDuplicate
            split
            · exact .refl
            next state hstate =>
              exact (Move.touchFlow r _ state _ now hstate).quiet.trans (quiet_counters _ _)
          next hcompleted =>
            exact pushBlock_effect _ _ now (Bool.eq_false_iff.mpr hcompleted)

end AvMesh.UdpFec.UdpFecReceiver
