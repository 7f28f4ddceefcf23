/-
  AvMesh.UdpFec.Isolation
  ───────────────────────
  **WHAT A DATAGRAM LEAVES ALONE.**

  A datagram reserves a flow, an object and its bytes before the decoder sees
  it.  Two frames say what stays as it was:

    • `Framed` — the flows and objects of every other datagram, whatever the
      reply (`pushReceived_framed`),
    • `Unchanged`, `Released` — everything, when the datagram is rejected, but
      for an object that was active before and is given up
      (`Accounted.pushBlock_rejected`).

  The undoing is exact because the totals are sums (`Accounted`): what is taken
  off for the object is what was put on for it.
-/
import AvMesh.UdpFec.Accounting

namespace AvMesh.UdpFec.UdpFecReceiver

open AvMesh.Lib

variable {C : FecCrates} {config : UdpFecReceiverConfig} {r r' : UdpFecReceiver C}

/-! ## §1. The frame of a datagram. -/

/-- The key of the object a datagram is for, if its header decodes. -/
def ownKey (C : FecCrates) (peer : SocketAddr) (datagram : Bytes) : Option ObjectKey :=
  match C.decodeHeader (classify C peer datagram).2 with
  | .error _ => none
  | .ok header => some ⟨(classify C peer datagram).1, C.blockId header⟩

/-- The flows other than that of `key` and the objects other than `key` are as
before. -/
structure Framed (key : ObjectKey) (r r' : UdpFecReceiver C) : Prop where
  flows : ∀ flow, flow ≠ key.flow → r'.flows.lookup flow = r.flows.lookup flow
  objects : ∀ other, other ≠ key → r'.objects.lookup other = r.objects.lookup other

namespace Framed

variable {key : ObjectKey} {r'' : UdpFecReceiver C}

theorem of_eq (hflows : r'.flows = r.flows) (hobjects : r'.objects = r.objects) :
    Framed key r r' where
  flows := fun _ _ => by rw [hflows]
  objects := fun _ _ => by rw [hobjects]

theorem trans (h : Framed key r r') (h' : Framed key r' r'') : Framed key r r'' where
  flows := fun flow hne => (h'.flows flow hne).trans (h.flows flow hne)
  objects := fun other hne => (h'.objects other hne).trans (h.objects other hne)

theorem reject (h : Framed key r r') {α : Type} (error : UdpFecReceiveError C) :
    Framed key r (r'.reject (α := α) error).2 :=
  h.trans (of_eq rfl rfl)

end Framed

theorem lookup_releaseActive_ne {flows : Table FlowKey FlowState} {flow other : FlowKey}
    (h : other ≠ flow) : (releaseActive flows flow).lookup other = flows.lookup other := by
  unfold releaseActive
  split
  · rfl
  · exact AList.lookup_replace_ne _ _ h

theorem lookup_reserveActive_ne {flows : Table FlowKey FlowState} {flow other : FlowKey}
    (now : Instant) (h : other ≠ flow) :
    (reserveActive flows flow now).lookup other = flows.lookup other := by
  unfold reserveActive
  split
  · exact AList.lookup_replace_ne _ _ h
  · exact AList.lookup_insert_ne h

theorem touchFlow_framed (r : UdpFecReceiver C) (key : ObjectKey) (state : FlowState)
    (header : C.DatagramFecHeader) (now : Instant) :
    Framed key r (r.touchFlow key.flow state header now) where
  flows := fun _ hne => AList.lookup_replace_ne _ _ hne
  objects := fun _ _ => rfl

theorem acceptDatagram_framed (r : UdpFecReceiver C) (key : ObjectKey) (state : ObjectState C)
    (decoder : C.DatagramFecDecoder) (now : Instant) :
    Framed key r (r.acceptDatagram key state decoder now) where
  flows := fun _ _ => rfl
  objects := fun _ hne => AList.lookup_replace_ne _ _ hne

theorem removeObject_framed (r : UdpFecReceiver C) (key : ObjectKey) :
    Framed key r (r.removeObject key).2 := by
  unfold removeObject
  split
  · exact .of_eq rfl rfl
  · exact ⟨fun _ hne => lookup_releaseActive_ne hne, fun _ hne => AList.lookup_erase_ne hne⟩

theorem removeEmptyFlow_framed (r : UdpFecReceiver C) (key : ObjectKey) :
    Framed key r (r.removeEmptyFlow key.flow) := by
  unfold removeEmptyFlow
  split
  · exact .of_eq rfl rfl
  · split
    · exact ⟨fun _ hne => AList.lookup_erase_ne hne, fun _ _ => rfl⟩
    · exact .of_eq rfl rfl

theorem startObject_framed {key : ObjectKey} {transferLength : Nat} {now : Instant}
    (h : r.startObject key transferLength now = .ok r') : Framed key r r' := by
  obtain ⟨-, -, -, -, rfl⟩ := startObject_ok h
  exact ⟨fun _ hne => lookup_reserveActive_ne now hne, fun _ hne => AList.lookup_insert_ne hne⟩

theorem completeObject_framed (r : UdpFecReceiver C) (key : ObjectKey) (payload : Bytes) :
    Framed key r (r.completeObject key payload).2 := by
  have hremoved := removeObject_framed r key
  unfold completeObject
  dsimp only
  split
  · exact hremoved
  · refine hremoved.trans ⟨fun _ hne => AList.lookup_replace_ne _ _ hne, fun _ _ => rfl⟩

theorem failObject_framed (r : UdpFecReceiver C) (key : ObjectKey) (isNewFlow : Bool)
    (error : C.DatagramFecError) : Framed key r (r.failObject key isNewFlow error).2 := by
  have hremoved := removeObject_framed r key
  unfold failObject
  cases isNewFlow with
  | false => exact hremoved.reject _
  | true => exact (hremoved.trans (removeEmptyFlow_framed _ key)).reject _

theorem pushObject_framed (r : UdpFecReceiver C) (key : ObjectKey) (header : C.DatagramFecHeader)
    (fecDatagram : Bytes) (isNewFlow : Bool) (now : Instant) :
    Framed key r (r.pushObject key header fecDatagram isNewFlow now).2 := by
  unfold pushObject
  split
  · exact .of_eq rfl rfl
  next flowState hflow =>
    have htouched := touchFlow_framed r key flowState header now
    split
    · exact htouched
    next state hstate =>
      have haccepted : ∀ decoder, Framed key r
          ((r.touchFlow key.flow flowState header now).acceptDatagram key state decoder now) :=
        fun decoder => htouched.trans (acceptDatagram_framed _ key state decoder now)
      unfold pushDecoder
      rcases C.pushDatagram state.decoder fecDatagram with ⟨error | _ | payload, decoder⟩
      · exact (haccepted decoder).trans (failObject_framed _ key isNewFlow error)
      · exact (haccepted decoder).trans (.of_eq rfl rfl)
      · exact (haccepted decoder).trans (completeObject_framed _ key payload)

theorem pushBlock_framed (r : UdpFecReceiver C) (key : ObjectKey) (header : C.DatagramFecHeader)
    (fecDatagram : Bytes) (now : Instant) :
    Framed key r (r.pushBlock key header fecDatagram now).2 := by
  unfold pushBlock
  split
  · exact .of_eq rfl rfl
  · split
    · split
      · exact .of_eq rfl rfl
      · split
        · exact .of_eq rfl rfl
        next started hstart =>
          exact (startObject_framed hstart).trans (pushObject_framed started key header _ _ now)
    · split
      · exact (removeObject_framed r key).reject _
      · exact pushObject_framed r key header _ _ now

/-- The tables and the totals are the same. -/
structure SameTables (r r' : UdpFecReceiver C) : Prop where
  flows : r'.flows = r.flows
  objects : r'.objects = r.objects
  bytes : r'.bufferedObjectBytes = r.bufferedObjectBytes
  datagrams : r'.bufferedDatagrams = r.bufferedDatagrams

theorem reject_sameTables {α : Type} (r : UdpFecReceiver C) (error : UdpFecReceiveError C) :
    SameTables r (r.reject (α := α) error).2 := ⟨rfl, rfl, rfl, rfl⟩

/-- What a datagram does before it reaches its block: it is rejected by a check
that changes nothing, or answered from the memory of its flow, or handed on. -/
theorem pushReceived_cases (r : UdpFecReceiver C) (peer : SocketAddr) (datagram : Bytes)
    (now : Instant) :
    SameTables r (r.pushReceived peer datagram now).2
      ∨ ∃ header, ownKey C peer datagram = some ⟨(classify C peer datagram).1, C.blockId header⟩
        ∧ ((∃ state, r.flows.lookup (classify C peer datagram).1 = some state
            ∧ r.pushReceived peer datagram now =
              r.answerDuplicate (classify C peer datagram).1 header now)
          ∨ (r.isCompleted (classify C peer datagram).1 (C.blockId header) = false
            ∧ r.pushReceived peer datagram now =
              r.pushBlock ⟨(classify C peer datagram).1, C.blockId header⟩ header
                (classify C peer datagram).2 now)) := by
  unfold pushReceived ownKey
  split
  · exact Or.inl (reject_sameTables r _)
  · unfold pushFlow
    cases hheader : C.decodeHeader (classify C peer datagram).2 with
    | error error => exact Or.inl (reject_sameTables r _)
    | ok header =>
        dsimp only
        split
        · exact Or.inl (reject_sameTables r _)
        · unfold pushHeader
          split
          · exact Or.inl (reject_sameTables r _)
          · refine Or.inr ⟨header, rfl, ?_⟩
            by_cases hcompleted : r.isCompleted (classify C peer datagram).1 (C.blockId header) = true
            · rw [if_pos hcompleted]
              refine Or.inl ?_
              unfold isCompleted at hcompleted
              cases hflow : r.flows.lookup (classify C peer datagram).1 with
              | none =>
                  rw [hflow] at hcompleted
                  cases hcompleted
              | some state => exact ⟨state, rfl, rfl⟩
            · rw [if_neg hcompleted]
              exact Or.inr ⟨Bool.eq_false_iff.2 hcompleted, rfl⟩

/-- **A datagram leaves every other flow and every other object alone.** -/
theorem pushReceived_framed (r : UdpFecReceiver C) (peer : SocketAddr) (datagram : Bytes)
    (now : Instant) :
    (∀ flow, flow ≠ (classify C peer datagram).1 →
        (r.pushReceived peer datagram now).2.flows.lookup flow = r.flows.lookup flow)
      ∧ ∀ key, ownKey C peer datagram ≠ some key →
        (r.pushReceived peer datagram now).2.objects.lookup key = r.objects.lookup key := by
  rcases pushReceived_cases r peer datagram now with hsame | ⟨header, hown, hpushed⟩
  · exact ⟨fun _ _ => by rw [hsame.flows], fun _ _ => by rw [hsame.objects]⟩
  · have hframed : Framed ⟨(classify C peer datagram).1, C.blockId header⟩ r
        (r.pushReceived peer datagram now).2 := by
      rcases hpushed with ⟨state, hflow, heq⟩ | ⟨-, heq⟩
      · rw [heq]
        unfold answerDuplicate
        rw [hflow]
        exact (touchFlow_framed r ⟨_, C.blockId header⟩ state header now).trans (.of_eq rfl rfl)
      · rw [heq]
        exact pushBlock_framed r _ header _ now
    refine ⟨hframed.flows, fun key hne => hframed.objects key fun heq => hne ?_⟩
    rw [hown, heq]

/-! ## §2. Rejections. -/

structure UdpFecReceiverState where
  activeFlows : Nat
  activeObjects : Nat
  bufferedObjectBytes : Nat
  bufferedDatagrams : Nat
  deriving Repr, DecidableEq

def state (r : UdpFecReceiver C) : UdpFecReceiverState where
  activeFlows := r.flows.size
  activeObjects := r.objects.size
  bufferedObjectBytes := r.bufferedObjectBytes
  bufferedDatagrams := r.bufferedDatagrams

/-- The flow is as before, but for the datagram it may have heard and the
objects released from it; and it is not there if it was not there before. -/
structure SameFlow (flow : FlowKey) (released : Nat) (r r' : UdpFecReceiver C) : Prop where
  size : r'.flows.size = r.flows.size
  absent : r.flows.lookup flow = none → r'.flows.lookup flow = none
  heard : ∀ state, r.flows.lookup flow = some state → ∃ sequenceTracker lastActivity,
    r'.flows.lookup flow = some { state with
      sequenceTracker := sequenceTracker
      lastActivity := lastActivity
      activeObjects := state.activeObjects - released }

/-- A rejected datagram of `flow` that changed nothing that is reported. -/
structure Unchanged (flow : FlowKey) (r r' : UdpFecReceiver C) : Prop where
  state_eq : r'.state = r.state
  objects : ∀ key, r'.objects.lookup key = r.objects.lookup key
  flow : SameFlow flow 0 r r'

/-- A rejected datagram that gave up the object at `key`, and no more. -/
structure Released (key : ObjectKey) (object : ObjectState C) (r r' : UdpFecReceiver C) : Prop where
  present : r.objects.lookup key = some object
  gone : r'.objects.lookup key = none
  activeObjects : r.objects.size = r'.objects.size + 1
  bytes : r.bufferedObjectBytes = r'.bufferedObjectBytes + object.transferLength
  datagrams : r.bufferedDatagrams = r'.bufferedDatagrams + object.acceptedDatagrams
  flow : SameFlow key.flow 1 r r'

variable {key : ObjectKey} {object : ObjectState C} {flowState : FlowState}

theorem SameFlow.of_eq {flow : FlowKey} (h : r'.flows = r.flows) : SameFlow flow 0 r r' where
  size := by rw [h]
  absent := fun hnone => by rw [h, hnone]
  heard := fun state hstate => ⟨state.sequenceTracker, state.lastActivity, by rw [h, hstate]; rfl⟩

/-- The flows are read the same afterwards. -/
theorem SameFlow.congr {flow : FlowKey} {released : Nat} {r'' : UdpFecReceiver C}
    (h : SameFlow flow released r r') (hflows : r''.flows = r'.flows) :
    SameFlow flow released r r'' where
  size := by rw [hflows, h.size]
  absent := fun hnone => by rw [hflows, h.absent hnone]
  heard := fun state hstate => by
    rw [hflows]
    exact h.heard state hstate

theorem SameTables.unchanged (h : SameTables r r') (flow : FlowKey) : Unchanged flow r r' where
  state_eq := by
    unfold state
    rw [h.flows, h.objects, h.bytes, h.datagrams]
  objects := fun _ => by rw [h.objects]
  flow := .of_eq h.flows

theorem size_releaseActive (flows : Table FlowKey FlowState) (flow : FlowKey) :
    (releaseActive flows flow).size = flows.size := by
  unfold releaseActive
  split
  · rfl
  · exact AList.size_replace _ _ _

theorem Unchanged.congr {flow : FlowKey} {r'' : UdpFecReceiver C} (h : Unchanged flow r r')
    (hsame : SameTables r' r'') : Unchanged flow r r'' where
  state_eq := (hsame.unchanged flow).state_eq.trans h.state_eq
  objects := fun key => by rw [hsame.objects, h.objects]
  flow := h.flow.congr hsame.flows

/-- The rejection that follows changes neither tables nor totals. -/
theorem Released.congr {r'' : UdpFecReceiver C} (h : Released key object r r')
    (hsame : SameTables r' r'') : Released key object r r'' where
  present := h.present
  gone := by rw [hsame.objects, h.gone]
  activeObjects := by rw [hsame.objects, h.activeObjects]
  bytes := by rw [hsame.bytes, h.bytes]
  datagrams := by rw [hsame.datagrams, h.datagrams]
  flow := h.flow.congr hsame.flows

/-- **Giving up an object releases it exactly.** -/
theorem Accounted.removeObject_released (h : Accounted config r)
    (hobject : r.objects.lookup key = some object) :
    Released key object r (r.removeObject key).2 := by
  obtain ⟨hbytes, hdatagrams, -⟩ := h.releasesExactly key object hobject
  have hremoved := removeObject_eq hobject
  have hsize := AList.size_erase hobject
  exact {
    present := hobject
    gone := by
      rw [hremoved]
      exact AList.lookup_erase _ _
    activeObjects := by
      rw [hremoved]
      show r.objects.size = (r.objects.erase key).size + 1
      omega
    bytes := hbytes.symm
    datagrams := hdatagrams.symm
    flow := {
      size := by
        rw [hremoved]
        exact size_releaseActive r.flows key.flow
      absent := by
        intro hnone
        obtain ⟨state, hstate, -⟩ := h.flow_of_object hobject
        rw [hnone] at hstate
        cases hstate
      heard := by
        intro state hstate
        refine ⟨state.sequenceTracker, state.lastActivity, ?_⟩
        rw [hremoved]
        show (releaseActive r.flows key.flow).lookup key.flow = _
        unfold releaseActive
        rw [hstate]
        exact AList.lookup_replace_self _ hstate } }

/-- The receiver while the decoder looks at a datagram. -/
def heldFor (r : UdpFecReceiver C) (key : ObjectKey) (flowState : FlowState)
    (header : C.DatagramFecHeader) (object : ObjectState C) (decoder : C.DatagramFecDecoder)
    (now : Instant) : UdpFecReceiver C :=
  (r.touchFlow key.flow flowState header now).acceptDatagram key object decoder now

/-- The datagram that the decoder refused is released with its object: what is
taken off is what the object had before. -/
theorem Accounted.heldFor_released (h : Accounted config r) (header : C.DatagramFecHeader)
    (decoder : C.DatagramFecDecoder) (now : Instant)
    (hflow : r.flows.lookup key.flow = some flowState)
    (hobject : r.objects.lookup key = some object)
    (hlimit : object.acceptedDatagrams < r.config.maxDatagramsPerObject.toNat)
    (hbuffered : r.bufferedDatagrams < r.config.maxBufferedDatagrams.toNat) :
    Released key object r
      ((r.heldFor key flowState header object decoder now).removeObject key).2 := by
  have hheld : Accounted config (r.heldFor key flowState header object decoder now) :=
    (h.touchFlow header now hflow).acceptDatagram decoder now hobject hlimit hbuffered
  have hlookup : (r.heldFor key flowState header object decoder now).objects.lookup key =
      some (object.accept decoder now) := AList.lookup_replace_self _ hobject
  have hreleased := hheld.removeObject_released hlookup
  have hobjectSat := satAdd_of_lt_bound hlimit (toNat_le_u64Max _)
  have hbufferedSat := satAdd_of_lt_bound hbuffered (toNat_le_u64Max _)
  -- the datagram was noted by the flow before the decoder saw it
  have hflowHeld : (r.heldFor key flowState header object decoder now).flows.lookup key.flow =
      some (flowState.touch (C.packetSequence header) r.config.maxTrackedSequenceGapsPerFlow now) :=
    AList.lookup_replace_self _ hflow
  exact {
    present := hobject
    gone := hreleased.gone
    activeObjects := by
      have hsize := hreleased.activeObjects
      change (r.objects.replace key _).size = _ at hsize
      rwa [AList.size_replace] at hsize
    bytes := hreleased.bytes
    datagrams := by
      have hdatagrams := hreleased.datagrams
      change satAdd r.bufferedDatagrams 1 = _ + satAdd object.acceptedDatagrams 1 at hdatagrams
      omega
    flow := {
      size := by
        have hsize := hreleased.flow.size
        change _ = (r.flows.replace key.flow _).size at hsize
        rwa [AList.size_replace] at hsize
      absent := fun hnone => by rw [hnone] at hflow; cases hflow
      heard := by
        intro state hstate
        obtain rfl := Option.some.inj (hflow.symm.trans hstate)
        obtain ⟨sequenceTracker, lastActivity, hafter⟩ := hreleased.flow.heard _ hflowHeld
        exact ⟨sequenceTracker, lastActivity, hafter⟩ } }

/-- The first state of an object. -/
def newObject (C : FecCrates) (transferLength : Nat) (now : Instant) : ObjectState C where
  decoder := C.newDecoder
  transferLength := transferLength
  acceptedDatagrams := 0
  lastActivity := now

/-- What a rejected push of a present object leaves. -/
def givenUp (r : UdpFecReceiver C) (key : ObjectKey) (isNewFlow : Bool) : UdpFecReceiver C :=
  if isNewFlow then (r.removeObject key).2.removeEmptyFlow key.flow else (r.removeObject key).2

/-- The decoder refused a datagram of the object. -/
def DecoderRefuses (key : ObjectKey) (decoder : C.DatagramFecDecoder) (fecDatagram : Bytes)
    (error : UdpFecReceiveError C) : Prop :=
  ∃ fecError decoder', C.pushDatagram decoder fecDatagram = (.error fecError, decoder')
    ∧ error = .fec key.flow.streamId fecError

theorem pushObject_error {header : C.DatagramFecHeader} {fecDatagram : Bytes} {isNewFlow : Bool}
    {now : Instant} {error : UdpFecReceiveError C}
    (hflow : r.flows.lookup key.flow = some flowState)
    (hobject : r.objects.lookup key = some object)
    (herror : (r.pushObject key header fecDatagram isNewFlow now).1 = .error (.err error)) :
    DecoderRefuses key object.decoder fecDatagram error
      ∧ ∃ decoder, SameTables
        ((r.heldFor key flowState header object decoder now).givenUp key isNewFlow)
        (r.pushObject key header fecDatagram isNewFlow now).2 := by
  have hobject' : (r.touchFlow key.flow flowState header now).objects.lookup key = some object :=
    hobject
  unfold pushObject at herror ⊢
  rw [hflow] at herror ⊢
  dsimp only at herror ⊢
  rw [hobject'] at herror ⊢
  dsimp only at herror ⊢
  unfold pushDecoder at herror ⊢
  generalize hpushed : C.pushDatagram object.decoder fecDatagram = pushed at herror ⊢
  obtain ⟨result, decoder⟩ := pushed
  cases result with
  | error fecError =>
      dsimp only at herror ⊢
      refine ⟨⟨fecError, decoder, hpushed, ?_⟩, decoder, ?_⟩
      · unfold failObject reject at herror
        cases herror
        rfl
      · unfold failObject givenUp
        exact reject_sameTables _ _
  | ok payload =>
      cases payload with
      | none => cases herror
      | some payload =>
          -- the only error here would be a panic
          exfalso
          dsimp only at herror
          unfold completeObject at herror
          dsimp only at herror
          split at herror <;> cases herror

/-- A datagram of an object that was there, when it is rejected. -/
theorem Accounted.pushObject_released (h : Accounted config r) {header : C.DatagramFecHeader}
    {fecDatagram : Bytes} {now : Instant} {error : UdpFecReceiveError C}
    (hobject : r.objects.lookup key = some object)
    (hlimit : object.acceptedDatagrams < r.config.maxDatagramsPerObject.toNat)
    (hbuffered : r.bufferedDatagrams < r.config.maxBufferedDatagrams.toNat)
    (herror : (r.pushObject key header fecDatagram false now).1 = .error (.err error)) :
    DecoderRefuses key object.decoder fecDatagram error
      ∧ Released key object r (r.pushObject key header fecDatagram false now).2 := by
  obtain ⟨flowState, hflow, -⟩ := h.flow_of_object hobject
  obtain ⟨hrefused, decoder, hsame⟩ := pushObject_error hflow hobject herror
  have hreleased := h.heldFor_released header decoder now hflow hobject hlimit hbuffered
  exact ⟨hrefused, hreleased.congr hsame⟩

/-- **A first datagram that is rejected takes back what it reserved**: the
object, and the flow if it is as new. -/
theorem start_unchanged {transferLength : Nat} {now : Instant}
    {started after : UdpFecReceiver C} (hnew : r.objects.lookup key = none)
    (hstart : r.startObject key transferLength now = .ok started)
    (hreleased : Released key (newObject C transferLength now) started after)
    (hframed : Framed key started after) :
    Unchanged key.flow r
      (if decide (key.flow ∉ r.flows) then after.removeEmptyFlow key.flow else after) := by
  have hstartFramed := startObject_framed hstart
  obtain ⟨-, -, hactive, -, hstarted⟩ := startObject_ok hstart
  have hobjectsSize : started.objects.size = r.objects.size + 1 := by
    rw [hstarted]
    exact AList.size_insert_of_notMem _ (AList.lookup_eq_none.1 hnew)
  have hobjectsAfter := hreleased.activeObjects
  have hbytes : after.bufferedObjectBytes = r.bufferedObjectBytes := by
    have hafter := hreleased.bytes
    rw [hstarted] at hafter
    change r.bufferedObjectBytes + transferLength = _ + transferLength at hafter
    omega
  have hdatagrams : after.bufferedDatagrams = r.bufferedDatagrams := by
    have hafter := hreleased.datagrams
    rw [hstarted] at hafter
    exact hafter.symm
  have hobjects : ∀ other, after.objects.lookup other = r.objects.lookup other := by
    intro other
    by_cases hother : other = key
    · rw [hother, hreleased.gone, hnew]
    · rw [hframed.objects other hother, hstartFramed.objects other hother]
  have hflowsSize := hreleased.flow.size
  -- a flow that was there keeps its memory; one that is as new goes with the object
  cases hflow : r.flows.lookup key.flow with
  | some base =>
      have hmem : key.flow ∈ r.flows := AList.mem_of_lookup hflow
      have hreserved : started.flows =
          r.flows.replace key.flow { base with activeObjects := satAdd base.activeObjects 1 } := by
        rw [hstarted]
        show reserveActive r.flows key.flow now = _
        unfold reserveActive
        rw [hflow]
      rw [if_neg (by simpa using hmem)]
      rw [hreserved, AList.size_replace] at hflowsSize
      refine ⟨?_, hobjects, hflowsSize, fun hnone => ?_, fun state hstate => ?_⟩
      · unfold state
        rw [hflowsSize, hbytes, hdatagrams, show after.objects.size = r.objects.size by omega]
      · rw [hflow] at hnone
        cases hnone
      · obtain rfl := Option.some.inj (hflow.symm.trans hstate)
        have hlookup : started.flows.lookup key.flow =
            some { base with activeObjects := satAdd base.activeObjects 1 } := by
          rw [hreserved]
          exact AList.lookup_replace_self _ hflow
        obtain ⟨sequenceTracker, lastActivity, hafter⟩ := hreleased.flow.heard _ hlookup
        refine ⟨sequenceTracker, lastActivity, ?_⟩
        have hcount : satAdd base.activeObjects 1 = base.activeObjects + 1 := by
          unfold activeInFlow at hactive
          rw [hflow] at hactive
          exact satAdd_of_lt_bound hactive (toNat_le_u64Max _)
        rw [hafter, hcount]
        rfl
  | none =>
      have hnot : key.flow ∉ r.flows := AList.lookup_eq_none.1 hflow
      have hreserved : started.flows = r.flows.insert key.flow
          { FlowState.new now with activeObjects := satAdd (FlowState.new now).activeObjects 1 } := by
        rw [hstarted]
        show reserveActive r.flows key.flow now = _
        unfold reserveActive
        rw [hflow]
      have hlookup : started.flows.lookup key.flow = some
          { FlowState.new now with activeObjects := satAdd (FlowState.new now).activeObjects 1 } := by
        rw [hreserved]
        exact AList.lookup_insert _
      obtain ⟨sequenceTracker, lastActivity, hafter⟩ := hreleased.flow.heard _ hlookup
      have herased := AList.size_erase hafter
      rw [hreserved, AList.size_insert_of_notMem _ hnot] at hflowsSize
      have hempty : after.removeEmptyFlow key.flow =
          { after with flows := after.flows.erase key.flow } := by
        unfold removeEmptyFlow
        rw [hafter]
        exact if_pos ⟨rfl, rfl⟩
      have hsize : (after.flows.erase key.flow).size = r.flows.size := by omega
      rw [if_pos (decide_eq_true hnot), hempty]
      refine ⟨?_, hobjects, hsize, fun _ => AList.lookup_erase _ _, fun state hstate => ?_⟩
      · unfold state
        dsimp only
        rw [hsize, hbytes, hdatagrams, show after.objects.size = r.objects.size by omega]
      · rw [hflow] at hstate
        cases hstate

/-- What a rejected datagram of the object at `key` leaves: nothing changed, in
the tables or, when the decoder refused a first datagram, in what is reported;
or the object that was active is given up, because of its limit or of its
decoder. -/
def RejectedAt (key : ObjectKey) (fecDatagram : Bytes) (error : UdpFecReceiveError C)
    (r r' : UdpFecReceiver C) : Prop :=
  (Unchanged key.flow r r'
      ∧ (SameTables r r'
        ∨ (r.objects.lookup key = none ∧ DecoderRefuses key C.newDecoder fecDatagram error)))
    ∨ ∃ object, Released key object r r'
      ∧ ((∃ max, error = .objectDatagramLimitExceeded key.flow.streamId key.blockId max)
        ∨ DecoderRefuses key object.decoder fecDatagram error)

theorem SameTables.rejectedAt (h : SameTables r r') (key : ObjectKey) (fecDatagram : Bytes)
    (error : UdpFecReceiveError C) : RejectedAt key fecDatagram error r r' :=
  Or.inl ⟨h.unchanged key.flow, Or.inl h⟩

/-- Counting the datagram changes no table and no total. -/
theorem RejectedAt.of_countReceived {fecDatagram : Bytes} {error : UdpFecReceiveError C}
    (h : RejectedAt key fecDatagram error r.countReceived r') :
    RejectedAt key fecDatagram error r r' := by
  rcases h with ⟨hunchanged, hwhy⟩ | ⟨object, hreleased, hwhy⟩
  · have hflow := hunchanged.flow
    refine Or.inl ⟨⟨hunchanged.state_eq, hunchanged.objects,
      ⟨hflow.size, hflow.absent, hflow.heard⟩⟩, hwhy.imp_left fun hsame => ?_⟩
    exact ⟨hsame.flows, hsame.objects, hsame.bytes, hsame.datagrams⟩
  · have hflow := hreleased.flow
    refine Or.inr ⟨object, ⟨hreleased.present, hreleased.gone, hreleased.activeObjects,
      hreleased.bytes, hreleased.datagrams, ⟨hflow.size, hflow.absent, hflow.heard⟩⟩, hwhy⟩

theorem RejectedAt.flow_absent {fecDatagram : Bytes} {error : UdpFecReceiveError C}
    (h : RejectedAt key fecDatagram error r r') (hnone : r.flows.lookup key.flow = none) :
    r'.flows.lookup key.flow = none := by
  rcases h with ⟨hunchanged, -⟩ | ⟨object, hreleased, -⟩
  · exact hunchanged.flow.absent hnone
  · exact hreleased.flow.absent hnone

theorem RejectedAt.object_absent {fecDatagram : Bytes} {error : UdpFecReceiveError C}
    (h : RejectedAt key fecDatagram error r r') (hnone : r.objects.lookup key = none) :
    r'.objects.lookup key = none := by
  rcases h with ⟨hunchanged, -⟩ | ⟨object, hreleased, -⟩
  · rw [hunchanged.objects, hnone]
  · exact hreleased.gone

theorem ownKey_flow {peer : SocketAddr} {datagram : Bytes}
    (h : ownKey C peer datagram = some key) : key.flow = (classify C peer datagram).1 := by
  unfold ownKey at h
  split at h
  · cases h
  · cases h
    rfl

/-- A first datagram that passed the limits, when the decoder refuses it. -/
theorem Accounted.startedObject_rejected (h : Accounted config r) {header : C.DatagramFecHeader}
    {fecDatagram : Bytes} {now : Instant} {error : UdpFecReceiveError C}
    {started : UdpFecReceiver C} (hnew : r.objects.lookup key = none)
    (hcompleted : r.isCompleted key.flow key.blockId = false)
    (hlimit : 0 < r.config.maxDatagramsPerObject.toNat)
    (hbuffered : r.bufferedDatagrams < r.config.maxBufferedDatagrams.toNat)
    (hstart : r.startObject key (C.transferLength header) now = .ok started)
    (herror : (started.pushObject key header fecDatagram (decide (key.flow ∉ r.flows)) now).1 =
      .error (.err error)) :
    RejectedAt key fecDatagram error r
      (started.pushObject key header fecDatagram (decide (key.flow ∉ r.flows)) now).2 := by
  have hs : Accounted config started := h.start hnew hcompleted hstart
  obtain ⟨-, -, -, -, hstarted⟩ := startObject_ok hstart
  have hobject : started.objects.lookup key = some (newObject C (C.transferLength header) now) := by
    rw [hstarted]
    exact AList.lookup_insert _
  have hconfig : started.config = r.config := by rw [hstarted]
  have htotal : started.bufferedDatagrams = r.bufferedDatagrams := by rw [hstarted]
  obtain ⟨flowState, hflow, -⟩ := hs.flow_of_object hobject
  obtain ⟨hrefused, decoder, hsame⟩ := pushObject_error hflow hobject herror
  have hreleased := hs.heldFor_released header decoder now hflow hobject
    (by rw [hconfig]; exact hlimit) (by rw [hconfig, htotal]; exact hbuffered)
  have hframed : Framed key started
      ((started.heldFor key flowState header (newObject C (C.transferLength header) now) decoder
        now).removeObject key).2 :=
    ((touchFlow_framed started key flowState header now).trans
      (acceptDatagram_framed _ key _ decoder now)).trans (removeObject_framed _ key)
  have hunchanged := start_unchanged hnew hstart hreleased hframed
  exact Or.inl ⟨hunchanged.congr hsame, Or.inr ⟨hnew, hrefused⟩⟩

/-- **A rejected datagram gives up at most the object it is for.** -/
theorem Accounted.pushBlock_rejected (h : Accounted config r) {header : C.DatagramFecHeader}
    {fecDatagram : Bytes} {now : Instant} {error : UdpFecReceiveError C}
    (hcompleted : r.isCompleted key.flow key.blockId = false)
    (herror : (r.pushBlock key header fecDatagram now).1 = .error (.err error)) :
    RejectedAt key fecDatagram error r (r.pushBlock key header fecDatagram now).2 := by
  unfold pushBlock at herror ⊢
  split at herror
  next hfull =>
    rw [if_pos hfull]
    exact (reject_sameTables r _).rejectedAt key fecDatagram error
  next hroom =>
    rw [if_neg hroom]
    have hbuffered : r.bufferedDatagrams < r.config.maxBufferedDatagrams.toNat :=
      Nat.lt_of_not_le hroom
    cases hobject : r.objects.lookup key with
    | none =>
        rw [hobject] at herror
        dsimp only at herror ⊢
        -- a first datagram: the limit is checked before anything is reserved
        by_cases hzero : r.config.maxDatagramsPerObject = 0
        · rw [if_pos hzero]
          exact (reject_sameTables r _).rejectedAt key fecDatagram error
        · rw [if_neg hzero] at herror ⊢
          have hlimit : 0 < r.config.maxDatagramsPerObject.toNat :=
            Nat.pos_of_ne_zero fun heq => hzero (UInt64.toNat_inj.1 heq)
          cases hstart : r.startObject key (C.transferLength header) now with
          | error startError => exact (reject_sameTables r _).rejectedAt key fecDatagram error
          | ok started =>
              rw [hstart] at herror
              exact h.startedObject_rejected hobject hcompleted hlimit hbuffered hstart herror
    | some object =>
        rw [hobject] at herror
        dsimp only at herror ⊢
        -- an object that is there: at its limit it is given up without asking the decoder
        by_cases hlimit : r.config.maxDatagramsPerObject.toNat ≤ object.acceptedDatagrams
        · rw [if_pos hlimit] at herror ⊢
          refine Or.inr ⟨object, (h.removeObject_released hobject).congr (reject_sameTables _ _),
            Or.inl ⟨r.config.maxDatagramsPerObject.toNat, ?_⟩⟩
          cases herror
          rfl
        · have hold : decide (key.flow ∉ r.flows) = false :=
            decide_eq_false (not_not.2 (h.flow_mem key (AList.mem_of_lookup hobject)))
          rw [if_neg hlimit, hold] at herror ⊢
          obtain ⟨hrefused, hreleased⟩ :=
            h.pushObject_released hobject (Nat.lt_of_not_le hlimit) hbuffered herror
          exact Or.inr ⟨object, hreleased, Or.inr hrefused⟩

/-- **FLOW ISOLATION AND THE REJECTION FRAME.**  In every reachable state, when
no expiry scan is due, a datagram leaves every other flow and every other object
exactly as it was.  If it is rejected, what `state` reports is unchanged, or the
object it is for was active and is gone with its bytes and datagrams, because of
its limit or of its decoder; no flow and no object is there that was not. -/
theorem exec_push_frame (config : UdpFecReceiverConfig) (ops : List Op) (peer : SocketAddr)
    (datagram : Bytes) (now deadline : Instant) {r : UdpFecReceiver C}
    (hr : r = exec step (withConfig config) ops)
    (hnext : r.nextExpiryScan = some deadline) (hnow : now < deadline) :
    (∀ flow, flow ≠ (classify C peer datagram).1 →
        (r.tryPushPayloadAt peer datagram now).2.flows.lookup flow = r.flows.lookup flow)
      ∧ (∀ key, ownKey C peer datagram ≠ some key →
        (r.tryPushPayloadAt peer datagram now).2.objects.lookup key = r.objects.lookup key)
      ∧ ∀ error, (r.tryPushPayloadAt peer datagram now).1 = .error (.err error) →
        (SameTables r (r.tryPushPayloadAt peer datagram now).2
            ∨ ∃ key, ownKey C peer datagram = some key
              ∧ RejectedAt key (classify C peer datagram).2 error r
                (r.tryPushPayloadAt peer datagram now).2)
          ∧ (∀ flow, r.flows.lookup flow = none →
            (r.tryPushPayloadAt peer datagram now).2.flows.lookup flow = none)
          ∧ ∀ key, r.objects.lookup key = none →
            (r.tryPushPayloadAt peer datagram now).2.objects.lookup key = none := by
  have h : Accounted config r := hr ▸ exec_accounted config ops
  have hquiet : r.expireInactiveIfDue now = r := by
    unfold expireInactiveIfDue
    rw [hnext]
    exact if_pos hnow
  have hpush : r.tryPushPayloadAt peer datagram now =
      r.countReceived.pushReceived peer datagram now := by
    unfold tryPushPayloadAt
    rw [hquiet]
  have hcounted := countReceived_accounted h
  obtain ⟨hflows, hobjects⟩ := pushReceived_framed r.countReceived peer datagram now
  rw [hpush]
  refine ⟨hflows, hobjects, fun error herror => ?_⟩
  have hrejected : SameTables r (r.countReceived.pushReceived peer datagram now).2
      ∨ ∃ key, ownKey C peer datagram = some key
        ∧ RejectedAt key (classify C peer datagram).2 error r
          (r.countReceived.pushReceived peer datagram now).2 := by
    rcases pushReceived_cases r.countReceived peer datagram now with hsame | ⟨header, hown, hpushed⟩
    · exact Or.inl ⟨hsame.flows, hsame.objects, hsame.bytes, hsame.datagrams⟩
    · refine Or.inr ⟨_, hown, ?_⟩
      rcases hpushed with ⟨state, hflow, heq⟩ | ⟨hcompleted, heq⟩
      · -- a duplicate is no rejection
        rw [heq] at herror
        unfold answerDuplicate at herror
        rw [hflow] at herror
        cases herror
      · rw [heq] at herror ⊢
        exact (hcounted.pushBlock_rejected hcompleted herror).of_countReceived
  refine ⟨hrejected, fun flow hnone => ?_, fun key hnone => ?_⟩
  · by_cases hflow : flow = (classify C peer datagram).1
    · rcases hrejected with hsame | ⟨key, hown, hat⟩
      · rw [hsame.flows, hnone]
      · rw [hflow, ← ownKey_flow hown] at hnone ⊢
        exact hat.flow_absent hnone
    · rw [hflows flow hflow]
      exact hnone
  · by_cases hkey : ownKey C peer datagram = some key
    · rcases hrejected with hsame | ⟨key', hown, hat⟩
      · rw [hsame.objects, hnone]
      · obtain rfl := Option.some.inj (hown.symm.trans hkey)
        exact hat.object_absent hnone
    · rw [hobjects key hkey]
      exact hnone

/-- A datagram whose decoder refuses it, of a new flow, after another flow has
an object in flight: the new flow is not there afterwards. -/
theorem exec_push_frame_sample :
    ((exec step (withConfig {} : UdpFecReceiver sampleCrates)
        [.tryPushPayloadAt samplePeer (sampleDatagram 1 0 2) 0]).tryPushPayloadAt
      ⟨"203.0.113.8", 5004⟩ (sampleDatagram 1 0 2 ++ [0]) 1).2.flows.lookup
        (.unprefixed ⟨"203.0.113.8", 5004⟩) = none := by
  refine ((exec_push_frame {} [.tryPushPayloadAt samplePeer (sampleDatagram 1 0 2) 0]
    ⟨"203.0.113.8", 5004⟩ (sampleDatagram 1 0 2 ++ [0]) 1 250000000 rfl rfl (by decide)).2.2
      (.fec none "trailing bytes") rfl).2.1 _ rfl

end AvMesh.UdpFec.UdpFecReceiver
