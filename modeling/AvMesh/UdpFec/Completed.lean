/-
  AvMesh.UdpFec.Completed
  ───────────────────────
  **A BLOCK IS DECODED AT MOST ONCE WHILE IT IS REMEMBERED.**

  Each flow remembers the blocks it completed in a bounded first-in first-out
  memory (`memory`).

    • moves leave the memory of every flow alone, completing a block is
      `pushBounded` on the memory of its own flow, and a scan either leaves a
      flow's memory alone or drops the flow (`ExpiryDrops`),
    • so `mem_exec_of_pushes` says how long a block stays remembered, whatever
      other flows and blocks do,
    • a datagram of a remembered block is a duplicate or an error.

  The second half is the books: every received datagram is accepted or rejected,
  and every accepted one is buffered, a duplicate or completes an object.
-/
import AvMesh.UdpFec.Accounting

namespace AvMesh.UdpFec.UdpFecReceiver

open AvMesh.Lib

variable {C : FecCrates} {config : UdpFecReceiverConfig} {r r' : UdpFecReceiver C}

/-! ## §1. The memory of a flow. -/

/-- The completed blocks of `flow`, the oldest first. -/
def memoryOf (flows : Table FlowKey FlowState) (flow : FlowKey) : List UInt32 :=
  match flows.lookup flow with
  | some state => state.completedOrder
  | none => []

def memory (flow : FlowKey) (r : UdpFecReceiver C) : List UInt32 := memoryOf r.flows flow

theorem memoryOf_of_lookup {flows : Table FlowKey FlowState} {flow : FlowKey} {state : FlowState}
    (h : flows.lookup flow = some state) : memoryOf flows flow = state.completedOrder := by
  unfold memoryOf
  rw [h]

theorem memoryOf_of_notMem {flows : Table FlowKey FlowState} {flow : FlowKey} (h : flow ∉ flows) :
    memoryOf flows flow = [] := by
  unfold memoryOf
  rw [AList.lookup_eq_none.mpr h]

/-- An update of a flow that keeps its order keeps every memory. -/
theorem memoryOf_replace {flows : Table FlowKey FlowState} {flow : FlowKey}
    {state : FlowState} (state' : FlowState) (hstate : flows.lookup flow = some state)
    (horder : state'.completedOrder = state.completedOrder) (other : FlowKey) :
    memoryOf (flows.replace flow state') other = memoryOf flows other := by
  by_cases hother : other = flow
  · subst hother
    rw [memoryOf_of_lookup hstate, ← horder]
    exact memoryOf_of_lookup (AList.lookup_replace_self state' hstate)
  · unfold memoryOf
    rw [AList.lookup_replace_ne state' _ hother]

theorem Accounted.memory_nodup (h : Accounted config r) (flow : FlowKey) :
    (memory flow r).Nodup := by
  unfold memory memoryOf
  split
  next state hstate => exact (h.flows flow state hstate).remembers.nodup
  next => exact List.nodup_nil

/-- A block is completed exactly when its flow remembers it. -/
theorem Accounted.isCompleted_iff (h : Accounted config r) (flow : FlowKey) (blockId : UInt32) :
    r.isCompleted flow blockId = true ↔ blockId ∈ memory flow r := by
  unfold isCompleted memory memoryOf
  cases hflow : r.flows.lookup flow with
  | none => simp
  | some state =>
      have hsame := (h.flows flow state hflow).remembers.same
      simp [hsame]

/-- A block in flight is not remembered by its flow. -/
theorem Accounted.not_mem_memory (h : Accounted config r) {key : ObjectKey}
    {state : ObjectState C} (hstate : r.objects.lookup key = some state) :
    key.blockId ∉ memory key.flow r := by
  obtain ⟨flowState, hflow, _⟩ := h.flow_of_object hstate
  have hsound := h.flows _ flowState hflow
  show key.blockId ∉ memoryOf r.flows key.flow
  rw [memoryOf_of_lookup hflow]
  intro hmem
  have hcompleted : key.blockId ∈ flowState.completed := by
    rw [hsound.remembers.same, List.mem_toFinset]
    exact hmem
  exact hsound.disjoint key.blockId hcompleted (AList.mem_of_lookup hstate)

/-! ## §2. What changes a memory. -/

theorem memoryOf_releaseActive (flows : Table FlowKey FlowState) (flow other : FlowKey) :
    memoryOf (releaseActive flows flow) other = memoryOf flows other := by
  unfold releaseActive
  split
  · rfl
  next base hbase =>
    exact memoryOf_replace { base with activeObjects := base.activeObjects - 1 } hbase rfl other

/-- A flow that is created remembers nothing, as before. -/
theorem memoryOf_reserveActive (flows : Table FlowKey FlowState) (flow other : FlowKey)
    (now : Instant) :
    memoryOf (reserveActive flows flow now) other = memoryOf flows other := by
  unfold reserveActive
  split
  next base hbase =>
    exact memoryOf_replace { base with activeObjects := satAdd base.activeObjects 1 } hbase rfl
      other
  next hnone =>
    by_cases hother : other = flow
    · subst hother
      rw [memoryOf_of_notMem (AList.lookup_eq_none.mp hnone)]
      exact memoryOf_of_lookup (AList.lookup_insert _)
    · unfold memoryOf
      rw [AList.lookup_insert_ne hother]

theorem removeObject_memory (r : UdpFecReceiver C) (key : ObjectKey) (flow : FlowKey) :
    memory flow (r.removeObject key).2 = memory flow r := by
  cases hstate : r.objects.lookup key with
  | none => rw [removeObject_none hstate]
  | some state =>
      rw [removeObject_eq hstate]
      exact memoryOf_releaseActive r.flows key.flow flow

theorem Move.memory_eq (hmove : Move r r') (h : Accounted config r) (flow : FlowKey) :
    memory flow r' = memory flow r := by
  cases hmove with
  | bookkeep counters lastError next => rfl
  | touchFlow touched state header now hstate =>
      exact memoryOf_replace (state.touch (C.packetSequence header)
        r.config.maxTrackedSequenceGapsPerFlow now) hstate rfl flow
  | start _ key transferLength now hnew hcompleted hstart =>
      obtain ⟨_, _, _, _, rfl⟩ := startObject_ok hstart
      exact memoryOf_reserveActive r.flows key.flow flow now
  | acceptDatagram key state decoder now hstate hobject hbuffered => rfl
  | removeObject key state hstate => exact removeObject_memory r key flow
  | dropFlow dropped state hstate hidle hempty =>
      -- the dropped flow remembered nothing
      show memoryOf (r.flows.erase dropped) flow = memoryOf r.flows flow
      by_cases hflow : flow = dropped
      · subst hflow
        have hsame := (h.flows _ state hstate).remembers.same
        rw [hempty] at hsame
        rw [memoryOf_of_lookup hstate, (List.toFinset_eq_empty_iff _).mp hsame.symm]
        apply memoryOf_of_notMem
        intro hmem
        exact (AList.mem_erase.mp hmem).1 rfl
      · unfold memoryOf
        rw [AList.lookup_erase_ne hflow]

theorem Quiet.memory_eq (hquiet : Quiet r r') (h : Accounted config r) (flow : FlowKey) :
    memory flow r' = memory flow r := by
  induction hquiet with
  | refl => rfl
  | tail hbefore hlast ih =>
      rw [hlast.memory_eq (Scan.accounted (Quiet.scan hbefore) h) flow]
      exact ih

/-- **Completing a block pushes it onto the memory of its flow**, and leaves the
other flows alone. -/
theorem Accounted.complete_memory (h : Accounted config r) {key : ObjectKey}
    {state : ObjectState C} (hstate : r.objects.lookup key = some state) (flow : FlowKey) :
    memory flow (r.complete key)
      = if flow = key.flow then
          pushBounded config.maxCompletedObjectsPerFlow.toNat (memory flow r) key.blockId
        else memory flow r := by
  have hreleased := h.removeObject hstate
  have hnotin := h.not_mem_memory hstate
  have hmem : key.flow ∈ (r.removeObject key).2.flows :=
    mem_flows_removeObject key (h.flow_mem key (AList.mem_of_lookup hstate))
  obtain ⟨flowState, hflow⟩ := AList.exists_lookup_of_mem hmem
  have hsound := hreleased.flows _ flowState hflow
  have hlimit : (r.removeObject key).2.config.maxCompletedObjectsPerFlow
      = config.maxCompletedObjectsPerFlow := by rw [hreleased.config_eq]
  have horder : memory key.flow r = flowState.completedOrder := by
    rw [← removeObject_memory r key key.flow]
    exact memoryOf_of_lookup hflow
  have hcomplete : (r.complete key).flows = (r.removeObject key).2.flows.replace key.flow
      (flowState.markCompleted key.blockId config.maxCompletedObjectsPerFlow) := by
    unfold UdpFecReceiver.complete
    dsimp only
    rw [hflow]
    dsimp only
    rw [hlimit]
  show memoryOf (r.complete key).flows flow = _
  rw [hcomplete]
  split
  next hsame =>
    rw [hsame, horder, memoryOf_of_lookup (AList.lookup_replace_self _ hflow)]
    rw [horder] at hnotin
    by_cases hzero : config.maxCompletedObjectsPerFlow = 0
    · -- a flow that may remember nothing stays empty
      have hempty : flowState.completedOrder = [] := by
        apply List.length_eq_zero_iff.mp
        have hle := hsound.completed_le
        rw [hzero] at hle
        exact Nat.le_zero.mp hle
      unfold FlowState.markCompleted
      rw [if_pos (.inl hzero), hzero, hempty]
      rfl
    · have hnew : key.blockId ∉ flowState.completed := by
        rw [hsound.remembers.same, List.mem_toFinset]
        exact hnotin
      rw [FlowState.markCompleted_eq hsound.remembers hzero hnew]
  next hother =>
    rw [← removeObject_memory r key flow]
    unfold memory memoryOf
    rw [AList.lookup_replace_ne _ _ hother]

/-! ## §3. Scans. -/

/-- The flows of `r'` are flows of `r` with the same memory. -/
def KeepsMemories (r r' : UdpFecReceiver C) : Prop :=
  ∀ flow, flow ∈ r'.flows → flow ∈ r.flows ∧ memory flow r' = memory flow r

theorem KeepsMemories.trans {r₁ r₂ r₃ : UdpFecReceiver C} (h₁₂ : KeepsMemories r₁ r₂)
    (h₂₃ : KeepsMemories r₂ r₃) : KeepsMemories r₁ r₃ := by
  intro flow hflow
  obtain ⟨hmem₂, heq₂⟩ := h₂₃ flow hflow
  obtain ⟨hmem₁, heq₁⟩ := h₁₂ flow hmem₂
  exact ⟨hmem₁, heq₂.trans heq₁⟩

theorem removeExpired_keepsMemories (keys : List ObjectKey) (expiry : UdpFecExpiry)
    (r : UdpFecReceiver C) : KeepsMemories r (removeExpired keys expiry r).2 := by
  refine removeExpired_keeps ?_ keys expiry r fun flow hflow => ⟨hflow, rfl⟩
  intro r' key state _ hkeeps
  have hremove : KeepsMemories r' (r'.removeObject key).2 := by
    intro flow hflow
    refine ⟨?_, removeObject_memory r' key flow⟩
    unfold UdpFecReceiver.removeObject at hflow
    split at hflow
    · exact hflow
    · exact mem_releaseActive.mp hflow
  exact hkeeps.trans hremove

theorem removeFlows_keepsMemories (flows : List FlowKey) (expiry : UdpFecExpiry)
    (r : UdpFecReceiver C) : KeepsMemories r (removeFlows flows expiry r).2 := by
  refine removeFlows_keeps flows ?_ expiry r fun flow hflow => ⟨hflow, rfl⟩
  intro dropped _ r' _ hkeeps
  have hdrop : KeepsMemories r' { r' with flows := r'.flows.erase dropped } := by
    intro flow hflow
    obtain ⟨hne, hmem⟩ := AList.mem_erase.mp hflow
    refine ⟨hmem, ?_⟩
    show memoryOf (r'.flows.erase dropped) flow = memoryOf r'.flows flow
    unfold memoryOf
    rw [AList.lookup_erase_ne hne]
  exact hkeeps.trans hdrop

/-- Only the flows matter. -/
theorem KeepsMemories.congr {r₁ r₂ r₃ r₄ : UdpFecReceiver C} (h : KeepsMemories r₁ r₂)
    (hbefore : r₃.flows = r₁.flows) (hafter : r₄.flows = r₂.flows) : KeepsMemories r₃ r₄ := by
  unfold KeepsMemories memory at h ⊢
  rw [hbefore, hafter]
  exact h

theorem expireInactiveAt_keepsMemories (r : UdpFecReceiver C) (now : Instant) :
    KeepsMemories r (r.expireInactiveAt now).2 := by
  have hobjects := removeExpired_keepsMemories (r.expiredObjects now) {} r.countScan
  have hflows := removeFlows_keepsMemories
    ((removeExpired (r.expiredObjects now) {} r.countScan).2.expiredFlows now)
    (removeExpired (r.expiredObjects now) {} r.countScan).1
    (removeExpired (r.expiredObjects now) {} r.countScan).2
  refine (hobjects.trans hflows).congr rfl ?_
  unfold expireInactiveAt scanInactiveAt scheduleNextExpiryScan
  rfl

theorem expireInactiveIfDue_keepsMemories (r : UdpFecReceiver C) (now : Instant) :
    KeepsMemories r (r.expireInactiveIfDue now) := by
  unfold expireInactiveIfDue
  split
  · split
    · intro flow hflow
      exact ⟨hflow, rfl⟩
    · exact expireInactiveAt_keepsMemories r now
  · exact expireInactiveAt_keepsMemories r now

/-- The receiver after the expiry scan of an operation. -/
def scanned (r : UdpFecReceiver C) : Op → UdpFecReceiver C
  | .tryPushPayloadAt _ _ now => r.expireInactiveIfDue now
  | .expireInactiveAt now => (r.expireInactiveAt now).2

/-- The expiry scan of the operation removes the flow. -/
def ExpiryDrops (flow : FlowKey) (r : UdpFecReceiver C) (op : Op) : Prop :=
  flow ∈ r.flows ∧ flow ∉ (r.scanned op).flows

/-- A scan that does not drop a flow keeps its memory. -/
theorem scanned_memory {flow : FlowKey} {op : Op} (hkept : ¬ExpiryDrops flow r op) :
    memory flow (r.scanned op) = memory flow r := by
  have hkeeps : KeepsMemories r (r.scanned op) := by
    cases op with
    | tryPushPayloadAt peer datagram now => exact expireInactiveIfDue_keepsMemories r now
    | expireInactiveAt now => exact expireInactiveAt_keepsMemories r now
  by_cases hmem : flow ∈ (r.scanned op).flows
  · exact (hkeeps flow hmem).2
  · have hbefore : flow ∉ r.flows := fun hflow => hkept ⟨hflow, hmem⟩
    show memoryOf (r.scanned op).flows flow = memoryOf r.flows flow
    rw [memoryOf_of_notMem hmem, memoryOf_of_notMem hbefore]

/-! ## §4. Datagrams. -/

/-- The block of a completed object, when it is one of `flow`. -/
def blockOn (flow : FlowKey) : Option ObjectKey → Option UInt32
  | some key => if key.flow = flow then some key.blockId else none
  | none => none

/-- The block of `flow` for which an operation returns `Decoded`. -/
def decodedBlock (flow : FlowKey) (r : UdpFecReceiver C) : Op → Option UInt32
  | .tryPushPayloadAt peer datagram now =>
      blockOn flow (decodedKey (classify C peer datagram).1
        (r.tryPushPayloadAt peer datagram now).1)
  | .expireInactiveAt _ => none

/-- A memory after the given block (if any) was completed: a block that was not
remembered, pushed. -/
def Pushed (cap : Nat) (before after : List UInt32) : Option UInt32 → Prop
  | none => after = before
  | some blockId => blockId ∉ before ∧ after = pushBounded cap before blockId

theorem Effect.pushed {decoded : Option ObjectKey} (heffect : Effect r r' decoded)
    (h : Accounted config r) (flow : FlowKey) :
    Pushed config.maxCompletedObjectsPerFlow.toNat (memory flow r) (memory flow r')
      (blockOn flow decoded) := by
  cases decoded with
  | none => exact Quiet.memory_eq heffect h flow
  | some key =>
      obtain ⟨r₁, state, hbefore, hstate, hafter⟩ := heffect
      have h₁ := Scan.accounted (Quiet.scan hbefore) h
      have hmemory₁ := Quiet.memory_eq hbefore h flow
      have hmemory' := Quiet.memory_eq hafter (h₁.complete hstate) flow
      rw [h₁.complete_memory hstate flow, hmemory₁] at hmemory'
      unfold blockOn
      dsimp only
      -- a block of another flow is no push on this one
      by_cases hflow : key.flow = flow
      · rw [if_pos hflow]
        rw [if_pos hflow.symm] at hmemory'
        refine ⟨?_, hmemory'⟩
        rw [← hmemory₁, ← hflow]
        exact h₁.not_mem_memory hstate
      · rw [if_neg hflow]
        rw [if_neg fun heq => hflow heq.symm] at hmemory'
        exact hmemory'

theorem Accounted.scanned (h : Accounted config r) (op : Op) :
    Accounted config (r.scanned op) := by
  cases op with
  | tryPushPayloadAt peer datagram now => exact Scan.accounted (expireInactiveIfDue_scan r now) h
  | expireInactiveAt now => exact Scan.accounted (expireInactiveAt_scan r now) h

/-- **An operation pushes the block it decodes onto what its scan left.** -/
theorem Accounted.step_pushed (h : Accounted config r) (op : Op) (flow : FlowKey) :
    Pushed config.maxCompletedObjectsPerFlow.toNat (memory flow (r.scanned op))
      (memory flow (step r op).2) (decodedBlock flow r op) := by
  have hscanned := h.scanned op
  cases op with
  | tryPushPayloadAt peer datagram now =>
      exact (pushReceived_effect (r.expireInactiveIfDue now).countReceived peer datagram
        now).pushed (countReceived_accounted hscanned) flow
  | expireInactiveAt now => exact rfl

/-- The same without the scan, when the scan does not drop the flow. -/
theorem Accounted.step_pushesEmitted (h : Accounted config r) {op : Op} {flow : FlowKey}
    (hkept : ¬ExpiryDrops flow r op) :
    PushesEmitted step (decodedBlock flow) config.maxCompletedObjectsPerFlow.toNat (memory flow)
      r op := by
  have hpushed := h.step_pushed op flow
  rw [scanned_memory hkept] at hpushed
  unfold PushesEmitted
  cases hblock : decodedBlock flow r op with
  | none =>
      rw [hblock] at hpushed
      exact hpushed
  | some blockId =>
      rw [hblock] at hpushed
      exact hpushed

/-- The reply is `Duplicate` or an error, neither `Buffered` nor `Decoded`. -/
def DuplicateOrError (result : FecResult C UdpFecPushOutcome) : Prop :=
  (∃ streamId blockId, result = .ok (.duplicate streamId blockId))
    ∨ ∃ error, result = .error (.err error)

theorem answerDuplicate_of_completed {flow : FlowKey} {header : C.DatagramFecHeader}
    (now : Instant) (hcompleted : r.isCompleted flow (C.blockId header) = true) :
    DuplicateOrError (r.answerDuplicate flow header now).1 := by
  unfold isCompleted at hcompleted
  unfold answerDuplicate
  cases hflow : r.flows.lookup flow with
  | none =>
      rw [hflow] at hcompleted
      cases hcompleted
  | some state => exact .inl ⟨_, _, rfl⟩

/-- A datagram of a completed block reaches no decoder. -/
theorem pushReceived_of_completed {peer : SocketAddr} {datagram : Bytes} (now : Instant)
    {header : C.DatagramFecHeader}
    (hheader : C.decodeHeader (classify C peer datagram).2 = .ok header)
    (hcompleted : r.isCompleted (classify C peer datagram).1 (C.blockId header) = true) :
    DuplicateOrError (r.pushReceived peer datagram now).1 := by
  unfold pushReceived
  split
  · exact .inr ⟨_, rfl⟩
  · unfold pushFlow
    rw [hheader]
    dsimp only
    split
    · exact .inr ⟨_, rfl⟩
    · unfold pushHeader
      rw [if_pos hcompleted]
      split
      · exact .inr ⟨_, rfl⟩
      · exact answerDuplicate_of_completed now hcompleted

/-- Every datagram of the block on the flow, from whatever clock, gets `Duplicate`
or an error, unless the scan it triggers drops the flow. -/
def RefusesBlock (flow : FlowKey) (blockId : UInt32) (r : UdpFecReceiver C) : Prop :=
  ∀ peer datagram now header, (classify C peer datagram).1 = flow →
    C.decodeHeader (classify C peer datagram).2 = .ok header → C.blockId header = blockId →
    ¬ExpiryDrops flow r (.tryPushPayloadAt peer datagram now) →
    DuplicateOrError (r.tryPushPayloadAt peer datagram now).1

theorem Accounted.refusesBlock (h : Accounted config r) {flow : FlowKey} {blockId : UInt32}
    (hmem : blockId ∈ memory flow r) : RefusesBlock flow blockId r := by
  intro peer datagram now header hflow hheader hblock hkept
  -- the scan spares the flow, so the block is still remembered when it is looked up
  have hscanned := countReceived_accounted (h.scanned (.tryPushPayloadAt peer datagram now))
  have hmemory : memory flow (r.expireInactiveIfDue now).countReceived = memory flow r :=
    scanned_memory hkept
  refine pushReceived_of_completed now hheader ?_
  rw [hflow, hblock]
  apply (hscanned.isCompleted_iff flow blockId).mpr
  show blockId ∈ memory flow (r.expireInactiveIfDue now).countReceived
  rw [hmemory]
  exact hmem

/-! ## §5. The books. -/

/-- Every received datagram is accepted or rejected, and every accepted one is
buffered, a duplicate or the last of its object. -/
structure Balanced (c : UdpFecReceiverCounters) : Prop where
  received : c.datagramsReceived = c.datagramsAccepted + c.datagramsRejected
  accepted : c.datagramsAccepted = c.datagramsBuffered + c.duplicateDatagrams + c.objectsDecoded

/-- Two readings of the counters that differ in expiry at most. -/
def SameBooks (c c' : UdpFecReceiverCounters) : Prop :=
  c' = { c with
    objectsExpired := c'.objectsExpired
    flowsExpired := c'.flowsExpired
    expiryScans := c'.expiryScans }

theorem SameBooks.balanced {c c' : UdpFecReceiverCounters} (hsame : SameBooks c c')
    (h : Balanced c) : Balanced c' := by
  rw [hsame]
  exact ⟨h.received, h.accepted⟩

theorem SameBooks.received {c c' : UdpFecReceiverCounters} (hsame : SameBooks c c') :
    c'.datagramsReceived = c.datagramsReceived := by rw [hsame]

theorem removeExpired_counters (keys : List ObjectKey) (expiry : UdpFecExpiry)
    (r : UdpFecReceiver C) : (removeExpired keys expiry r).2.counters = r.counters := by
  refine removeExpired_keeps (I := fun r' => r'.counters = r.counters) ?_ keys expiry r rfl
  intro r' key state _ hsame
  rw [removeObject_counters, hsame]

theorem removeFlows_counters (flows : List FlowKey) (expiry : UdpFecExpiry)
    (r : UdpFecReceiver C) : (removeFlows flows expiry r).2.counters = r.counters :=
  removeFlows_keeps (I := fun r' => r'.counters = r.counters) flows (fun _ _ _ _ hsame => hsame)
    expiry r rfl

/-- A scan counts expired objects and flows and itself. -/
theorem expireInactiveAt_sameBooks (r : UdpFecReceiver C) (now : Instant) :
    SameBooks r.counters (r.expireInactiveAt now).2.counters := by
  have hobjects := removeExpired_counters (r.expiredObjects now) {} r.countScan
  have hflows := removeFlows_counters
    ((removeExpired (r.expiredObjects now) {} r.countScan).2.expiredFlows now)
    (removeExpired (r.expiredObjects now) {} r.countScan).1
    (removeExpired (r.expiredObjects now) {} r.countScan).2
  unfold expireInactiveAt scanInactiveAt scheduleNextExpiryScan SameBooks
  dsimp only
  rw [hflows, hobjects]
  rfl

theorem expireInactiveIfDue_sameBooks (r : UdpFecReceiver C) (now : Instant) :
    SameBooks r.counters (r.expireInactiveIfDue now).counters := by
  unfold expireInactiveIfDue
  split
  · split
    · rfl
    · exact expireInactiveAt_sameBooks r now
  · exact expireInactiveAt_sameBooks r now

/-- One datagram, counted as received, with its reply. -/
theorem Balanced.reply {c : UdpFecReceiverCounters} (h : Balanced c)
    (hroom : c.datagramsReceived < u64Max) (result : FecResult C UdpFecPushOutcome) :
    Balanced (reply { c with datagramsReceived := satAdd c.datagramsReceived 1 } result)
      ∧ (UdpFecReceiver.reply { c with datagramsReceived := satAdd c.datagramsReceived 1 }
          result).datagramsReceived = c.datagramsReceived + 1 := by
  have hreceived := h.received
  have haccepted := h.accepted
  -- no counter of the books is above the number of received datagrams
  have hsat : ∀ n, n ≤ c.datagramsReceived → satAdd n 1 = n + 1 := fun n hn =>
    satAdd_of_le (by omega)
  have hs := hsat c.datagramsReceived (Nat.le_refl _)
  have ha := hsat c.datagramsAccepted (by omega)
  have hj := hsat c.datagramsRejected (by omega)
  have hbuf := hsat c.datagramsBuffered (by omega)
  have hdup := hsat c.duplicateDatagrams (by omega)
  have hdec := hsat c.objectsDecoded (by omega)
  rcases result with stop | ⟨streamId, blockId⟩ | ⟨blockId, payload⟩ | ⟨streamId, blockId⟩
  all_goals
    refine ⟨⟨?_, ?_⟩, ?_⟩ <;> unfold UdpFecReceiver.reply <;> dsimp only <;> omega

/-- The operation hands in a datagram. -/
def Op.isPush : Op → Bool
  | .tryPushPayloadAt _ _ _ => true
  | .expireInactiveAt _ => false

theorem Accounted.step_balanced (h : Accounted config r) (op : Op) (hb : Balanced r.counters)
    (hroom : op.isPush = true → r.counters.datagramsReceived < u64Max) :
    Balanced (step r op).2.counters
      ∧ (step r op).2.counters.datagramsReceived
        = r.counters.datagramsReceived + if op.isPush then 1 else 0 := by
  cases op with
  | tryPushPayloadAt peer datagram now =>
      have hscan := expireInactiveIfDue_sameBooks r now
      have hscanned := countReceived_accounted (h.scanned (.tryPushPayloadAt peer datagram now))
      have hreply := (hscanned.pushReceived_replied peer datagram now).2
      have hroom' : (r.expireInactiveIfDue now).counters.datagramsReceived < u64Max := by
        rw [hscan.received]
        exact hroom rfl
      have hbooks := (hscan.balanced hb).reply hroom'
        ((r.expireInactiveIfDue now).countReceived.pushReceived peer datagram now).1
      have hcounters : (step r (.tryPushPayloadAt peer datagram now)).2.counters = _ := hreply
      rw [hcounters]
      refine ⟨hbooks.1, ?_⟩
      rw [← hscan.received]
      exact hbooks.2
  | expireInactiveAt now =>
      have hscan := expireInactiveAt_sameBooks r now
      exact ⟨hscan.balanced hb, hscan.received⟩

/-- Below saturation the books balance after every run. -/
theorem exec_balanced (ops : List Op) :
    ∀ r : UdpFecReceiver C, Accounted config r → Balanced r.counters →
      r.counters.datagramsReceived + ops.countP Op.isPush ≤ u64Max →
      Balanced (exec step r ops).counters := by
  induction ops with
  | nil => intro r _ hb _; exact hb
  | cons op ops ih =>
      intro r h hb hroom
      rw [List.countP_cons] at hroom
      have hroom' : op.isPush = true → r.counters.datagramsReceived < u64Max := by
        intro hpush
        rw [if_pos hpush] at hroom
        omega
      obtain ⟨hstep, hreceived⟩ := h.step_balanced op hb hroom'
      refine ih _ (step_accounted r op h) hstep ?_
      show (step r op).2.counters.datagramsReceived + ops.countP Op.isPush ≤ u64Max
      omega

/-! ## §6. Every run. -/

/-- **A REMEMBERED BLOCK IS NOT DECODED AGAIN, AND THE BOOKS BALANCE.**  After an
operation decoded block `blockId` of `flow`, while no scan drops the flow and fewer
than `maxCompletedObjectsPerFlow` other blocks of it are decoded, its datagrams are
duplicates or errors, whatever else arrives. -/
theorem exec_decodes_once (config : UdpFecReceiverConfig) :
    (∀ (before : List Op) (op : Op) (after : List Op) (flow : FlowKey) (blockId : UInt32),
      decodedBlock flow (exec step (withConfig config : UdpFecReceiver C) before) op
        = some blockId →
      (∀ e ∈ trace step (step (exec step (withConfig config : UdpFecReceiver C) before) op).2 after,
        ¬ExpiryDrops flow e.1 e.2) →
      ((emitted step (decodedBlock flow)
          (step (exec step (withConfig config : UdpFecReceiver C) before) op).2
          after).toFinset.erase blockId).card < config.maxCompletedObjectsPerFlow.toNat →
      RefusesBlock flow blockId
        (exec step (withConfig config : UdpFecReceiver C) (before ++ op :: after)))
    ∧ ∀ ops : List Op, ops.countP Op.isPush ≤ u64Max →
      Balanced (exec step (withConfig config : UdpFecReceiver C) ops).counters := by
  refine ⟨?_, ?_⟩
  · intro before op after flow blockId hdecoded hkept hfew
    have hbefore := exec_accounted (C := C) config before
    have hfirst := hbefore.step_pushed op flow
    rw [hdecoded] at hfirst
    have hpushes : ∀ e ∈ trace step (step (exec step (withConfig config : UdpFecReceiver C) before)
        op).2 after, PushesEmitted step (decodedBlock flow)
          config.maxCompletedObjectsPerFlow.toNat (memory flow) e.1 e.2 := by
      intro e he
      obtain ⟨ops, _, _, hstate⟩ := exists_exec_of_mem_trace step he
      have haccounted : Accounted config e.1 := by
        rw [hstate]
        exact exec_invariant step _ step_accounted ops (step_accounted _ op hbefore)
      exact haccounted.step_pushesEmitted (hkept e he)
    -- the block goes onto what the scan of `op` left, which may be a dropped flow's
    -- empty memory
    have hmem := mem_exec_of_pushes ((hbefore.scanned op).memory_nodup flow) hfirst.1 hfirst.2
      hpushes hfew
    rw [← exec_cons, ← exec_append] at hmem
    exact (exec_accounted config _).refusesBlock hmem
  · intro ops hroom
    refine exec_balanced ops _ (withConfig_accounted config) ⟨rfl, rfl⟩ ?_
    show 0 + ops.countP Op.isPush ≤ u64Max
    omega

/-- Block 1 needs one datagram; block 2 is buffered and a scan runs before its
datagram is sent again. -/
theorem exec_decodes_once_sample :
    decodedBlock (.unprefixed samplePeer) (withConfig sampleConfig : UdpFecReceiver sampleCrates)
        (.tryPushPayloadAt samplePeer (sampleDatagram 1 0 1) 0) = some 1
      ∧ DuplicateOrError ((exec step (withConfig sampleConfig : UdpFecReceiver sampleCrates)
          ([] ++ .tryPushPayloadAt samplePeer (sampleDatagram 1 0 1) 0 ::
            [.tryPushPayloadAt samplePeer (sampleDatagram 2 1 2) 10,
              .expireInactiveAt 20])).tryPushPayloadAt samplePeer (sampleDatagram 1 2 1) 30).1
      ∧ Balanced (exec step (withConfig sampleConfig : UdpFecReceiver sampleCrates)
          [.tryPushPayloadAt samplePeer (sampleDatagram 1 0 1) 0]).counters :=
  ⟨by decide,
    (exec_decodes_once sampleConfig).1 [] _ _ (.unprefixed samplePeer) 1 (by decide)
      (by unfold ExpiryDrops; decide) (by decide) _ _ _ ⟨1, 2, 1⟩ (by decide) rfl rfl
      (by unfold ExpiryDrops; decide),
    (exec_decodes_once sampleConfig).2 _ (by decide)⟩

end AvMesh.UdpFec.UdpFecReceiver
