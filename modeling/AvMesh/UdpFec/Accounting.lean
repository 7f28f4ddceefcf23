/-
  AvMesh.UdpFec.Accounting
  ────────────────────────
  **RESOURCE ACCOUNTING OF THE FEC RECEIVER.**

  This is the memory bound of a public UDP ingress.  For every configuration,
  peer, datagram and clock, in every reachable state (`Accounted`):

    • the buffered bytes and datagrams are the sums over the objects in flight,
    • a flow counts exactly the objects it has, and every object has its flow,
    • a flow remembers each completed block once, and none that is in flight,
    • the seven limits hold.

  Each elementary change of `AvMesh.UdpFec.Moves` keeps this, hence every
  operation and every run; no `expect` is reached and no `saturating_sub`
  clamps.
-/
import AvMesh.UdpFec.Moves
import AvMesh.Lib.BoundedFifo

namespace AvMesh.UdpFec

open AvMesh.Lib

variable {C : FecCrates}

/-! ## §1. Completed blocks of one flow. -/

/-- What the loop of `mark_completed` leaves of a set and its order. -/
theorem trimCompleted_eq (limit : Nat) (order : List UInt32) :
    ∀ completed : Finset UInt32, order.Nodup → completed = order.toFinset →
      trimCompleted limit order completed
        = (order.drop (order.length - limit),
          (order.drop (order.length - limit)).toFinset) := by
  induction order with
  | nil =>
      intro completed _ hsame
      rw [hsame, List.drop_nil]
      rfl
  | cons expired order ih =>
      intro completed hnd hsame
      obtain ⟨hnotin, hnd'⟩ := List.nodup_cons.mp hnd
      unfold trimCompleted
      by_cases hlimit : limit < order.length + 1
      · -- the loop goes on: the set and the order lose the same block
        have herase : completed.erase expired = order.toFinset := by
          rw [hsame, List.toFinset_cons, Finset.erase_insert]
          simpa using hnotin
        have hdrop : (expired :: order).length - limit = order.length - limit + 1 := by
          simp only [List.length_cons]
          omega
        rw [if_pos hlimit, ih _ hnd' herase, hdrop, List.drop_succ_cons]
      · have hdrop : (expired :: order).length - limit = 0 := by
          simp only [List.length_cons]
          omega
        rw [if_neg hlimit, hdrop, hsame, List.drop_zero]

/-- The memory of a flow: a set of blocks and the order they came in. -/
structure Remembers (state : FlowState) : Prop where
  same : state.completed = state.completedOrder.toFinset
  nodup : state.completedOrder.Nodup

/-- **Marking a new block is a push onto the bounded memory of its flow.** -/
theorem FlowState.markCompleted_eq {state : FlowState} (h : Remembers state) {blockId : UInt32}
    {limit : UInt64} (hlimit : limit ≠ 0) (hnew : blockId ∉ state.completed) :
    state.markCompleted blockId limit
      = { state with
          completedOrder := pushBounded limit.toNat state.completedOrder blockId
          completed := (pushBounded limit.toNat state.completedOrder blockId).toFinset } := by
  have hnotin : blockId ∉ state.completedOrder := by
    rw [h.same, List.mem_toFinset] at hnew
    exact hnew
  have hnd : (state.completedOrder ++ [blockId]).Nodup := by
    rw [List.nodup_append]
    refine ⟨h.nodup, List.nodup_singleton _, ?_⟩
    intro a ha b hb hab
    rw [List.mem_singleton] at hb
    exact hnotin (hb ▸ hab ▸ ha)
  have hsame : insert blockId state.completed = (state.completedOrder ++ [blockId]).toFinset := by
    rw [h.same]
    ext b
    simp
  unfold markCompleted pushBounded
  rw [if_neg (by simp [hlimit, hnew])]
  dsimp only
  rw [trimCompleted_eq _ _ _ hnd hsame]
  simp only [List.length_append, List.length_singleton]

/-- With or without room, marking a block keeps the memory well-formed and
within its limit. -/
theorem Remembers.markCompleted {state : FlowState} (h : Remembers state) (blockId : UInt32)
    {limit : UInt64} (hle : state.completedOrder.length ≤ limit.toNat) :
    Remembers (state.markCompleted blockId limit)
      ∧ (state.markCompleted blockId limit).completedOrder.length ≤ limit.toNat := by
  by_cases hskip : limit = 0 ∨ blockId ∈ state.completed
  · have hsame : state.markCompleted blockId limit = state := by
      unfold FlowState.markCompleted
      rw [if_pos hskip]
    rw [hsame]
    exact ⟨h, hle⟩
  · rw [not_or] at hskip
    rw [FlowState.markCompleted_eq h hskip.1 hskip.2]
    have hnotin : blockId ∉ state.completedOrder := by
      have := hskip.2
      rwa [h.same, List.mem_toFinset] at this
    exact ⟨⟨rfl, nodup_pushBounded _ h.nodup hnotin⟩, length_pushBounded_le _ _ _⟩

theorem FlowState.markCompleted_activeObjects (state : FlowState) (blockId : UInt32)
    (limit : UInt64) : (state.markCompleted blockId limit).activeObjects = state.activeObjects := by
  unfold markCompleted
  split <;> rfl

/-- Marking a block adds that block at most. -/
theorem FlowState.mem_markCompleted {state : FlowState} (h : Remembers state)
    {blockId other : UInt32} {limit : UInt64}
    (hmem : other ∈ (state.markCompleted blockId limit).completed) :
    other = blockId ∨ other ∈ state.completed := by
  by_cases hskip : limit = 0 ∨ blockId ∈ state.completed
  · unfold markCompleted at hmem
    rw [if_pos hskip] at hmem
    exact .inr hmem
  · rw [not_or] at hskip
    rw [markCompleted_eq h hskip.1 hskip.2, List.mem_toFinset] at hmem
    have hpushed := List.mem_of_mem_drop hmem
    rw [List.mem_append, List.mem_singleton] at hpushed
    rw [h.same, List.mem_toFinset]
    exact hpushed.symm

/-! ## §2. The invariant. -/

/-- Counts the objects of `flow`. -/
def inFlow (flow : FlowKey) (key : ObjectKey) (_ : ObjectState C) : Nat :=
  if key.flow = flow then 1 else 0

structure FlowSound (config : UdpFecReceiverConfig) (objects : Table ObjectKey (ObjectState C))
    (flow : FlowKey) (state : FlowState) : Prop where
  active : state.activeObjects = objects.total (inFlow flow)
  active_le : state.activeObjects ≤ config.maxActiveObjectsPerFlow.toNat
  remembers : Remembers state
  completed_le : state.completedOrder.length ≤ config.maxCompletedObjectsPerFlow.toNat
  disjoint : ∀ blockId ∈ state.completed, (⟨flow, blockId⟩ : ObjectKey) ∉ objects

namespace FlowSound

variable {config : UdpFecReceiverConfig} {objects : Table ObjectKey (ObjectState C)}
  {flow : FlowKey} {state : FlowState} {key : ObjectKey}

/-- A flow that is created has no object and remembers no block. -/
theorem new (now : Instant) (hnone : ∀ key, key ∈ objects → key.flow ≠ flow) :
    FlowSound config objects flow (FlowState.new now) := by
  have hzero : objects.total (inFlow flow) = 0 := by
    apply AList.total_eq_zero
    intro key object hobject
    exact if_neg (hnone key (AList.mem_of_lookup hobject))
  refine ⟨hzero.symm, Nat.zero_le _, ⟨rfl, List.nodup_nil⟩, Nat.zero_le _, ?_⟩
  intro blockId hblock
  exact absurd hblock (Finset.notMem_empty _)

/-- An object of another flow changes nothing. -/
theorem insert_other (h : FlowSound config objects flow state) (object : ObjectState C)
    (hnotin : key ∉ objects) (hne : flow ≠ key.flow) :
    FlowSound config (objects.insert key object) flow state := by
  have hzero : inFlow flow key object = 0 := if_neg fun heq => hne heq.symm
  refine { h with active := ?_, disjoint := ?_ }
  · rw [AList.total_insert_of_notMem _ _ hnotin, hzero, Nat.zero_add]
    exact h.active
  · intro blockId hblock hmem
    rcases (AList.mem_insert _).mp hmem with hkey | hmem
    · apply hne
      rw [← hkey]
    · exact h.disjoint blockId hblock hmem

/-- A new object of the flow: one more, and its block is not completed. -/
theorem reserve (h : FlowSound config objects key.flow state) (object : ObjectState C)
    (hnotin : key ∉ objects) (hroom : state.activeObjects < config.maxActiveObjectsPerFlow.toNat)
    (hnew : key.blockId ∉ state.completed) :
    FlowSound config (objects.insert key object) key.flow
      { state with activeObjects := satAdd state.activeObjects 1 } := by
  have hone : inFlow key.flow key object = 1 := if_pos rfl
  -- the limit is a machine integer, so counting one more does not saturate
  have hsat := satAdd_of_lt_bound hroom (toNat_le_u64Max _)
  constructor
  case active =>
    show satAdd state.activeObjects 1 = _
    rw [AList.total_insert_of_notMem _ _ hnotin, hone, hsat, h.active, Nat.add_comm]
  case active_le =>
    show satAdd state.activeObjects 1 ≤ _
    omega
  case remembers => exact ⟨h.remembers.same, h.remembers.nodup⟩
  case completed_le => exact h.completed_le
  case disjoint =>
    intro blockId hblock hmem
    rcases (AList.mem_insert _).mp hmem with hkey | hmem
    · apply hnew
      rw [← hkey]
      exact hblock
    · exact h.disjoint blockId hblock hmem

/-- An object of another flow is released. -/
theorem erase_other (h : FlowSound config objects flow state) {object : ObjectState C}
    (hobject : objects.lookup key = some object) (hne : flow ≠ key.flow) :
    FlowSound config (objects.erase key) flow state := by
  have hcount := AList.total_erase (inFlow flow) hobject
  have hzero : inFlow flow key object = 0 := if_neg fun heq => hne heq.symm
  have hactive := h.active
  refine { h with active := ?_, disjoint := ?_ }
  · omega
  · intro blockId hblock hmem
    exact h.disjoint blockId hblock (AList.mem_erase.mp hmem).2

/-- An object of the flow is released: the flow counted it. -/
theorem release (h : FlowSound config objects key.flow state) {object : ObjectState C}
    (hobject : objects.lookup key = some object) :
    FlowSound config (objects.erase key) key.flow
      { state with activeObjects := state.activeObjects - 1 } := by
  have hcount := AList.total_erase (inFlow key.flow) hobject
  have hone : inFlow key.flow key object = 1 := if_pos rfl
  have hactive := h.active
  have hactive_le := h.active_le
  constructor
  case active =>
    show state.activeObjects - 1 = _
    omega
  case active_le =>
    show state.activeObjects - 1 ≤ _
    omega
  case remembers => exact ⟨h.remembers.same, h.remembers.nodup⟩
  case completed_le => exact h.completed_le
  case disjoint =>
    intro blockId hblock hmem
    exact h.disjoint blockId hblock (AList.mem_erase.mp hmem).2

end FlowSound

namespace UdpFecReceiver

structure Accounted (config : UdpFecReceiverConfig) (r : UdpFecReceiver C) : Prop where
  config_eq : r.config = config
  bytes : r.bufferedObjectBytes = r.objects.total fun _ state => state.transferLength
  datagrams : r.bufferedDatagrams = r.objects.total fun _ state => state.acceptedDatagrams
  flow_mem : ∀ key, key ∈ r.objects → key.flow ∈ r.flows
  flows : ∀ flow state, r.flows.lookup flow = some state → FlowSound config r.objects flow state
  flows_le : r.flows.size ≤ config.maxFlows.toNat
  objects_le : r.objects.size ≤ config.maxActiveObjects.toNat
  object_datagrams_le : ∀ key state, r.objects.lookup key = some state →
    state.acceptedDatagrams ≤ config.maxDatagramsPerObject.toNat
  datagrams_le : r.bufferedDatagrams ≤ config.maxBufferedDatagrams.toNat
  bytes_le : r.bufferedObjectBytes ≤ config.maxBufferedObjectBytes.toNat

/-- Releasing any object takes exactly its bytes and datagrams off the totals
and one object off its flow: no `saturating_sub` clamps. -/
def ReleasesExactly (r : UdpFecReceiver C) : Prop :=
  ∀ key state, r.objects.lookup key = some state →
    (r.removeObject key).2.bufferedObjectBytes + state.transferLength = r.bufferedObjectBytes
      ∧ (r.removeObject key).2.bufferedDatagrams + state.acceptedDatagrams = r.bufferedDatagrams
      ∧ (r.removeObject key).2.activeInFlow key.flow + 1 = r.activeInFlow key.flow

variable {config : UdpFecReceiverConfig} {r r' : UdpFecReceiver C}

theorem removeObject_eq {key : ObjectKey} {state : ObjectState C}
    (h : r.objects.lookup key = some state) :
    (r.removeObject key).2 = { r with
      objects := r.objects.erase key
      bufferedObjectBytes := r.bufferedObjectBytes - state.transferLength
      bufferedDatagrams := r.bufferedDatagrams - state.acceptedDatagrams
      flows := releaseActive r.flows key.flow } := by
  unfold removeObject
  rw [h]

/-- The flow of an object, with its object counted. -/
theorem Accounted.flow_of_object (h : Accounted config r) {key : ObjectKey}
    {state : ObjectState C} (hstate : r.objects.lookup key = some state) :
    ∃ flowState, r.flows.lookup key.flow = some flowState ∧ 0 < flowState.activeObjects := by
  obtain ⟨flowState, hflow⟩ :=
    AList.exists_lookup_of_mem (h.flow_mem key (AList.mem_of_lookup hstate))
  refine ⟨flowState, hflow, ?_⟩
  -- the object weighs one among those of its flow
  have hweight := AList.le_total (inFlow key.flow) hstate
  have hactive := (h.flows _ _ hflow).active
  have hone : inFlow key.flow key state = 1 := if_pos rfl
  omega

/-- A flow with no objects left has none in the table. -/
theorem Accounted.no_object_of_idle (h : Accounted config r) {flow : FlowKey}
    {flowState : FlowState} (hflow : r.flows.lookup flow = some flowState)
    (hidle : flowState.activeObjects = 0) :
    ∀ key, key ∈ r.objects → key.flow ≠ flow := by
  intro key hkey heq
  subst heq
  obtain ⟨state, hstate⟩ := AList.exists_lookup_of_mem hkey
  obtain ⟨flowState', hflow', hpos⟩ := h.flow_of_object hstate
  have hsame := Option.some.inj (hflow.symm.trans hflow')
  subst hsame
  omega

theorem Accounted.releasesExactly (h : Accounted config r) : ReleasesExactly r := by
  intro key state hstate
  have hbytes := AList.le_total (fun _ (s : ObjectState C) => s.transferLength) hstate
  have hdatagrams := AList.le_total (fun _ (s : ObjectState C) => s.acceptedDatagrams) hstate
  obtain ⟨flowState, hflow, hpos⟩ := h.flow_of_object hstate
  have hbt := h.bytes
  have hdt := h.datagrams
  rw [removeObject_eq hstate]
  refine ⟨?_, ?_, ?_⟩
  · show r.bufferedObjectBytes - state.transferLength + state.transferLength = _
    omega
  · show r.bufferedDatagrams - state.acceptedDatagrams + state.acceptedDatagrams = _
    omega
  · unfold activeInFlow releaseActive
    rw [hflow]
    dsimp only
    rw [AList.lookup_replace_self _ hflow]
    dsimp only
    omega

/-! ## §3. The moves keep it. -/

/-- Replacing the state of a flow by another sound one. -/
theorem Accounted.replaceFlow (h : Accounted config r) {flow : FlowKey}
    {state state' : FlowState} (hstate : r.flows.lookup flow = some state)
    (hsound : FlowSound config r.objects flow state') :
    Accounted config { r with flows := r.flows.replace flow state' } :=
  { h with
    flow_mem := by
      intro key hkey
      exact AList.mem_replace.mpr (h.flow_mem key hkey)
    flows := by
      intro other otherState hother
      rcases AList.lookup_of_replace hstate hother with ⟨hsame, hnew⟩ | ⟨_, hold⟩
      · rw [hsame, hnew]
        exact hsound
      · exact h.flows other otherState hold
    flows_le := by
      rw [AList.size_replace]
      exact h.flows_le }

theorem Accounted.touchFlow (h : Accounted config r) {flow : FlowKey} {state : FlowState}
    (header : C.DatagramFecHeader) (now : Instant) (hstate : r.flows.lookup flow = some state) :
    Accounted config (r.touchFlow flow state header now) := by
  have hsound := h.flows flow state hstate
  refine h.replaceFlow hstate ?_
  exact {
    active := hsound.active
    active_le := hsound.active_le
    remembers := ⟨hsound.remembers.same, hsound.remembers.nodup⟩
    completed_le := hsound.completed_le
    disjoint := hsound.disjoint }

/-- Forgetting a flow without objects. -/
theorem Accounted.dropFlow (h : Accounted config r) {flow : FlowKey} {state : FlowState}
    (hstate : r.flows.lookup flow = some state) (hidle : state.activeObjects = 0) :
    Accounted config { r with flows := r.flows.erase flow } :=
  { h with
    flow_mem := by
      -- an idle flow counts no object, and the count is exact
      intro key hkey
      exact AList.mem_erase.mpr ⟨h.no_object_of_idle hstate hidle key hkey, h.flow_mem key hkey⟩
    flows := by
      intro other otherState hother
      exact h.flows other otherState (AList.lookup_of_erase hother).2
    flows_le := by
      have hsize := AList.size_erase hstate
      have hle := h.flows_le
      show (r.flows.erase flow).size ≤ _
      omega }

/-- The flows after an object of `flow` is reserved: `flow` counts one more, the
others are as before. -/
theorem lookup_of_reserveActive {flows : Table FlowKey FlowState} {flow other : FlowKey}
    {now : Instant} {state : FlowState}
    (h : (reserveActive flows flow now).lookup other = some state) :
    (other ≠ flow ∧ flows.lookup other = some state)
      ∨ (other = flow ∧ ∃ base : FlowState,
          (flows.lookup flow = some base ∨ (flows.lookup flow = none ∧ base = FlowState.new now))
          ∧ state = { base with activeObjects := satAdd base.activeObjects 1 }) := by
  unfold reserveActive at h
  cases hflow : flows.lookup flow with
  | some base =>
      rw [hflow] at h
      rcases AList.lookup_of_replace hflow h with ⟨hsame, hnew⟩ | ⟨hne, hold⟩
      · exact .inr ⟨hsame, base, .inl rfl, hnew⟩
      · exact .inl ⟨hne, hold⟩
  | none =>
      rw [hflow] at h
      rcases AList.lookup_of_insert h with ⟨hsame, hnew⟩ | ⟨hne, hold⟩
      · exact .inr ⟨hsame, FlowState.new now, .inr ⟨rfl, rfl⟩, hnew⟩
      · exact .inl ⟨hne, hold⟩

theorem mem_reserveActive {flows : Table FlowKey FlowState} {flow other : FlowKey}
    (now : Instant) : other ∈ reserveActive flows flow now ↔ other = flow ∨ other ∈ flows := by
  unfold reserveActive
  cases hflow : flows.lookup flow with
  | some base =>
      have hmem := AList.mem_of_lookup hflow
      rw [AList.mem_replace]
      constructor
      · intro hother
        exact .inr hother
      · intro hother
        rcases hother with heq | hother
        · rw [heq]
          exact hmem
        · exact hother
  | none => exact AList.mem_insert _

/-- The first datagram of an object. -/
theorem Accounted.start (h : Accounted config r) {key : ObjectKey} {transferLength : Nat}
    {now : Instant} (hnew : r.objects.lookup key = none)
    (hcompleted : r.isCompleted key.flow key.blockId = false)
    (hstart : r.startObject key transferLength now = .ok r') : Accounted config r' := by
  obtain ⟨hflows, hobjects, hactive, hbytes, rfl⟩ := startObject_ok hstart
  have hnotin : key ∉ r.objects := AList.lookup_eq_none.mp hnew
  rw [h.config_eq] at hflows hobjects hactive hbytes
  have hbt := h.bytes
  have hdt := h.datagrams
  exact {
    config_eq := h.config_eq
    bytes := by
      show r.bufferedObjectBytes + transferLength = (r.objects.insert key _).total _
      rw [AList.total_insert_of_notMem _ _ hnotin, Nat.add_comm, hbt]
    datagrams := by
      show r.bufferedDatagrams = (r.objects.insert key _).total _
      rw [AList.total_insert_of_notMem _ _ hnotin, Nat.zero_add, hdt]
    flow_mem := by
      intro k hk
      apply (mem_reserveActive now).mpr
      rcases (AList.mem_insert _).mp hk with heq | hk
      · exact .inl (by rw [heq])
      · exact .inr (h.flow_mem k hk)
    flows := by
      intro flow state hstate
      show FlowSound config (r.objects.insert key _) flow state
      rcases lookup_of_reserveActive hstate with ⟨hne, hold⟩ | ⟨heq, base, hbase, hstate'⟩
      · exact (h.flows flow state hold).insert_other _ hnotin hne
      · subst heq hstate'
        -- the flow was there, or it is created for this object
        have hbase' : FlowSound config r.objects key.flow base
            ∧ base.activeObjects = r.activeInFlow key.flow
            ∧ key.blockId ∉ base.completed := by
          unfold activeInFlow
          unfold isCompleted at hcompleted
          rcases hbase with hlookup | ⟨hnone, hbase⟩
          · rw [hlookup] at hcompleted ⊢
            exact ⟨h.flows _ _ hlookup, rfl, by simpa using hcompleted⟩
          · rw [hnone]
            subst hbase
            refine ⟨FlowSound.new now ?_, rfl, Finset.notMem_empty _⟩
            intro k hk heq
            have hmem := h.flow_mem k hk
            rw [heq] at hmem
            exact AList.lookup_eq_none.mp hnone hmem
        obtain ⟨hsound, hcount, hnotcompleted⟩ := hbase'
        exact hsound.reserve _ hnotin (by omega) hnotcompleted
    flows_le := by
      show (reserveActive r.flows key.flow now).size ≤ _
      unfold reserveActive
      cases hflow : r.flows.lookup key.flow with
      | some base =>
          rw [AList.size_replace]
          exact h.flows_le
      | none =>
          have hnotflow := AList.lookup_eq_none.mp hflow
          rw [AList.size_insert_of_notMem _ hnotflow]
          rcases hflows with hmem | hroom
          · exact absurd hmem hnotflow
          · exact hroom
    objects_le := by
      show (r.objects.insert key _).size ≤ _
      rw [AList.size_insert_of_notMem _ hnotin]
      exact hobjects
    object_datagrams_le := by
      intro k s hs
      rcases AList.lookup_of_insert hs with ⟨_, hstate⟩ | ⟨_, hold⟩
      · rw [hstate]
        exact Nat.zero_le _
      · exact h.object_datagrams_le k s hold
    datagrams_le := h.datagrams_le
    bytes_le := hbytes }

/-- One more datagram of an object. -/
theorem Accounted.acceptDatagram (h : Accounted config r) {key : ObjectKey}
    {state : ObjectState C} (decoder : C.DatagramFecDecoder) (now : Instant)
    (hstate : r.objects.lookup key = some state)
    (hobject : state.acceptedDatagrams < r.config.maxDatagramsPerObject.toNat)
    (hbuffered : r.bufferedDatagrams < r.config.maxBufferedDatagrams.toNat) :
    Accounted config (r.acceptDatagram key state decoder now) := by
  rw [h.config_eq] at hobject hbuffered
  have hobjectSat := satAdd_of_lt_bound hobject (toNat_le_u64Max _)
  have hbufferedSat := satAdd_of_lt_bound hbuffered (toNat_le_u64Max _)
  have hdt := h.datagrams
  exact {
    config_eq := h.config_eq
    bytes := by
      show r.bufferedObjectBytes = (r.objects.replace key _).total _
      rw [AList.total_replace_of_eq _ (c := state.accept decoder now) hstate rfl]
      exact h.bytes
    datagrams := by
      have htotal := AList.total_replace (fun _ (s : ObjectState C) => s.acceptedDatagrams)
        (state.accept decoder now) hstate
      show satAdd r.bufferedDatagrams 1 = (r.objects.replace key _).total _
      have haccepted : (state.accept decoder now).acceptedDatagrams
          = state.acceptedDatagrams + 1 := hobjectSat
      omega
    flow_mem := by
      intro k hk
      exact h.flow_mem k (AList.mem_replace.mp hk)
    flows := by
      intro flow flowState hflow
      have hsound := h.flows flow flowState hflow
      refine { hsound with active := ?_, disjoint := ?_ }
      · show _ = (r.objects.replace key _).total _
        rw [AList.total_replace_of_eq _ (c := state.accept decoder now) hstate rfl]
        exact hsound.active
      · intro blockId hblock hmem
        exact hsound.disjoint blockId hblock (AList.mem_replace.mp hmem)
    flows_le := h.flows_le
    objects_le := by
      show (r.objects.replace key _).size ≤ _
      rw [AList.size_replace]
      exact h.objects_le
    object_datagrams_le := by
      intro k s hs
      rcases AList.lookup_of_replace hstate hs with ⟨_, hnew⟩ | ⟨_, hold⟩
      · rw [hnew]
        show satAdd state.acceptedDatagrams 1 ≤ _
        omega
      · exact h.object_datagrams_le k s hold
    datagrams_le := by
      show satAdd r.bufferedDatagrams 1 ≤ _
      omega
    bytes_le := h.bytes_le }

theorem lookup_of_releaseActive {flows : Table FlowKey FlowState} {flow other : FlowKey}
    {state : FlowState} (h : (releaseActive flows flow).lookup other = some state) :
    (other ≠ flow ∧ flows.lookup other = some state)
      ∨ (other = flow ∧ ∃ base : FlowState, flows.lookup flow = some base
          ∧ state = { base with activeObjects := base.activeObjects - 1 }) := by
  unfold releaseActive at h
  cases hflow : flows.lookup flow with
  | none =>
      rw [hflow] at h
      refine .inl ⟨?_, h⟩
      intro heq
      have h' : flows.lookup other = some state := h
      rw [heq, hflow] at h'
      cases h'
  | some base =>
      rw [hflow] at h
      rcases AList.lookup_of_replace hflow h with ⟨hsame, hnew⟩ | ⟨hne, hold⟩
      · exact .inr ⟨hsame, base, rfl, hnew⟩
      · exact .inl ⟨hne, hold⟩

theorem mem_releaseActive {flows : Table FlowKey FlowState} {flow other : FlowKey} :
    other ∈ releaseActive flows flow ↔ other ∈ flows := by
  unfold releaseActive
  split
  · exact Iff.rfl
  · exact AList.mem_replace

/-- Releasing an object. -/
theorem Accounted.removeObject (h : Accounted config r) {key : ObjectKey}
    {state : ObjectState C} (hstate : r.objects.lookup key = some state) :
    Accounted config (r.removeObject key).2 := by
  have hbytes := AList.total_erase (fun _ (s : ObjectState C) => s.transferLength) hstate
  have hdatagrams := AList.total_erase (fun _ (s : ObjectState C) => s.acceptedDatagrams) hstate
  have hsize := AList.size_erase hstate
  have hbt := h.bytes
  have hdt := h.datagrams
  rw [removeObject_eq hstate]
  exact {
    config_eq := h.config_eq
    bytes := by
      show r.bufferedObjectBytes - state.transferLength = (r.objects.erase key).total _
      omega
    datagrams := by
      show r.bufferedDatagrams - state.acceptedDatagrams = (r.objects.erase key).total _
      omega
    flow_mem := by
      intro k hk
      exact mem_releaseActive.mpr (h.flow_mem k (AList.mem_erase.mp hk).2)
    flows := by
      intro flow flowState hflow
      show FlowSound config (r.objects.erase key) flow flowState
      rcases lookup_of_releaseActive hflow with ⟨hne, hold⟩ | ⟨heq, base, hbase, hstate'⟩
      · exact (h.flows flow flowState hold).erase_other hstate hne
      · subst heq hstate'
        exact (h.flows _ base hbase).release hstate
    flows_le := by
      show (releaseActive r.flows key.flow).size ≤ _
      unfold releaseActive
      split
      · exact h.flows_le
      · rw [AList.size_replace]
        exact h.flows_le
    objects_le := by
      have := h.objects_le
      show (r.objects.erase key).size ≤ _
      omega
    object_datagrams_le := by
      intro k s hs
      exact h.object_datagrams_le k s (AList.lookup_of_erase hs).2
    datagrams_le := by
      have := h.datagrams_le
      show r.bufferedDatagrams - state.acceptedDatagrams ≤ _
      omega
    bytes_le := by
      have := h.bytes_le
      show r.bufferedObjectBytes - state.transferLength ≤ _
      omega }

/-- **Completing a block keeps the accounts.** -/
theorem Accounted.complete (h : Accounted config r) {key : ObjectKey} {state : ObjectState C}
    (hstate : r.objects.lookup key = some state) : Accounted config (r.complete key) := by
  have hreleased := h.removeObject hstate
  have hgone : key ∉ (r.removeObject key).2.objects := by
    rw [removeObject_eq hstate]
    intro hmem
    exact (AList.mem_erase.mp hmem).1 rfl
  unfold UdpFecReceiver.complete
  dsimp only
  split
  · exact hreleased
  next flowState hflow =>
    have hsound := hreleased.flows _ flowState hflow
    have hlimit : (r.removeObject key).2.config.maxCompletedObjectsPerFlow
        = config.maxCompletedObjectsPerFlow := by rw [hreleased.config_eq]
    rw [hlimit]
    obtain ⟨hremembers, hle⟩ := hsound.remembers.markCompleted key.blockId hsound.completed_le
    refine hreleased.replaceFlow hflow ⟨?_, ?_, hremembers, hle, ?_⟩
    · rw [FlowState.markCompleted_activeObjects]
      exact hsound.active
    · rw [FlowState.markCompleted_activeObjects]
      exact hsound.active_le
    · intro blockId hblock hmem
      rcases FlowState.mem_markCompleted hsound.remembers hblock with heq | hblock
      · -- the only block that was added is the one just released
        subst heq
        exact hgone hmem
      · exact hsound.disjoint blockId hblock hmem

theorem Move.accounted (hmove : Move r r') (h : Accounted config r) : Accounted config r' := by
  cases hmove with
  | bookkeep counters lastError next => exact { h with }
  | touchFlow flow state header now hstate => exact h.touchFlow header now hstate
  | start _ key transferLength now hnew hcompleted hstart => exact h.start hnew hcompleted hstart
  | acceptDatagram key state decoder now hstate hobject hbuffered =>
      exact h.acceptDatagram decoder now hstate hobject hbuffered
  | removeObject key state hstate => exact h.removeObject hstate
  | dropFlow flow state hstate hidle _ => exact h.dropFlow hstate hidle

theorem Scan.accounted (hscan : Scan r r') (h : Accounted config r) : Accounted config r' := by
  induction hscan with
  | refl => exact h
  | tail _ hlast ih =>
      cases hlast with
      | move hmove => exact hmove.accounted ih
      | dropFlow flow state hstate hidle => exact ih.dropFlow hstate hidle

theorem Effect.accounted {decoded : Option ObjectKey} (heffect : Effect r r' decoded)
    (h : Accounted config r) : Accounted config r' := by
  cases decoded with
  | none => exact Scan.accounted (Quiet.scan heffect) h
  | some key =>
      obtain ⟨r₁, state, hbefore, hstate, hafter⟩ := heffect
      have h₁ := Scan.accounted (Quiet.scan hbefore) h
      exact Scan.accounted (Quiet.scan hafter) (h₁.complete hstate)

/-! ## §4. No `expect` is reached. -/

/-- The counters after a datagram got its reply. -/
def reply (c : UdpFecReceiverCounters) : FecResult C UdpFecPushOutcome → UdpFecReceiverCounters
  | .ok (.buffered _ _) =>
      { c with
        datagramsAccepted := satAdd c.datagramsAccepted 1
        datagramsBuffered := satAdd c.datagramsBuffered 1 }
  | .ok (.decoded _ _) =>
      { c with
        datagramsAccepted := satAdd c.datagramsAccepted 1
        objectsDecoded := satAdd c.objectsDecoded 1 }
  | .ok (.duplicate _ _) =>
      { c with
        datagramsAccepted := satAdd c.datagramsAccepted 1
        duplicateDatagrams := satAdd c.duplicateDatagrams 1 }
  | .error _ => { c with datagramsRejected := satAdd c.datagramsRejected 1 }

/-- The call returned, and its counters are those of its reply. -/
def Replied (c : UdpFecReceiverCounters)
    (result : FecResult C UdpFecPushOutcome × UdpFecReceiver C) : Prop :=
  NoPanic result.1 ∧ result.2.counters = reply c result.1

theorem reject_replied (r : UdpFecReceiver C) (error : UdpFecReceiveError C) :
    Replied r.counters (r.reject error) :=
  ⟨.err error, rfl⟩

theorem removeObject_counters (r : UdpFecReceiver C) (key : ObjectKey) :
    (r.removeObject key).2.counters = r.counters := by
  unfold UdpFecReceiver.removeObject
  split <;> rfl

theorem mem_flows_removeObject (key : ObjectKey) {flow : FlowKey} (hflow : flow ∈ r.flows) :
    flow ∈ (r.removeObject key).2.flows := by
  unfold UdpFecReceiver.removeObject
  split
  · exact hflow
  · exact mem_releaseActive.mpr hflow

theorem completeObject_replied {key : ObjectKey} (payload : Bytes)
    (hflow : key.flow ∈ r.flows) : Replied r.counters (r.completeObject key payload) := by
  obtain ⟨flowState, hlookup⟩ :=
    AList.exists_lookup_of_mem (mem_flows_removeObject key hflow)
  have hcounters := removeObject_counters r key
  unfold completeObject
  dsimp only
  rw [hlookup]
  dsimp only
  rw [hcounters]
  exact ⟨.ok _, rfl⟩

theorem failObject_replied (r : UdpFecReceiver C) (key : ObjectKey) (isNewFlow : Bool)
    (error : C.DatagramFecError) : Replied r.counters (r.failObject key isNewFlow error) := by
  have hempty : ((r.removeObject key).2.removeEmptyFlow key.flow).counters = r.counters := by
    rw [← removeObject_counters r key]
    unfold removeEmptyFlow
    split
    · rfl
    · split <;> rfl
  unfold failObject
  cases isNewFlow with
  | false =>
      have hreply := reject_replied (r.removeObject key).2 (.fec key.flow.streamId error)
      rw [removeObject_counters] at hreply
      exact hreply
  | true =>
      have hreply := reject_replied ((r.removeObject key).2.removeEmptyFlow key.flow)
        (.fec key.flow.streamId error)
      rw [hempty] at hreply
      exact hreply

theorem pushObject_replied {key : ObjectKey} {state : ObjectState C}
    (header : C.DatagramFecHeader) (fecDatagram : Bytes) (isNewFlow : Bool) (now : Instant)
    (hstate : r.objects.lookup key = some state) (hflow : key.flow ∈ r.flows) :
    Replied r.counters (r.pushObject key header fecDatagram isNewFlow now) := by
  obtain ⟨flowState, hlookup⟩ := AList.exists_lookup_of_mem hflow
  -- touching the flow disturbs neither the object nor the flow's membership
  have hstate' : (r.touchFlow key.flow flowState header now).objects.lookup key = some state :=
    hstate
  have hflow' : key.flow ∈ (r.touchFlow key.flow flowState header now).flows :=
    AList.mem_replace.mpr hflow
  unfold pushObject
  rw [hlookup]
  dsimp only
  rw [hstate']
  dsimp only
  unfold pushDecoder
  rcases C.pushDatagram state.decoder fecDatagram with ⟨error | _ | payload, decoder⟩
  · exact failObject_replied _ key isNewFlow error
  · exact ⟨.ok _, rfl⟩
  · exact completeObject_replied
      (r := (r.touchFlow key.flow flowState header now).acceptDatagram key state decoder now)
      payload hflow'

theorem Accounted.pushBlock_replied (h : Accounted config r) (key : ObjectKey)
    (header : C.DatagramFecHeader) (fecDatagram : Bytes) (now : Instant) :
    Replied r.counters (r.pushBlock key header fecDatagram now) := by
  unfold pushBlock
  split
  · exact reject_replied r _
  · split
    next hnew =>
      split
      · exact reject_replied r _
      · split
        next error _ => exact reject_replied r error
        next started hstart =>
          obtain ⟨_, _, _, _, rfl⟩ := startObject_ok hstart
          exact pushObject_replied header fecDatagram _ now (AList.lookup_insert _)
            ((mem_reserveActive now).mpr (.inl rfl))
    next state hstate =>
      split
      · have hreply := reject_replied (r.removeObject key).2
          (.objectDatagramLimitExceeded key.flow.streamId key.blockId
            r.config.maxDatagramsPerObject.toNat)
        rw [removeObject_counters] at hreply
        exact hreply
      · exact pushObject_replied header fecDatagram _ now hstate
          (h.flow_mem key (AList.mem_of_lookup hstate))

/-- **Every datagram gets a reply, counted once.** -/
theorem Accounted.pushReceived_replied (h : Accounted config r) (peer : SocketAddr)
    (datagram : Bytes) (now : Instant) :
    Replied r.counters (r.pushReceived peer datagram now) := by
  unfold pushReceived
  split
  · exact reject_replied r _
  · unfold pushFlow
    split
    · exact reject_replied r _
    · split
      · exact reject_replied r _
      next =>
        unfold pushHeader
        split
        · exact reject_replied r _
        · split
          next hcompleted =>
            unfold answerDuplicate
            unfold isCompleted at hcompleted
            cases hflow : r.flows.lookup (classify C peer datagram).1 with
            | none =>
                rw [hflow] at hcompleted
                cases hcompleted
            | some state => exact ⟨.ok _, rfl⟩
          next => exact h.pushBlock_replied _ _ _ now

/-! ## §5. Every run. -/

theorem countReceived_accounted (h : Accounted config r) : Accounted config r.countReceived :=
  Move.accounted (Move.bookkeep r _ r.lastError r.nextExpiryScan) h

theorem step_accounted (r : UdpFecReceiver C) (op : Op) (h : Accounted config r) :
    Accounted config (step r op).2 := by
  cases op with
  | tryPushPayloadAt peer datagram now =>
      have hscanned := Scan.accounted (expireInactiveIfDue_scan r now) h
      exact (pushReceived_effect _ peer datagram now).accounted (countReceived_accounted hscanned)
  | expireInactiveAt now => exact Scan.accounted (expireInactiveAt_scan r now) h

theorem withConfig_accounted (config : UdpFecReceiverConfig) :
    Accounted config (withConfig config : UdpFecReceiver C) where
  config_eq := rfl
  bytes := rfl
  datagrams := rfl
  flow_mem := by
    intro key hkey
    exact absurd hkey (AList.notMem_empty key)
  flows := by
    intro flow state hstate
    simp [withConfig] at hstate
  flows_le := Nat.zero_le _
  objects_le := Nat.zero_le _
  object_datagrams_le := by
    intro key state hstate
    simp [withConfig] at hstate
  datagrams_le := Nat.zero_le _
  bytes_le := Nat.zero_le _

theorem exec_accounted (config : UdpFecReceiverConfig) (ops : List Op) :
    Accounted config (exec step (withConfig config : UdpFecReceiver C) ops) :=
  exec_invariant step _ step_accounted ops (withConfig_accounted config)

/-- **RESOURCE ACCOUNTING.**  Whatever the configuration, the datagrams and the
clock, the totals of a receiver are the sums they stand for and the seven limits
hold; every release, also in the middle of an operation (`Scan`), is exact; and
every datagram gets a reply. -/
theorem exec_resources_accounted (config : UdpFecReceiverConfig) (ops : List Op) :
    Accounted config (exec step (withConfig config : UdpFecReceiver C) ops)
      ∧ (∀ r' : UdpFecReceiver C, Scan (exec step (withConfig config) ops) r' → ReleasesExactly r')
      ∧ ∀ peer datagram now, NoPanic
        ((exec step (withConfig config : UdpFecReceiver C) ops).tryPushPayloadAt peer datagram
          now).1 := by
  have hexec := exec_accounted (C := C) config ops
  refine ⟨hexec, ?_, ?_⟩
  · intro r' hscan
    exact (Scan.accounted hscan hexec).releasesExactly
  · intro peer datagram now
    have hscanned := Scan.accounted (expireInactiveIfDue_scan _ now) hexec
    exact ((countReceived_accounted hscanned).pushReceived_replied peer datagram now).1

end UdpFecReceiver

end AvMesh.UdpFec
