/-
  AvMesh.Relay.Tables
  ───────────────────
  **TABLE CONSISTENCY OF THE RELAY RECEIVER.**

  The five tables and the two running totals of a receiver agree with each
  other in every reachable state (`TableConsistent`):

    • active and completed objects are disjoint,
    • the eviction order lists the tombstones, each once,
    • the logical keys are EXACTLY the identities of the live objects,
    • the totals are the sums they stand for, so that releasing an object
      subtracts exactly what it reserved (`ReleasesExactly`),
    • nothing exceeds its configured maximum.

  Each elementary change of `AvMesh.Relay.Moves` keeps this, hence every
  operation, hence every run.  No property of the object assembler is used.
-/
import AvMesh.Relay.Moves

namespace AvMesh.Relay.RelayObjectReceiver

open AvMesh.Lib

variable {C : RelayCrates}

/-! ## §1. The invariant. -/

/-- The object is being assembled or remembered as completed. -/
def Live (r : RelayObjectReceiver C) (key : ObjectKey) : Prop :=
  key ∈ r.objects ∨ key ∈ r.completed

structure TableConsistent (config : RelayObjectReceiverConfig C) (r : RelayObjectReceiver C) :
    Prop where
  config_eq : r.config = config
  disjoint : ∀ key, key ∈ r.objects → key ∉ r.completed
  order_nodup : r.completedOrder.Nodup
  mem_order : ∀ key, key ∈ r.completedOrder ↔ key ∈ r.completed
  logical : ∀ identity key, r.logicalKeys.lookup identity = some key
    ↔ LogicalObjectIdentity.from key = identity ∧ r.Live key
  bytes : r.bufferedObjectBytes = r.objects.total fun _ state => state.reservedBytes
  datagrams : r.bufferedDatagrams = r.objects.total fun _ state => state.symbols.size
  sessions_le : r.sessions.size ≤ config.maxParentSessions
  objects_le : r.objects.size ≤ config.maxActiveObjects
  completed_le : r.completed.size ≤ config.maxCompletedObjects
  symbols_le : ∀ key state, r.objects.lookup key = some state →
    state.symbols.size ≤ config.maxDatagramsPerObject
  datagrams_le : r.bufferedDatagrams ≤ config.maxBufferedDatagrams
  bytes_le : r.bufferedObjectBytes ≤ config.maxBufferedObjectBytes

/-- Removing any active object takes exactly its reservation and its symbols
off the totals: the `saturating_sub`s do not clamp. -/
def ReleasesExactly (r : RelayObjectReceiver C) : Prop :=
  ∀ key state removeLogicalKey, r.objects.lookup key = some state →
    (r.removeActiveObject key removeLogicalKey).2.bufferedObjectBytes + state.reservedBytes
        = r.bufferedObjectBytes
      ∧ (r.removeActiveObject key removeLogicalKey).2.bufferedDatagrams + state.symbols.size
        = r.bufferedDatagrams

variable {config : RelayObjectReceiverConfig C} {r r' : RelayObjectReceiver C}

theorem TableConsistent.releasesExactly (h : TableConsistent config r) : ReleasesExactly r := by
  intro key state removeLogicalKey hstate
  have hbytes := AList.le_total (fun _ (s : ActiveObject C) => s.reservedBytes) hstate
  have hdatagrams := AList.le_total (fun _ (s : ActiveObject C) => s.symbols.size) hstate
  rw [removeActiveObject_eq removeLogicalKey hstate]
  dsimp only
  rw [h.bytes, h.datagrams]
  omega

/-- Two live objects with one logical identity are the same object. -/
theorem TableConsistent.eq_of_logical (h : TableConsistent config r) {key key' : ObjectKey}
    (hkey : r.Live key) (hkey' : r.Live key')
    (hfrom : LogicalObjectIdentity.from key = LogicalObjectIdentity.from key') : key = key' := by
  have hindex : AList.Indexes LogicalObjectIdentity.from r.Live r.logicalKeys := h.logical
  exact hindex.eq_of_image hkey hkey' hfrom

/-- The logical identity of an object that is not live is free, unless the
conflict check would have caught it. -/
theorem TableConsistent.logical_free (h : TableConsistent config r) {key : ObjectKey}
    (hconflict : r.logicalConflict key = false) (hnot : ¬r.Live key) :
    r.logicalKeys.lookup (LogicalObjectIdentity.from key) = none := by
  cases hl : r.logicalKeys.lookup (LogicalObjectIdentity.from key) with
  | none => rfl
  | some existing =>
      unfold logicalConflict at hconflict
      rw [hl] at hconflict
      have heq : existing = key := by simpa using hconflict
      subst heq
      exact absurd ((h.logical _ _).mp hl).2 hnot

/-! ## §2. The moves keep it. -/

/-- Replacing an active object by one with the same reservation and the same
symbols. -/
theorem TableConsistent.replaceObject (h : TableConsistent config r) {key : ObjectKey}
    {state state' : ActiveObject C} (hstate : r.objects.lookup key = some state)
    (hbytes : state'.reservedBytes = state.reservedBytes)
    (hsymbols : state'.symbols = state.symbols) :
    TableConsistent config { r with objects := r.objects.replace key state' } where
  config_eq := h.config_eq
  disjoint := by
    intro k hk
    exact h.disjoint k (AList.mem_replace.mp hk)
  order_nodup := h.order_nodup
  mem_order := h.mem_order
  logical := by
    intro identity k
    rw [h.logical identity k]
    simp only [Live, AList.mem_replace]
  bytes := by
    have := AList.total_replace (fun _ (s : ActiveObject C) => s.reservedBytes) state' hstate
    show r.bufferedObjectBytes = (r.objects.replace key state').total _
    rw [h.bytes]
    omega
  datagrams := by
    have := AList.total_replace (fun _ (s : ActiveObject C) => s.symbols.size) state' hstate
    show r.bufferedDatagrams = (r.objects.replace key state').total _
    rw [h.datagrams]
    simp only [hsymbols] at this
    omega
  sessions_le := h.sessions_le
  objects_le := by
    rw [AList.size_replace]
    exact h.objects_le
  completed_le := h.completed_le
  symbols_le := by
    intro k s hs
    rcases AList.lookup_of_replace hstate hs with ⟨_, hnew⟩ | ⟨_, hold⟩
    · rw [hnew, hsymbols]
      exact h.symbols_le key state hstate
    · exact h.symbols_le k s hold
  datagrams_le := h.datagrams_le
  bytes_le := h.bytes_le

theorem TableConsistent.addSession (h : TableConsistent config r)
    {session : AuthenticatedRelayParentSession}
    (hnew : r.sessions.lookup session.sessionId = none)
    (hroom : r.sessions.size < r.config.maxParentSessions) :
    TableConsistent config
      { r with sessions := r.sessions.insert session.sessionId session } :=
  { h with
    sessions_le := by
      rw [AList.size_insert_of_notMem session (AList.lookup_eq_none.mp hnew)]
      rw [h.config_eq] at hroom
      exact hroom }

theorem TableConsistent.joinCompleted (h : TableConsistent config r) {key : ObjectKey}
    (done : CompletedObject C) :
    TableConsistent config { r with completed := r.completed.replace key done } :=
  { h with
    disjoint := fun k hk hc => h.disjoint k hk (AList.mem_replace.mp hc)
    mem_order := fun k => (h.mem_order k).trans AList.mem_replace.symm
    logical := by
      intro identity k
      rw [h.logical identity k]
      simp only [Live, AList.mem_replace]
    completed_le := by
      rw [AList.size_replace]
      exact h.completed_le }

/-- Dropping an active object together with its logical key. -/
theorem TableConsistent.dropObject (h : TableConsistent config r) {key : ObjectKey}
    {state : ActiveObject C} (hstate : r.objects.lookup key = some state) :
    TableConsistent config (r.removeActiveObject key true).2 := by
  have hkey : key ∈ r.objects := AList.mem_of_lookup hstate
  have hbytes := AList.total_erase (fun _ (s : ActiveObject C) => s.reservedBytes) hstate
  have hdatagrams := AList.total_erase (fun _ (s : ActiveObject C) => s.symbols.size) hstate
  have hsize := AList.size_erase hstate
  have hb := h.bytes
  have hd := h.datagrams
  rw [removeActiveObject_eq true hstate]
  exact {
    config_eq := h.config_eq
    disjoint := fun k hk => h.disjoint k (AList.mem_erase.mp hk).2
    order_nodup := h.order_nodup
    mem_order := h.mem_order
    logical := by
      have hindex : AList.Indexes LogicalObjectIdentity.from r.Live r.logicalKeys := h.logical
      refine (hindex.erase (.inl hkey)).congr ?_
      intro k
      show (k ∈ r.objects ∨ k ∈ r.completed) ∧ k ≠ key
        ↔ k ∈ r.objects.erase key ∨ k ∈ r.completed
      rw [AList.mem_erase]
      -- the dropped object has no tombstone, so its identity is free now
      have hcompleted := h.disjoint key hkey
      by_cases hk : k = key
      · subst hk
        simp [hcompleted]
      · simp [hk]
    bytes := by
      show r.bufferedObjectBytes - state.reservedBytes = (r.objects.erase key).total _
      omega
    datagrams := by
      show r.bufferedDatagrams - state.symbols.size = (r.objects.erase key).total _
      omega
    sessions_le := h.sessions_le
    objects_le := by
      have := h.objects_le
      show (r.objects.erase key).size ≤ _
      omega
    completed_le := h.completed_le
    symbols_le := by
      intro k s hs
      exact h.symbols_le k s (AList.lookup_of_erase hs).2
    datagrams_le := (Nat.sub_le _ _).trans h.datagrams_le
    bytes_le := (Nat.sub_le _ _).trans h.bytes_le }

/-- The state `startObject` leaves when it starts an object. -/
theorem startObject_started {r r' : RelayObjectReceiver C} {sessionId : Nat}
    {announcement : C.Announcement} {nowUs : Nat}
    (h : r.startObject sessionId announcement nowUs = (.ok .started, r')) :
    ∃ assembler, C.newAssembler announcement r.config.relayLimits = .ok assembler
      ∧ r.objects.size < r.config.maxActiveObjects
      ∧ r.bufferedObjectBytes + C.transferLength announcement.coding
          ≤ r.config.maxBufferedObjectBytes
      ∧ r' = { r with
          logicalKeys :=
            r.logicalKeys.insert (LogicalObjectIdentity.from announcement.key) announcement.key
          objects := r.objects.insert announcement.key
            { announcement := announcement
              assembler := assembler
              parentSessions := ⟨[sessionId], List.nodup_singleton sessionId⟩
              symbols := ∅
              sourceSymbols := 0
              repairSymbols := 0
              reservedBytes := C.transferLength announcement.coding
              lastActivityUs := nowUs }
          bufferedObjectBytes :=
            r.bufferedObjectBytes + C.transferLength announcement.coding } := by
  unfold startObject at h
  split at h
  · cases h
  next hroom =>
    split at h
    · cases h
    next requested hrequested =>
      cases checkedAdd_eq_some hrequested
      split at h
      · cases h
      next hbytes =>
        split at h
        · cases h
        next assembler hassembler =>
          cases h
          exact ⟨assembler, hassembler, by omega, by omega, rfl⟩

theorem TableConsistent.start (h : TableConsistent config r) {sessionId : Nat}
    {announcement : C.Announcement} {nowUs : Nat}
    (hlogical : r.logicalConflict announcement.key = false)
    (hcompleted : r.completed.lookup announcement.key = none)
    (hobjects : r.objects.lookup announcement.key = none)
    (hstart : r.startObject sessionId announcement nowUs = (.ok .started, r')) :
    TableConsistent config r' := by
  obtain ⟨assembler, _, hroom, hbytes, rfl⟩ := startObject_started hstart
  have hnobj : announcement.key ∉ r.objects := AList.lookup_eq_none.mp hobjects
  have hncomp : announcement.key ∉ r.completed := AList.lookup_eq_none.mp hcompleted
  have hnlive : ¬r.Live announcement.key := fun hl => hl.elim hnobj hncomp
  have hfree := h.logical_free hlogical hnlive
  rw [h.config_eq] at hroom hbytes
  exact {
    config_eq := h.config_eq
    disjoint := by
      intro k hk
      rcases (AList.mem_insert _).mp hk with rfl | hk
      · exact hncomp
      · exact h.disjoint k hk
    order_nodup := h.order_nodup
    mem_order := h.mem_order
    logical := by
      have hindex : AList.Indexes LogicalObjectIdentity.from r.Live r.logicalKeys := h.logical
      refine (hindex.insert hfree).congr ?_
      intro k
      show k = announcement.key ∨ (k ∈ r.objects ∨ k ∈ r.completed)
        ↔ k ∈ r.objects.insert announcement.key _ ∨ k ∈ r.completed
      rw [AList.mem_insert, or_assoc]
    bytes := by
      show r.bufferedObjectBytes + _ = (r.objects.insert _ _).total _
      rw [AList.total_insert_of_notMem _ _ hnobj, h.bytes, Nat.add_comm]
    datagrams := by
      show r.bufferedDatagrams = (r.objects.insert _ _).total _
      rw [AList.total_insert_of_notMem _ _ hnobj, h.datagrams, AList.size_empty, Nat.zero_add]
    sessions_le := h.sessions_le
    objects_le := by
      rw [AList.size_insert_of_notMem _ hnobj]
      exact hroom
    completed_le := h.completed_le
    symbols_le := by
      intro k s hs
      rcases AList.lookup_of_insert hs with ⟨_, hnew⟩ | ⟨_, hold⟩
      · rw [hnew]
        exact Nat.zero_le _
      · exact h.symbols_le k s hold
    datagrams_le := h.datagrams_le
    bytes_le := hbytes }

/-- One more symbol on an active object, and one more buffered datagram. -/
theorem TableConsistent.recordSymbol (h : TableConsistent config r) (hb : ConfigBounds config)
    {symbol : C.Symbol} {state : ActiveObject C} {packetSequence : Nat}
    (assembler : C.ObjectAssembler) (fingerprint : SymbolFingerprint) (nowUs : Nat)
    (hstate : r.objects.lookup symbol.objectKey = some state)
    (hnew : state.symbols.lookup packetSequence = none)
    (hsymbols : state.symbols.size < r.config.maxDatagramsPerObject)
    (hbuffered : r.bufferedDatagrams < r.config.maxBufferedDatagrams) :
    TableConsistent config (r.recordSymbol symbol
      (withSymbol state assembler packetSequence fingerprint symbol.role nowUs)) := by
  rw [h.config_eq] at hsymbols hbuffered
  have hsize : (state.symbols.insert packetSequence fingerprint).size = state.symbols.size + 1 :=
    AList.size_insert_of_notMem fingerprint (AList.lookup_eq_none.mp hnew)
  have hbytes := AList.total_replace (fun _ (s : ActiveObject C) => s.reservedBytes)
    (withSymbol state assembler packetSequence fingerprint symbol.role nowUs) hstate
  have hdatagrams := AList.total_replace (fun _ (s : ActiveObject C) => s.symbols.size)
    (withSymbol state assembler packetSequence fingerprint symbol.role nowUs) hstate
  simp only [withSymbol] at hbytes hdatagrams
  rw [hsize] at hdatagrams
  -- the ceiling is far below the counter's range, so the addition is exact
  have hmax : config.maxBufferedDatagrams ≤ u64Max :=
    hb.bufferedDatagrams.2.trans (by decide)
  have hsat := satAdd_of_lt_bound hbuffered hmax
  have hbt := h.bytes
  have hdt := h.datagrams
  exact {
    config_eq := h.config_eq
    disjoint := fun k hk => h.disjoint k (AList.mem_replace.mp hk)
    order_nodup := h.order_nodup
    mem_order := h.mem_order
    logical := by
      intro identity k
      show r.logicalKeys.lookup identity = some k ↔ _
      rw [h.logical identity k]
      simp only [Live, RelayObjectReceiver.recordSymbol, AList.mem_replace]
    bytes := by
      show r.bufferedObjectBytes = (r.objects.replace _ _).total _
      simp only [withSymbol]
      omega
    datagrams := by
      show satAdd r.bufferedDatagrams 1 = (r.objects.replace _ _).total _
      simp only [withSymbol]
      omega
    sessions_le := h.sessions_le
    objects_le := by
      show (r.objects.replace _ _).size ≤ _
      rw [AList.size_replace]
      exact h.objects_le
    completed_le := h.completed_le
    symbols_le := by
      intro k s hs
      rcases AList.lookup_of_replace hstate hs with ⟨_, hnew⟩ | ⟨_, hold⟩
      · rw [hnew]
        show (state.symbols.insert packetSequence fingerprint).size ≤ _
        omega
      · exact h.symbols_le k s hold
    datagrams_le := by
      show satAdd r.bufferedDatagrams 1 ≤ _
      omega
    bytes_le := h.bytes_le }

theorem Move.tableConsistent (hb : ConfigBounds config) (hmove : Move r r')
    (h : TableConsistent config r) : TableConsistent config r' := by
  cases hmove with
  | bookkeep counters next => exact { h with }
  | addSession session hnew hroom => exact h.addSession hnew hroom
  | dropObject key state hstate => exact h.dropObject hstate
  | start _ sessionId session announcement nowUs _ _ hlogical hcompleted hobjects hstart =>
      exact h.start hlogical hcompleted hobjects hstart
  | joinActive sessionId session key active parents nowUs _ _ hactive _ =>
      exact h.replaceObject hactive rfl rfl
  | joinCompleted sessionId session key done parents _ _ hdone _ => exact h.joinCompleted _
  | refuseSymbol symbol state hstate => exact h.replaceObject hstate rfl rfl
  | recordSymbol symbol state packetSequence fingerprint nowUs hstate hnew hsymbols hbuffered =>
      exact h.recordSymbol hb _ _ _ hstate hnew hsymbols hbuffered
  | takeEnvelope key state hstate => exact h.replaceObject hstate rfl rfl

/-! ## §3. Completing an object keeps it. -/

/-- The eviction loop drops nothing while there is room, and exactly the oldest
tombstone when the table is full. -/
theorem evictCompleted_cases {maxCompleted : Nat} {order : List ObjectKey}
    {completed : Table ObjectKey (CompletedObject C)}
    (logical : Table LogicalObjectIdentity ObjectKey)
    (hmem : ∀ key, key ∈ order ↔ key ∈ completed)
    (hsize : completed.size ≤ maxCompleted) (hmax : 0 < maxCompleted) :
    (completed.size < maxCompleted
        ∧ evictCompleted maxCompleted order completed logical = (order, completed, logical))
      ∨ ∃ oldest rest, order = oldest :: rest ∧ completed.size = maxCompleted
        ∧ evictCompleted maxCompleted order completed logical
          = (rest, completed.erase oldest, logical.erase (LogicalObjectIdentity.from oldest)) := by
  -- one turn of the loop makes room for one tombstone, and then it stops
  have hstop : ∀ (order : List ObjectKey) (completed : Table ObjectKey (CompletedObject C))
      (logical : Table LogicalObjectIdentity ObjectKey), completed.size < maxCompleted →
      evictCompleted maxCompleted order completed logical = (order, completed, logical) := by
    intro order completed logical hlt
    cases order with
    | nil => rfl
    | cons oldest rest =>
        unfold evictCompleted
        rw [if_neg (by omega)]
  by_cases hlt : completed.size < maxCompleted
  · exact .inl ⟨hlt, hstop _ _ _ hlt⟩
  · refine .inr ?_
    cases order with
    | nil =>
        -- a full table has an entry, and every entry is in the order
        exfalso
        have hlen : completed.keys.length ≠ 0 := by
          rw [← AList.size_eq_length_keys]
          omega
        obtain ⟨key, hkey⟩ := List.exists_mem_of_length_pos (Nat.pos_of_ne_zero hlen)
        exact absurd ((hmem key).mpr (AList.mem_keys.mpr hkey)) List.not_mem_nil
    | cons oldest rest =>
        have holdest : oldest ∈ completed := (hmem oldest).mp List.mem_cons_self
        obtain ⟨done, hdone⟩ := AList.exists_lookup_of_mem holdest
        have herase := AList.size_erase hdone
        refine ⟨oldest, rest, rfl, by omega, ?_⟩
        rw [evictCompleted, if_pos (by omega), if_pos holdest]
        exact hstop _ _ _ (by omega)

/-- What the eviction loop of `insert_completed` leaves. -/
theorem TableConsistent.evict (h : TableConsistent config r) (hb : ConfigBounds config) :
    ∃ order completed logical,
      evictCompleted config.maxCompletedObjects r.completedOrder r.completed r.logicalKeys
          = (order, completed, logical)
        ∧ order.Nodup
        ∧ (∀ key, key ∈ order ↔ key ∈ completed)
        ∧ (∀ key, key ∈ completed → key ∈ r.completed)
        ∧ (∀ identity key, logical.lookup identity = some key
            ↔ LogicalObjectIdentity.from key = identity ∧ (key ∈ r.objects ∨ key ∈ completed))
        ∧ completed.size < config.maxCompletedObjects := by
  rcases evictCompleted_cases r.logicalKeys h.mem_order h.completed_le hb.completedObjects.1 with
    ⟨hlt, heq⟩ | ⟨oldest, rest, horder, hfull, heq⟩
  · exact ⟨_, _, _, heq, h.order_nodup, h.mem_order, fun _ hk => hk, h.logical, hlt⟩
  · have hnd := h.order_nodup
    have hmem := h.mem_order
    rw [horder] at hnd hmem
    obtain ⟨hnotin, hndrest⟩ := List.nodup_cons.mp hnd
    have holdest : oldest ∈ r.completed := (hmem oldest).mp List.mem_cons_self
    obtain ⟨done, hdone⟩ := AList.exists_lookup_of_mem holdest
    have hsize := AList.size_erase hdone
    refine ⟨_, _, _, heq, hndrest, ?_, fun _ hk => (AList.mem_erase.mp hk).2, ?_, by omega⟩
    · intro key
      rw [AList.mem_erase, ← hmem key, List.mem_cons]
      constructor
      · intro hk
        refine ⟨?_, .inr hk⟩
        rintro rfl
        exact hnotin hk
      · rintro ⟨hne, rfl | hk⟩
        · exact absurd rfl hne
        · exact hk
    · have hindex : AList.Indexes LogicalObjectIdentity.from r.Live r.logicalKeys := h.logical
      refine (hindex.erase (.inr holdest)).congr ?_
      intro key
      show (key ∈ r.objects ∨ key ∈ r.completed) ∧ key ≠ oldest
        ↔ key ∈ r.objects ∨ key ∈ r.completed.erase oldest
      rw [AList.mem_erase]
      -- the evicted key is not active either, so it is no longer live at all
      have hobjects : oldest ∉ r.objects := fun hk => h.disjoint oldest hk holdest
      by_cases hk : key = oldest
      · subst hk
        simp [hobjects]
      · simp [hk]

/-- **Completing an object keeps the tables consistent.** -/
theorem TableConsistent.complete (h : TableConsistent config r) (hb : ConfigBounds config)
    {key : ObjectKey} {active : ActiveObject C} (hactive : r.objects.lookup key = some active) :
    TableConsistent config (r.complete key active) := by
  have hkey : key ∈ r.objects := AList.mem_of_lookup hactive
  have hbytes := AList.total_erase (fun _ (s : ActiveObject C) => s.reservedBytes) hactive
  have hdatagrams := AList.total_erase (fun _ (s : ActiveObject C) => s.symbols.size) hactive
  have hsize := AList.size_erase hactive
  have hbt := h.bytes
  have hdt := h.datagrams
  have hol := h.objects_le
  obtain ⟨order, completed, logical, hevict, hnd, hmem, hsub, hlogical, hroom⟩ := h.evict hb
  have hnot : key ∉ completed := fun hk => h.disjoint key hkey (hsub key hk)
  -- all at once: the object leaves `objects`, the loop evicts, the tombstone enters
  have hstate : r.complete key active =
      { r with
        objects := r.objects.erase key
        bufferedObjectBytes := r.bufferedObjectBytes - active.reservedBytes
        bufferedDatagrams := r.bufferedDatagrams - active.symbols.size
        completedOrder := order ++ [key]
        completed := completed.insert key
          { announcement := active.announcement, parentSessions := active.parentSessions }
        logicalKeys := logical } := by
    unfold RelayObjectReceiver.complete
    rw [removeActiveObject_eq false hactive]
    unfold insertCompleted
    simp only [h.config_eq, Bool.false_eq_true, if_false, hevict]
  rw [hstate]
  exact {
    config_eq := h.config_eq
    disjoint := by
      intro k hk hc
      obtain ⟨hne, hk⟩ := AList.mem_erase.mp hk
      rcases (AList.mem_insert _).mp hc with rfl | hc
      · exact hne rfl
      · exact h.disjoint k hk (hsub k hc)
    order_nodup := by
      show (order ++ [key]).Nodup
      rw [List.nodup_append]
      refine ⟨hnd, List.nodup_singleton key, ?_⟩
      rintro a ha b hb rfl
      rw [List.mem_singleton] at hb
      subst hb
      exact hnot ((hmem _).mp ha)
    mem_order := by
      intro k
      show k ∈ order ++ [key] ↔ k ∈ completed.insert key _
      rw [AList.mem_insert, List.mem_append, List.mem_singleton, hmem k, or_comm]
    logical := by
      intro identity k
      show logical.lookup identity = some k
        ↔ _ ∧ (k ∈ r.objects.erase key ∨ k ∈ completed.insert key _)
      rw [hlogical, AList.mem_erase, AList.mem_insert]
      -- leaving `objects` and entering `completed` keeps `key` live
      by_cases hk : k = key
      · subst hk
        simp [hkey]
      · simp [hk]
    bytes := by
      show r.bufferedObjectBytes - active.reservedBytes = (r.objects.erase key).total _
      omega
    datagrams := by
      show r.bufferedDatagrams - active.symbols.size = (r.objects.erase key).total _
      omega
    sessions_le := h.sessions_le
    objects_le := by
      show (r.objects.erase key).size ≤ _
      omega
    completed_le := by
      show (completed.insert key _).size ≤ _
      rw [AList.size_insert_of_notMem _ hnot]
      exact hroom
    symbols_le := by
      intro k s hs
      exact h.symbols_le k s (AList.lookup_of_erase hs).2
    datagrams_le := (Nat.sub_le _ _).trans h.datagrams_le
    bytes_le := (Nat.sub_le _ _).trans h.bytes_le }

/-! ## §4. Every run keeps it. -/

theorem step_tableConsistent (hb : ConfigBounds config) (r : RelayObjectReceiver C) (op : Op C)
    (h : TableConsistent config r) : TableConsistent config (step r op).2 :=
  (step_effect r op).preserves (fun hmove hr => hmove.tableConsistent hb hr)
    (fun hactive hr => hr.complete hb hactive) h

theorem new_ok {config : RelayObjectReceiverConfig C} {r : RelayObjectReceiver C}
    (h : RelayObjectReceiver.new config = .ok r) :
    ConfigBounds config ∧ r = initial config := by
  unfold RelayObjectReceiver.new at h
  obtain ⟨_, hvalid, h⟩ := except_bind_eq_ok.mp h
  cases h
  exact ⟨RelayObjectReceiverConfig.validate_bounds hvalid, rfl⟩

theorem new_tableConsistent {config : RelayObjectReceiverConfig C} {r : RelayObjectReceiver C}
    (h : RelayObjectReceiver.new config = .ok r) : TableConsistent config r := by
  obtain ⟨_, rfl⟩ := new_ok h
  exact {
    config_eq := rfl
    disjoint := fun k hk => absurd hk (AList.notMem_empty k)
    order_nodup := List.nodup_nil
    mem_order := fun k => by simp [initial]
    logical := fun identity k => by simp [initial, Live]
    bytes := rfl
    datagrams := rfl
    sessions_le := Nat.zero_le _
    objects_le := Nat.zero_le _
    completed_le := Nat.zero_le _
    symbols_le := fun k s hs => by simp [initial] at hs
    datagrams_le := Nat.zero_le _
    bytes_le := Nat.zero_le _ }

/-- Runs of a receiver keep its tables consistent. -/
theorem exec_tableConsistent {config : RelayObjectReceiverConfig C} {r : RelayObjectReceiver C}
    (h : RelayObjectReceiver.new config = .ok r) (ops : List (Op C)) :
    TableConsistent config (exec step r ops) :=
  exec_invariant step _ (step_tableConsistent (new_ok h).1) ops (new_tableConsistent h)

/-- **TABLE CONSISTENCY.**  Whatever the configuration and the order of the
operations, the tables of a receiver agree with each other, the totals are the
sums they stand for and no ceiling is exceeded; in particular one logical
identity never has two live objects.  The last part is about the states in the
middle of an operation as well (`Quiet`): wherever an object is released,
exactly what it had reserved is taken off the totals. -/
theorem exec_tables_consistent {config : RelayObjectReceiverConfig C} {r : RelayObjectReceiver C}
    (h : RelayObjectReceiver.new config = .ok r) (ops : List (Op C)) :
    TableConsistent config (exec step r ops)
      ∧ (∀ key key', (exec step r ops).Live key → (exec step r ops).Live key' →
        LogicalObjectIdentity.from key = LogicalObjectIdentity.from key' → key = key')
      ∧ ∀ r', Quiet (exec step r ops) r' → ReleasesExactly r' := by
  have hexec := exec_tableConsistent h ops
  refine ⟨hexec, ?_, ?_⟩
  · intro key key' hkey hkey' hfrom
    exact hexec.eq_of_logical hkey hkey' hfrom
  intro r' hquiet
  -- a sequence of moves is what an operation that delivers nothing does
  have heffect : Effect (exec step r ops) r' none := hquiet
  have hr' : TableConsistent config r' :=
    heffect.preserves (fun hmove hr => hmove.tableConsistent (new_ok h).1 hr)
      (fun hactive hr => hr.complete (new_ok h).1 hactive) hexec
  exact hr'.releasesExactly

/-- A run through every table: object 1 is assembled from two symbols and
completed, object 2 evicts its tombstone, object 3 expires. -/
def sampleRun : List (Op sampleCrates) :=
  [.registerParentSession samplePrimary samplePrimary_uncontrolled,
    .announceObject 1 (sampleAnnouncement 1 1) 1000,
    .pushWireDatagram 1 (sampleWire 1 0) 1100,
    .pushWireDatagram 1 (sampleWire 1 1) 1100,
    .announceObject 1 (sampleAnnouncement 2 1) 1200,
    .pushWireDatagram 1 (sampleWire 2 0) 1200,
    .pushWireDatagram 1 (sampleWire 2 1) 1200,
    .announceObject 1 (sampleAnnouncement 3 1) 1300,
    .expire 2000000]

theorem exec_tables_consistent_sampleRun :
    (exec step (initial sampleConfig) sampleRun).completedOrder = [sampleKey 2]
      ∧ (exec step (initial sampleConfig) sampleRun).counters.expiredObjects = 1
      ∧ TableConsistent sampleConfig (exec step (initial sampleConfig) sampleRun) :=
  ⟨by decide, by decide, (exec_tables_consistent rfl sampleRun).1⟩

end AvMesh.Relay.RelayObjectReceiver
