/-
  AvMesh.Failover.WarmSources
  ───────────────────────────
  **THE WARM SOURCE BUFFER** (`WarmSourceReplayBuffer`, src/main.rs).

  A repair-only path keeps the latest source datagrams it did not send, to
  replay them when it is promoted.  Three bounds hold after every push:

      objects ≤ 4      datagrams ≤ 2048      bytes ≤ 4 MiB

  A push first drops what has expired, appends, then retires whole objects
  and evicts single datagrams, oldest first.  `push_spec` says that the new
  datagram itself always survives its own push.
-/
import AvMesh.Lib.Machine

namespace AvMesh.Failover

open AvMesh.Lib

/-! ## §1. The buffer. -/

def relayWarmSourceReplayMaxObjectsPerChild : Nat := 4

def relayWarmSourceReplayMaxDatagramsPerChild : Nat := 2048

def relayWarmSourceReplayMaxBytesPerChild : Nat := 4 * 1024 * 1024

/-- A buffered datagram; `call` numbers the `forward` call it came from and is not stored by the
program. -/
structure WarmSourceDatagram (κ : Type) where
  objectKey : κ
  expiresAtUs : Nat
  wire : Bytes
  call : Nat
  deriving Repr, DecidableEq

structure WarmSourceReplayBuffer (κ : Type) where
  datagrams : List (WarmSourceDatagram κ) := []
  objectOrder : List κ := []
  bytes : Nat := 0
  deriving Repr, DecidableEq

structure WarmSourceBufferMutation where
  addedDatagrams : Nat := 0
  addedBytes : Nat := 0
  expiredDatagrams : Nat := 0
  expiredBytes : Nat := 0
  retiredDatagrams : Nat := 0
  retiredBytes : Nat := 0
  evictedDatagrams : Nat := 0
  evictedBytes : Nat := 0
  deriving Repr, DecidableEq

structure WarmSourceReplayBatch (κ : Type) where
  datagrams : List (WarmSourceDatagram κ) := []
  bytes : Nat := 0
  expiredDatagrams : Nat := 0
  expiredBytes : Nat := 0
  deriving Repr, DecidableEq

namespace WarmSourceBufferMutation

def expired (m : WarmSourceBufferMutation) (len : Nat) : WarmSourceBufferMutation :=
  { m with expiredDatagrams := satAdd m.expiredDatagrams 1, expiredBytes := satAdd m.expiredBytes len }

def retired (m : WarmSourceBufferMutation) (len : Nat) : WarmSourceBufferMutation :=
  { m with retiredDatagrams := satAdd m.retiredDatagrams 1, retiredBytes := satAdd m.retiredBytes len }

def evicted (m : WarmSourceBufferMutation) (len : Nat) : WarmSourceBufferMutation :=
  { m with evictedDatagrams := satAdd m.evictedDatagrams 1, evictedBytes := satAdd m.evictedBytes len }

end WarmSourceBufferMutation

namespace WarmSourceReplayBuffer

variable {κ : Type} [DecidableEq κ]

/-- The loop of `remove_expired` and `remove_object`: pop every datagram, keep those that are not
`gone`. -/
def discard (gone : WarmSourceDatagram κ → Bool)
    (note : WarmSourceBufferMutation → Nat → WarmSourceBufferMutation) :
    List (WarmSourceDatagram κ) → Nat → WarmSourceBufferMutation →
      List (WarmSourceDatagram κ) × Nat × WarmSourceBufferMutation
  | [], bytes, mutation => ([], bytes, mutation)
  | datagram :: rest, bytes, mutation =>
      if gone datagram then
        discard gone note rest (bytes - datagram.wire.length) (note mutation datagram.wire.length)
      else
        let (retained, bytes, mutation) := discard gone note rest bytes mutation
        (datagram :: retained, bytes, mutation)

def removeExpired (b : WarmSourceReplayBuffer κ) (nowUs : Nat)
    (mutation : WarmSourceBufferMutation) : WarmSourceReplayBuffer κ × WarmSourceBufferMutation :=
  let (datagrams, bytes, mutation) :=
    discard (fun datagram => datagram.expiresAtUs ≤ nowUs) .expired b.datagrams b.bytes mutation
  let objectOrder := b.objectOrder.filter fun key =>
    datagrams.any fun datagram => datagram.objectKey == key
  ({ datagrams, objectOrder, bytes }, mutation)

def removeObject (b : WarmSourceReplayBuffer κ) (objectKey : κ)
    (mutation : WarmSourceBufferMutation) : WarmSourceReplayBuffer κ × WarmSourceBufferMutation :=
  let (datagrams, bytes, mutation) :=
    discard (fun datagram => datagram.objectKey == objectKey) .retired b.datagrams b.bytes mutation
  ({ b with datagrams, bytes }, mutation)

/-- The first `while` of `push`, over the object order. -/
def retireObjects : List κ → WarmSourceReplayBuffer κ → WarmSourceBufferMutation →
    WarmSourceReplayBuffer κ × WarmSourceBufferMutation
  | [], b, mutation => ({ b with objectOrder := [] }, mutation)
  | oldest :: order, b, mutation =>
      if (oldest :: order).length > relayWarmSourceReplayMaxObjectsPerChild then
        let (b, mutation) := b.removeObject oldest mutation
        retireObjects order b mutation
      else ({ b with objectOrder := oldest :: order }, mutation)

/-- The second `while` of `push`, over the datagrams. -/
def evictDatagrams : List (WarmSourceDatagram κ) → WarmSourceReplayBuffer κ →
    WarmSourceBufferMutation → WarmSourceReplayBuffer κ × WarmSourceBufferMutation
  | [], b, mutation => ({ b with datagrams := [] }, mutation)
  | evicted :: rest, b, mutation =>
      if (evicted :: rest).length > relayWarmSourceReplayMaxDatagramsPerChild
          || b.bytes > relayWarmSourceReplayMaxBytesPerChild then
        let objectOrder := if rest.any fun entry => entry.objectKey == evicted.objectKey then
            b.objectOrder
          else b.objectOrder.filter fun key => key != evicted.objectKey
        evictDatagrams rest
          { b with objectOrder, bytes := b.bytes - evicted.wire.length }
          (mutation.evicted evicted.wire.length)
      else ({ b with datagrams := evicted :: rest }, mutation)

/-- The part of `push` before the bounds are enforced. -/
def append (b : WarmSourceReplayBuffer κ) (datagram : WarmSourceDatagram κ) :
    WarmSourceReplayBuffer κ where
  datagrams := b.datagrams ++ [datagram]
  objectOrder := if b.objectOrder.contains datagram.objectKey then b.objectOrder
    else b.objectOrder ++ [datagram.objectKey]
  bytes := satAdd b.bytes datagram.wire.length

def push (b : WarmSourceReplayBuffer κ) (datagram : WarmSourceDatagram κ) (nowUs : Nat) :
    WarmSourceReplayBuffer κ × WarmSourceBufferMutation :=
  let (b, mutation) := b.removeExpired nowUs {}
  if datagram.expiresAtUs ≤ nowUs
      || datagram.wire.length > relayWarmSourceReplayMaxBytesPerChild then (b, mutation)
  else
    let b := b.append datagram
    let mutation := { mutation with addedDatagrams := 1, addedBytes := datagram.wire.length }
    let (b, mutation) := retireObjects b.objectOrder b mutation
    evictDatagrams b.datagrams b mutation

def takeLive (b : WarmSourceReplayBuffer κ) (nowUs : Nat) :
    WarmSourceReplayBatch κ × WarmSourceReplayBuffer κ :=
  let batch := b.datagrams.foldl (fun batch datagram =>
    if datagram.expiresAtUs ≤ nowUs then
      { batch with
        expiredDatagrams := satAdd batch.expiredDatagrams 1
        expiredBytes := satAdd batch.expiredBytes datagram.wire.length }
    else
      { batch with
        bytes := satAdd batch.bytes datagram.wire.length
        datagrams := batch.datagrams ++ [datagram] }) {}
  (batch, {})

/-! ## §2. The bounds. -/

/-- The bytes of a list of datagrams. -/
def wireBytes (datagrams : List (WarmSourceDatagram κ)) : Nat :=
  (datagrams.map fun datagram => datagram.wire.length).sum

/-- `bytes` is the size of the buffer, and within the bound; the objects are within theirs. -/
structure WellFormed (b : WarmSourceReplayBuffer κ) : Prop where
  bytes : b.bytes = wireBytes b.datagrams
  bytes_le : b.bytes ≤ relayWarmSourceReplayMaxBytesPerChild
  objects_le : b.objectOrder.length ≤ relayWarmSourceReplayMaxObjectsPerChild

omit [DecidableEq κ] in
theorem wireBytes_cons (datagram : WarmSourceDatagram κ)
    (datagrams : List (WarmSourceDatagram κ)) :
    wireBytes (datagram :: datagrams) = datagram.wire.length + wireBytes datagrams := by
  simp [wireBytes]

omit [DecidableEq κ] in
theorem wireBytes_append (datagrams datagrams' : List (WarmSourceDatagram κ)) :
    wireBytes (datagrams ++ datagrams') = wireBytes datagrams + wireBytes datagrams' := by
  simp [wireBytes]

omit [DecidableEq κ] in
theorem wireBytes_filter_le (p : WarmSourceDatagram κ → Bool)
    (datagrams : List (WarmSourceDatagram κ)) :
    wireBytes (datagrams.filter p) ≤ wireBytes datagrams := by
  induction datagrams with
  | nil => exact Nat.le_refl _
  | cons datagram datagrams ih =>
      rw [List.filter_cons]
      split
      · rw [wireBytes_cons, wireBytes_cons]
        omega
      · rw [wireBytes_cons]
        omega

omit [DecidableEq κ] in
/-- What the discarding loop keeps, and the bytes left when the count was right. -/
theorem discard_spec (gone : WarmSourceDatagram κ → Bool)
    (note : WarmSourceBufferMutation → Nat → WarmSourceBufferMutation)
    (datagrams : List (WarmSourceDatagram κ)) (extra : Nat) (mutation : WarmSourceBufferMutation) :
    (discard gone note datagrams (wireBytes datagrams + extra) mutation).1 =
      datagrams.filter (fun datagram => !gone datagram) ∧
    (discard gone note datagrams (wireBytes datagrams + extra) mutation).2.1 =
      wireBytes (datagrams.filter fun datagram => !gone datagram) + extra := by
  -- the bytes of the datagrams kept so far are carried in `extra`
  induction datagrams generalizing extra mutation with
  | nil => simp [discard, wireBytes]
  | cons datagram rest ih =>
      unfold discard
      cases hgone : gone datagram with
      | true =>
          have hbytes : wireBytes (datagram :: rest) + extra - datagram.wire.length =
              wireBytes rest + extra := by
            rw [wireBytes_cons]
            omega
          simp only [if_true, hbytes, List.filter_cons, hgone, Bool.not_true, Bool.false_eq_true,
            if_false]
          exact ih extra _
      | false =>
          have hbytes : wireBytes (datagram :: rest) + extra =
              wireBytes rest + (datagram.wire.length + extra) := by
            rw [wireBytes_cons]
            omega
          obtain ⟨hkept, hleft⟩ := ih (datagram.wire.length + extra) mutation
          simp only [Bool.false_eq_true, if_false, hbytes, hkept, hleft, List.filter_cons, hgone,
            Bool.not_false, if_true, true_and]
          rw [wireBytes_cons]
          omega

variable {b : WarmSourceReplayBuffer κ}

theorem removeExpired_spec (nowUs : Nat) (mutation : WarmSourceBufferMutation)
    (h : WellFormed b) :
    (b.removeExpired nowUs mutation).1.datagrams =
      b.datagrams.filter (fun datagram => !decide (datagram.expiresAtUs ≤ nowUs)) ∧
    WellFormed (b.removeExpired nowUs mutation).1 := by
  obtain ⟨hkept, hleft⟩ := discard_spec (fun datagram => datagram.expiresAtUs ≤ nowUs) .expired
    b.datagrams 0 mutation
  rw [Nat.add_zero, ← h.bytes] at hkept hleft
  refine ⟨hkept, hleft.trans ?_, ?_, ?_⟩
  · rw [Nat.add_zero]
    exact congrArg wireBytes hkept.symm
  · show (discard _ _ b.datagrams b.bytes mutation).2.1 ≤ _
    rw [hleft]
    have hle := wireBytes_filter_le (fun datagram => !decide (datagram.expiresAtUs ≤ nowUs))
      b.datagrams
    have hbytes := h.bytes
    have hbound := h.bytes_le
    omega
  · exact Nat.le_trans (List.length_filter_le _ _) h.objects_le

theorem removeObject_spec (objectKey : κ) (mutation : WarmSourceBufferMutation)
    (h : b.bytes = wireBytes b.datagrams) :
    (b.removeObject objectKey mutation).1.datagrams =
      b.datagrams.filter (fun datagram => datagram.objectKey != objectKey) ∧
    (b.removeObject objectKey mutation).1.bytes =
      wireBytes (b.removeObject objectKey mutation).1.datagrams := by
  obtain ⟨hkept, hleft⟩ := discard_spec (fun datagram => datagram.objectKey == objectKey) .retired
    b.datagrams 0 mutation
  rw [Nat.add_zero, ← h] at hkept hleft
  refine ⟨hkept, hleft.trans ?_⟩
  rw [Nat.add_zero]
  exact congrArg wireBytes hkept.symm

/-- The objects over the bound are retired from the front of the order. -/
theorem retireObjects_spec (order : List κ) (mutation : WarmSourceBufferMutation)
    (h : b.bytes = wireBytes b.datagrams) :
    ∃ gone, order = gone ++ (retireObjects order b mutation).1.objectOrder ∧
      gone.length = order.length - relayWarmSourceReplayMaxObjectsPerChild ∧
      (retireObjects order b mutation).1.datagrams =
        b.datagrams.filter (fun datagram => !gone.contains datagram.objectKey) ∧
      (retireObjects order b mutation).1.bytes =
        wireBytes (retireObjects order b mutation).1.datagrams := by
  induction order generalizing b mutation with
  | nil => exact ⟨[], rfl, rfl, (List.filter_eq_self.mpr fun _ _ => rfl).symm, h⟩
  | cons oldest order ih =>
      unfold retireObjects
      split
      · next hover =>
          obtain ⟨hkept, hbytes⟩ := removeObject_spec oldest mutation h
          obtain ⟨gone, horder, hlength, hdatagrams, hbytes'⟩ :=
            ih (b.removeObject oldest mutation).2 hbytes
          refine ⟨oldest :: gone, ?_, ?_, ?_, hbytes'⟩
          · rw [List.cons_append, ← horder]
          · simp only [List.length_cons] at hover ⊢
            omega
          · rw [hdatagrams, hkept, List.filter_filter]
            congr 1
            funext datagram
            simp only [List.contains_cons, bne, Bool.not_or, Bool.and_comm]
      · next hfits =>
          refine ⟨[], rfl, ?_, (List.filter_eq_self.mpr fun _ _ => rfl).symm, h⟩
          rw [List.length_nil]
          omega

/-- Evictions stop before the last datagram, which fits on its own. -/
theorem evictDatagrams_spec {last : WarmSourceDatagram κ}
    (hlast : last.wire.length ≤ relayWarmSourceReplayMaxBytesPerChild)
    (earlier : List (WarmSourceDatagram κ)) (mutation : WarmSourceBufferMutation)
    (h : b.bytes = wireBytes (earlier ++ [last])) :
    ∃ kept, kept.Sublist earlier ∧
      (evictDatagrams (earlier ++ [last]) b mutation).1.datagrams = kept ++ [last] ∧
      (evictDatagrams (earlier ++ [last]) b mutation).1.bytes = wireBytes (kept ++ [last]) ∧
      wireBytes (kept ++ [last]) ≤ relayWarmSourceReplayMaxBytesPerChild ∧
      (evictDatagrams (earlier ++ [last]) b mutation).1.objectOrder.length ≤
        b.objectOrder.length := by
  induction earlier generalizing b mutation with
  | nil =>
      have hbytes : b.bytes = last.wire.length := by simpa [wireBytes] using h
      have hkeep : evictDatagrams ([] ++ [last]) b mutation =
          ({ b with datagrams := [last] }, mutation) := by
        simp only [List.nil_append, evictDatagrams]
        rw [if_neg]
        simp [relayWarmSourceReplayMaxDatagramsPerChild, hbytes, hlast]
      rw [hkeep]
      refine ⟨[], List.Sublist.refl _, rfl, h, ?_, Nat.le_refl _⟩
      simpa [wireBytes] using hlast
  | cons evicted earlier ih =>
      rw [List.cons_append] at h ⊢
      unfold evictDatagrams
      split
      · next hover =>
          have hbytes : b.bytes - evicted.wire.length = wireBytes (earlier ++ [last]) := by
            rw [h, wireBytes_cons]
            omega
          obtain ⟨kept, hsub, hdatagrams, hleft, hbound, horder⟩ :=
            @ih { b with
              objectOrder := if (earlier ++ [last]).any
                  fun entry => entry.objectKey == evicted.objectKey then b.objectOrder
                else b.objectOrder.filter fun key => key != evicted.objectKey
              bytes := b.bytes - evicted.wire.length } (mutation.evicted evicted.wire.length) hbytes
          refine ⟨kept, hsub.cons evicted, hdatagrams, hleft, hbound, Nat.le_trans horder ?_⟩
          dsimp only
          split
          · exact Nat.le_refl _
          · exact List.length_filter_le _ _
      · next hfits =>
          refine ⟨evicted :: earlier, List.Sublist.refl _, rfl, h, ?_, Nat.le_refl _⟩
          rw [List.cons_append, ← h]
          simp only [Bool.or_eq_true, decide_eq_true_eq, not_or] at hfits
          omega

/-- The object of the new datagram is not retired by its own push. -/
theorem not_mem_retired {datagram : WarmSourceDatagram κ} {gone order : List κ}
    (hle : b.objectOrder.length ≤ relayWarmSourceReplayMaxObjectsPerChild)
    (horder : (b.append datagram).objectOrder = gone ++ order)
    (hlength : gone.length =
      (b.append datagram).objectOrder.length - relayWarmSourceReplayMaxObjectsPerChild) :
    datagram.objectKey ∉ gone := by
  by_cases hknown : b.objectOrder.contains datagram.objectKey = true
  · -- a known object: the order has not grown
    have hsame : (b.append datagram).objectOrder = b.objectOrder := if_pos hknown
    rw [hsame] at hlength
    have hnil : gone = [] := List.eq_nil_of_length_eq_zero (by omega)
    simp [hnil]
  · -- a new object stands last, and the retired ones before it
    have hnew : (b.append datagram).objectOrder = b.objectOrder ++ [datagram.objectKey] :=
      if_neg hknown
    rw [hnew] at horder hlength
    have hleading : gone <+: b.objectOrder := by
      have hfit : gone.length ≤ b.objectOrder.length := by
        rw [List.length_append, List.length_singleton] at hlength
        have hpos : 0 < relayWarmSourceReplayMaxObjectsPerChild := by decide
        omega
      exact List.prefix_of_prefix_length_le ⟨order, horder.symm⟩ (List.prefix_append _ _) hfit
    intro hmem
    exact hknown (List.contains_iff_mem.mpr (hleading.subset hmem))

theorem append_bytes {datagram : WarmSourceDatagram κ} (h : WellFormed b)
    (hsize : datagram.wire.length ≤ relayWarmSourceReplayMaxBytesPerChild) :
    (b.append datagram).bytes = wireBytes (b.append datagram).datagrams := by
  have hbound := h.bytes_le
  show satAdd b.bytes datagram.wire.length = wireBytes (b.datagrams ++ [datagram])
  rw [wireBytes_append, ← h.bytes, satAdd_of_le]
  · simp [wireBytes]
  · unfold relayWarmSourceReplayMaxBytesPerChild at hbound hsize
    unfold u64Max
    omega

/-- Both loops of `push` after the append: the new datagram stays last, of the others some
remain, in order. -/
theorem enforce_spec {datagram : WarmSourceDatagram κ} (mutation : WarmSourceBufferMutation)
    (h : WellFormed b) (hsize : datagram.wire.length ≤ relayWarmSourceReplayMaxBytesPerChild) :
    let retired := retireObjects (b.append datagram).objectOrder (b.append datagram) mutation
    let result := (evictDatagrams retired.1.datagrams retired.1 retired.2).1
    ∃ kept, kept.Sublist b.datagrams ∧ result.datagrams = kept ++ [datagram] ∧
      WellFormed result := by
  intro retired result
  obtain ⟨gone, horder, hlength, hdatagrams, hbytes⟩ :=
    retireObjects_spec (b.append datagram).objectOrder mutation (append_bytes h hsize)
  have hremaining : retired.1.datagrams =
      b.datagrams.filter (fun entry => !gone.contains entry.objectKey) ++ [datagram] := by
    have hkeep : gone.contains datagram.objectKey = false := by
      simpa using not_mem_retired h.objects_le horder hlength
    refine hdatagrams.trans ?_
    show List.filter _ (b.datagrams ++ [datagram]) = _
    rw [List.filter_append, List.filter_cons, hkeep]
    rfl
  obtain ⟨kept, hsub, hkept, hleft, hbound, hobjects⟩ :=
    evictDatagrams_spec hsize _ retired.2 (hbytes.trans (congrArg wireBytes hremaining))
  have hresult : result = (evictDatagrams
      (b.datagrams.filter (fun entry => !gone.contains entry.objectKey) ++ [datagram])
      retired.1 retired.2).1 := by
    rw [← hremaining]
  rw [hresult]
  refine ⟨kept, hsub.trans List.filter_sublist, hkept, ?_, ?_, ?_⟩
  · rw [hkept]
    exact hleft
  · rw [hleft]
    exact hbound
  · refine Nat.le_trans hobjects ?_
    have htotal := congrArg List.length horder
    rw [List.length_append] at htotal
    show (retireObjects (b.append datagram).objectOrder (b.append datagram) mutation).1.objectOrder.length
      ≤ _
    omega

/-- A live datagram that fits on its own is the last one after its push. -/
theorem push_spec {datagram : WarmSourceDatagram κ} {nowUs : Nat} (h : WellFormed b)
    (hlive : nowUs < datagram.expiresAtUs)
    (hsize : datagram.wire.length ≤ relayWarmSourceReplayMaxBytesPerChild) :
    ∃ kept, kept.Sublist b.datagrams ∧ (b.push datagram nowUs).1.datagrams = kept ++ [datagram] ∧
      WellFormed (b.push datagram nowUs).1 := by
  obtain ⟨hunexpired, hwell⟩ := removeExpired_spec nowUs {} h
  obtain ⟨kept, hsub, hkept, hresult⟩ := enforce_spec
    { (b.removeExpired nowUs {}).2 with addedDatagrams := 1, addedBytes := datagram.wire.length }
    hwell hsize
  unfold push
  dsimp only
  rw [if_neg]
  · refine ⟨kept, hsub.trans ?_, hkept, hresult⟩
    rw [hunexpired]
    exact List.filter_sublist
  · simp only [Bool.or_eq_true, decide_eq_true_eq, not_or]
    omega

/-- Anything else only drops what has expired. -/
theorem push_of_dropped {datagram : WarmSourceDatagram κ} {nowUs : Nat}
    (hdrop : datagram.expiresAtUs ≤ nowUs ∨
      relayWarmSourceReplayMaxBytesPerChild < datagram.wire.length) :
    (b.push datagram nowUs).1 = (b.removeExpired nowUs {}).1 := by
  unfold push
  dsimp only
  rw [if_pos]
  simpa using hdrop

/-- Whatever is pushed, the buffer keeps its bounds and only the new datagram can appear. -/
theorem push_shape (datagram : WarmSourceDatagram κ) (nowUs : Nat) (h : WellFormed b) :
    WellFormed (b.push datagram nowUs).1 ∧ ∃ kept, kept.Sublist b.datagrams ∧
      ((b.push datagram nowUs).1.datagrams = kept ++ [datagram] ∨
        (b.push datagram nowUs).1.datagrams = kept) := by
  by_cases hdrop : datagram.expiresAtUs ≤ nowUs ∨
      relayWarmSourceReplayMaxBytesPerChild < datagram.wire.length
  · obtain ⟨hunexpired, hwell⟩ := removeExpired_spec nowUs {} h
    rw [push_of_dropped hdrop]
    exact ⟨hwell, _, List.filter_sublist, .inr hunexpired⟩
  · have hlive : nowUs < datagram.expiresAtUs := by omega
    obtain ⟨kept, hsub, hkept, hwell⟩ := push_spec h hlive (by omega)
    exact ⟨hwell, kept, hsub, .inl hkept⟩

omit [DecidableEq κ] in
theorem takeLive_datagrams (nowUs : Nat) :
    (b.takeLive nowUs).1.datagrams =
      b.datagrams.filter fun datagram => !decide (datagram.expiresAtUs ≤ nowUs) := by
  have hfold : ∀ (datagrams : List (WarmSourceDatagram κ)) (batch : WarmSourceReplayBatch κ),
      (datagrams.foldl (fun batch datagram =>
        if datagram.expiresAtUs ≤ nowUs then
          { batch with
            expiredDatagrams := satAdd batch.expiredDatagrams 1
            expiredBytes := satAdd batch.expiredBytes datagram.wire.length }
        else
          { batch with
            bytes := satAdd batch.bytes datagram.wire.length
            datagrams := batch.datagrams ++ [datagram] }) batch).datagrams =
      batch.datagrams ++
        datagrams.filter fun datagram => !decide (datagram.expiresAtUs ≤ nowUs) := by
    intro datagrams
    induction datagrams with
    | nil => simp
    | cons datagram datagrams ih =>
        intro batch
        rw [List.foldl_cons, ih, List.filter_cons]
        by_cases hexpired : datagram.expiresAtUs ≤ nowUs
        · simp [hexpired]
        · simp [hexpired]
  exact (hfold b.datagrams {}).trans (List.nil_append _)

end WarmSourceReplayBuffer

end AvMesh.Failover
