/-
  AvMesh.LiveCache.Indexed
  ────────────────────────
  **THE INDEXED SLOT READS LIKE THE ENVELOPE IT WRAPS.**

  `encodeCanonicalLiveSlot` replaces decoding by ranges computed once.  For
  an object whose payload is the tail of its envelope the ranges name the
  very bytes the decoder would return:

    • `decodeCanonicalLiveSlot_indexed` — what the reader does with an index,
    • `checkedRange_indexed` — a range of the slot is a range of the payload,
    • `indexedSlot_agrees` — the two readings are the same, the slot is fenced
      to its stream, and an object that cannot be indexed reads as invalid.
-/
import AvMesh.LiveCache.Slot

namespace AvMesh.LiveCache

open AvMesh.Lib

/-! ## §1. The bytes of an indexed slot. -/

theorem context_eq_ok {α : Type} {value : Option α} {text : String} {a : α} :
    context value text = .ok a ↔ value = some a := by
  cases value with
  | none =>
      constructor
      · intro h
        cases h
      · intro h
        cases h
  | some b =>
      constructor
      · intro h
        cases h
        rfl
      · intro h
        cases h
        rfl

theorem length_canonicalLiveSlotMagic : canonicalLiveSlotMagic.length = 8 := by decide

section Index

variable {streamId : UInt64} {kind : LiveMediaKind} {envelope : Bytes}
  {initOffset initLen mediaOffset mediaLen : Nat}

/-- The slot written for an envelope with the given ranges. -/
def indexedSlot (streamId : UInt64) (kind : LiveMediaKind) (envelope : Bytes)
    (initOffset initLen mediaOffset mediaLen : Nat) : Bytes :=
  indexBytes streamId kind envelope.length initOffset initLen mediaOffset mediaLen ++ envelope

theorem length_indexBytes (envelopeLen : Nat) :
    (indexBytes streamId kind envelopeLen initOffset initLen mediaOffset mediaLen).length = 40 := by
  simp [indexBytes, length_canonicalLiveSlotMagic]

theorem length_indexedSlot :
    (indexedSlot streamId kind envelope initOffset initLen mediaOffset mediaLen).length =
      40 + envelope.length := by
  rw [indexedSlot, List.length_append, length_indexBytes]

/-- Behind the index the slot is the envelope. -/
theorem drop_indexedSlot :
    (indexedSlot streamId kind envelope initOffset initLen mediaOffset mediaLen).drop 40 =
      envelope :=
  List.drop_left' (length_indexBytes _)

theorem slice_indexedSlot {start stop : Nat} (h : 40 ≤ start) :
    slice (indexedSlot streamId kind envelope initOffset initLen mediaOffset mediaLen) start stop =
      slice envelope (start - 40) (stop - 40) :=
  slice_skip (length_indexBytes _) h

/-- The index fields, each at its offset. -/
theorem slices_indexedSlot (streamId : UInt64) (kind : LiveMediaKind) (envelope : Bytes)
    (initOffset initLen mediaOffset mediaLen : Nat) :
    let slot := indexedSlot streamId kind envelope initOffset initLen mediaOffset mediaLen
    canonicalLiveSlotMagic <+: slot ∧
    slice slot 8 16 = toBeBytes 8 streamId.toNat ∧ slice slot 16 17 = [kind.canonicalSlotTag] ∧
    slice slot 17 20 = [0, 0, 0] ∧ slice slot 20 24 = toBeBytes 4 envelope.length ∧
    slice slot 24 28 = toBeBytes 4 initOffset ∧ slice slot 28 32 = toBeBytes 4 initLen ∧
    slice slot 32 36 = toBeBytes 4 mediaOffset ∧ slice slot 36 40 = toBeBytes 4 mediaLen := by
  have hthree : ([0, 0, 0] : Bytes).length = 3 := rfl
  refine ⟨?_, ?_, ?_, ?_, ?_, ?_, ?_, ?_, ?_⟩
  · rw [indexedSlot, indexBytes, List.append_assoc]
    exact List.prefix_append _ _
  all_goals
    simp (disch := simp) only [indexedSlot, indexBytes, List.append_assoc,
      slice_skip length_canonicalLiveSlotMagic, slice_skip (length_toBeBytes _ _),
      slice_skip List.length_singleton, slice_skip hthree, Nat.reduceSub,
      slice_field (length_toBeBytes _ _), slice_field List.length_singleton, slice_field hthree]

/-- What the reader does with an index whose numbers fit their fields. -/
theorem decodeCanonicalLiveSlot_indexed {M : MediaObjectCrate} {expected : UInt64}
    (hmagic : M.wireMagic <+: envelope) (henvelope : envelope.length < 2 ^ 32)
    (hinitOffset : initOffset < 2 ^ 32) (hinitLen : initLen < 2 ^ 32)
    (hmediaOffset : mediaOffset < 2 ^ 32) (hmediaLen : mediaLen < 2 ^ 32) :
    let slot := indexedSlot streamId kind envelope initOffset initLen mediaOffset mediaLen
    LiveSlotPayload.decodeCanonicalLiveSlot M slot (some expected) =
      if expected ≠ streamId then none
      else
        (LiveSlotPayload.indexedInit slot initOffset initLen).bind fun init =>
          (LiveSlotPayload.checkedRange slot mediaOffset mediaLen).bind fun media =>
            LiveSlotPayload.ofRanges kind init media := by
  intro slot
  obtain ⟨hmagicSlot, hstream, htag, hzero, hlen, hio, hil, hmo, hml⟩ :=
    slices_indexedSlot streamId kind envelope initOffset initLen mediaOffset mediaLen
  have hlength : slot.length = 40 + envelope.length := length_indexedSlot
  have hdrop : slot.drop canonicalLiveSlotHeaderLen = envelope := drop_indexedSlot
  have hheader : ¬(slot.length < canonicalLiveSlotHeaderLen ∨ ¬ canonicalLiveSlotMagic <+: slot ∨
      slice slot 17 20 ≠ [0, 0, 0]) := by
    simp only [canonicalLiveSlotHeaderLen, hlength, not_or, not_not]
    exact ⟨by omega, hmagicSlot, hzero⟩
  have henvelopeOk : ¬(envelope.length ≠ slot.length - canonicalLiveSlotHeaderLen ∨
      ¬ M.wireMagic <+: slot.drop canonicalLiveSlotHeaderLen) := by
    rw [hdrop]
    simp only [canonicalLiveSlotHeaderLen, hlength, not_or, not_not]
    exact ⟨by omega, hmagic⟩
  have hstreamId : UInt64.ofNat (fromBeBytes (slice slot 8 16)) = streamId := by
    rw [hstream, fromBeBytes_toBeBytes streamId.toNat_lt]
    exact UInt64.ofNat_toNat
  rw [LiveSlotPayload.decodeCanonicalLiveSlot, if_neg hheader]
  dsimp only
  rw [hstreamId, htag, hlen, hio, hil, hmo, hml, fromBeBytes_toBeBytes henvelope,
    fromBeBytes_toBeBytes hinitOffset, fromBeBytes_toBeBytes hinitLen,
    fromBeBytes_toBeBytes hmediaOffset, fromBeBytes_toBeBytes hmediaLen]
  simp only [List.head?_cons, Option.bind_some, LiveMediaKind.fromCanonicalSlotTag_canonicalSlotTag,
    Option.bind_eq_bind, if_neg henvelopeOk]
  by_cases hexpected : expected = streamId
  · simp [hexpected]
  · simp [hexpected]

end Index

/-! ## §2. Ranges of the payload. -/

/-- The envelope of an object as the crate produces it: marked by the magic, decoding to the
object, and ending with the object's payload. -/
structure CanonicalEnvelope (M : MediaObjectCrate) (object : MediaObject) (envelope : Bytes) :
    Prop where
  magic : M.wireMagic <+: envelope
  decodes : M.decode envelope = some object
  tail : object.payload <:+ envelope

/-- A range of the payload of a slot's envelope, addressed from the start of the slot. -/
theorem checkedRange_indexed {streamId : UInt64} {kind : LiveMediaKind} {front payload : Bytes}
    {initOffset initLen mediaOffset mediaLen start len : Nat}
    (hlen : start + len ≤ payload.length)
    (hmax : 40 + (front ++ payload).length ≤ u64Max) :
    LiveSlotPayload.checkedRange
        (indexedSlot streamId kind (front ++ payload) initOffset initLen mediaOffset mediaLen)
        (40 + front.length + start) len =
      some (slice payload start (start + len)) := by
  have hlength : (front ++ payload).length = front.length + payload.length := List.length_append
  have hadd : 40 + front.length + start + len ≤ u64Max := by omega
  have hslice : slice
      (indexedSlot streamId kind (front ++ payload) initOffset initLen mediaOffset mediaLen)
      (40 + front.length + start) (40 + front.length + start + len) =
      slice payload start (start + len) := by
    rw [slice_indexedSlot (by omega), slice_skip rfl (by omega)]
    congr 1 <;> omega
  simp only [LiveSlotPayload.checkedRange, checkedAdd_of_le hadd, canonicalLiveSlotHeaderLen,
    length_indexedSlot, Option.bind_eq_bind, Option.bind_some]
  rw [if_pos (by omega), hslice]

/-- The whole payload, addressed from the start of the slot. -/
theorem checkedRange_payload {streamId : UInt64} {kind : LiveMediaKind} {front payload : Bytes}
    {initOffset initLen mediaOffset mediaLen : Nat}
    (hmax : 40 + (front ++ payload).length ≤ u64Max) :
    LiveSlotPayload.checkedRange
        (indexedSlot streamId kind (front ++ payload) initOffset initLen mediaOffset mediaLen)
        (40 + front.length) payload.length = some payload := by
  have h := @checkedRange_indexed streamId kind front payload initOffset initLen mediaOffset
    mediaLen 0 payload.length (by omega) hmax
  rwa [Nat.add_zero, Nat.zero_add, slice_zero_length] at h

/-! ## §3. What an fMP4 slot holds. -/

/-- A payload is an fMP4 slot with an initialization and a fragment of the given lengths. -/
structure Fmp4Slot (payload : Bytes) (initLen mediaLen : Nat) : Prop where
  magic : meshFmp4SlotMagic <+: payload
  init : fromBeBytes (slice payload 8 12) = initLen
  media : fromBeBytes (slice payload 12 16) = mediaLen
  length : payload.length = 16 + initLen + mediaLen

theorem word_lt (payload : Bytes) (i : Nat) : fromBeBytes (slice payload i (i + 4)) < 2 ^ 32 := by
  have hlt := fromBeBytes_lt (slice payload i (i + 4))
  have hlen : (slice payload i (i + 4)).length ≤ 4 := by
    simp only [slice, List.length_take]
    omega
  have hpow : 256 ^ (slice payload i (i + 4)).length ≤ 256 ^ 4 := Nat.pow_le_pow_right (by omega) hlen
  omega

theorem Fmp4Slot.decode {payload : Bytes} {initLen mediaLen : Nat}
    (h : Fmp4Slot payload initLen mediaLen) (hmax : payload.length ≤ u64Max) :
    LiveSlotPayload.decodeFmp4Slot payload =
      some (.fmp4 (if initLen > 0 then some (slice payload 16 (16 + initLen)) else none)
        (slice payload (16 + initLen) payload.length)) := by
  obtain ⟨hmagic, hinit, hmedia, hlength⟩ := h
  have hheader : ¬(payload.length < meshFmp4SlotHeaderLen ∨ ¬ meshFmp4SlotMagic <+: payload) := by
    simp only [meshFmp4SlotHeaderLen, not_or, not_not]
    exact ⟨by omega, hmagic⟩
  have hinitEnd : 16 + initLen ≤ u64Max := by omega
  have hmediaEnd : 16 + initLen + mediaLen ≤ u64Max := by omega
  rw [LiveSlotPayload.decodeFmp4Slot, if_neg hheader]
  simp only [hinit, hmedia, meshFmp4SlotHeaderLen, checkedAdd_of_le hinitEnd,
    checkedAdd_of_le hmediaEnd, Option.bind_eq_bind, Option.bind_some]
  rw [if_neg (not_not.mpr hlength.symm), hlength]

theorem decodeFmp4Slot_eq_none {payload : Bytes}
    (h : ∀ initLen mediaLen, ¬ Fmp4Slot payload initLen mediaLen) :
    LiveSlotPayload.decodeFmp4Slot payload = none := by
  rw [LiveSlotPayload.decodeFmp4Slot]
  split
  · rfl
  next hheader =>
  simp only [not_or, not_not] at hheader
  simp only [Option.bind_eq_bind]
  cases hinit : checkedAdd meshFmp4SlotHeaderLen (fromBeBytes (slice payload 8 12)) with
  | none => rfl
  | some initEnd =>
      rw [Option.bind_some]
      cases hmedia : checkedAdd initEnd (fromBeBytes (slice payload 12 16)) with
      | none => rfl
      | some mediaEnd =>
          rw [Option.bind_some]
          split
          · rfl
          next hend =>
          have hi := checkedAdd_eq_some hinit
          have hm := checkedAdd_eq_some hmedia
          simp only [meshFmp4SlotHeaderLen] at hi
          exact absurd ⟨hheader.2, rfl, rfl, by omega⟩ (h _ _)

/-! ## §4. The ranges the writer records. -/

section Ranges

variable {object : MediaObject} {front : Bytes} {kind : LiveMediaKind}

/-- With the payload at the end of the envelope, its offset in the slot is that of the front. -/
theorem slotIndex_eq (hmax : 40 + (front ++ object.payload).length < 2 ^ 33) :
    slotIndex object (front ++ object.payload) kind =
      if kind = .fmp4 ∧ object.metadataIs "payload-format" "fmp4-slot-v1" = true then
        fmp4SlotIndex object.payload (front ++ object.payload) (40 + front.length)
      else .ok ⟨0, 0, 40 + front.length, object.payload.length⟩ := by
  have hlength : (front ++ object.payload).length = front.length + object.payload.length :=
    List.length_append
  have hle : object.payload.length ≤ (front ++ object.payload).length := by omega
  have hbefore : (front ++ object.payload).length - object.payload.length = front.length := by omega
  have hoffset : 40 + front.length ≤ u64Max := by
    simp only [u64Max]
    omega
  rw [slotIndex, if_pos hle, hbefore]
  simp only [context, canonicalLiveSlotHeaderLen, bind, Except.bind, checkedAdd_of_le hoffset]
  rfl

theorem fmp4SlotIndex_of_slot {payload : Bytes} {initLen mediaLen : Nat}
    (h : Fmp4Slot payload initLen mediaLen)
    (hmax : 40 + (front ++ payload).length < 2 ^ 33) :
    fmp4SlotIndex payload (front ++ payload) (40 + front.length) =
      .ok ⟨if initLen > 0 then 40 + front.length + 16 else 0, initLen,
        40 + front.length + (16 + initLen), mediaLen⟩ := by
  obtain ⟨hmagic, hinit, hmedia, hlength⟩ := h
  have hwhole : (front ++ payload).length = front.length + payload.length := List.length_append
  have hheader : ¬(payload.length < meshFmp4SlotHeaderLen ∨ ¬ meshFmp4SlotMagic <+: payload) := by
    simp only [meshFmp4SlotHeaderLen, not_or, not_not]
    exact ⟨by omega, hmagic⟩
  have hbig : 2 ^ 33 ≤ u64Max := by decide
  have hstart : 40 + front.length + 16 ≤ u64Max := by omega
  have hmid : 40 + front.length + 16 + initLen ≤ u64Max := by omega
  have hend : 40 + front.length + 16 + initLen + mediaLen ≤ u64Max := by omega
  have hmatch : ¬(40 + front.length + 16 + initLen + mediaLen ≠
      canonicalLiveSlotHeaderLen + (front ++ payload).length) := by
    simp only [canonicalLiveSlotHeaderLen]
    omega
  rw [fmp4SlotIndex, if_neg hheader]
  simp only [hinit, hmedia, meshFmp4SlotHeaderLen, checkedAdd_of_le hstart,
    checkedAdd_of_le hmid, checkedAdd_of_le hend, context, Except.bind, bind, if_neg hmatch]
  rw [Nat.add_assoc (40 + front.length) 16 initLen]
  rfl

/-- The writer refuses a nested slot exactly where the reader does. -/
theorem fmp4SlotIndex_of_malformed {payload : Bytes}
    (h : ∀ initLen mediaLen, ¬ Fmp4Slot payload initLen mediaLen) (index : SlotIndex) :
    fmp4SlotIndex payload (front ++ payload) (40 + front.length) ≠ .ok index := by
  intro hok
  have hwhole : (front ++ payload).length = front.length + payload.length := List.length_append
  rw [fmp4SlotIndex] at hok
  split at hok
  · cases hok
  next hheader =>
  simp only [not_or, not_not] at hheader
  obtain ⟨initStart, hinitStart, hok⟩ := except_bind_eq_ok.mp hok
  obtain ⟨mediaStart, hmediaStart, hok⟩ := except_bind_eq_ok.mp hok
  obtain ⟨mediaEnd, hmediaEnd, hok⟩ := except_bind_eq_ok.mp hok
  have hi := checkedAdd_eq_some (context_eq_ok.mp hinitStart)
  have hm := checkedAdd_eq_some (context_eq_ok.mp hmediaStart)
  have he := checkedAdd_eq_some (context_eq_ok.mp hmediaEnd)
  split at hok
  · cases hok
  next hmatch =>
  simp only [meshFmp4SlotHeaderLen] at hi
  simp only [canonicalLiveSlotHeaderLen, hwhole] at hmatch
  exact h _ _ ⟨hheader.2, rfl, rfl, by omega⟩

end Ranges

/-! ## §5. The two readings agree. -/

section Agreement

variable {M : MediaObjectCrate} {streamId : UInt64} {object : MediaObject} {envelope : Bytes}
  {kind : LiveMediaKind}

theorem encodeCanonicalLiveSlot_eq_ok {slot : Bytes}
    (h : encodeCanonicalLiveSlot streamId object envelope kind = .ok slot) :
    ∃ index, slotIndex object envelope kind = .ok index ∧ envelope.length < 2 ^ 32 ∧
      index.initOffset < 2 ^ 32 ∧ index.initLen < 2 ^ 32 ∧ index.mediaOffset < 2 ^ 32 ∧
      index.mediaLen < 2 ^ 32 ∧
      slot = indexedSlot streamId kind envelope index.initOffset index.initLen index.mediaOffset
        index.mediaLen := by
  rw [encodeCanonicalLiveSlot] at h
  split at h
  · cases h
  obtain ⟨envelopeLen, henvelope, h⟩ := except_bind_eq_ok.mp h
  obtain ⟨index, hindex, h⟩ := except_bind_eq_ok.mp h
  obtain ⟨initOffset, hinitOffset, h⟩ := except_bind_eq_ok.mp h
  obtain ⟨initLen, hinitLen, h⟩ := except_bind_eq_ok.mp h
  obtain ⟨mediaOffset, hmediaOffset, h⟩ := except_bind_eq_ok.mp h
  obtain ⟨mediaLen, hmediaLen, h⟩ := except_bind_eq_ok.mp h
  obtain ⟨h1, rfl⟩ := tryFrom_eq_some (context_eq_ok.mp henvelope)
  obtain ⟨h2, rfl⟩ := tryFrom_eq_some (context_eq_ok.mp hinitOffset)
  obtain ⟨h3, rfl⟩ := tryFrom_eq_some (context_eq_ok.mp hinitLen)
  obtain ⟨h4, rfl⟩ := tryFrom_eq_some (context_eq_ok.mp hmediaOffset)
  obtain ⟨h5, rfl⟩ := tryFrom_eq_some (context_eq_ok.mp hmediaLen)
  cases h
  exact ⟨index, hindex, h1, h2, h3, h4, h5, rfl⟩

theorem encodeCanonicalLiveSlot_of_index {index : SlotIndex} (hkind : object.kind = .media)
    (hpayload : object.payload ≠ []) (henvelope : envelope.length < 2 ^ 32)
    (hindex : slotIndex object envelope kind = .ok index) (hinitOffset : index.initOffset < 2 ^ 32)
    (hinitLen : index.initLen < 2 ^ 32) (hmediaOffset : index.mediaOffset < 2 ^ 32)
    (hmediaLen : index.mediaLen < 2 ^ 32) :
    ∃ slot, encodeCanonicalLiveSlot streamId object envelope kind = .ok slot := by
  have haccepted : ¬(object.kind ≠ .media ∨ object.payload.isEmpty = true) := by
    simp [hkind, hpayload]
  rw [encodeCanonicalLiveSlot, if_neg haccepted]
  simp only [tryFrom_of_lt henvelope, hindex, tryFrom_of_lt hinitOffset, tryFrom_of_lt hinitLen,
    tryFrom_of_lt hmediaOffset, tryFrom_of_lt hmediaLen, context, bind, Except.bind]
  exact ⟨_, rfl⟩

/-- No envelope begins like an indexed slot. -/
def MagicsDiffer (M : MediaObjectCrate) : Prop :=
  ∀ object envelope, CanonicalEnvelope M object envelope → ¬ canonicalLiveSlotMagic <+: envelope

theorem magicsDiffer_of_apart (hwire : ¬ M.wireMagic <+: canonicalLiveSlotMagic)
    (hslot : ¬ canonicalLiveSlotMagic <+: M.wireMagic) : MagicsDiffer M := by
  intro object envelope henvelope hindexed
  rcases List.prefix_or_prefix_of_prefix henvelope.magic hindexed with hle | hle
  · exact hwire hle
  · exact hslot hle

theorem decodeForStream_envelope (hM : MagicsDiffer M) (h : CanonicalEnvelope M object envelope)
    (hstream : object.key.stream = toString streamId.toNat) :
    LiveSlotPayload.decodeForStream M envelope streamId = LiveSlotPayload.ofObject object := by
  rw [LiveSlotPayload.decodeForStream, LiveSlotPayload.decodeInner, if_neg (hM object envelope h),
    if_pos h.magic, h.decodes]
  simp [hstream]

theorem decodeForStream_indexedSlot {initOffset initLen mediaOffset mediaLen : Nat}
    {expected : UInt64} :
    LiveSlotPayload.decodeForStream M
        (indexedSlot streamId kind envelope initOffset initLen mediaOffset mediaLen) expected =
      (LiveSlotPayload.decodeCanonicalLiveSlot M
        (indexedSlot streamId kind envelope initOffset initLen mediaOffset mediaLen)
        (some expected)).getD .invalid := by
  have hmagic :=
    (slices_indexedSlot streamId kind envelope initOffset initLen mediaOffset mediaLen).1
  rw [LiveSlotPayload.decodeForStream, LiveSlotPayload.decodeInner, if_pos hmagic]

theorem metadataIs_eq_true {name text : String} :
    object.metadataIs name text = true ↔ object.metadata.lookup name = some (asBytes text) := by
  rw [MediaObject.metadataIs]
  cases object.metadata.lookup name with
  | none => simp
  | some value => simp

/-- A media object read from its envelope, by the kind its commit gives it. -/
theorem ofObject_media (hkind : object.kind = .media) :
    LiveSlotPayload.ofObject object =
      if commitMediaKind none object = .fmp4 ∧
          object.metadataIs "payload-format" "fmp4-slot-v1" = true then
        (LiveSlotPayload.decodeFmp4Slot object.payload).getD .invalid
      else
        (LiveSlotPayload.ofRanges (commitMediaKind none object) none object.payload).getD
          .invalid := by
  simp only [LiveSlotPayload.ofObject, hkind, commitMediaKind, Option.isSome_none, Bool.false_or]
  cases hfmp4 : object.metadataIs "container" "fmp4" with
  | true =>
      cases hslot : object.metadataIs "payload-format" "fmp4-slot-v1" with
      | true => simp
      | false => simp [LiveSlotPayload.ofRanges]
  | false =>
      cases hopaque : object.metadataIs "container" "opaque" &&
          object.metadataIs "payload-format" "opaque-part-v1" with
      | true => simp [LiveSlotPayload.ofRanges]
      | false => simp [LiveSlotPayload.ofRanges]

theorem ofRanges_none (kind : LiveMediaKind) (media : Bytes) :
    ∃ payload, LiveSlotPayload.ofRanges kind none media = some payload ∧
      payload ≠ LiveSlotPayload.invalid := by
  cases kind with
  | fmp4 => exact ⟨_, rfl, by simp⟩
  | opaqueMedia => exact ⟨_, rfl, by simp⟩
  | ts => exact ⟨_, rfl, by simp⟩

/-- A slot written for a media object reads, in its own stream, as the object does. -/
theorem decode_indexedSlot {front : Bytes} {index : SlotIndex} (hkind : object.kind = .media)
    (hmagic : M.wireMagic <+: front ++ object.payload)
    (hindex : slotIndex object (front ++ object.payload) (commitMediaKind none object) = .ok index)
    (henvelope : (front ++ object.payload).length < 2 ^ 32) (hinitOffset : index.initOffset < 2 ^ 32)
    (hinitLen : index.initLen < 2 ^ 32) (hmediaOffset : index.mediaOffset < 2 ^ 32)
    (hmediaLen : index.mediaLen < 2 ^ 32) :
    LiveSlotPayload.decodeCanonicalLiveSlot M
        (indexedSlot streamId (commitMediaKind none object) (front ++ object.payload)
          index.initOffset index.initLen index.mediaOffset index.mediaLen) (some streamId) =
      some (LiveSlotPayload.ofObject object) ∧
    LiveSlotPayload.ofObject object ≠ .invalid := by
  have hbig : 2 ^ 33 ≤ u64Max := by decide
  have hlength : (front ++ object.payload).length = front.length + object.payload.length :=
    List.length_append
  obtain ⟨initOffset, initLen, mediaOffset, mediaLen⟩ := index
  dsimp only at hinitOffset hinitLen hmediaOffset hmediaLen ⊢
  rw [decodeCanonicalLiveSlot_indexed hmagic henvelope hinitOffset hinitLen hmediaOffset hmediaLen,
    if_neg (not_not.mpr rfl), ofObject_media hkind]
  rw [slotIndex_eq (by omega)] at hindex
  by_cases hslot : commitMediaKind none object = .fmp4 ∧
      object.metadataIs "payload-format" "fmp4-slot-v1" = true
  · rw [if_pos hslot] at hindex ⊢
    by_cases hnested : ∃ initLen mediaLen, Fmp4Slot object.payload initLen mediaLen
    · obtain ⟨initLen', mediaLen', hnested⟩ := hnested
      have hpayload := hnested.length
      rw [fmp4SlotIndex_of_slot hnested (by omega)] at hindex
      simp only [Except.ok.injEq, SlotIndex.mk.injEq] at hindex
      obtain ⟨rfl, rfl, rfl, rfl⟩ := hindex
      rw [hnested.decode (by omega), checkedRange_indexed (by omega) (by omega), hslot.1, ← hpayload]
      -- An empty initialization is recorded as the range zero, a present one by its offset.
      by_cases hinit : initLen' = 0
      · subst hinit
        exact ⟨rfl, by simp⟩
      · have hpos : initLen' > 0 := by omega
        rw [LiveSlotPayload.indexedInit, if_neg hinit, if_pos hpos,
          checkedRange_indexed (by omega) (by omega)]
        rw [if_pos hpos]
        exact ⟨rfl, by simp⟩
    · exact absurd hindex (fmp4SlotIndex_of_malformed (by simpa using hnested) _)
  · rw [if_neg hslot] at hindex ⊢
    simp only [Except.ok.injEq, SlotIndex.mk.injEq] at hindex
    obtain ⟨rfl, rfl, rfl, rfl⟩ := hindex
    obtain ⟨payload, hpayload, hvalid⟩ :=
      ofRanges_none (commitMediaKind none object) object.payload
    rw [checkedRange_payload (by omega), hpayload]
    exact ⟨hpayload, hvalid⟩

/-- **The indexed slot and the envelope read alike.**  For a media object with a payload, not a
Soundkit bundle, of the stream it is committed to: the slot `encode_canonical_live_slot` writes
reads in its stream as the envelope does, is valid there, and is invalid in every other stream;
and when no slot can be written although the envelope is small enough, the envelope itself reads
as invalid. -/
theorem indexedSlot_agrees (M : MediaObjectCrate) (hM : MagicsDiffer M) (K : SoundkitCrate)
    (streamId : UInt64) (object : MediaObject) (envelope : Bytes)
    (henvelope : CanonicalEnvelope M object envelope) (hkind : object.kind = .media)
    (hpayload : object.payload ≠ [])
    (hformat : object.metadata.lookup "payload-format" ≠ some (asBytes "soundkit-v2-bundle"))
    (hstream : object.key.stream = toString streamId.toNat) :
    ∃ reboxed, reboxedAudio K object = .ok reboxed ∧
      (∀ slot, encodeCanonicalLiveSlot streamId object envelope (commitMediaKind reboxed object) =
          .ok slot →
        LiveSlotPayload.decodeForStream M slot streamId =
          LiveSlotPayload.decodeForStream M envelope streamId ∧
        LiveSlotPayload.decodeForStream M slot streamId ≠ .invalid ∧
        ∀ other, other ≠ streamId → LiveSlotPayload.decodeForStream M slot other = .invalid) ∧
      (∀ error, encodeCanonicalLiveSlot streamId object envelope (commitMediaKind reboxed object) =
          .error error →
        envelope.length + 40 < 2 ^ 32 →
        LiveSlotPayload.decodeForStream M envelope streamId = .invalid) := by
  have hbundle : ¬(object.kind = .media ∧
      object.metadataIs "payload-format" "soundkit-v2-bundle" = true) := by
    rintro ⟨-, hbundle⟩
    exact hformat (metadataIs_eq_true.mp hbundle)
  refine ⟨none, if_neg hbundle, ?_, ?_⟩
  · intro slot hslot
    obtain ⟨index, hindex, hlen, hio, hil, hmo, hml, rfl⟩ := encodeCanonicalLiveSlot_eq_ok hslot
    have hread := decodeForStream_envelope hM henvelope hstream
    obtain ⟨front, rfl⟩ := henvelope.tail
    obtain ⟨hown, hvalid⟩ :=
      @decode_indexedSlot M streamId object front index hkind henvelope.magic hindex hlen hio hil
        hmo hml
    rw [decodeForStream_indexedSlot, hown, Option.getD_some, hread]
    refine ⟨rfl, hvalid, ?_⟩
    intro other hother
    rw [decodeForStream_indexedSlot,
      decodeCanonicalLiveSlot_indexed henvelope.magic hlen hio hil hmo hml, if_pos hother]
    rfl
  · intro error hfail hsmall
    rw [decodeForStream_envelope hM henvelope hstream, ofObject_media hkind]
    obtain ⟨front, rfl⟩ := henvelope.tail
    have hlength : (front ++ object.payload).length = front.length + object.payload.length :=
      List.length_append
    -- Every index fits, so the writer can only have refused a malformed nested slot.
    have hindex := @slotIndex_eq object front (commitMediaKind none object) (by omega)
    by_cases hslot : commitMediaKind none object = .fmp4 ∧
        object.metadataIs "payload-format" "fmp4-slot-v1" = true
    · rw [if_pos hslot] at hindex ⊢
      rw [decodeFmp4Slot_eq_none]
      · rfl
      · intro initLen mediaLen hnested
        have hnestedLen := hnested.length
        rw [fmp4SlotIndex_of_slot hnested (by omega)] at hindex
        have hinitOffset : (if initLen > 0 then 40 + front.length + 16 else 0) < 2 ^ 32 := by
          split <;> omega
        obtain ⟨slot, hok⟩ := @encodeCanonicalLiveSlot_of_index streamId object _ _ _ hkind
          hpayload (by omega) hindex hinitOffset (by dsimp only; omega) (by dsimp only; omega)
          (by dsimp only; omega)
        rw [hok] at hfail
        cases hfail
    · rw [if_neg hslot] at hindex
      obtain ⟨slot, hok⟩ := @encodeCanonicalLiveSlot_of_index streamId object _ _ _ hkind
        hpayload (by omega) hindex (by dsimp only; omega) (by dsimp only; omega)
        (by dsimp only; omega) (by dsimp only; omega)
      rw [hok] at hfail
      cases hfail

end Agreement

/-- An fMP4 slot with a two-byte initialization and a three-byte fragment. -/
def sampleSlotPayload : Bytes :=
  meshFmp4SlotMagic ++ toBeBytes 4 2 ++ toBeBytes 4 3 ++ [1, 2] ++ [3, 4, 5]

theorem indexedSlot_agrees_sample :
    LiveSlotPayload.decodeForStream sampleCrate
        (indexedSlot 87 .fmp4 (asBytes "OBJ1" ++ sampleSlotPayload) 60 2 62 3) 87 =
      LiveSlotPayload.decodeForStream sampleCrate (asBytes "OBJ1" ++ sampleSlotPayload) 87 ∧
    LiveSlotPayload.decodeForStream sampleCrate
        (indexedSlot 87 .fmp4 (asBytes "OBJ1" ++ sampleSlotPayload) 60 2 62 3) 88 = .invalid := by
  obtain ⟨reboxed, hreboxed, hslot, -⟩ := indexedSlot_agrees sampleCrate
    (magicsDiffer_of_apart (by decide) (by decide)) sampleSoundkit
    87 (sampleObject sampleSlotPayload) (asBytes "OBJ1" ++ sampleSlotPayload)
    ⟨by decide, by rfl, List.suffix_append _ _⟩ rfl (by decide) (by decide) (by decide)
  cases hreboxed
  obtain ⟨hsame, -, hother⟩ := hslot _ rfl
  exact ⟨hsame, hother 88 (by decide)⟩

end AvMesh.LiveCache
