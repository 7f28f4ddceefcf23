/-
  AvMesh.LiveCache.Intact
  ───────────────────────
  **WHEN A FAILED COMMIT LEAVES ITS STREAM INTACT.**

  A commit activates the epoch of its object, then records the object, and
  only then reboxes, encodes and stores it.  What readers of the stream
  depend on is `view`; a commit that fails leaves it alone exactly when

    • it fails before the epoch is activated, or in reboxing without a new
      epoch, or
    • it brings nothing the stream does not have already (`AlreadyRecorded`).

  `commit_intact_iff` says so for every state, stream and payload.
-/
import AvMesh.LiveCache.Commit

namespace AvMesh.LiveCache

open AvMesh.Lib

/-! ## §1. What readers depend on. -/

/-- The part of the cache that readers of one stream depend on. -/
structure StreamView (C : ChunkCacheCrate) where
  epoch : Option Nat
  slots : C.Slots
  initialization : Option Bytes
  parts : Option RetainedParts
  base : Option Nat
  latest : Option Nat
  nextSeq : Option Nat
  init : Option Bytes
  kind : Option LiveMediaKind

/-- The laws of the chunk cache the commit relies on: a refused write does not modify the stream,
and an accepted initialization is the one read back. -/
structure LawfulChunkCache (C : ChunkCacheCrate) : Prop where
  set_error : ∀ chunk streamId init err,
    (C.setStreamInitialization chunk streamId init).1 = .error err →
    C.slots (C.setStreamInitialization chunk streamId init).2 streamId = C.slots chunk streamId ∧
    C.initialization (C.setStreamInitialization chunk streamId init).2 streamId =
      C.initialization chunk streamId
  set_ok : ∀ chunk streamId init,
    (C.setStreamInitialization chunk streamId init).1 = .ok () →
    C.slots (C.setStreamInitialization chunk streamId init).2 streamId = C.slots chunk streamId ∧
    C.initialization (C.setStreamInitialization chunk streamId init).2 streamId = some init
  put_refused : ∀ chunk streamId slot base bytes,
    (C.putIfAbsentContiguous chunk streamId slot base bytes).1 ≠ .ok .present →
    C.slots (C.putIfAbsentContiguous chunk streamId slot base bytes).2 streamId =
      C.slots chunk streamId ∧
    C.initialization (C.putIfAbsentContiguous chunk streamId slot base bytes).2 streamId =
      C.initialization chunk streamId
  add_error : ∀ chunk streamId slot bytes err,
    (C.addForStreamId chunk streamId slot bytes).1 = .error err →
    C.slots (C.addForStreamId chunk streamId slot bytes).2 streamId = C.slots chunk streamId ∧
    C.initialization (C.addForStreamId chunk streamId slot bytes).2 streamId =
      C.initialization chunk streamId

namespace LiveTsCache

variable {C : ChunkCacheCrate}

def view (cache : LiveTsCache C) (streamId : UInt64) : StreamView C where
  epoch := cache.state.streamCanonicalEpoch.lookup streamId
  slots := C.slots cache.chunkCache streamId
  initialization := C.initialization cache.chunkCache streamId
  parts := cache.state.streamParts.lookup streamId
  base := cache.state.streamSubscriptionBaseObject.lookup streamId
  latest := cache.state.streamLatestCanonicalObject.lookup streamId
  nextSeq := cache.state.streamNextSeq.lookup streamId
  init := cache.state.streamInits.lookup streamId
  kind := cache.state.streamMediaKinds.lookup streamId

/-! ## §2. Recording and writing an initialization. -/

/-- The view of a stream once a kind, a next sequence and perhaps an initialization are recorded
and the initialization is written or refused. -/
def recordedView (cache : LiveTsCache C) (streamId : UInt64) (next : Nat) (kind : LiveMediaKind)
    (init : Option Bytes) : StreamView C :=
  { cache.view streamId with
    nextSeq := some next
    kind := some kind
    init := init.or (cache.state.streamInits.lookup streamId)
    initialization := match init with
      | none => C.initialization cache.chunkCache streamId
      | some init =>
          match (C.setStreamInitialization cache.chunkCache streamId init).1 with
          | .ok _ => some init
          | .error _ => C.initialization cache.chunkCache streamId }

/-- The stream has this initialization, if any: recorded, and cached where the cache takes it. -/
def HasInit (cache : LiveTsCache C) (streamId : UInt64) (init : Option Bytes) : Prop :=
  ∀ bytes, init = some bytes →
    cache.state.streamInits.lookup streamId = some bytes ∧
    ((C.setStreamInitialization cache.chunkCache streamId bytes).1 = .ok () →
      C.initialization cache.chunkCache streamId = some bytes)

section Views

variable {cache : LiveTsCache C} {streamId : UInt64}

/-- The recorded view is the old one exactly when nothing recorded is new. -/
theorem recordedView_eq_iff {next : Nat} {kind : LiveMediaKind} {init : Option Bytes} :
    cache.recordedView streamId next kind init = cache.view streamId ↔
      cache.state.streamNextSeq.lookup streamId = some next ∧
      cache.state.streamMediaKinds.lookup streamId = some kind ∧ cache.HasInit streamId init := by
  simp only [recordedView, view, StreamView.mk.injEq, true_and, HasInit]
  cases init with
  | none => simp [eq_comm]
  | some init =>
      dsimp only
      cases hset : (C.setStreamInitialization cache.chunkCache streamId init).1 with
      | ok _ =>
          constructor
          · rintro ⟨hread, hseq, hinits, hkind⟩
            refine ⟨hseq.symm, hkind.symm, ?_⟩
            rintro _ ⟨⟩
            exact ⟨hinits.symm, fun _ => hread.symm⟩
          · rintro ⟨hseq, hkind, hinits⟩
            obtain ⟨hstate, hread⟩ := hinits init rfl
            exact ⟨(hread hset).symm, hseq.symm, hstate.symm, hkind.symm⟩
      | error err =>
          constructor
          · rintro ⟨-, hseq, hinits, hkind⟩
            refine ⟨hseq.symm, hkind.symm, ?_⟩
            rintro _ ⟨⟩
            refine ⟨hinits.symm, ?_⟩
            rw [hset]
            nofun
          · rintro ⟨hseq, hkind, hinits⟩
            exact ⟨rfl, hseq.symm, (hinits init rfl).1.symm, hkind.symm⟩

/-- The chunk cache a following write sees. -/
def chunkAfterInit (chunk : C.Cache) (streamId : UInt64) (init : Option Bytes) : C.Cache :=
  match init with
  | none => chunk
  | some init => (C.setStreamInitialization chunk streamId init).2

/-- Writing an initialization changes the chunk cache only, also when it fails. -/
theorem writeInitialization_snd {init : Option Bytes} {failure : String} :
    (cache.writeInitialization streamId init failure).2 =
      { cache with chunkCache := chunkAfterInit cache.chunkCache streamId init } := by
  cases init with
  | none => rfl
  | some init =>
      rw [writeInitialization, chunkAfterInit]
      split <;> next heq => rw [heq]

theorem state_writeInitialization {init : Option Bytes} {failure : String} :
    (cache.writeInitialization streamId init failure).2.state = cache.state := by
  rw [writeInitialization_snd]

/-- The initialization readers see after the write. -/
theorem view_writeInitialization (hC : LawfulChunkCache C) {init : Option Bytes}
    {failure : String} :
    (cache.writeInitialization streamId init failure).2.view streamId =
      { cache.view streamId with
        initialization := match init with
          | none => C.initialization cache.chunkCache streamId
          | some init =>
              match (C.setStreamInitialization cache.chunkCache streamId init).1 with
              | .ok _ => some init
              | .error _ => C.initialization cache.chunkCache streamId } := by
  rw [writeInitialization_snd]
  cases init with
  | none => rfl
  | some init =>
      cases hset : (C.setStreamInitialization cache.chunkCache streamId init).1 with
      | ok _ =>
          obtain ⟨hslots, hread⟩ := hC.set_ok cache.chunkCache streamId init hset
          simp only [view, chunkAfterInit, hslots, hread, hset]
      | error err =>
          obtain ⟨hslots, hread⟩ := hC.set_error cache.chunkCache streamId init err hset
          simp only [view, chunkAfterInit, hslots, hread, hset]

/-- The initialization is written, or there is none. -/
def InitWritten (chunk : C.Cache) (streamId : UInt64) (init : Option Bytes) : Prop :=
  ∀ bytes, init = some bytes → (C.setStreamInitialization chunk streamId bytes).1 = .ok ()

/-- The write stage: either it fails, or the next write sees the cache after it. -/
theorem writeInitialization_cases (init : Option Bytes) (failure : String) :
    (¬ InitWritten cache.chunkCache streamId init ∧
      ∃ error, (cache.writeInitialization streamId init failure).1 = .error error) ∨
    (InitWritten cache.chunkCache streamId init ∧
      (cache.writeInitialization streamId init failure).1 = .ok () ∧
      (cache.writeInitialization streamId init failure).2.chunkCache =
        chunkAfterInit cache.chunkCache streamId init) := by
  cases init with
  | none => exact .inr ⟨nofun, rfl, rfl⟩
  | some init =>
      rw [writeInitialization, chunkAfterInit, InitWritten]
      cases hset : C.setStreamInitialization cache.chunkCache streamId init with
      | mk result chunk =>
          cases result with
          | ok _ =>
              refine .inr ⟨?_, rfl, rfl⟩
              rintro _ ⟨⟩
              rw [hset]
          | error err =>
              refine .inl ⟨?_, _, rfl⟩
              intro hwritten
              have hok := hwritten init rfl
              rw [hset] at hok
              cases hok

end Views

/-! ## §3. An object that has been admitted and reboxed. -/

/-- The chunk cache refuses the slot of a media object, or it cannot be encoded. -/
def SlotRefused (chunk : C.Cache) (streamId : UInt64) (base : Option Nat) (payload : Bytes)
    (reboxed : Option ReboxedLiveAudio) (object : MediaObject) : Prop :=
  ∀ bytes, slotBytes streamId payload reboxed object = .ok bytes →
    (C.putIfAbsentContiguous chunk streamId object.key.object.toNat
      (base.getD object.key.object.toNat) bytes).1 ≠ .ok .present

/-- A write of the commit fails: the initialization, or the slot of a media object. -/
def Refused (chunk : C.Cache) (streamId : UInt64) (base : Option Nat) (payload : Bytes)
    (reboxed : Option ReboxedLiveAudio) (object : MediaObject) : Prop :=
  InitWritten chunk streamId (objectInit reboxed object) →
    object.kind = .media ∧
    SlotRefused (chunkAfterInit chunk streamId (objectInit reboxed object)) streamId base payload
      reboxed object

/-- The object brings nothing new: its sequence has been passed, and the stream has its kind and
its initialization. -/
def AlreadyRecorded (cache : LiveTsCache C) (streamId : UInt64) (reboxed : Option ReboxedLiveAudio)
    (object : MediaObject) : Prop :=
  (∃ next, cache.state.streamNextSeq.lookup streamId = some next ∧
    satAdd object.key.object.toNat 1 ≤ next) ∧
  cache.state.streamMediaKinds.lookup streamId = some (commitMediaKind reboxed object) ∧
  cache.HasInit streamId (objectInit reboxed object)

section Reboxed

variable {cache : LiveTsCache C} {streamId : UInt64} {payload : Bytes} {clock : CommitClock}
  {reboxed : Option ReboxedLiveAudio} {object : MediaObject}

/-- Storing fails exactly when the slot is refused. -/
theorem storeObject_fails_iff :
    (∃ error, (cache.storeObject streamId payload clock reboxed object).1 = .error error) ↔
      SlotRefused cache.chunkCache streamId
        (cache.state.streamSubscriptionBaseObject.lookup streamId) payload reboxed object := by
  rw [storeObject, SlotRefused]
  cases slotBytes streamId payload reboxed object with
  | error error => simp
  | ok bytes =>
      simp only [Except.ok.injEq, forall_eq']
      split
      · next err chunk hput => simp [hput]
      · next chunk hput => simp [hput]
      · next chunk hput => simp [hput]

/-- A refused store changes nothing readers see. -/
theorem view_storeObject_of_error (hC : LawfulChunkCache C) {error : String}
    (h : (cache.storeObject streamId payload clock reboxed object).1 = .error error) :
    (cache.storeObject streamId payload clock reboxed object).2.view streamId =
      cache.view streamId := by
  rw [storeObject] at h ⊢
  cases hbytes : slotBytes streamId payload reboxed object with
  | error error => rfl
  | ok bytes =>
      have hput := hC.put_refused cache.chunkCache streamId object.key.object.toNat
        ((cache.state.streamSubscriptionBaseObject.lookup streamId).getD object.key.object.toNat)
        bytes
      simp only [hbytes] at h ⊢
      split at h
      · next err chunk hresult =>
          rw [hresult] at hput
          obtain ⟨hslots, hinit⟩ := hput (by simp)
          simp only [view, hslots, hinit]
      · next chunk hresult =>
          rw [hresult] at hput
          obtain ⟨hslots, hinit⟩ := hput (by simp)
          simp only [view, hslots, hinit]
      · cases h

/-- What recording an object changes for readers. -/
theorem view_recordObject (bytes nowMs : Nat) :
    (cache.recordObject streamId bytes nowMs reboxed object).view streamId =
      { cache.view streamId with
        nextSeq := some (max ((cache.state.streamNextSeq.lookup streamId).getD 0)
          (satAdd object.key.object.toNat 1))
        kind := some (commitMediaKind reboxed object)
        init := (objectInit reboxed object).or (cache.state.streamInits.lookup streamId) } := by
  cases hinit : objectInit reboxed object with
  | none =>
      simp [view, recordObject, LiveState.observeStreamSeq, LiveState.recordIngest, hinit]
  | some init =>
      simp [view, recordObject, LiveState.observeStreamSeq, LiveState.recordIngest, hinit]

theorem commitReboxed_fails_iff :
    (∃ error, (cache.commitReboxed streamId payload clock reboxed object).1 = .error error) ↔
      Refused cache.chunkCache streamId (cache.state.streamSubscriptionBaseObject.lookup streamId)
        payload reboxed object := by
  rw [commitReboxed, Refused]
  have hstate := @state_writeInitialization C
    (cache.recordObject streamId payload.length clock.nowMs reboxed object) streamId
    (objectInit reboxed object) (initFailure reboxed)
  have hcases := @writeInitialization_cases C
    (cache.recordObject streamId payload.length clock.nowMs reboxed object) streamId
    (objectInit reboxed object) (initFailure reboxed)
  -- the initialization is refused, or the slot is written to the cache after it
  rcases hcases with ⟨hwritten, error, herror⟩ | ⟨hwritten, hok, hchunk⟩
  · have hnot : ¬ InitWritten cache.chunkCache streamId (objectInit reboxed object) := hwritten
    simp only [hnot, false_implies, iff_true]
    split
    · next error written _ => exact ⟨error, rfl⟩
    · next hresult =>
        rw [hresult] at herror
        cases herror
  · have hyes : InitWritten cache.chunkCache streamId (objectInit reboxed object) := hwritten
    simp only [hyes, true_implies]
    split
    · next hresult =>
        rw [hresult] at hok
        cases hok
    · next written hresult =>
        rw [hresult] at hstate hchunk
        by_cases hkind : object.kind = .media
        · rw [if_neg (not_not.mpr hkind), storeObject_fails_iff]
          simp only [hkind, true_and]
          dsimp only at hstate hchunk
          rw [hstate, hchunk]
          rfl
        · simp [hkind]

/-- What a refused commit leaves behind. -/
theorem view_commitReboxed_of_error (hC : LawfulChunkCache C) {error : String}
    (h : (cache.commitReboxed streamId payload clock reboxed object).1 = .error error) :
    (cache.commitReboxed streamId payload clock reboxed object).2.view streamId =
      cache.recordedView streamId
        (max ((cache.state.streamNextSeq.lookup streamId).getD 0)
          (satAdd object.key.object.toNat 1))
        (commitMediaKind reboxed object) (objectInit reboxed object) := by
  have hwrite := @view_writeInitialization C
    (cache.recordObject streamId payload.length clock.nowMs reboxed object) streamId hC
    (objectInit reboxed object) (initFailure reboxed)
  rw [view_recordObject] at hwrite
  refine Eq.trans ?_ hwrite
  rw [commitReboxed] at h ⊢
  split at h
  · next error written hresult => simp only [hresult]
  · next written hresult =>
      simp only [hresult]
      split at h
      · cases h
      next hkind =>
      rw [if_neg hkind]
      exact view_storeObject_of_error hC h

/-- A refused commit leaves the stream as it was exactly when it brings nothing new. -/
theorem commitReboxed_intact_iff (hC : LawfulChunkCache C) :
    (∀ error, (cache.commitReboxed streamId payload clock reboxed object).1 = .error error →
      (cache.commitReboxed streamId payload clock reboxed object).2.view streamId =
        cache.view streamId) ↔
    (Refused cache.chunkCache streamId (cache.state.streamSubscriptionBaseObject.lookup streamId)
      payload reboxed object → cache.AlreadyRecorded streamId reboxed object) := by
  have hnext : cache.state.streamNextSeq.lookup streamId =
      some (max ((cache.state.streamNextSeq.lookup streamId).getD 0)
        (satAdd object.key.object.toNat 1)) ↔
      ∃ next, cache.state.streamNextSeq.lookup streamId = some next ∧
        satAdd object.key.object.toNat 1 ≤ next := by
    cases cache.state.streamNextSeq.lookup streamId with
    | none => simp
    | some next => simp
  have hrecorded := @recordedView_eq_iff C cache streamId
    (max ((cache.state.streamNextSeq.lookup streamId).getD 0)
      (satAdd object.key.object.toNat 1)) (commitMediaKind reboxed object)
    (objectInit reboxed object)
  rw [hnext] at hrecorded
  rw [← @commitReboxed_fails_iff C cache streamId payload clock reboxed object]
  -- a refused commit has recorded the object, so it shows unless it brings nothing new
  constructor
  · rintro hintact ⟨error, herror⟩
    exact hrecorded.mp ((view_commitReboxed_of_error hC herror).symm.trans (hintact error herror))
  · intro hkept error herror
    rw [view_commitReboxed_of_error hC herror]
    exact hrecorded.mpr (hkept ⟨error, herror⟩)

end Reboxed

/-! ## §4. Canonical objects. -/

/-- A commit of this object leaves the stream alone if it fails: the object is not admitted; or its
epoch is the current one and a refused write would bring nothing new; or it opens an epoch and
every step after that succeeds. -/
def ObjectKept (cache : LiveTsCache C) (K : SoundkitCrate) (streamId : UInt64) (payload : Bytes)
    (object : MediaObject) : Prop :=
  cache.admitObject streamId object = .ok () →
    if cache.state.streamCanonicalEpoch.lookup streamId = some object.key.epoch.toNat then
      ∀ reboxed, reboxedAudio K object = .ok reboxed →
        Refused cache.chunkCache streamId
          (cache.state.streamSubscriptionBaseObject.lookup streamId) payload reboxed object →
        cache.AlreadyRecorded streamId reboxed object
    else
      ∃ reboxed, reboxedAudio K object = .ok reboxed ∧
        ¬ Refused (C.zeroStreamId cache.chunkCache streamId) streamId none payload reboxed object

section Object

variable {cache : LiveTsCache C} {K : SoundkitCrate} {streamId : UInt64} {payload : Bytes}
  {clock : CommitClock} {object : MediaObject}

/-- A new epoch shows in the view. -/
theorem epoch_activateEpoch {sourceEpoch nowUs : Nat}
    (h : cache.state.streamCanonicalEpoch.lookup streamId ≠ some sourceEpoch) :
    (cache.activateEpoch streamId sourceEpoch nowUs).state.streamCanonicalEpoch.lookup streamId =
        some sourceEpoch ∧
    (cache.activateEpoch streamId sourceEpoch nowUs).state.streamSubscriptionBaseObject.lookup
        streamId = none ∧
    (cache.activateEpoch streamId sourceEpoch nowUs).chunkCache =
      C.zeroStreamId cache.chunkCache streamId := by
  rw [activateEpoch]
  simp only [if_neg h]
  by_cases hstream : streamId = cache.streamId
  · subst hstream
    simp [resetStream]
  · simp [hstream, resetStream]

/-- The epoch a refused commit leaves recorded is the one it was given. -/
theorem epoch_commitReboxed_of_error (hC : LawfulChunkCache C) {reboxed : Option ReboxedLiveAudio}
    {error : String}
    (h : (cache.commitReboxed streamId payload clock reboxed object).1 = .error error) :
    ((cache.commitReboxed streamId payload clock reboxed object).2.view streamId).epoch =
      cache.state.streamCanonicalEpoch.lookup streamId := by
  rw [view_commitReboxed_of_error hC h]
  rfl

theorem commitObject_intact_iff (hC : LawfulChunkCache C) :
    (∀ error, (cache.commitObject K streamId payload clock object).1 = .error error →
      (cache.commitObject K streamId payload clock object).2.view streamId =
        cache.view streamId) ↔
    cache.ObjectKept K streamId payload object := by
  rw [commitObject, ObjectKept]
  cases hadmitted : cache.admitObject streamId object with
  | error error => simp
  | ok _ =>
      simp only [true_implies]
      by_cases hepoch : cache.state.streamCanonicalEpoch.lookup streamId =
          some object.key.epoch.toNat
      · -- The epoch is current: only the recording of the object can show.
        have hsame : cache.activateEpoch streamId object.key.epoch.toNat clock.activationUs =
            cache := if_pos hepoch
        rw [if_pos hepoch, hsame]
        cases hreboxed : reboxedAudio K object with
        | error error => simp
        | ok reboxed =>
            rw [commitReboxed_intact_iff hC]
            simp
      · -- A new epoch: the old one is gone, so any later failure shows.
        rw [if_neg hepoch]
        obtain ⟨hnew, hbase, hchunk⟩ :=
          @epoch_activateEpoch C cache streamId _ clock.activationUs hepoch
        cases hreboxed : reboxedAudio K object with
        | error error =>
            simp only [Except.error.injEq, reduceCtorEq, false_and, exists_false, iff_false]
            intro hintact
            have hview := congrArg StreamView.epoch (hintact error rfl)
            exact hepoch (hview.symm.trans hnew)
        | ok reboxed =>
            simp only [Except.ok.injEq, exists_eq_left']
            have hfails := @commitReboxed_fails_iff C
              (cache.activateEpoch streamId object.key.epoch.toNat clock.activationUs) streamId
              payload clock reboxed object
            rw [hbase, hchunk] at hfails
            rw [← hfails]
            constructor
            · rintro hintact ⟨error, herror⟩
              have hview := congrArg StreamView.epoch (hintact error herror)
              rw [epoch_commitReboxed_of_error hC herror, hnew] at hview
              exact hepoch hview.symm
            · intro hsucceeds error herror
              exact absurd ⟨error, herror⟩ hsucceeds

end Object

/-! ## §5. Plain payloads. -/

/-- A write of a plain payload fails: its initialization, or its slot. -/
def PlainRefused (chunk : C.Cache) (streamId : UInt64) (seq : Nat) (payload : Bytes)
    (init : Option Bytes) : Prop :=
  InitWritten chunk streamId init →
    ∃ err, (C.addForStreamId (chunkAfterInit chunk streamId init) streamId seq payload).1 =
      .error err

/-- A commit of these plain bytes leaves the stream alone if it fails: the sequence is exhausted
and the stream has their kind and initialization. -/
def PlainKept (cache : LiveTsCache C) (M : MediaObjectCrate) (streamId : UInt64)
    (payload : Bytes) : Prop :=
  PlainRefused cache.chunkCache streamId ((cache.state.streamNextSeq.lookup streamId).getD 0)
      payload (LiveSlotPayload.decode M payload).init →
    cache.state.streamNextSeq.lookup streamId = some u64Max ∧
    cache.state.streamMediaKinds.lookup streamId =
      some (LiveSlotPayload.decode M payload).mediaKind ∧
    cache.HasInit streamId (LiveSlotPayload.decode M payload).init

section Plain

variable {cache : LiveTsCache C} {M : MediaObjectCrate} {streamId : UInt64} {payload : Bytes}
  {clock : CommitClock}

theorem view_recordPlain (bytes nowMs : Nat) (decoded : LiveSlotPayload) :
    (cache.recordPlain streamId bytes nowMs decoded).2.view streamId =
      { cache.view streamId with
        nextSeq := some (satAdd ((cache.state.streamNextSeq.lookup streamId).getD 0) 1)
        kind := some decoded.mediaKind
        init := decoded.init.or (cache.state.streamInits.lookup streamId) } := by
  cases hinit : decoded.init with
  | none =>
      simp [view, recordPlain, LiveState.nextStreamSeq, LiveState.recordIngest, hinit]
  | some init =>
      simp [view, recordPlain, LiveState.nextStreamSeq, LiveState.recordIngest, hinit]

/-- A plain commit fails exactly when one of its writes does, and leaves what was recorded. -/
theorem commitPlain_spec (hC : LawfulChunkCache C) :
    ((∃ error, (cache.commitPlain M streamId payload clock).1 = .error error) ↔
      PlainRefused cache.chunkCache streamId ((cache.state.streamNextSeq.lookup streamId).getD 0)
        payload (LiveSlotPayload.decode M payload).init) ∧
    ∀ error, (cache.commitPlain M streamId payload clock).1 = .error error →
      (cache.commitPlain M streamId payload clock).2.view streamId =
        cache.recordedView streamId
          (satAdd ((cache.state.streamNextSeq.lookup streamId).getD 0) 1)
          (LiveSlotPayload.decode M payload).mediaKind (LiveSlotPayload.decode M payload).init := by
  rw [commitPlain, PlainRefused]
  -- only the decoded kind and initialization matter from here
  generalize LiveSlotPayload.decode M payload = decoded
  have hseq : (cache.recordPlain streamId payload.length clock.nowMs decoded).1 =
      (cache.state.streamNextSeq.lookup streamId).getD 0 := rfl
  have hrecord := @view_recordPlain C cache streamId payload.length clock.nowMs decoded
  have hchunk : (cache.recordPlain streamId payload.length clock.nowMs decoded).2.chunkCache =
      cache.chunkCache := rfl
  generalize cache.recordPlain streamId payload.length clock.nowMs decoded = recorded at *
  obtain ⟨seq, recorded⟩ := recorded
  dsimp only at hseq hrecord hchunk ⊢
  have hview := @view_writeInitialization C recorded streamId hC decoded.init (initFailure none)
  rw [hrecord, hchunk] at hview
  have hcases := @writeInitialization_cases C recorded streamId decoded.init (initFailure none)
  rw [hchunk] at hcases
  generalize recorded.writeInitialization streamId decoded.init (initFailure none) = written at *
  obtain ⟨result, written⟩ := written
  dsimp only at hview hcases
  rcases hcases with ⟨hwritten, error, rfl⟩ | ⟨hwritten, rfl, hafter⟩
  · refine ⟨?_, ?_⟩
    · simp [hwritten]
    · rintro _ -
      exact hview
  · simp only [hwritten, true_implies]
    subst hseq
    have hadd := hC.add_error written.chunkCache streamId
      ((cache.state.streamNextSeq.lookup streamId).getD 0) payload
    rw [← hafter]
    cases hput : C.addForStreamId written.chunkCache streamId
        ((cache.state.streamNextSeq.lookup streamId).getD 0) payload with
    | mk result chunk =>
        cases result with
        | ok _ => simp
        | error err =>
            obtain ⟨hslots, hread⟩ := hadd err (by rw [hput])
            rw [hput] at hslots hread
            refine ⟨by simp, ?_⟩
            rintro _ -
            refine Eq.trans ?_ hview
            simp only [view, hslots, hread]

theorem eq_satAdd_one_iff {n : Nat} : n = satAdd n 1 ↔ n = u64Max := by
  simp only [satAdd]
  omega

theorem commitPlain_intact_iff (hC : LawfulChunkCache C) :
    (∀ error, (cache.commitPlain M streamId payload clock).1 = .error error →
      (cache.commitPlain M streamId payload clock).2.view streamId = cache.view streamId) ↔
    cache.PlainKept M streamId payload := by
  obtain ⟨hfails, hview⟩ := @commitPlain_spec C cache M streamId payload clock hC
  have hnext : cache.state.streamNextSeq.lookup streamId =
      some (satAdd ((cache.state.streamNextSeq.lookup streamId).getD 0) 1) ↔
      cache.state.streamNextSeq.lookup streamId = some u64Max := by
    cases cache.state.streamNextSeq.lookup streamId with
    | none => simp
    | some next => simp [eq_satAdd_one_iff]
  have hrecorded := @recordedView_eq_iff C cache streamId
    (satAdd ((cache.state.streamNextSeq.lookup streamId).getD 0) 1)
    (LiveSlotPayload.decode M payload).mediaKind (LiveSlotPayload.decode M payload).init
  rw [hnext] at hrecorded
  rw [PlainKept, ← hfails]
  constructor
  · rintro hintact ⟨error, herror⟩
    exact hrecorded.mp ((hview error herror).symm.trans (hintact error herror))
  · intro hkept error herror
    rw [hview error herror]
    exact hrecorded.mpr (hkept ⟨error, herror⟩)

end Plain

/-! ## §6. Every commit. -/

/-- The commits whose failure leaves the stream alone. -/
def CommitKept (cache : LiveTsCache C) (M : MediaObjectCrate) (K : SoundkitCrate)
    (streamId : UInt64) (payload : Bytes) (validatedObject : Option MediaObject) : Prop :=
  match canonicalObject M payload validatedObject with
  | .error _ => True
  | .ok (some object) => cache.ObjectKept K streamId payload object
  | .ok none => cache.PlainKept M streamId payload

theorem commitInner_intact_iff (hC : LawfulChunkCache C) {cache : LiveTsCache C}
    {M : MediaObjectCrate} {K : SoundkitCrate} {streamId : UInt64} {payload : Bytes}
    {validatedObject : Option MediaObject} {clock : CommitClock} :
    (∀ error, (cache.commitStreamPayloadInner M K streamId payload validatedObject clock).1 =
        .error error →
      (cache.commitStreamPayloadInner M K streamId payload validatedObject clock).2.view streamId =
        cache.view streamId) ↔
    cache.CommitKept M K streamId payload validatedObject := by
  rw [commitStreamPayloadInner, CommitKept]
  cases canonicalObject M payload validatedObject with
  | error error => simp
  | ok found =>
      cases found with
      | none => exact commitPlain_intact_iff hC
      | some object => exact commitObject_intact_iff hC

/-- **A failed commit leaves the stream intact exactly when it fails early or brings nothing new.**
For every state, stream and payload, of a payload that the call decodes itself and of one that
comes with its validated object. -/
theorem commit_intact_iff (hC : LawfulChunkCache C) (cache : LiveTsCache C) (M : MediaObjectCrate)
    (K : SoundkitCrate) (streamId : UInt64) (payload : Bytes) (clock : CommitClock) :
    ((∀ error, (cache.commitStreamPayload M K streamId payload clock).1 = .error error →
        (cache.commitStreamPayload M K streamId payload clock).2.view streamId =
          cache.view streamId) ↔
      cache.CommitKept M K streamId payload none) ∧
    ∀ object,
      (∀ error, (cache.commitValidatedStreamPayload M K streamId payload object clock).1 =
          .error error →
        (cache.commitValidatedStreamPayload M K streamId payload object clock).2.view streamId =
          cache.view streamId) ↔
      cache.CommitKept M K streamId payload (some object) :=
  ⟨commitInner_intact_iff hC, fun _ => commitInner_intact_iff hC⟩

/-- A chunk cache of plain tables. -/
structure SampleChunks where
  slots : Table UInt64 (List (Nat × Bytes))
  inits : Table UInt64 Bytes

def sampleChunkCache : ChunkCacheCrate where
  Cache := SampleChunks
  Slots := List (Nat × Bytes)
  slots := fun chunk streamId => (chunk.slots.lookup streamId).getD []
  initialization := fun chunk streamId => chunk.inits.lookup streamId
  zeroStreamId := fun chunk streamId => ⟨chunk.slots.erase streamId, chunk.inits.erase streamId⟩
  setStreamInitialization := fun chunk streamId init =>
    (.ok (), { chunk with inits := chunk.inits.insert streamId init })
  putIfAbsentContiguous := fun chunk streamId slot _ bytes =>
    let stored := (chunk.slots.lookup streamId).getD []
    match stored.lookup slot with
    | some present =>
        if present = bytes then (.ok .present, chunk) else (.ok .hashConflict, chunk)
    | none =>
        (.ok .present, { chunk with slots := chunk.slots.insert streamId ((slot, bytes) :: stored) })
  addForStreamId := fun chunk streamId slot bytes =>
    let stored := (chunk.slots.lookup streamId).getD []
    (.ok (), { chunk with slots := chunk.slots.insert streamId ((slot, bytes) :: stored) })

theorem sampleChunkCache_lawful : LawfulChunkCache sampleChunkCache where
  set_error := by
    intro chunk streamId init err h
    cases h
  set_ok := by
    intro chunk streamId init _
    simp [sampleChunkCache]
  put_refused := by
    intro chunk streamId slot base bytes h
    simp only [sampleChunkCache] at h ⊢
    split
    · split
      · exact ⟨rfl, rfl⟩
      · exact ⟨rfl, rfl⟩
    · next hlookup =>
        rw [hlookup] at h
        exact absurd rfl h
  add_error := by
    intro chunk streamId slot bytes err h
    cases h

/-- A cache with one stored part of the given epoch of stream 87. -/
def sampleCache (epoch : Nat) : LiveTsCache sampleChunkCache where
  chunkCache := ⟨AList.insert 87 [(3, [1])] ∅, ∅⟩
  streamId := 1
  windowParts := 6
  state := { LiveState.new 0 with
    streamCanonicalEpoch := AList.insert 87 epoch ∅
    streamNextSeq := AList.insert 87 4 ∅
    streamMediaKinds := AList.insert 87 .fmp4 ∅
    streamLatestCanonicalObject := AList.insert 87 3 ∅
    streamSubscriptionBaseObject := AList.insert 87 3 ∅ }
  partUpdates := 3

/-- An envelope whose payload is not the fMP4 slot its metadata announces. -/
def malformedEnvelope : Bytes := asBytes "OBJ1" ++ [1, 2, 3]

/-- An object of an older epoch than the current one is refused and nothing changes. -/
theorem commit_intact_iff_stale :
    ((sampleCache 50).commitStreamPayload sampleCrate sampleSoundkit 87 malformedEnvelope
      ⟨100, 0, 100⟩).2.view 87 = (sampleCache 50).view 87 :=
  (commit_intact_iff sampleChunkCache_lawful (sampleCache 50) sampleCrate sampleSoundkit 87
    malformedEnvelope ⟨100, 0, 100⟩).1.mpr (fun h => nomatch h) _ rfl

/-- A malformed object of a NEW epoch is refused, and the stream it was refused by is gone. -/
theorem malformedObject_empties_stream :
    ¬ ∀ error, ((sampleCache 41).commitStreamPayload sampleCrate sampleSoundkit 87
          malformedEnvelope ⟨100, 0, 100⟩).1 = .error error →
        ((sampleCache 41).commitStreamPayload sampleCrate sampleSoundkit 87
          malformedEnvelope ⟨100, 0, 100⟩).2.view 87 = (sampleCache 41).view 87 := by
  intro hintact
  have hview := congrArg StreamView.latest
    (hintact "canonical fMP4 slot has an invalid header" rfl)
  have hlost : ((sampleCache 41).commitStreamPayload sampleCrate sampleSoundkit 87
      malformedEnvelope ⟨100, 0, 100⟩).2.state.streamLatestCanonicalObject.lookup 87 = none := rfl
  have hhad : (sampleCache 41).state.streamLatestCanonicalObject.lookup 87 = some 3 := rfl
  exact absurd (hlost.symm.trans (hview.trans hhad)) (by simp)

end LiveTsCache

end AvMesh.LiveCache
