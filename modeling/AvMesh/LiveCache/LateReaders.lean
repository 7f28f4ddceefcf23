/-
  AvMesh.LiveCache.LateReaders
  ────────────────────────────
  **WHAT READERS PUBLISH**, while commits switch the epoch of the stream.

  A reader finds an initialization in a slot or in the chunk cache and then
  publishes it with `remember_stream_init`: first in the live state, then in
  the chunk cache.  It holds no lock, so a commit may run in between; when that
  commit switches the epoch, the reader brings back what the switch has wiped
  (`late_initialization`).  As long as no reader is late (`Timely`), an
  initialization that is found was carried by an object of the epoch of the
  last commit or a later one.
-/
import AvMesh.LiveCache.Epochs

namespace AvMesh.LiveCache

open AvMesh.Lib

variable {C : ChunkCacheCrate}

/-! ## §1. Where initializations are. -/

/-- Where a reader finds an initialization that it publishes. -/
inductive InitSource where
  | slot (seq : Nat)
  | initialization

/-- The initialization that a reader finds there. -/
def readInit (R : ChunkCacheReads C) (M : MediaObjectCrate) (streamId : UInt64)
    (chunk : C.Cache) : InitSource → Option Bytes
  | .slot seq => (R.getForStreamId chunk streamId seq).bind fun bytes =>
      (LiveSlotPayload.decodeForStream M bytes streamId).init
  | .initialization => C.initialization chunk streamId

/-- The commit carries this initialization: its object brings it, or the slot it stores has it. -/
def MediaCommit.Carries (M : MediaObjectCrate) (K : SoundkitCrate) (streamId : UInt64)
    (c : MediaCommit) (init : Bytes) : Prop :=
  ∃ reboxed, reboxedAudio K c.object = .ok reboxed ∧
    (objectInit reboxed c.object = some init ∨
      ∃ bytes, slotBytes streamId c.payload reboxed c.object = .ok bytes ∧
        (LiveSlotPayload.decodeForStream M bytes streamId).init = some init)

/-- The laws of the chunk cache about the initialization of a stream and its slots. -/
structure LawfulInits (R : ChunkCacheReads C) : Prop extends LawfulSlots R where
  for_stream : ∀ chunk streamId slot, R.getForStreamId chunk streamId slot =
    (R.getStreamIdx chunk streamId).bind fun idx => R.get chunk idx slot
  zero_initialization : ∀ chunk streamId,
    C.initialization (C.zeroStreamId chunk streamId) streamId = none
  set_initialization : ∀ chunk streamId init found,
    C.initialization (C.setStreamInitialization chunk streamId init).2 streamId = some found →
      C.initialization chunk streamId = some found ∨ found = init
  put_initialization : ∀ chunk streamId slot base bytes,
    C.initialization (C.putIfAbsentContiguous chunk streamId slot base bytes).2 streamId =
      C.initialization chunk streamId
  put_content : ∀ chunk streamId slot base bytes other found,
    R.getForStreamId (C.putIfAbsentContiguous chunk streamId slot base bytes).2 streamId other =
      some found → R.getForStreamId chunk streamId other = some found ∨ found = bytes

/-- The reboxed audio that a commit has with it at this point. -/
def CommitPoint.reboxed? : CommitPoint → Option (Option ReboxedLiveAudio)
  | .initializing reboxed | .storing reboxed | .finishing reboxed _ => some reboxed
  | _ => none

/-! ## §2. Commits and readers of one stream. -/

/-- A reader goes on with the live state, then with the chunk cache. -/
inductive PublishPoint where
  | state
  | chunkCache
  deriving DecidableEq

/-- A reader that has found an initialization, and which epoch the stream had then. -/
structure InitReader where
  init : Bytes
  seen : Option Nat
  point : PublishPoint

/-- The cache, the commit that holds the lock of the stream, and the readers.  It is noted which
commits began, and which returned after the check of their epoch. -/
structure InitTasks (C : ChunkCacheCrate) where
  cache : HlsCache C
  commit : Option (MediaCommit × CommitPoint)
  readers : Table Nat InitReader
  begun : List MediaCommit
  returned : List MediaCommit

inductive InitEvent where
  | beginCommit (commit : MediaCommit)
  | advance
  | read (reader : Nat) (source : InitSource)
  | publish (reader : Nat)

def InitEvent.isPublish : InitEvent → Bool
  | .publish _ => true
  | _ => false

namespace InitTasks

def recorded (sys : InitTasks C) (streamId : UInt64) : Option Nat :=
  sys.cache.state.streamCanonicalEpoch.lookup streamId

/-- The epoch the chunk cache is for: once a commit has zeroed it, the epoch of that commit. -/
def inForce (sys : InitTasks C) (streamId : UInt64) : Option Nat :=
  match sys.commit with
  | some (c, .resetting _) => some c.object.key.epoch.toNat
  | _ => sys.recorded streamId

end InitTasks

section Step

variable (R : ChunkCacheReads C) (M : MediaObjectCrate) (K : SoundkitCrate) (streamId : UInt64)

def initStep (sys : InitTasks C) : InitEvent → Unit × InitTasks C
  | .beginCommit commit =>
      ((), if sys.commit.isNone then
        { sys with commit := some (commit, .locked), begun := commit :: sys.begun } else sys)
  | .advance =>
      match sys.commit with
      | none => ((), sys)
      | some (commit, point) =>
          let (live, outcome) := sys.cache.toLiveTsCache.commitAct K streamId commit point
          ((), { sys with
            cache := { sys.cache with toLiveTsCache := live }
            commit := match outcome with
              | .inl _ => none
              | .inr next => some (commit, next)
            returned := match outcome, point with
              | .inl _, .locked => sys.returned
              | .inl _, _ => commit :: sys.returned
              | .inr _, _ => sys.returned })
  | .read reader source =>
      ((), match readInit R M streamId sys.cache.chunkCache source with
        | some init =>
            if reader ∈ sys.readers then sys
            else { sys with
              readers := sys.readers.insert reader ⟨init, sys.inForce streamId, .state⟩ }
        | none => sys)
  | .publish reader =>
      ((), match sys.readers.lookup reader with
        | none => sys
        | some ⟨init, seen, .state⟩ =>
            let state := sys.cache.state
            { sys with
              cache := { sys.cache with
                state := { state with streamInits := state.streamInits.insert streamId init } }
              readers := sys.readers.replace reader ⟨init, seen, .chunkCache⟩ }
        | some ⟨init, _, .chunkCache⟩ =>
            { sys with
              cache := { sys.cache with
                chunkCache := (C.setStreamInitialization sys.cache.chunkCache streamId init).2 }
              readers := sys.readers.erase reader })

/-- A commit of this epoch or a later one carried the initialization. -/
def InitTasks.CarriedSince (sys : InitTasks C) (epoch : Nat) (init : Bytes) : Prop :=
  ∃ c ∈ sys.begun, epoch ≤ c.object.key.epoch.toNat ∧ c.Carries M K streamId init

/-- A reader that publishes is in time: the epoch is the one it has read from, or has carried the
same initialization again. -/
def InitTasks.Timely (sys : InitTasks C) : InitEvent → Prop
  | .publish id => ∀ reader, sys.readers.lookup id = some reader →
      let epoch := match reader.point with
        | .state => sys.recorded streamId
        | .chunkCache => sys.inForce streamId
      reader.seen = epoch ∨ ∀ e, epoch = some e → sys.CarriedSince M K streamId e reader.init
  | _ => True

/-- **Nothing stale**: what is found in the live state or in the chunk cache was carried by an
object of the epoch that is current there. -/
structure InitTasks.Current (sys : InitTasks C) : Prop where
  state : ∀ init, sys.cache.state.streamInits.lookup streamId = some init →
    ∀ e, sys.recorded streamId = some e → sys.CarriedSince M K streamId e init
  chunk : ∀ source init, readInit R M streamId sys.cache.chunkCache source = some init →
    ∀ e, sys.inForce streamId = some e → sys.CarriedSince M K streamId e init
  readers : ∀ id reader, sys.readers.lookup id = some reader →
    ∀ e, reader.seen = some e → sys.CarriedSince M K streamId e reader.init
  point : ∀ c point, sys.commit = some (c, point) → c ∈ sys.begun ∧
    AtPoint R sys.cache.toLiveTsCache (.commit streamId c point) ∧
    ∀ reboxed, point.reboxed? = some reboxed → reboxedAudio K c.object = .ok reboxed
  returned : ∀ c ∈ sys.returned, ∃ e, sys.recorded streamId = some e ∧
    c.object.key.epoch.toNat ≤ e

end Step

/-! ## §3. What a step of a commit brings. -/

section Brings

variable {R : ChunkCacheReads C} {M : MediaObjectCrate} {K : SoundkitCrate} {streamId : UInt64}
  {c : MediaCommit} {cache after : LiveTsCache C}

theorem inits_finishObject {cachedBytes : Nat} {clock : CommitClock}
    {reboxed : Option ReboxedLiveAudio} {object : MediaObject} :
    (LiveTsCache.finishObject cache streamId cachedBytes clock reboxed object).state.streamInits =
      cache.state.streamInits := by
  rw [LiveTsCache.finishObject]
  cases mediaDurationMs reboxed object <;> simp only [LiveState.recordPartAvailable] <;> split <;>
    cases object.isKeyframe <;> cases commitMediaKind reboxed object <;> rfl

theorem inits_resetEpoch {sourceEpoch nowUs : Nat} {previous : Option Nat} :
    (cache.resetEpoch streamId sourceEpoch previous nowUs).state.streamInits.lookup streamId =
      none := by
  rw [LiveTsCache.resetEpoch]
  by_cases hdefault : streamId = cache.streamId
  · simp only [if_pos hdefault, LiveTsCache.resetStream, AList.lookup_erase]
  · simp only [if_neg hdefault, LiveTsCache.resetStream, AList.lookup_erase]

/-- The initializations that are there were there before, or the commit carries them. -/
structure BringsInits (R : ChunkCacheReads C) (M : MediaObjectCrate) (K : SoundkitCrate)
    (streamId : UInt64) (c : MediaCommit) (cache after : LiveTsCache C) : Prop where
  state : ∀ init, after.state.streamInits.lookup streamId = some init →
    cache.state.streamInits.lookup streamId = some init ∨ c.Carries M K streamId init
  chunk : ∀ source init, readInit R M streamId after.chunkCache source = some init →
    readInit R M streamId cache.chunkCache source = some init ∨ c.Carries M K streamId init

theorem BringsInits.refl (cache : LiveTsCache C) : BringsInits R M K streamId c cache cache :=
  ⟨fun _ h => Or.inl h, fun _ _ h => Or.inl h⟩

theorem BringsInits.of_state (hchunk : after.chunkCache = cache.chunkCache)
    (hstate : ∀ init, after.state.streamInits.lookup streamId = some init →
      cache.state.streamInits.lookup streamId = some init ∨ c.Carries M K streamId init) :
    BringsInits R M K streamId c cache after := by
  refine ⟨hstate, fun source init h => Or.inl ?_⟩
  rwa [hchunk] at h

/-- What readers find after an initialization has been set. -/
theorem readInit_set (hR : LawfulInits R) {chunk : C.Cache} {init found : Bytes}
    {source : InitSource}
    (h : readInit R M streamId (C.setStreamInitialization chunk streamId init).2 source =
      some found) :
    readInit R M streamId chunk source = some found ∨ found = init := by
  cases source with
  | slot seq =>
      rw [readInit, hR.init_slots] at h
      exact Or.inl h
  | initialization => exact hR.set_initialization chunk streamId init found h

/-- What readers find after a put. -/
theorem readInit_put (hR : LawfulInits R) {chunk : C.Cache} {slot base : Nat}
    {bytes found : Bytes} {source : InitSource}
    (h : readInit R M streamId (C.putIfAbsentContiguous chunk streamId slot base bytes).2 source =
      some found) :
    readInit R M streamId chunk source = some found ∨
      (LiveSlotPayload.decodeForStream M bytes streamId).init = some found := by
  cases source with
  | slot seq =>
      rw [readInit, Option.bind_eq_some_iff] at h
      obtain ⟨content, hcontent, hinit⟩ := h
      rcases hR.put_content _ _ _ _ _ _ _ hcontent with hold | rfl
      · left
        rw [readInit, hold]
        exact hinit
      · exact Or.inr hinit
  | initialization =>
      rw [readInit, hR.put_initialization] at h
      exact Or.inl h

theorem readInit_zero (hR : LawfulInits R) (chunk : C.Cache) (source : InitSource) :
    readInit R M streamId (C.zeroStreamId chunk streamId) source = none := by
  cases source with
  | slot seq =>
      rw [readInit, hR.zero_slots]
      rfl
  | initialization => exact hR.zero_initialization chunk streamId

/-- **From the activation on** a commit brings the initializations it carries. -/
theorem bringsInits_commitAct (hR : LawfulInits R) {point : CommitPoint}
    (hpoint : ∀ previous, point ≠ .zeroing previous ∧ point ≠ .resetting previous)
    (hreboxed : ∀ reboxed, point.reboxed? = some reboxed →
      reboxedAudio K c.object = .ok reboxed) :
    BringsInits R M K streamId c cache (cache.commitAct K streamId c point).1 := by
  cases point with
  | zeroing previous => exact absurd rfl (hpoint previous).1
  | resetting previous => exact absurd rfl (hpoint previous).2
  | locked =>
      rw [LiveTsCache.fst_commitAct_locked]
      exact BringsInits.refl _
  | recording =>
      rw [LiveTsCache.commitAct]
      split
      · exact BringsInits.refl _
      · next reboxed hok =>
          refine .of_state rfl fun init h => ?_
          simp only [LiveTsCache.recordObject, LiveState.recordIngest,
            LiveState.observeStreamSeq] at h
          split at h
          · next brought hinit =>
              rw [AList.lookup_insert] at h
              cases h
              exact Or.inr ⟨reboxed, hok, Or.inl hinit⟩
          · exact Or.inl h
  | initializing reboxed =>
      have hok := hreboxed reboxed rfl
      rw [LiveTsCache.fst_commitAct_initializing]
      cases hinit : objectInit reboxed c.object with
      | none => exact BringsInits.refl _
      | some init =>
          have hcarries : c.Carries M K streamId init := ⟨reboxed, hok, Or.inl hinit⟩
          refine ⟨fun _ h => Or.inl h, fun source found h => ?_⟩
          rcases readInit_set hR h with hold | rfl
          · exact Or.inl hold
          · exact Or.inr hcarries
  | storing reboxed =>
      have hok := hreboxed reboxed rfl
      rcases @LiveTsCache.fst_commitAct_storing C K cache streamId c reboxed with
        hsame | ⟨base, bytes, hbytes, hput⟩
      · rw [hsame]
        exact BringsInits.refl _
      · rw [hput]
        refine ⟨fun _ h => Or.inl h, fun source found h => ?_⟩
        rcases readInit_put hR h with hold | hinit
        · exact Or.inl hold
        · exact Or.inr ⟨reboxed, hok, Or.inr ⟨bytes, hbytes, hinit⟩⟩
  | finishing reboxed cachedBytes =>
      refine .of_state rfl fun init h => Or.inl ?_
      rw [← @inits_finishObject C streamId cache cachedBytes c.clock reboxed c.object]
      exact h

theorem zeroing_of_resetting {point : CommitPoint} {previous : Option Nat}
    (h : (cache.commitAct K streamId c point).2 = .inr (.resetting previous)) :
    ∃ previous, point = .zeroing previous := by
  cases point with
  | zeroing previous => exact ⟨previous, rfl⟩
  | locked =>
      rw [LiveTsCache.commitAct] at h
      split at h
      · cases h
      · dsimp only at h
        split at h <;> cases h
  | resetting previous => cases h
  | recording =>
      rw [LiveTsCache.commitAct] at h
      split at h <;> cases h
  | initializing reboxed =>
      rw [LiveTsCache.commitAct] at h
      split at h
      · cases h
      · split at h <;> cases h
  | storing reboxed =>
      rw [LiveTsCache.commitAct] at h
      split at h
      · cases h
      · split at h <;> cases h
  | finishing reboxed cachedBytes => cases h

/-- The reboxed audio that a commit takes along is that of its object. -/
theorem reboxed?_commitAct {point next : CommitPoint}
    (hreboxed : ∀ reboxed, point.reboxed? = some reboxed → reboxedAudio K c.object = .ok reboxed)
    (hnext : (cache.commitAct K streamId c point).2 = .inr next) {reboxed : Option ReboxedLiveAudio}
    (h : next.reboxed? = some reboxed) : reboxedAudio K c.object = .ok reboxed := by
  cases point with
  | locked =>
      rw [LiveTsCache.commitAct] at hnext
      split at hnext
      · cases hnext
      · dsimp only at hnext
        split at hnext <;> cases hnext <;> cases h
  | zeroing previous =>
      cases hnext
      cases h
  | resetting previous =>
      cases hnext
      cases h
  | recording =>
      rw [LiveTsCache.commitAct] at hnext
      split at hnext
      · cases hnext
      · next hok =>
          cases hnext
          cases h
          exact hok
  | initializing reboxed' =>
      rw [LiveTsCache.commitAct] at hnext
      split at hnext
      · cases hnext
      · split at hnext
        · cases hnext
        · cases hnext
          exact hreboxed reboxed h
  | storing reboxed' =>
      rw [LiveTsCache.commitAct] at hnext
      split at hnext
      · cases hnext
      · split at hnext
        · cases hnext
        · cases hnext
        · cases hnext
          exact hreboxed reboxed h
  | finishing reboxed' cachedBytes => cases hnext

end Brings

/-! ## §4. Every step in time keeps it. -/

section Steps

variable {R : ChunkCacheReads C} {M : MediaObjectCrate} {K : SoundkitCrate} {streamId : UInt64}
  {sys : InitTasks C}

theorem InitTasks.CarriedSince.mono {epoch epoch' : Nat} {init : Bytes}
    (h : sys.CarriedSince M K streamId epoch init) (hle : epoch' ≤ epoch) :
    sys.CarriedSince M K streamId epoch' init := by
  obtain ⟨c, hc, hepoch, hcarries⟩ := h
  exact ⟨c, hc, hle.trans hepoch, hcarries⟩

/-- The commit takes a step: what is to be shown of the cache after it. -/
theorem InitTasks.Current.advance_of (hR : LawfulInits R) (h : sys.Current R M K streamId)
    {c : MediaCommit} {point : CommitPoint} (hcommit : sys.commit = some (c, point))
    {live : LiveTsCache C} (hlive : (sys.cache.toLiveTsCache.commitAct K streamId c point).1 = live)
    (hstate : ∀ init, live.state.streamInits.lookup streamId = some init →
      ∀ e, live.state.streamCanonicalEpoch.lookup streamId = some e →
        sys.CarriedSince M K streamId e init)
    (hchunk : ∀ source init, readInit R M streamId live.chunkCache source = some init →
      (∀ e, live.state.streamCanonicalEpoch.lookup streamId = some e →
        sys.CarriedSince M K streamId e init) ∧
      ∀ previous, (sys.cache.toLiveTsCache.commitAct K streamId c point).2 =
        .inr (.resetting previous) → sys.CarriedSince M K streamId c.object.key.epoch.toNat init)
    (hrecorded : ∀ e, sys.recorded streamId = some e →
      ∃ e', live.state.streamCanonicalEpoch.lookup streamId = some e' ∧ e ≤ e')
    (hdone : point ≠ .locked → ∀ result,
      (sys.cache.toLiveTsCache.commitAct K streamId c point).2 = .inl result →
      live.state.streamCanonicalEpoch.lookup streamId = some c.object.key.epoch.toNat) :
    (initStep R M K streamId sys .advance).2.Current R M K streamId := by
  obtain ⟨hbegun, hat, hreboxed⟩ := h.point c point hcommit
  have hnext : ∀ next, (sys.cache.toLiveTsCache.commitAct K streamId c point).2 = .inr next →
      AtPoint R (sys.cache.toLiveTsCache.commitAct K streamId c point).1
        (.commit streamId c next) := fun _ => hat.commitAct hR.toLawfulSlots
  have hreturned : ∀ done ∈ sys.returned, ∃ e,
      live.state.streamCanonicalEpoch.lookup streamId = some e ∧ done.object.key.epoch.toNat ≤ e := by
    intro done hmem
    obtain ⟨e, he, hle⟩ := h.returned done hmem
    obtain ⟨e', he', hle'⟩ := hrecorded e he
    exact ⟨e', he', hle.trans hle'⟩
  have hcarry := fun reboxed next hinr =>
    @reboxed?_commitAct C K streamId c sys.cache.toLiveTsCache point next hreboxed hinr reboxed
  rw [hlive] at hnext
  rw [initStep, hcommit]
  dsimp only
  generalize sys.cache.toLiveTsCache.commitAct K streamId c point = act at *
  obtain ⟨live', outcome⟩ := act
  obtain rfl : live' = live := hlive
  cases outcome with
  | inl result =>
      refine ⟨hstate, fun source init hinit => (hchunk source init hinit).1, h.readers, nofun, ?_⟩
      cases point with
      | locked => exact hreturned
      | _ =>
          intro done hmem
          rcases List.mem_cons.mp hmem with rfl | hmem
          · exact ⟨_, hdone nofun result rfl, le_refl _⟩
          · exact hreturned done hmem
  | inr next =>
      refine ⟨hstate, fun source init hinit => ?_, h.readers, ?_, hreturned⟩
      · cases next with
        | resetting previous =>
            intro e he
            cases he
            exact (hchunk source init hinit).2 previous rfl
        | _ => exact (hchunk source init hinit).1
      · intro c' point' heq
        cases heq
        exact ⟨hbegun, hnext next rfl, fun reboxed hre => hcarry reboxed next rfl hre⟩

/-- **A step of the commit.**  Activating an epoch wipes what is there, and the commit brings what
its object carries. -/
theorem InitTasks.Current.advance (hR : LawfulInits R) (h : sys.Current R M K streamId) :
    (initStep R M K streamId sys .advance).2.Current R M K streamId := by
  cases hcommit : sys.commit with
  | none =>
      rw [initStep, hcommit]
      exact h
  | some entry =>
      obtain ⟨c, point⟩ := entry
      obtain ⟨hbegun, hat, hreboxed⟩ := h.point c point hcommit
      by_cases hzeroes : ∃ previous, point = .zeroing previous
      · obtain ⟨previous, rfl⟩ := hzeroes
        refine h.advance_of hR hcommit rfl h.state (fun source init hinit => ?_)
          (fun e he => ⟨e, he, le_refl e⟩) fun _ _ hdone => by cases hdone
        rw [LiveTsCache.commitAct, readInit_zero hR] at hinit
        cases hinit
      by_cases hresets : ∃ previous, point = .resetting previous
      · obtain ⟨previous, rfl⟩ := hresets
        have hforce : sys.inForce streamId = some c.object.key.epoch.toNat := by
          rw [InitTasks.inForce, hcommit]
        refine h.advance_of hR hcommit rfl (fun init hinit => ?_) (fun source init hinit => ?_)
          (fun e he => ⟨_, LiveTsCache.epoch_resetEpoch, ?_⟩) fun _ _ hdone => by cases hdone
        · rw [LiveTsCache.commitAct, inits_resetEpoch] at hinit
          cases hinit
        · have hcarried := h.chunk source init hinit _ hforce
          refine ⟨fun e he => ?_, fun _ hnext => by cases hnext⟩
          rw [LiveTsCache.commitAct, LiveTsCache.epoch_resetEpoch] at he
          cases he
          exact hcarried
        · exact (hat.2.1 e (hat.1.symm.trans he)).le
      -- the other steps are those of a commit whose epoch is recorded
      have hpoint (previous : Option Nat) :
          point ≠ .zeroing previous ∧ point ≠ .resetting previous :=
        ⟨fun heq => hzeroes ⟨previous, heq⟩, fun heq => hresets ⟨previous, heq⟩⟩
      have hforce : sys.inForce streamId = sys.recorded streamId := by
        rw [InitTasks.inForce, hcommit]
        cases point with
        | resetting previous => exact absurd rfl (hpoint previous).2
        | _ => rfl
      have hepoch : (sys.cache.toLiveTsCache.commitAct K streamId c
          point).1.state.streamCanonicalEpoch.lookup streamId = sys.recorded streamId :=
        (@bringsOnly_commitAct C R K sys.cache.toLiveTsCache streamId c hR.toLawfulSlots point
          hpoint).epoch
      have hresetting (previous : Option Nat) (hnext : (sys.cache.toLiveTsCache.commitAct K streamId c
          point).2 = .inr (.resetting previous)) : False :=
        hzeroes (zeroing_of_resetting hnext)
      by_cases hlocked : point = .locked
      · subst hlocked
        refine h.advance_of hR hcommit LiveTsCache.fst_commitAct_locked h.state
          (fun source init hinit => ?_) (fun e he => ⟨e, he, le_refl e⟩)
          fun hoff => absurd rfl hoff
        exact ⟨fun e he => h.chunk source init hinit e (hforce.trans he),
          fun previous hnext => (hresetting previous hnext).elim⟩
      · have hrecorded : sys.recorded streamId = some c.object.key.epoch.toNat := by
          cases point with
          | locked => exact absurd rfl hlocked
          | zeroing previous => exact absurd rfl (hpoint previous).1
          | resetting previous => exact absurd rfl (hpoint previous).2
          | _ => exact hat
        have hbrings := @bringsInits_commitAct C R M K streamId c sys.cache.toLiveTsCache hR point
          hpoint hreboxed
        have hmine {init : Bytes} (hcarries : c.Carries M K streamId init) (e : Nat)
            (he : sys.recorded streamId = some e) : sys.CarriedSince M K streamId e init := by
          rw [hrecorded] at he
          cases he
          exact ⟨c, hbegun, le_refl _, hcarries⟩
        refine h.advance_of hR hcommit rfl (fun init hinit e he => ?_) (fun source init hinit => ?_)
          (fun e he => ⟨e, hepoch.trans he, le_refl e⟩) fun _ _ _ => hepoch.trans hrecorded
        · rw [hepoch] at he
          rcases hbrings.state init hinit with hold | hcarries
          · exact h.state init hold e he
          · exact hmine hcarries e he
        · refine ⟨fun e he => ?_, fun previous hnext => (hresetting previous hnext).elim⟩
          rw [hepoch] at he
          rcases hbrings.chunk source init hinit with hold | hcarries
          · exact h.chunk source init hold e (hforce.trans he)
          · exact hmine hcarries e he

theorem InitTasks.timely_of_read {event : InitEvent} (h : event.isPublish = false) :
    sys.Timely M K streamId event := by
  cases event with
  | publish id => cases h
  | _ => trivial

/-- **A step that is in time.** -/
theorem InitTasks.Current.step (hR : LawfulInits R) (h : sys.Current R M K streamId)
    {event : InitEvent} (htimely : sys.Timely M K streamId event) :
    (initStep R M K streamId sys event).2.Current R M K streamId := by
  cases event with
  | advance => exact h.advance hR
  | beginCommit c =>
      rw [initStep]
      by_cases hfree : sys.commit.isNone = true
      · rw [if_pos hfree]
        have hgrow {epoch : Nat} {init : Bytes} (hcarried : sys.CarriedSince M K streamId epoch init) :
            ∃ c' ∈ c :: sys.begun, epoch ≤ c'.object.key.epoch.toNat ∧
              c'.Carries M K streamId init := by
          obtain ⟨c', hc', hrest⟩ := hcarried
          exact ⟨c', List.mem_cons_of_mem _ hc', hrest⟩
        have hforce : sys.inForce streamId = sys.recorded streamId := by
          rw [InitTasks.inForce, Option.isNone_iff_eq_none.1 hfree]
        refine ⟨fun init hinit e he => hgrow (h.state init hinit e he),
          fun source init hinit e he => hgrow (h.chunk source init hinit e (hforce.trans he)),
          fun id reader hreader e he => hgrow (h.readers id reader hreader e he), ?_, h.returned⟩
        intro c' point heq
        cases heq
        exact ⟨List.mem_cons_self, trivial, nofun⟩
      · rw [if_neg hfree]
        exact h
  | read id source =>
      rw [initStep]
      cases hfound : readInit R M streamId sys.cache.chunkCache source with
      | none => exact h
      | some init =>
          by_cases hnew : id ∈ sys.readers
          · simp only [if_pos hnew]
            exact h
          · simp only [if_neg hnew]
            refine ⟨h.state, h.chunk, fun id' reader hreader e he => ?_, h.point, h.returned⟩
            rcases AList.lookup_of_insert hreader with ⟨_, rfl⟩ | ⟨_, hold⟩
            · exact h.chunk source init hfound e he
            · exact h.readers id' reader hold e he
  | publish id =>
      rw [initStep]
      cases hreader : sys.readers.lookup id with
      | none => exact h
      | some reader =>
          obtain ⟨init, seen, point⟩ := reader
          have hseen := h.readers id _ hreader
          have hintime := htimely _ hreader
          cases point with
          | state =>
              refine ⟨fun found hfound e he => ?_, h.chunk, fun id' reader hlater e he => ?_, ?_,
                h.returned⟩
              · by_cases hsame : found = init
                · subst hsame
                  rcases hintime with heq | hcarried
                  · exact hseen e (heq.trans he)
                  · exact hcarried e he
                · simp only [AList.lookup_insert] at hfound
                  exact absurd (Option.some.inj hfound).symm hsame
              · rcases AList.lookup_of_replace hreader hlater with ⟨_, rfl⟩ | ⟨_, hold⟩
                · exact hseen e he
                · exact h.readers id' reader hold e he
              · exact h.point
          | chunkCache =>
              refine ⟨h.state, fun source found hfound e he => ?_, fun id' reader hlater e he => ?_,
                ?_, h.returned⟩
              · rcases readInit_set hR hfound with hold | rfl
                · exact h.chunk source found hold e he
                · rcases hintime with heq | hcarried
                  · exact hseen e (heq.trans he)
                  · exact hcarried e he
              · exact h.readers id' reader (AList.lookup_of_erase hlater).2 e he
              · intro c point hcommit
                obtain ⟨hbegun, hat, hreboxed⟩ := h.point c point hcommit
                refine ⟨hbegun, ?_, hreboxed⟩
                cases point with
                | resetting previous =>
                    refine ⟨hat.1, hat.2.1, fun q => ?_⟩
                    rw [slotPresent, hR.init_slots]
                    exact hat.2.2 q
                | _ => exact hat

/-- A process that starts with a new state and an empty chunk cache. -/
structure InitTasks.Fresh (R : ChunkCacheReads C) (M : MediaObjectCrate) (streamId : UInt64)
    (sys : InitTasks C) : Prop where
  state : ∃ startedUnixUs, sys.cache.state = LiveState.new startedUnixUs
  chunk : ∀ source, readInit R M streamId sys.cache.chunkCache source = none
  tasks : sys.commit = none ∧ sys.readers = ∅
  noted : sys.begun = [] ∧ sys.returned = []

theorem InitTasks.Current.of_fresh (h : sys.Fresh R M streamId) : sys.Current R M K streamId := by
  obtain ⟨hcommit, hreaders⟩ := h.tasks
  obtain ⟨startedUnixUs, hstate⟩ := h.state
  refine ⟨fun init hinit => ?_, fun source init hinit => ?_, fun id reader hreader => ?_,
    fun c point heq => ?_, fun c hc => ?_⟩
  · rw [hstate] at hinit
    cases hinit
  · rw [h.chunk source] at hinit
    cases hinit
  · rw [hreaders] at hreader
    cases hreader
  · rw [hcommit] at heq
    cases heq
  · rw [h.noted.2] at hc
    cases hc

/-- What is found in the end is in the live state, or a reader finds it in the chunk cache. -/
theorem found_of_getInit (hR : LawfulInits R) {cache : HlsCache C} {init : Bytes}
    (h : (cache.getInitForStreamId R M streamId).1 = some init) :
    cache.state.streamInits.lookup streamId = some init ∨
      ∃ source, readInit R M streamId cache.chunkCache source = some init := by
  rw [HlsCache.getInitForStreamId_fst, Option.or_eq_some_iff, Option.or_eq_some_iff] at h
  rcases h with hstate | ⟨_, hchunk | ⟨_, hscan⟩⟩
  · exact Or.inl hstate
  · exact Or.inr ⟨.initialization, hchunk⟩
  · -- the slot it is in has a sequence, and a reader can ask for that
    rw [HlsCache.scanInit, Option.bind_eq_some_iff] at hscan
    obtain ⟨⟨streamIdx, last⟩, hposition, hscan⟩ := hscan
    obtain ⟨seq, _, hslot⟩ := List.exists_of_findSome?_eq_some hscan
    refine Or.inr ⟨.slot seq, ?_⟩
    rw [HlsCache.streamPosition, Option.bind_eq_some_iff] at hposition
    obtain ⟨idx, hidx, hlast⟩ := hposition
    obtain ⟨_, _, hpair⟩ := Option.map_eq_some_iff.1 hlast
    obtain rfl := (Prod.mk.inj hpair).1
    rw [readInit, hR.for_stream, hidx]
    exact hslot

/-- **No initialization from an old epoch.**  In a run in which no reader is late, an
initialization that is found after a commit has returned was carried by an object of the epoch of
that commit or a later one. -/
theorem no_stale_initialization (hR : LawfulInits R) {start : InitTasks C}
    (hfresh : start.Fresh R M streamId) (events : List InitEvent)
    (htimely : ∀ visit ∈ trace (initStep R M K streamId) start events,
      visit.1.Timely M K streamId visit.2) :
    let sys := exec (initStep R M K streamId) start events
    ∀ c ∈ sys.returned, ∀ init, (sys.cache.getInitForStreamId R M streamId).1 = some init →
      sys.CarriedSince M K streamId c.object.key.epoch.toNat init := by
  intro sys c hc init hinit
  have hcurrent : sys.Current R M K streamId :=
    exec_invariant_along (initStep R M K streamId) (InitTasks.Current R M K streamId)
      (InitTasks.Timely M K streamId) (fun _ _ htimely h => h.step hR htimely) events start htimely
      (.of_fresh hfresh)
  obtain ⟨e, he, hle⟩ := hcurrent.returned c hc
  rcases found_of_getInit hR hinit with hstate | ⟨source, hchunk⟩
  · exact (hcurrent.state init hstate e he).mono hle
  · cases hcommit : sys.commit with
    | none =>
        refine (hcurrent.chunk source init hchunk e ?_).mono hle
        rw [InitTasks.inForce, hcommit]
        exact he
    | some entry =>
        obtain ⟨c', point⟩ := entry
        cases point with
        | resetting previous =>
            -- the cache is for the epoch of that commit already, which is a later one
            obtain ⟨_, hat, _⟩ := hcurrent.point c' _ hcommit
            have hlt := hat.2.1 e (hat.1.symm.trans he)
            refine (hcurrent.chunk source init hchunk _ ?_).mono (hle.trans hlt.le)
            rw [InitTasks.inForce, hcommit]
        | _ =>
            refine (hcurrent.chunk source init hchunk e ?_).mono hle
            rw [InitTasks.inForce, hcommit]
            exact he

end Steps

theorem sampleReads_inits : LawfulInits sampleReads where
  toLawfulSlots := sampleReads_slots
  for_stream := (sampleReads_lawful 0).for_stream
  zero_initialization := by
    intro chunk streamId
    simp
  set_initialization := by
    intro chunk streamId init found h
    simp only [Function.update_self] at h
    exact Or.inr (Option.some.inj h).symm
  put_initialization := by
    intro chunk streamId slot base bytes
    simp only [sampleStore]
    split
    · rfl
    · simp [SampleStream.put]
  put_content := by
    intro chunk streamId slot base bytes other found h
    simp only [sampleStore] at h
    split at h
    · exact Or.inl h
    · simp only [Function.update_self, SampleStream.put, List.lookup_cons] at h
      split at h
      · exact Or.inr (Option.some.inj h).symm
      · exact Or.inl h

/-- Part 0 of epoch 41 of stream 3: a Soundkit bundle of one frame. -/
def bundleCommit : MediaCommit where
  payload := []
  object :=
    { key := ⟨"3", 41, 0⟩
      kind := .media
      metadata := AList.insert "payload-format" (asBytes "soundkit-v2-bundle") ∅
      payload := soundkitV2BundleMagic ++
        [1, 0, 0, 0, 0, 0, 0, 0, 1, 0, 0, 0, 1, 0, 0, 0, 0, 0, 1, 9]
      isKeyframe := true }
  clock := ⟨0, 0, 0⟩

def freshInits : InitTasks sampleStore where
  cache := { emptyHlsCache 2 6 with state := LiveState.new 0 }
  commit := none
  readers := ∅
  begun := []
  returned := []

theorem fresh_freshInits : freshInits.Fresh sampleReads feedCrate 3 where
  state := ⟨0, rfl⟩
  chunk := by
    intro source
    cases source <;> rfl
  tasks := ⟨rfl, rfl⟩
  noted := ⟨rfl, rfl⟩

/-- A reader has read part 0 of epoch 41. -/
def readRun : List InitEvent :=
  .beginCommit bundleCommit :: List.replicate 7 .advance ++ [.read 0 (.slot 0)]

/-- It publishes the initialization before any other epoch comes. -/
theorem no_stale_initialization_read :
    let sys := exec (initStep sampleReads feedCrate sampleSoundkit 3) freshInits
      (readRun ++ [.publish 0, .publish 0])
    (sys.cache.getInitForStreamId sampleReads feedCrate 3).1 = some [0] ∧
      sys.CarriedSince feedCrate sampleSoundkit 3 41 [0] := by
  intro sys
  have htimely : ∀ visit ∈ trace (initStep sampleReads feedCrate sampleSoundkit 3) freshInits
      (readRun ++ [.publish 0, .publish 0]), visit.1.Timely feedCrate sampleSoundkit 3 visit.2 := by
    intro visit hvisit
    rw [trace_append, List.mem_append] at hvisit
    rcases hvisit with hread | hpublish
    · obtain ⟨before, after, hops, _⟩ := exists_exec_of_mem_trace _ hread
      have hmem : visit.2 ∈ readRun := by
        rw [hops]
        exact List.mem_append_right _ List.mem_cons_self
      have hall : ∀ event ∈ readRun, event.isPublish = false := by decide
      exact InitTasks.timely_of_read (hall _ hmem)
    · rw [trace_cons, trace_cons, trace_nil, List.mem_cons, List.mem_singleton] at hpublish
      rcases hpublish with rfl | rfl
      · intro reader hreader
        cases hreader
        exact Or.inl rfl
      · intro reader hreader
        cases hreader
        exact Or.inl rfl
  have hreturned : bundleCommit ∈ sys.returned := List.mem_cons_self
  have hinit : (sys.cache.getInitForStreamId sampleReads feedCrate 3).1 = some [0] := rfl
  have hcurrent := no_stale_initialization sampleReads_inits fresh_freshInits
    (readRun ++ [.publish 0, .publish 0]) htimely
  have hcarried := hcurrent bundleCommit hreturned [0] hinit
  exact ⟨hinit, hcarried⟩

/-- The reader publishes after epoch 42 was activated: then its initialization is found again, which
no object of epoch 42 carried. -/
theorem late_initialization :
    let sys := exec (initStep sampleReads feedCrate sampleSoundkit 3) freshInits
      (readRun ++ .beginCommit (feedCommit 0 false true) :: List.replicate 7 .advance ++
        [.publish 0, .publish 0])
    feedCommit 0 false true ∈ sys.returned ∧ sys.commit = none ∧ sys.readers.entries = [] ∧
      (sys.cache.getInitForStreamId sampleReads feedCrate 3).1 = some [0] ∧
      ¬ sys.CarriedSince feedCrate sampleSoundkit 3 42 [0] := by
  intro sys
  refine ⟨List.mem_cons_self, rfl, rfl, rfl, ?_⟩
  rintro ⟨c, hc, hepoch, reboxed, hreboxed, hcarries⟩
  have hbegun : sys.begun = [feedCommit 0 false true, bundleCommit] := rfl
  rw [hbegun, List.mem_cons, List.mem_singleton] at hc
  rcases hc with rfl | rfl
  · have hnone : reboxedAudio sampleSoundkit (feedCommit 0 false true).object = .ok none := rfl
    rw [hnone] at hreboxed
    cases hreboxed
    rcases hcarries with hinit | ⟨bytes, hbytes, hinit⟩
    · cases hinit
    · have hslot : (slotBytes 3 (feedCommit 0 false true).payload none
          (feedCommit 0 false true).object).map (fun bytes =>
            (LiveSlotPayload.decodeForStream feedCrate bytes 3).init) = .ok none := by
        decide +kernel
      rw [hbytes] at hslot
      have hnone := hinit.symm.trans (Except.ok.inj hslot)
      cases hnone
  · exact absurd hepoch (by decide)

end AvMesh.LiveCache
