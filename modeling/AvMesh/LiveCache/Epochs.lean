/-
  AvMesh.LiveCache.Epochs
  ───────────────────────
  **ONE EPOCH AT A TIME**, for commits and retirements that interleave.

  A commit and the retirement of an idle stream hold the lock of the stream,
  but wait at every access to the chunk cache and to the live state.  Between
  two waits they take one step:

      commit   locked → zeroing → resetting → recording → initializing
                 → storing → finishing
      retire   checking → zeroing → forgetting → clearing

  (`commit_alone`: the steps of a commit make up `commitObject`.)  Every slot
  and every recorded part is noted with the epoch of the object whose commit
  brought it, and at every moment all of them are of the recorded epoch
  (`OneEpoch`).
-/
import AvMesh.LiveCache.Streams

namespace AvMesh.LiveCache

open AvMesh.Lib

variable {C : ChunkCacheCrate}

/-! ## §1. The steps of a commit. -/

/-- Where a commit is, with what it has read so far. -/
inductive CommitPoint where
  | locked
  | zeroing (previous : Option Nat)
  | resetting (previous : Option Nat)
  | recording
  | initializing (reboxed : Option ReboxedLiveAudio)
  | storing (reboxed : Option ReboxedLiveAudio)
  | finishing (reboxed : Option ReboxedLiveAudio) (cachedBytes : Nat)

namespace LiveTsCache

/-- The state update of an activation, once the cache has been zeroed. -/
def resetEpoch (cache : LiveTsCache C) (streamId : UInt64) (sourceEpoch : Nat)
    (previous : Option Nat) (nowUs : Nat) : LiveTsCache C :=
  let activationDelayUs :=
    if previous.isSome ∨ sourceEpoch ≥ cache.state.processStartedUnixUs then
      if sourceEpoch ≤ nowUs then some (nowUs - sourceEpoch) else none
    else none
  let state := resetStream cache.state streamId sourceEpoch activationDelayUs
  { cache with
    state :=
      if streamId = cache.streamId then
        { state with
          lastCommittedSeq := none
          lastCommittedUnixMs := none
          lastCommittedBytes := none
          lastCommittedDurationMs := none }
      else state }

/-- One step of a commit: the cache, and the result or the next point. -/
def commitAct (K : SoundkitCrate) (cache : LiveTsCache C) (streamId : UInt64) (c : MediaCommit) :
    CommitPoint → LiveTsCache C × (CacheResult Nat ⊕ CommitPoint)
  | .locked =>
      match cache.admitObject streamId c.object with
      | .error error => (cache, .inl (.error error))
      | .ok _ =>
          let previous := cache.state.streamCanonicalEpoch.lookup streamId
          if previous = some c.object.key.epoch.toNat then (cache, .inr .recording)
          else (cache, .inr (.zeroing previous))
  | .zeroing previous =>
      ({ cache with chunkCache := C.zeroStreamId cache.chunkCache streamId },
        .inr (.resetting previous))
  | .resetting previous =>
      (cache.resetEpoch streamId c.object.key.epoch.toNat previous c.clock.activationUs,
        .inr .recording)
  | .recording =>
      match reboxedAudio K c.object with
      | .error error => (cache, .inl (.error error))
      | .ok reboxed =>
          (cache.recordObject streamId c.payload.length c.clock.nowMs reboxed c.object,
            .inr (.initializing reboxed))
  | .initializing reboxed =>
      match cache.writeInitialization streamId (objectInit reboxed c.object)
          (initFailure reboxed) with
      | (.error error, cache) => (cache, .inl (.error error))
      | (.ok _, cache) =>
          if c.object.kind ≠ .media then (cache, .inl (.ok c.object.key.object.toNat))
          else (cache, .inr (.storing reboxed))
  | .storing reboxed =>
      let seq := c.object.key.object.toNat
      let base := (cache.state.streamSubscriptionBaseObject.lookup streamId).getD seq
      match slotBytes streamId c.payload reboxed c.object with
      | .error error => (cache, .inl (.error error))
      | .ok cachedPayload =>
          match C.putIfAbsentContiguous cache.chunkCache streamId seq base cachedPayload with
          | (.error err, chunkCache) =>
              ({ cache with chunkCache },
                .inl (.error s!"canonical stream cache write failed: {err}"))
          | (.ok .hashConflict, chunkCache) =>
              ({ cache with chunkCache }, .inl (.error
                s!"canonical media-object identity conflict for stream {streamId} sequence {seq}"))
          | (.ok .present, chunkCache) =>
              ({ cache with chunkCache }, .inr (.finishing reboxed cachedPayload.length))
  | .finishing reboxed cachedBytes =>
      (finishObject cache streamId cachedBytes c.clock reboxed c.object,
        .inl (.ok c.object.key.object.toNat))

/-- A commit that runs on from this point without a break, for at most so many steps. -/
def runCommit (K : SoundkitCrate) (streamId : UInt64) (c : MediaCommit) :
    Nat → LiveTsCache C → CommitPoint → Option (CacheResult Nat × LiveTsCache C)
  | 0, _, _ => none
  | fuel + 1, cache, point =>
      match cache.commitAct K streamId c point with
      | (cache, .inl result) => some (result, cache)
      | (cache, .inr point) => runCommit K streamId c fuel cache point

section Alone

variable {K : SoundkitCrate} {cache : LiveTsCache C} {streamId : UInt64} {c : MediaCommit}
  {reboxed : Option ReboxedLiveAudio}

theorem run_storing (fuel : Nat) :
    runCommit K streamId c (fuel + 2) cache (.storing reboxed) =
      some (cache.storeObject streamId c.payload c.clock reboxed c.object) := by
  rw [runCommit, commitAct, storeObject]
  cases slotBytes streamId c.payload reboxed c.object with
  | error error => rfl
  | ok bytes =>
      simp only
      generalize C.putIfAbsentContiguous cache.chunkCache streamId c.object.key.object.toNat
        ((cache.state.streamSubscriptionBaseObject.lookup streamId).getD
          c.object.key.object.toNat) bytes = put
      obtain ⟨result, chunk⟩ := put
      cases result with
      | error err => rfl
      | ok result => cases result <;> rfl

theorem run_recording (fuel : Nat) :
    runCommit K streamId c (fuel + 4) cache .recording =
      match reboxedAudio K c.object with
      | .error error => some (.error error, cache)
      | .ok reboxed => some (cache.commitReboxed streamId c.payload c.clock reboxed c.object) := by
  rw [runCommit, commitAct]
  cases reboxedAudio K c.object with
  | error error => rfl
  | ok reboxed =>
      simp only
      rw [runCommit, commitAct, commitReboxed]
      generalize (cache.recordObject streamId c.payload.length c.clock.nowMs reboxed
        c.object).writeInitialization streamId (objectInit reboxed c.object)
        (initFailure reboxed) = written
      obtain ⟨result, written⟩ := written
      cases result with
      | error error => rfl
      | ok _ =>
          by_cases hkind : c.object.kind = .media
          · simp only [hkind, ne_eq, not_true_eq_false, if_false]
            exact run_storing fuel
          · simp only [hkind, ne_eq, not_false_eq_true, if_true]

/-- **The steps of a commit make up the commit**, if nothing comes between them. -/
theorem commit_alone :
    runCommit K streamId c 7 cache .locked =
      some (cache.commitObject K streamId c.payload c.clock c.object) := by
  rw [runCommit, commitAct, commitObject]
  cases cache.admitObject streamId c.object with
  | error error => rfl
  | ok _ =>
      simp only
      by_cases hepoch : cache.state.streamCanonicalEpoch.lookup streamId =
          some c.object.key.epoch.toNat
      · have hopened : cache.activateEpoch streamId c.object.key.epoch.toNat
            c.clock.activationUs = cache := if_pos hepoch
        rw [if_pos hepoch, hopened]
        simp only
        rw [run_recording 2]
        cases reboxedAudio K c.object <;> rfl
      · have hopened : cache.activateEpoch streamId c.object.key.epoch.toNat
            c.clock.activationUs =
            { cache with chunkCache := C.zeroStreamId cache.chunkCache streamId }.resetEpoch
              streamId c.object.key.epoch.toNat (cache.state.streamCanonicalEpoch.lookup streamId)
              c.clock.activationUs := if_neg hepoch
        rw [if_neg hepoch, hopened]
        simp only
        rw [runCommit, commitAct]
        simp only
        rw [runCommit, commitAct]
        simp only
        rw [run_recording 0]
        cases reboxedAudio K c.object <;> rfl

end Alone

end LiveTsCache

/-! ## §2. The steps of a retirement. -/

def LiveState.forgetStream (s : LiveState) (streamId : UInt64) : LiveState :=
  { s with
    streamNextSeq := s.streamNextSeq.erase streamId
    streamCanonicalEpoch := s.streamCanonicalEpoch.erase streamId
    streamCanonicalEpochActivationDelayUs :=
      s.streamCanonicalEpochActivationDelayUs.erase streamId
    streamSubscriptionBaseObject := s.streamSubscriptionBaseObject.erase streamId
    streamLatestCanonicalObject := s.streamLatestCanonicalObject.erase streamId
    streamLastIngestUnixMs := s.streamLastIngestUnixMs.erase streamId
    streamParts := s.streamParts.erase streamId
    streamCurrentFmp4Segment := s.streamCurrentFmp4Segment.erase streamId
    streamRetainedBytes := s.streamRetainedBytes.erase streamId
    streamMaxPartDurationMs := s.streamMaxPartDurationMs.erase streamId
    streamMaxSegmentDurationMs := s.streamMaxSegmentDurationMs.erase streamId
    streamInits := s.streamInits.erase streamId
    streamMediaKinds := s.streamMediaKinds.erase streamId }

inductive RetirePoint where
  | checking
  | zeroing
  | forgetting
  | clearing
  deriving DecidableEq

/-- One step of the retirement of one stream by `retire_streams_idle_before`. -/
def HlsCache.retireAct (cache : HlsCache C) (streamId : UInt64) (cutoffUnixMs : Nat) :
    RetirePoint → HlsCache C × Option RetirePoint
  | .checking =>
      -- it may have become active since it was listed
      if (cache.state.streamLastIngestUnixMs.lookup streamId).any (· ≤ cutoffUnixMs) then
        (cache, some .zeroing)
      else (cache, none)
  | .zeroing =>
      ({ cache with chunkCache := C.zeroStreamId cache.chunkCache streamId }, some .forgetting)
  | .forgetting => ({ cache with state := cache.state.forgetStream streamId }, some .clearing)
  | .clearing =>
      ({ cache with
        playlistCache := cache.playlistCache.map fun slot =>
          slot.filter fun cached => cached.streamId ≠ streamId }, none)

/-! ## §3. Tasks. -/

inductive CacheTask where
  | commit (streamId : UInt64) (commit : MediaCommit) (point : CommitPoint)
  | retire (streamId : UInt64) (cutoffUnixMs : Nat) (point : RetirePoint)

def CacheTask.streamId : CacheTask → UInt64
  | .commit streamId _ _ => streamId
  | .retire streamId _ _ => streamId

/-- The cache, and the tasks that hold the lock of a stream.  Of every slot and every part it is
noted from which epoch the object was whose commit brought it. -/
structure CacheTasks (C : ChunkCacheCrate) where
  cache : HlsCache C
  tasks : Table Nat CacheTask
  results : Table Nat (CacheResult Nat)
  slotEpoch : Table (UInt64 × Nat) Nat
  partEpoch : Table (UInt64 × Nat) Nat

namespace CacheTasks

/-- No task holds the lock of the stream. -/
def LockFree (sys : CacheTasks C) (streamId : UInt64) : Prop :=
  ∀ entry ∈ sys.tasks.entries, entry.2.streamId ≠ streamId

instance (sys : CacheTasks C) (streamId : UInt64) : Decidable (sys.LockFree streamId) :=
  inferInstanceAs (Decidable (∀ entry ∈ sys.tasks.entries, entry.2.streamId ≠ streamId))

/-- What is there under this key and was not before is noted. -/
def note (before after : Bool) (key : UInt64 × Nat) (epoch : Nat)
    (notes : Table (UInt64 × Nat) Nat) : Table (UInt64 × Nat) Nat :=
  if before = false ∧ after = true then notes.insert key epoch else notes

end CacheTasks

inductive CacheEvent where
  | beginCommit (task : Nat) (streamId : UInt64) (commit : MediaCommit)
  | beginRetire (task : Nat) (streamId : UInt64) (cutoffUnixMs : Nat)
  | advance (task : Nat)

section Step

variable (R : ChunkCacheReads C) (K : SoundkitCrate)

def slotPresent (cache : LiveTsCache C) (streamId : UInt64) (q : Nat) : Bool :=
  (R.getForStreamId cache.chunkCache streamId q).isSome

def partPresent (cache : LiveTsCache C) (streamId : UInt64) (q : Nat) : Bool :=
  ((cache.state.parts streamId).get? q).isSome

/-- A task takes the lock of its stream when that is free; a task that holds it takes a step. -/
def cacheStep (sys : CacheTasks C) : CacheEvent → Unit × CacheTasks C
  | .beginCommit task streamId commit =>
      ((), if task ∉ sys.tasks ∧ sys.LockFree streamId then
        { sys with tasks := sys.tasks.insert task (.commit streamId commit .locked) } else sys)
  | .beginRetire task streamId cutoffUnixMs =>
      ((), if task ∉ sys.tasks ∧ sys.LockFree streamId ∧ streamId ≠ sys.cache.streamId then
        { sys with tasks := sys.tasks.insert task (.retire streamId cutoffUnixMs .checking) }
      else sys)
  | .advance task =>
      match sys.tasks.lookup task with
      | none => ((), sys)
      | some (.commit streamId commit point) =>
          let (live, outcome) := sys.cache.toLiveTsCache.commitAct K streamId commit point
          let key := (streamId, commit.object.key.object.toNat)
          let epoch := commit.object.key.epoch.toNat
          ((), { cache := { sys.cache with toLiveTsCache := live }
                 tasks := match outcome with
                   | .inl _ => sys.tasks.erase task
                   | .inr point => sys.tasks.replace task (.commit streamId commit point)
                 results := match outcome with
                   | .inl result => sys.results.insert task result
                   | .inr _ => sys.results
                 slotEpoch := CacheTasks.note
                   (slotPresent R sys.cache.toLiveTsCache key.1 key.2) (slotPresent R live key.1 key.2)
                   key epoch sys.slotEpoch
                 partEpoch := CacheTasks.note
                   (partPresent sys.cache.toLiveTsCache key.1 key.2) (partPresent live key.1 key.2)
                   key epoch sys.partEpoch })
      | some (.retire streamId cutoffUnixMs point) =>
          let (cache, next) := sys.cache.retireAct streamId cutoffUnixMs point
          ((), { sys with
            cache
            tasks := match next with
              | none => sys.tasks.erase task
              | some point => sys.tasks.replace task (.retire streamId cutoffUnixMs point) })

end Step

/-! ## §4. The invariant. -/

/-- The laws of the chunk cache about the slots of a stream. -/
structure LawfulSlots (R : ChunkCacheReads C) : Prop extends StreamsApart R where
  zero_slots : ∀ chunk streamId slot,
    R.getForStreamId (C.zeroStreamId chunk streamId) streamId slot = none
  init_slots : ∀ chunk streamId init slot,
    R.getForStreamId (C.setStreamInitialization chunk streamId init).2 streamId slot =
      R.getForStreamId chunk streamId slot
  put_slots : ∀ chunk streamId slot base bytes other, other ≠ slot →
    (R.getForStreamId (C.putIfAbsentContiguous chunk streamId slot base bytes).2 streamId
      other).isSome → (R.getForStreamId chunk streamId other).isSome

/-- Every slot and every part of the stream is from the recorded epoch. -/
structure StreamOfEpoch (R : ChunkCacheReads C) (cache : LiveTsCache C)
    (slotEpoch partEpoch : Table (UInt64 × Nat) Nat) (streamId : UInt64) : Prop where
  slots : ∀ q, slotPresent R cache streamId q = true →
    ∃ epoch, cache.state.streamCanonicalEpoch.lookup streamId = some epoch ∧
      slotEpoch.lookup (streamId, q) = some epoch
  parts : ∀ q, partPresent cache streamId q = true →
    ∃ epoch, cache.state.streamCanonicalEpoch.lookup streamId = some epoch ∧
      partEpoch.lookup (streamId, q) = some epoch

/-- The stream has no slots. -/
def NoSlots (R : ChunkCacheReads C) (cache : LiveTsCache C) (streamId : UInt64) : Prop :=
  ∀ q, slotPresent R cache streamId q = false

/-- What a task can rely on at its point, since it holds the lock. -/
def AtPoint (R : ChunkCacheReads C) (cache : LiveTsCache C) : CacheTask → Prop
  | .commit streamId commit point =>
      let recorded := cache.state.streamCanonicalEpoch.lookup streamId
      let epoch := commit.object.key.epoch.toNat
      match point with
      | .locked => True
      | .zeroing previous => recorded = previous ∧ ∀ older, previous = some older → older < epoch
      | .resetting previous => recorded = previous ∧
          (∀ older, previous = some older → older < epoch) ∧ NoSlots R cache streamId
      | _ => recorded = some epoch
  | .retire streamId _ point => point = .forgetting → NoSlots R cache streamId

/-- **One epoch**: every slot and every part is from the epoch recorded for its stream. -/
structure OneEpoch (R : ChunkCacheReads C) (sys : CacheTasks C) : Prop where
  locks : ∀ task task' holder holder', sys.tasks.lookup task = some holder →
    sys.tasks.lookup task' = some holder' → holder.streamId = holder'.streamId → task = task'
  streams : ∀ streamId,
    StreamOfEpoch R sys.cache.toLiveTsCache sys.slotEpoch sys.partEpoch streamId
  points : ∀ task holder, sys.tasks.lookup task = some holder →
    AtPoint R sys.cache.toLiveTsCache holder

section Notes

variable {before after : Bool} {key key' : UInt64 × Nat} {epoch : Nat}
  {notes : Table (UInt64 × Nat) Nat}

theorem lookup_note_ne (h : key' ≠ key) :
    (CacheTasks.note before after key epoch notes).lookup key' = notes.lookup key' := by
  rw [CacheTasks.note]
  split
  · exact AList.lookup_insert_ne h
  · rfl

theorem note_of_old (h : after = true → before = true) :
    CacheTasks.note before after key epoch notes = notes := by
  refine if_neg fun hnew => ?_
  rw [h hnew.2] at hnew
  cases hnew.1

/-- What is there now is noted with this epoch, unless it was there before. -/
theorem lookup_note_self (hafter : after = true)
    (hbefore : before = true → notes.lookup key = some epoch) :
    (CacheTasks.note before after key epoch notes).lookup key = some epoch := by
  rw [CacheTasks.note]
  cases before with
  | false => rw [if_pos ⟨rfl, hafter⟩, AList.lookup_insert]
  | true => rw [if_neg (by simp), hbefore rfl]

/-- Where all is of this epoch and at most one entry of it is new, all is noted with it. -/
theorem lookup_note_grow {streamId : UInt64} {present present' : Nat → Bool} {seq q : Nat}
    (hold : ∀ q, present q = true → notes.lookup (streamId, q) = some epoch)
    (hgrow : ∀ q, q ≠ seq → present' q = true → present q = true) (hq : present' q = true) :
    (CacheTasks.note (present seq) (present' seq) (streamId, seq) epoch notes).lookup (streamId, q)
      = some epoch := by
  by_cases hseq : q = seq
  · subst hseq
    exact lookup_note_self hq (hold q)
  · rw [lookup_note_ne fun heq => hseq (Prod.mk.inj heq).2]
    exact hold q (hgrow q hseq hq)

end Notes

section Streams

variable {R : ChunkCacheReads C} {cache after : LiveTsCache C}
  {slotEpoch partEpoch slotEpoch' partEpoch' : Table (UInt64 × Nat) Nat}
  {streamId other : UInt64} {epoch seq : Nat}

/-- For another stream everything is as it was. -/
theorem LiveTsCache.LeavesOthers.same
    (h : LiveTsCache.LeavesOthers R streamId cache after) (hother : other ≠ streamId) :
    after.state.streamCanonicalEpoch.lookup other =
        cache.state.streamCanonicalEpoch.lookup other ∧
      (∀ q, slotPresent R after other q = slotPresent R cache other q) ∧
      ∀ q, partPresent after other q = partPresent cache other q := by
  have hentries := h.state other hother
  refine ⟨congrArg StreamEntries.canonicalEpoch hentries, fun q => ?_, fun q => ?_⟩
  · rw [slotPresent, slotPresent, (h.chunk other hother).slots]
  · have hparts : after.state.streamParts.lookup other = cache.state.streamParts.lookup other :=
      congrArg StreamEntries.parts hentries
    rw [partPresent, partPresent, LiveState.parts, LiveState.parts, hparts]

theorem StreamOfEpoch.others (h : StreamOfEpoch R cache slotEpoch partEpoch other)
    (hleaves : LiveTsCache.LeavesOthers R streamId cache after) (hother : other ≠ streamId)
    (hslot : ∀ q, slotEpoch'.lookup (other, q) = slotEpoch.lookup (other, q))
    (hpart : ∀ q, partEpoch'.lookup (other, q) = partEpoch.lookup (other, q)) :
    StreamOfEpoch R after slotEpoch' partEpoch' other := by
  obtain ⟨hepoch, hslots, hparts⟩ := hleaves.same hother
  refine ⟨fun q hq => ?_, fun q hq => ?_⟩
  · rw [hslots] at hq
    rw [hepoch, hslot]
    exact h.slots q hq
  · rw [hparts] at hq
    rw [hepoch, hpart]
    exact h.parts q hq

theorem AtPoint.others {holder : CacheTask} (h : AtPoint R cache holder)
    (hleaves : LiveTsCache.LeavesOthers R streamId cache after)
    (hother : holder.streamId ≠ streamId) : AtPoint R after holder := by
  obtain ⟨hepoch, hslots, _⟩ := hleaves.same hother
  cases holder with
  | commit other commit point =>
      simp only [CacheTask.streamId] at hepoch hslots
      simp only [AtPoint, NoSlots] at h ⊢
      rw [hepoch]
      simp only [hslots]
      exact h
  | retire other cutoff point =>
      simp only [CacheTask.streamId] at hslots
      simp only [AtPoint, NoSlots] at h ⊢
      simp only [hslots]
      exact h

/-- A commit of the recorded epoch brings at most its own slot and its own part. -/
theorem StreamOfEpoch.grow (h : StreamOfEpoch R cache slotEpoch partEpoch streamId)
    (hrecorded : cache.state.streamCanonicalEpoch.lookup streamId = some epoch)
    (hsame : after.state.streamCanonicalEpoch.lookup streamId = some epoch)
    (hslots : ∀ q, q ≠ seq → slotPresent R after streamId q = true →
      slotPresent R cache streamId q = true)
    (hparts : ∀ q, q ≠ seq → partPresent after streamId q = true →
      partPresent cache streamId q = true) :
    StreamOfEpoch R after
      (CacheTasks.note (slotPresent R cache streamId seq) (slotPresent R after streamId seq)
        (streamId, seq) epoch slotEpoch)
      (CacheTasks.note (partPresent cache streamId seq) (partPresent after streamId seq)
        (streamId, seq) epoch partEpoch) streamId := by
  refine ⟨fun q hq => ⟨epoch, hsame, lookup_note_grow ?_ hslots hq⟩,
    fun q hq => ⟨epoch, hsame, lookup_note_grow ?_ hparts hq⟩⟩
  · intro q hbefore
    obtain ⟨old, hold, hnoted⟩ := h.slots q hbefore
    rw [hrecorded] at hold
    rw [hnoted, hold]
  · intro q hbefore
    obtain ⟨old, hold, hnoted⟩ := h.parts q hbefore
    rw [hrecorded] at hold
    rw [hnoted, hold]

/-- A step that brings nothing and keeps the recorded epoch. -/
theorem StreamOfEpoch.shrink (h : StreamOfEpoch R cache slotEpoch partEpoch streamId)
    (hsame : after.state.streamCanonicalEpoch.lookup streamId =
      cache.state.streamCanonicalEpoch.lookup streamId)
    (hslots : ∀ q, slotPresent R after streamId q = true → slotPresent R cache streamId q = true)
    (hparts : ∀ q, partPresent after streamId q = true → partPresent cache streamId q = true) :
    StreamOfEpoch R after slotEpoch partEpoch streamId := by
  refine ⟨fun q hq => ?_, fun q hq => ?_⟩
  · rw [hsame]
    exact h.slots q (hslots q hq)
  · rw [hsame]
    exact h.parts q (hparts q hq)

/-- Then there is nothing to note either. -/
theorem StreamOfEpoch.shrink_noted (h : StreamOfEpoch R cache slotEpoch partEpoch streamId)
    (hsame : after.state.streamCanonicalEpoch.lookup streamId =
      cache.state.streamCanonicalEpoch.lookup streamId)
    (hslots : ∀ q, slotPresent R after streamId q = true → slotPresent R cache streamId q = true)
    (hparts : ∀ q, partPresent after streamId q = true → partPresent cache streamId q = true) :
    StreamOfEpoch R after
      (CacheTasks.note (slotPresent R cache streamId seq) (slotPresent R after streamId seq)
        (streamId, seq) epoch slotEpoch)
      (CacheTasks.note (partPresent cache streamId seq) (partPresent after streamId seq)
        (streamId, seq) epoch partEpoch) streamId := by
  rw [note_of_old (hslots seq), note_of_old (hparts seq)]
  exact h.shrink hsame hslots hparts

/-- A stream without slots and parts. -/
theorem StreamOfEpoch.empty (hslots : NoSlots R cache streamId)
    (hparts : ∀ q, partPresent cache streamId q = false) :
    StreamOfEpoch R cache slotEpoch partEpoch streamId := by
  refine ⟨fun q hq => ?_, fun q hq => ?_⟩
  · rw [hslots q] at hq
    cases hq
  · rw [hparts q] at hq
    cases hq

end Streams

/-! ## §5. Every step keeps it. -/

section Steps

variable {R : ChunkCacheReads C} {K : SoundkitCrate} {cache : LiveTsCache C} {streamId : UInt64}
  {c : MediaCommit}

theorem LiveTsCache.leavesOthers_resetEpoch {sourceEpoch nowUs : Nat} {previous : Option Nat} :
    LiveTsCache.LeavesOthers R streamId cache
      (cache.resetEpoch streamId sourceEpoch previous nowUs) := by
  refine LiveTsCache.LeavesOthers.of_state fun other hother => ?_
  split <;> simp only [LiveState.entries, LiveTsCache.resetStream,
    AList.lookup_insert_ne hother, AList.lookup_erase_ne hother] <;> split <;>
    simp only [AList.lookup_insert_ne hother, AList.lookup_erase_ne hother]

/-- The check of the epoch changes nothing. -/
theorem LiveTsCache.fst_commitAct_locked : (cache.commitAct K streamId c .locked).1 = cache := by
  rw [LiveTsCache.commitAct]
  split
  · rfl
  · dsimp only
    split <;> rfl

section Writes

variable {reboxed : Option ReboxedLiveAudio}

/-- The write of the initialization changes the chunk cache only. -/
theorem LiveTsCache.fst_commitAct_initializing :
    (cache.commitAct K streamId c (.initializing reboxed)).1 =
      { cache with
        chunkCache := chunkAfterInit cache.chunkCache streamId (objectInit reboxed c.object) } := by
  rw [← @writeInitialization_snd C cache streamId (objectInit reboxed c.object)
    (initFailure reboxed), LiveTsCache.commitAct]
  split
  · next heq => rw [heq]
  · next heq =>
      rw [heq]
      split <;> rfl

/-- So does the put of the slot, if it can be encoded. -/
theorem LiveTsCache.fst_commitAct_storing :
    (cache.commitAct K streamId c (.storing reboxed)).1 = cache ∨
      ∃ base bytes, slotBytes streamId c.payload reboxed c.object = .ok bytes ∧
        (cache.commitAct K streamId c (.storing reboxed)).1 =
          { cache with
            chunkCache := (C.putIfAbsentContiguous cache.chunkCache streamId
              c.object.key.object.toNat base bytes).2 } := by
  rw [LiveTsCache.commitAct]
  cases hbytes : slotBytes streamId c.payload reboxed c.object with
  | error error => exact Or.inl rfl
  | ok bytes =>
      refine Or.inr ⟨(cache.state.streamSubscriptionBaseObject.lookup streamId).getD
        c.object.key.object.toNat, bytes, rfl, ?_⟩
      dsimp only
      split <;> next heq => rw [heq]

end Writes

/-- Every step of a commit is about its own stream only. -/
theorem leavesOthers_commitAct (hR : StreamsApart R) (point : CommitPoint) :
    LiveTsCache.LeavesOthers R streamId cache (cache.commitAct K streamId c point).1 := by
  cases point with
  | locked =>
      rw [LiveTsCache.fst_commitAct_locked]
      exact LiveTsCache.LeavesOthers.refl _
  | zeroing previous => exact LiveTsCache.LeavesOthers.of_chunk (hR.zero _ _)
  | resetting previous => exact LiveTsCache.leavesOthers_resetEpoch
  | recording =>
      rw [LiveTsCache.commitAct]
      split
      · exact LiveTsCache.LeavesOthers.refl _
      · exact LiveTsCache.leavesOthers_recordObject
  | initializing reboxed =>
      have hwrite := @LiveTsCache.leavesOthers_writeInitialization C R cache streamId hR
        (objectInit reboxed c.object) (LiveTsCache.initFailure reboxed)
      rw [LiveTsCache.writeInitialization_snd] at hwrite
      rw [LiveTsCache.fst_commitAct_initializing]
      exact hwrite
  | storing reboxed =>
      rcases @LiveTsCache.fst_commitAct_storing C K cache streamId c reboxed with
        hsame | ⟨base, bytes, _, hput⟩
      · rw [hsame]
        exact LiveTsCache.LeavesOthers.refl _
      · rw [hput]
        exact LiveTsCache.LeavesOthers.of_chunk
          (hR.put cache.chunkCache streamId c.object.key.object.toNat base bytes)
  | finishing reboxed cachedBytes => exact LiveTsCache.leavesOthers_finishObject

theorem leavesOthers_retireAct {cache : HlsCache C} (hR : StreamsApart R) {cutoffUnixMs : Nat}
    (point : RetirePoint) :
    LiveTsCache.LeavesOthers R streamId cache.toLiveTsCache
      (cache.retireAct streamId cutoffUnixMs point).1.toLiveTsCache := by
  cases point with
  | checking =>
      rw [HlsCache.retireAct]
      split <;> exact LiveTsCache.LeavesOthers.refl _
  | zeroing => exact LiveTsCache.LeavesOthers.of_chunk (hR.zero _ _)
  | forgetting =>
      refine LiveTsCache.LeavesOthers.of_state fun other hother => ?_
      simp only [LiveState.entries, LiveState.forgetStream, AList.lookup_erase_ne hother]
  | clearing => exact LiveTsCache.LeavesOthers.refl _

/-- Recording a part brings no other part. -/
theorem partPresent_recordPartAvailable {s : LiveState}
    {sequence bytes availableUnixUs windowParts : Nat}
    {durationMs : Option Nat} {keyframe keyframeSegments : Bool} {q : Nat} (hq : q ≠ sequence)
    (h : (((s.recordPartAvailable streamId sequence bytes availableUnixUs durationMs keyframe
      keyframeSegments windowParts).parts streamId).get? q).isSome) :
    ((s.parts streamId).get? q).isSome := by
  rw [RetainedParts.get?, List.lookup_isSome_iff] at h ⊢
  obtain ⟨entry, hentry, hkey⟩ := h
  refine ⟨entry, ?_, hkey⟩
  cases hold : (s.parts streamId).get? sequence with
  | some part =>
      rw [(s.recordPartAvailable_known streamId sequence bytes availableUnixUs durationMs keyframe
        keyframeSegments windowParts hold).1] at hentry
      exact (List.dropWhile_sublist _).subset hentry
  | none =>
      rw [(s.recordPartAvailable_new streamId sequence bytes availableUnixUs durationMs keyframe
        keyframeSegments windowParts hold).1] at hentry
      have hinsert := (List.dropWhile_sublist _).subset hentry
      rw [RetainedParts.insert, List.mem_append, List.mem_cons] at hinsert
      rcases hinsert with hbefore | rfl | hbehind
      · exact (List.takeWhile_sublist _).subset hbefore
      · exact absurd (by simpa using hkey) hq
      · exact (List.dropWhile_sublist _).subset hbehind

/-- The recorded epoch stays, and at most this slot and this part of the stream are new. -/
structure BringsOnly (R : ChunkCacheReads C) (streamId : UInt64) (seq : Nat)
    (cache after : LiveTsCache C) : Prop where
  epoch : after.state.streamCanonicalEpoch.lookup streamId =
    cache.state.streamCanonicalEpoch.lookup streamId
  slots : ∀ q, q ≠ seq → slotPresent R after streamId q = true →
    slotPresent R cache streamId q = true
  parts : ∀ q, q ≠ seq → partPresent after streamId q = true →
    partPresent cache streamId q = true

theorem BringsOnly.refl (seq : Nat) (cache : LiveTsCache C) :
    BringsOnly R streamId seq cache cache :=
  ⟨rfl, fun _ _ h => h, fun _ _ h => h⟩

/-- From the activation on a commit brings its own slot and its own part. -/
theorem bringsOnly_commitAct (hR : LawfulSlots R) {point : CommitPoint}
    (hpoint : ∀ previous, point ≠ .zeroing previous ∧ point ≠ .resetting previous) :
    BringsOnly R streamId c.object.key.object.toNat cache
      (cache.commitAct K streamId c point).1 := by
  cases point with
  | zeroing previous => exact absurd rfl (hpoint previous).1
  | resetting previous => exact absurd rfl (hpoint previous).2
  | locked =>
      rw [LiveTsCache.fst_commitAct_locked]
      exact BringsOnly.refl _ _
  | recording =>
      rw [LiveTsCache.commitAct]
      split
      · exact BringsOnly.refl _ _
      · exact ⟨rfl, fun _ _ h => h, fun _ _ h => h⟩
  | initializing reboxed =>
      rw [LiveTsCache.fst_commitAct_initializing]
      cases objectInit reboxed c.object with
      | none => exact BringsOnly.refl _ _
      | some init =>
          refine ⟨rfl, fun q _ h => ?_, fun _ _ h => h⟩
          rw [slotPresent, LiveTsCache.chunkAfterInit, hR.init_slots] at h
          exact h
  | storing reboxed =>
      rcases @LiveTsCache.fst_commitAct_storing C K cache streamId c reboxed with
        hsame | ⟨base, bytes, _, hput⟩
      · rw [hsame]
        exact BringsOnly.refl _ _
      · rw [hput]
        exact ⟨rfl, fun q hq h => hR.put_slots cache.chunkCache streamId
          c.object.key.object.toNat base bytes q hq h, fun _ _ h => h⟩
  | finishing reboxed cachedBytes =>
      refine ⟨?_, fun _ _ h => h, fun q hq h => ?_⟩
      · show (LiveTsCache.finishObject cache streamId cachedBytes c.clock reboxed
          c.object).state.streamCanonicalEpoch.lookup streamId = _
        rw [LiveTsCache.epoch_finishObject]
      · have hrecorded : partPresent (LiveTsCache.finishObject cache streamId cachedBytes c.clock
            reboxed c.object) streamId q = true := h
        rw [partPresent, LiveTsCache.finishObject] at hrecorded
        have hbefore := partPresent_recordPartAvailable hq hrecorded
        rw [LiveState.recordCommitted] at hbefore
        exact hbefore

/-- An admitted object is not from before the recorded epoch. -/
theorem LiveTsCache.recorded_le_of_admitObject {object : MediaObject} {admitted : Unit}
    (h : cache.admitObject streamId object = .ok admitted) {recorded : Nat}
    (hrecorded : cache.state.streamCanonicalEpoch.lookup streamId = some recorded) :
    recorded ≤ object.key.epoch.toNat := by
  rw [LiveTsCache.admitObject] at h
  split at h
  · cases h
  · rw [hrecorded] at h
    by_cases hstale : object.key.epoch.toNat < recorded
    · simp only [hstale, if_true] at h
      cases h
    · omega

section ResetEpoch

variable {sourceEpoch nowUs : Nat} {previous : Option Nat}

theorem LiveTsCache.epoch_resetEpoch :
    (cache.resetEpoch streamId sourceEpoch previous
      nowUs).state.streamCanonicalEpoch.lookup streamId = some sourceEpoch := by
  rw [LiveTsCache.resetEpoch]
  by_cases hdefault : streamId = cache.streamId
  · simp only [if_pos hdefault, LiveTsCache.resetStream, AList.lookup_insert]
  · simp only [if_neg hdefault, LiveTsCache.resetStream, AList.lookup_insert]

theorem partPresent_resetEpoch (q : Nat) :
    partPresent (cache.resetEpoch streamId sourceEpoch previous nowUs) streamId q = false := by
  have hnone : (cache.resetEpoch streamId sourceEpoch previous
      nowUs).state.streamParts.lookup streamId = none := by
    rw [LiveTsCache.resetEpoch]
    by_cases hdefault : streamId = cache.streamId
    · simp only [if_pos hdefault, LiveTsCache.resetStream, AList.lookup_erase]
    · simp only [if_neg hdefault, LiveTsCache.resetStream, AList.lookup_erase]
  rw [partPresent, LiveState.parts, hnone]
  rfl

end ResetEpoch

variable {slotEpoch partEpoch : Table (UInt64 × Nat) Nat}

/-- **A step of a commit** keeps its stream of one epoch, and what the commit relies on. -/
theorem StreamOfEpoch.commitAct (hR : LawfulSlots R) {point : CommitPoint}
    (h : StreamOfEpoch R cache slotEpoch partEpoch streamId)
    (hpoint : AtPoint R cache (.commit streamId c point)) :
    let after := (cache.commitAct K streamId c point).1
    let seq := c.object.key.object.toNat
    StreamOfEpoch R after
      (CacheTasks.note (slotPresent R cache streamId seq) (slotPresent R after streamId seq)
        (streamId, seq) c.object.key.epoch.toNat slotEpoch)
      (CacheTasks.note (partPresent cache streamId seq) (partPresent after streamId seq)
        (streamId, seq) c.object.key.epoch.toNat partEpoch) streamId := by
  have hbrings := @bringsOnly_commitAct C R K cache streamId c hR point
  have hgrow (hrecorded : cache.state.streamCanonicalEpoch.lookup streamId =
      some c.object.key.epoch.toNat)
      (hpoint : ∀ previous, point ≠ .zeroing previous ∧ point ≠ .resetting previous) :=
    h.grow hrecorded ((hbrings hpoint).epoch.trans hrecorded) (hbrings hpoint).slots
      (hbrings hpoint).parts
  cases point with
  | locked =>
      have hsame := @LiveTsCache.fst_commitAct_locked C K cache streamId c
      have hslots (q : Nat) (hq : slotPresent R (cache.commitAct K streamId c .locked).1 streamId q =
          true) : slotPresent R cache streamId q = true := by rwa [hsame] at hq
      have hparts (q : Nat) (hq : partPresent (cache.commitAct K streamId c .locked).1 streamId q =
          true) : partPresent cache streamId q = true := by rwa [hsame] at hq
      exact h.shrink_noted (congrArg (fun after : LiveTsCache C =>
          after.state.streamCanonicalEpoch.lookup streamId) hsame) hslots hparts
  | zeroing previous =>
      -- the slots go first: the parts that are left are still of the recorded epoch
      refine h.shrink_noted rfl (fun q hq => ?_) fun _ hq => hq
      rw [LiveTsCache.commitAct, slotPresent, hR.zero_slots] at hq
      cases hq
  | resetting previous =>
      exact .empty (fun q => hpoint.2.2 q) partPresent_resetEpoch
  | recording => exact hgrow hpoint fun _ => ⟨nofun, nofun⟩
  | initializing reboxed => exact hgrow hpoint fun _ => ⟨nofun, nofun⟩
  | storing reboxed => exact hgrow hpoint fun _ => ⟨nofun, nofun⟩
  | finishing reboxed cachedBytes => exact hgrow hpoint fun _ => ⟨nofun, nofun⟩

/-- What a commit relies on at the next point. -/
theorem AtPoint.commitAct (hR : LawfulSlots R) {point next : CommitPoint}
    (hpoint : AtPoint R cache (.commit streamId c point))
    (hnext : (cache.commitAct K streamId c point).2 = .inr next) :
    AtPoint R (cache.commitAct K streamId c point).1 (.commit streamId c next) := by
  have hbrings := @bringsOnly_commitAct C R K cache streamId c hR point
  cases point with
  | locked =>
      rw [LiveTsCache.commitAct] at hnext ⊢
      cases hadmitted : cache.admitObject streamId c.object with
      | error error =>
          rw [hadmitted] at hnext
          cases hnext
      | ok admitted =>
          rw [hadmitted] at hnext
          by_cases hepoch : cache.state.streamCanonicalEpoch.lookup streamId =
              some c.object.key.epoch.toNat
          · simp only [hepoch, if_true] at hnext ⊢
            cases hnext
            exact hepoch
          · simp only [hepoch, if_false] at hnext ⊢
            cases hnext
            refine ⟨rfl, fun older holder => ?_⟩
            -- admitted, and not of the recorded epoch: of a later one
            have hle := LiveTsCache.recorded_le_of_admitObject hadmitted holder
            have hne : older ≠ c.object.key.epoch.toNat := fun heq => hepoch (heq ▸ holder)
            omega
  | zeroing previous =>
      cases hnext
      refine ⟨hpoint.1, hpoint.2, fun q => ?_⟩
      rw [LiveTsCache.commitAct, slotPresent, hR.zero_slots]
      rfl
  | resetting previous =>
      cases hnext
      exact LiveTsCache.epoch_resetEpoch
  | recording =>
      have hrecorded := (hbrings fun _ => ⟨nofun, nofun⟩).epoch.trans hpoint
      rw [LiveTsCache.commitAct] at hnext
      split at hnext
      · cases hnext
      · cases hnext
        exact hrecorded
  | initializing reboxed =>
      have hrecorded := (hbrings fun _ => ⟨nofun, nofun⟩).epoch.trans hpoint
      rw [LiveTsCache.commitAct] at hnext
      split at hnext
      · cases hnext
      · split at hnext
        · cases hnext
        · cases hnext
          exact hrecorded
  | storing reboxed =>
      have hrecorded := (hbrings fun _ => ⟨nofun, nofun⟩).epoch.trans hpoint
      rw [LiveTsCache.commitAct] at hnext
      split at hnext
      · cases hnext
      · split at hnext
        · cases hnext
        · cases hnext
        · cases hnext
          exact hrecorded
  | finishing reboxed cachedBytes => cases hnext

section Retire

variable {cache : HlsCache C} {cutoffUnixMs : Nat}

/-- **A step of a retirement** keeps its stream of one epoch. -/
theorem StreamOfEpoch.retireAct (hR : LawfulSlots R) {point : RetirePoint}
    (h : StreamOfEpoch R cache.toLiveTsCache slotEpoch partEpoch streamId)
    (hpoint : AtPoint R cache.toLiveTsCache (.retire streamId cutoffUnixMs point)) :
    StreamOfEpoch R (cache.retireAct streamId cutoffUnixMs point).1.toLiveTsCache slotEpoch
      partEpoch streamId := by
  cases point with
  | checking =>
      rw [HlsCache.retireAct]
      split <;> exact h
  -- as in a commit, the slots go before the parts and the recorded epoch
  | zeroing =>
      refine h.shrink rfl (fun q hq => ?_) fun _ hq => hq
      rw [HlsCache.retireAct, slotPresent, hR.zero_slots] at hq
      cases hq
  | forgetting =>
      refine .empty (fun q => hpoint rfl q) fun q => ?_
      rw [HlsCache.retireAct, partPresent, LiveState.parts, LiveState.forgetStream]
      simp only [AList.lookup_erase]
      rfl
  | clearing => exact h

theorem AtPoint.retireAct (hR : LawfulSlots R) {point next : RetirePoint}
    (hnext : (cache.retireAct streamId cutoffUnixMs point).2 = some next) :
    AtPoint R (cache.retireAct streamId cutoffUnixMs point).1.toLiveTsCache
      (.retire streamId cutoffUnixMs next) := by
  rintro rfl
  cases point with
  | checking =>
      rw [HlsCache.retireAct] at hnext
      split at hnext <;> cases hnext
  | zeroing =>
      intro q
      rw [HlsCache.retireAct, slotPresent, hR.zero_slots]
      rfl
  | forgetting => cases hnext
  | clearing => cases hnext

end Retire

end Steps

/-! ## §6. Runs. -/

section Runs

variable {R : ChunkCacheReads C} {K : SoundkitCrate} {sys after : CacheTasks C}

/-- A task takes a step for its stream and goes on as `next`, or is done. -/
theorem OneEpoch.advance (h : OneEpoch R sys) {task : Nat} {holder : CacheTask}
    (next : Option CacheTask) (hholder : sys.tasks.lookup task = some holder)
    (hnext : ∀ later, next = some later → later.streamId = holder.streamId)
    (htask : after.tasks.lookup task = next)
    (htasks : ∀ other, other ≠ task → after.tasks.lookup other = sys.tasks.lookup other)
    (hleaves : LiveTsCache.LeavesOthers R holder.streamId sys.cache.toLiveTsCache
      after.cache.toLiveTsCache)
    (hslot : ∀ other, other ≠ holder.streamId → ∀ q,
      after.slotEpoch.lookup (other, q) = sys.slotEpoch.lookup (other, q))
    (hpart : ∀ other, other ≠ holder.streamId → ∀ q,
      after.partEpoch.lookup (other, q) = sys.partEpoch.lookup (other, q))
    (hown : StreamOfEpoch R after.cache.toLiveTsCache after.slotEpoch after.partEpoch
      holder.streamId)
    (hpoint : ∀ later, next = some later → AtPoint R after.cache.toLiveTsCache later) :
    OneEpoch R after := by
  -- who holds a lock held it before
  have hheld (id : Nat) (holder' : CacheTask) (hafter : after.tasks.lookup id = some holder') :
      ∃ before, sys.tasks.lookup id = some before ∧ before.streamId = holder'.streamId := by
    by_cases hid : id = task
    · subst hid
      rw [htask] at hafter
      exact ⟨holder, hholder, (hnext holder' hafter).symm⟩
    · rw [htasks id hid] at hafter
      exact ⟨holder', hafter, rfl⟩
  refine ⟨fun id id' one two hone htwo hsame => ?_, fun streamId => ?_, fun id later hlater => ?_⟩
  · obtain ⟨before, hbefore, heq⟩ := hheld id one hone
    obtain ⟨before', hbefore', heq'⟩ := hheld id' two htwo
    exact h.locks id id' before before' hbefore hbefore' (by rw [heq, heq', hsame])
  · by_cases hstream : streamId = holder.streamId
    · rw [hstream]
      exact hown
    · exact (h.streams streamId).others hleaves hstream (hslot streamId hstream)
        (hpart streamId hstream)
  · by_cases hid : id = task
    · subst hid
      rw [htask] at hlater
      exact hpoint later hlater
    · rw [htasks id hid] at hlater
      -- the holder of another lock stands on another stream
      refine (h.points id later hlater).others hleaves fun heq => hid ?_
      exact h.locks id task later holder hlater hholder heq

/-- A task that takes the lock of a free stream. -/
theorem OneEpoch.begin (h : OneEpoch R sys) {task : Nat} {holder : CacheTask}
    (hfree : sys.LockFree holder.streamId) (hpoint : AtPoint R sys.cache.toLiveTsCache holder) :
    OneEpoch R { sys with tasks := sys.tasks.insert task holder } := by
  have hother (id : Nat) (other : CacheTask) (hlookup : sys.tasks.lookup id = some other) :
      other.streamId ≠ holder.streamId :=
    hfree ⟨id, other⟩ (AList.mem_lookup_iff.1 hlookup)
  refine ⟨fun id id' one two hone htwo hsame => ?_, h.streams, fun id later hlater => ?_⟩
  · by_cases hid : id = task
    · by_cases hid' : id' = task
      · rw [hid, hid']
      · subst hid
        rw [AList.lookup_insert] at hone
        rw [AList.lookup_insert_ne hid'] at htwo
        cases hone
        exact absurd hsame.symm (hother id' two htwo)
    · rw [AList.lookup_insert_ne hid] at hone
      by_cases hid' : id' = task
      · subst hid'
        rw [AList.lookup_insert] at htwo
        cases htwo
        exact absurd hsame (hother id one hone)
      · rw [AList.lookup_insert_ne hid'] at htwo
        exact h.locks id id' one two hone htwo hsame
  · by_cases hid : id = task
    · subst hid
      rw [AList.lookup_insert] at hlater
      cases hlater
      exact hpoint
    · rw [AList.lookup_insert_ne hid] at hlater
      exact h.points id later hlater

theorem OneEpoch.stepCommit (hR : LawfulSlots R) (h : OneEpoch R sys) {task : Nat}
    {streamId : UInt64} {c : MediaCommit} {point : CommitPoint}
    (hholder : sys.tasks.lookup task = some (.commit streamId c point)) :
    OneEpoch R (cacheStep R K sys (.advance task)).2 := by
  have hown := (h.streams streamId).commitAct (K := K) hR (h.points task _ hholder)
  have hleaves := @leavesOthers_commitAct C R K sys.cache.toLiveTsCache streamId c
    hR.toStreamsApart point
  have hkey (other : UInt64) (hother : other ≠ streamId) (q : Nat) :
      (other, q) ≠ (streamId, c.object.key.object.toNat) := fun heq => hother (Prod.mk.inj heq).1
  rw [cacheStep, hholder]
  cases hact : (sys.cache.toLiveTsCache.commitAct K streamId c point).2 with
  | inl result =>
      refine h.advance none hholder nofun ?_ (fun id hid => ?_) hleaves
        (fun other hother q => lookup_note_ne (hkey other hother q))
        (fun other hother q => lookup_note_ne (hkey other hother q)) hown nofun
      · simp only [hact, AList.lookup_erase]
      · simp only [hact, AList.lookup_erase_ne hid]
  | inr next =>
      refine h.advance (some (.commit streamId c next)) hholder ?_ ?_ (fun id hid => ?_) hleaves
        (fun other hother q => lookup_note_ne (hkey other hother q))
        (fun other hother q => lookup_note_ne (hkey other hother q)) hown ?_
      · intro later hlater
        cases hlater
        rfl
      · simp only [hact]
        exact AList.lookup_replace_self _ hholder
      · simp only [hact]
        exact AList.lookup_replace_ne _ _ hid
      · intro later hlater
        cases hlater
        exact (h.points task _ hholder).commitAct hR hact

theorem OneEpoch.stepRetire (hR : LawfulSlots R) (h : OneEpoch R sys) {task : Nat}
    {streamId : UInt64} {cutoffUnixMs : Nat} {point : RetirePoint}
    (hholder : sys.tasks.lookup task = some (.retire streamId cutoffUnixMs point)) :
    OneEpoch R (cacheStep R K sys (.advance task)).2 := by
  have hown := (h.streams streamId).retireAct hR (h.points task _ hholder)
  have hleaves := @leavesOthers_retireAct C R streamId sys.cache hR.toStreamsApart cutoffUnixMs
    point
  rw [cacheStep, hholder]
  cases hact : (sys.cache.retireAct streamId cutoffUnixMs point).2 with
  | none =>
      refine h.advance none hholder nofun ?_ (fun id hid => ?_) hleaves (fun _ _ _ => rfl)
        (fun _ _ _ => rfl) hown nofun
      · simp only [hact, AList.lookup_erase]
      · simp only [hact, AList.lookup_erase_ne hid]
  | some next =>
      refine h.advance (some (.retire streamId cutoffUnixMs next)) hholder ?_ ?_
        (fun id hid => ?_) hleaves (fun _ _ _ => rfl) (fun _ _ _ => rfl) hown ?_
      · intro later hlater
        cases hlater
        rfl
      · simp only [hact]
        exact AList.lookup_replace_self _ hholder
      · simp only [hact]
        exact AList.lookup_replace_ne _ _ hid
      · intro later hlater
        cases hlater
        exact AtPoint.retireAct hR hact

/-- **Every step keeps one epoch for each stream.** -/
theorem OneEpoch.step (hR : LawfulSlots R) (h : OneEpoch R sys) (event : CacheEvent) :
    OneEpoch R (cacheStep R K sys event).2 := by
  cases event with
  | beginCommit task streamId c =>
      rw [cacheStep]
      split
      · next hbegin => exact h.begin hbegin.2 trivial
      · exact h
  | beginRetire task streamId cutoffUnixMs =>
      rw [cacheStep]
      split
      · next hbegin => exact h.begin hbegin.2.1 nofun
      · exact h
  | advance task =>
      cases hholder : sys.tasks.lookup task with
      | none =>
          rw [cacheStep, hholder]
          exact h
      | some holder =>
          cases holder with
          | commit streamId c point => exact h.stepCommit hR hholder
          | retire streamId cutoffUnixMs point => exact h.stepRetire hR hholder

namespace CacheTasks

/-- The recorded epoch of a stream. -/
def recorded (sys : CacheTasks C) (streamId : UInt64) : Option Nat :=
  sys.cache.state.streamCanonicalEpoch.lookup streamId

/-- The event is the step in which a retirement forgets the stream. -/
def Forgets (sys : CacheTasks C) (streamId : UInt64) (event : CacheEvent) : Prop :=
  ∃ task cutoffUnixMs, event = .advance task ∧
    sys.tasks.lookup task = some (.retire streamId cutoffUnixMs .forgetting)

/-- A process that starts with a new state and an empty chunk cache. -/
structure Fresh (R : ChunkCacheReads C) (sys : CacheTasks C) : Prop where
  state : ∃ startedUnixUs, sys.cache.state = LiveState.new startedUnixUs
  slots : ∀ streamId, NoSlots R sys.cache.toLiveTsCache streamId
  tasks : sys.tasks = ∅

end CacheTasks

theorem OneEpoch.of_fresh (h : sys.Fresh R) : OneEpoch R sys := by
  have hnone (id : Nat) : sys.tasks.lookup id = none := by
    rw [h.tasks]
    rfl
  refine ⟨fun id _ one _ hone => ?_, fun streamId => ?_, fun id later hlater => ?_⟩
  · rw [hnone id] at hone
    cases hone
  · refine .empty (h.slots streamId) fun q => ?_
    obtain ⟨startedUnixUs, hstate⟩ := h.state
    rw [partPresent, hstate]
    rfl
  · rw [hnone id] at hlater
    cases hlater

/-- **A step that is not a retirement never lowers the recorded epoch.** -/
theorem OneEpoch.recorded_le (hR : LawfulSlots R) (h : OneEpoch R sys) {streamId : UInt64}
    {event : CacheEvent} (hkeeps : ¬ sys.Forgets streamId event) {epoch : Nat}
    (hrecorded : sys.recorded streamId = some epoch) :
    ∃ later, (cacheStep R K sys event).2.recorded streamId = some later ∧ epoch ≤ later := by
  have hsame (heq : (cacheStep R K sys event).2.recorded streamId = sys.recorded streamId) :
      ∃ later, (cacheStep R K sys event).2.recorded streamId = some later ∧ epoch ≤ later :=
    ⟨epoch, heq.trans hrecorded, le_refl epoch⟩
  cases event with
  | beginCommit task other c =>
      refine hsame ?_
      rw [cacheStep]
      split <;> rfl
  | beginRetire task other cutoffUnixMs =>
      refine hsame ?_
      rw [cacheStep]
      split <;> rfl
  | advance task =>
      cases hholder : sys.tasks.lookup task with
      | none =>
          rw [cacheStep, hholder] at hsame ⊢
          exact hsame rfl
      | some holder =>
          cases holder with
          | commit other c point =>
              rw [cacheStep, hholder] at hsame ⊢
              by_cases hother : streamId = other
              · subst hother
                by_cases hresets : ∃ previous, point = .resetting previous
                · obtain ⟨previous, rfl⟩ := hresets
                  obtain ⟨hprevious, holder, _⟩ := h.points task _ hholder
                  have hlt := holder epoch (hprevious.symm.trans hrecorded)
                  exact ⟨_, LiveTsCache.epoch_resetEpoch, hlt.le⟩
                · by_cases hzeroes : ∃ previous, point = .zeroing previous
                  · obtain ⟨previous, rfl⟩ := hzeroes
                    exact hsame rfl
                  · exact hsame (bringsOnly_commitAct hR fun previous =>
                      ⟨fun heq => hzeroes ⟨previous, heq⟩, fun heq => hresets ⟨previous, heq⟩⟩).epoch
              · exact hsame ((leavesOthers_commitAct hR.toStreamsApart point).same hother).1
          | retire other cutoffUnixMs point =>
              rw [cacheStep, hholder] at hsame ⊢
              by_cases hother : streamId = other
              · subst hother
                cases point with
                | checking =>
                    refine hsame ?_
                    show (sys.cache.retireAct streamId cutoffUnixMs
                      .checking).1.state.streamCanonicalEpoch.lookup streamId = _
                    unfold HlsCache.retireAct
                    dsimp only
                    split <;> rfl
                | zeroing => exact hsame rfl
                | forgetting => exact absurd ⟨task, cutoffUnixMs, rfl, hholder⟩ hkeeps
                | clearing => exact hsame rfl
              · exact hsame ((leavesOthers_retireAct hR.toStreamsApart point).same hother).1

/-- **A commit from before the recorded epoch** has done nothing so far and is refused. -/
theorem OneEpoch.stale (h : OneEpoch R sys) {task : Nat} {streamId : UInt64} {c : MediaCommit}
    {point : CommitPoint} {epoch : Nat}
    (hholder : sys.tasks.lookup task = some (.commit streamId c point))
    (hrecorded : sys.recorded streamId = some epoch) (hstale : c.object.key.epoch.toNat < epoch) :
    point = .locked ∧ ∃ error, cacheStep R K sys (.advance task) = ((), { sys with
      tasks := sys.tasks.erase task
      results := sys.results.insert task (.error error) }) := by
  have hpoint := h.points task _ hholder
  have hlocked : point = .locked := by
    simp only [CacheTasks.recorded] at hrecorded
    simp only [AtPoint, hrecorded] at hpoint
    cases point with
    | locked => rfl
    | zeroing previous =>
        have := hpoint.2 epoch hpoint.1.symm
        omega
    | resetting previous =>
        have := hpoint.2.1 epoch hpoint.1.symm
        omega
    | recording =>
        cases hpoint
        omega
    | initializing reboxed =>
        cases hpoint
        omega
    | storing reboxed =>
        cases hpoint
        omega
    | finishing reboxed cachedBytes =>
        cases hpoint
        omega
  refine ⟨hlocked, ?_⟩
  subst hlocked
  cases hadmitted : sys.cache.toLiveTsCache.admitObject streamId c.object with
  | ok admitted =>
      have hle := LiveTsCache.recorded_le_of_admitObject hadmitted hrecorded
      omega
  | error error =>
      refine ⟨error, ?_⟩
      have hact : sys.cache.toLiveTsCache.commitAct K streamId c .locked =
          (sys.cache.toLiveTsCache, .inl (.error error)) := by
        rw [LiveTsCache.commitAct, hadmitted]
      rw [cacheStep, hholder]
      simp only [hact]
      rw [note_of_old (fun hafter => hafter), note_of_old (fun hafter => hafter)]

/-- **One epoch at a time.**  After every run of interleaved commits and retirements: until a
retirement forgets the stream its recorded epoch does not decrease; a commit from before the
recorded epoch is refused and changes nothing; and every slot and every part of the stream is from
an object of the recorded epoch, so that without a recorded epoch there is none. -/
theorem one_epoch_at_a_time (hR : LawfulSlots R) {start : CacheTasks C} (hfresh : start.Fresh R)
    (events : List CacheEvent) (streamId : UInt64) :
    let sys := exec (cacheStep R K) start events
    (∀ later : List CacheEvent,
      (∀ visit ∈ trace (cacheStep R K) sys later, ¬ visit.1.Forgets streamId visit.2) →
      ∀ epoch, sys.recorded streamId = some epoch → ∃ epoch',
        (exec (cacheStep R K) sys later).recorded streamId = some epoch' ∧ epoch ≤ epoch') ∧
    (∀ task c point epoch, sys.tasks.lookup task = some (.commit streamId c point) →
      sys.recorded streamId = some epoch → c.object.key.epoch.toNat < epoch →
      point = .locked ∧ ∃ error, cacheStep R K sys (.advance task) = ((), { sys with
        tasks := sys.tasks.erase task
        results := sys.results.insert task (.error error) })) ∧
    (∀ q, slotPresent R sys.cache.toLiveTsCache streamId q = true → ∃ epoch,
      sys.recorded streamId = some epoch ∧ sys.slotEpoch.lookup (streamId, q) = some epoch) ∧
    (∀ q, partPresent sys.cache.toLiveTsCache streamId q = true → ∃ epoch,
      sys.recorded streamId = some epoch ∧ sys.partEpoch.lookup (streamId, q) = some epoch) := by
  intro sys
  have hone : OneEpoch R sys :=
    exec_invariant (cacheStep R K) (OneEpoch R) (fun _ event h => h.step hR event) events
      (.of_fresh hfresh)
  refine ⟨fun later hkeeps epoch hrecorded => ?_,
    fun task c point epoch hholder hrecorded hstale => hone.stale hholder hrecorded hstale,
    (hone.streams streamId).slots, (hone.streams streamId).parts⟩
  have hrun := exec_invariant_along (cacheStep R K)
    (fun sys => OneEpoch R sys ∧ ∃ epoch', sys.recorded streamId = some epoch' ∧ epoch ≤ epoch')
    (fun sys event => ¬ sys.Forgets streamId event)
    (fun sys event hkeeps ⟨hsys, epoch', hepoch', hle⟩ => by
      obtain ⟨next, hnext, hle'⟩ := hsys.recorded_le (K := K) hR hkeeps hepoch'
      exact ⟨hsys.step hR event, next, hnext, hle.trans hle'⟩)
    later sys hkeeps ⟨hone, epoch, hrecorded, le_refl epoch⟩
  exact hrun.2

end Runs

theorem sampleReads_slots : LawfulSlots sampleReads where
  toStreamsApart := sampleReads_apart
  zero_slots := by
    intro chunk streamId slot
    simp
  init_slots := by
    intro chunk streamId init slot
    simp
  put_slots := by
    intro chunk streamId slot base bytes other hother h
    simp only [sampleStore] at h
    split at h
    · exact h
    · simp only [Function.update_self, SampleStream.put] at h
      have hne : (other == slot) = false := by simpa using hother
      simpa only [List.lookup_cons, hne] using h

/-- The start of a process with an empty cache. -/
def freshTasks : CacheTasks sampleStore where
  cache := { emptyHlsCache 2 6 with state := LiveState.new 0 }
  tasks := ∅
  results := ∅
  slotEpoch := ∅
  partEpoch := ∅

/-- Part 0 of epoch 42 is committed; then a commit of part 1 from epoch 41 takes the lock. -/
def staleCommitRun : List CacheEvent :=
  let stale := feedCommit 1 false false
  .beginCommit 0 3 (feedCommit 0 false false) :: List.replicate 7 (.advance 0) ++
    [.beginCommit 1 3 { stale with object := { stale.object with key := ⟨"3", 41, 1⟩ } }]

/-- The part is there from epoch 42, and the later commit from epoch 41 is refused. -/
theorem one_epoch_stale_commit :
    let sys := exec (cacheStep sampleReads sampleSoundkit) freshTasks staleCommitRun
    sys.slotEpoch.lookup (3, 0) = some 42 ∧
      ∃ error, cacheStep sampleReads sampleSoundkit sys (.advance 1) = ((), { sys with
        tasks := sys.tasks.erase 1
        results := sys.results.insert 1 (.error error) }) := by
  intro sys
  have hfresh : freshTasks.Fresh sampleReads := ⟨⟨0, rfl⟩, fun _ _ => rfl, rfl⟩
  obtain ⟨_, hstale, hslots, _⟩ := one_epoch_at_a_time (K := sampleSoundkit) sampleReads_slots hfresh
    staleCommitRun 3
  have hrecorded : sys.recorded 3 = some 42 := by rfl
  obtain ⟨epoch, hepoch, hnoted⟩ := hslots 0 rfl
  rw [hrecorded] at hepoch
  cases hepoch
  exact ⟨hnoted, (hstale 1 _ .locked 42 rfl hrecorded (by decide)).2⟩

end AvMesh.LiveCache
