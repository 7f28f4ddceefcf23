/-
  AvMesh.LiveCache.ByteStream
  ───────────────────────────
  **THE LEGACY BYTE STREAM** (`LiveTsCache::{push_payload, rotate_if_due}`,
  src/main.rs).

  Payloads that are not media objects are joined in `state.current` and cut
  into parts of the cache's own stream: by a push that makes the bytes old or
  many enough, or by the rotation timer.  Both entry points take the bytes
  under the state lock (`take_current`) and write the part after it
  (`commit_part`).

  Times are `Instant`s in nanoseconds; `duration_since` gives zero for a later
  instant, as `Nat` subtraction does.  One ingest task makes all the calls, one
  after another, so a call is a step.

  Main result: `byte_stream_conserved` — the parts are the pushed bytes, in
  order, cut into numbered non-empty pieces.
-/
import AvMesh.Lib.Chunks
import AvMesh.Lib.StepSystem
import AvMesh.LiveCache.Intact

namespace AvMesh.LiveCache

open AvMesh.Lib

/-! ## §1. The bytes that are not in a part yet. -/

structure PendingPart where
  seq : UInt64
  bytes : Nat
  durationMs : Nat
  committedUnixMs : Nat
  data : Bytes
  deriving DecidableEq

/-- The fields of `LiveState` that only the byte stream uses. -/
structure PendingBytes where
  current : Bytes
  currentStarted : Nat
  currentStartedUnixMs : Nat
  nextSeq : UInt64

namespace PendingBytes

/-- What `LiveState::new` sets. -/
def new (now nowMs : Nat) : PendingBytes where
  current := []
  currentStarted := now
  currentStartedUnixMs := nowMs
  nextSeq := 0

/-- The start times are set when the buffer is empty; then the payload is appended. -/
def extend (p : PendingBytes) (payload : Bytes) (now nowMs : Nat) : PendingBytes :=
  let p :=
    if p.current.isEmpty then { p with currentStarted := now, currentStartedUnixMs := nowMs } else p
  { p with current := p.current ++ payload }

/-- `now.duration_since(current_started) >= part_target`. -/
def Due (p : PendingBytes) (partTarget now : Nat) : Prop := now - p.currentStarted ≥ partTarget

instance (p : PendingBytes) (partTarget now : Nat) : Decidable (p.Due partTarget now) :=
  inferInstanceAs (Decidable (_ ≥ _))

def takeCurrent (p : PendingBytes) (now nowMs : Nat) : Option PendingPart × PendingBytes :=
  if p.current.isEmpty then
    -- no bytes, no part; only the start of the next one is set
    (none, { p with currentStarted := now, currentStartedUnixMs := nowMs })
  else
    (some {
        seq := p.nextSeq
        bytes := p.current.length
        -- whole milliseconds, at least one
        durationMs := min (max ((now - p.currentStarted) / 1000000) 1) u64Max
        committedUnixMs := nowMs
        data := p.current },
      { current := []
        currentStarted := now
        currentStartedUnixMs := nowMs
        nextSeq := p.nextSeq + 1 })

end PendingBytes

/-! ## §2. The two entry points. -/

/-- A live cache with the buffer of its own stream. -/
structure ByteStreamCache (C : ChunkCacheCrate) extends LiveTsCache C where
  partTarget : Nat
  maxPartBytes : Nat
  pending : PendingBytes

/-- The clock readings of one call. -/
structure PushClock where
  now : Nat
  nowMs : Nat
  availableUs : Nat

namespace ByteStreamCache

variable {C : ChunkCacheCrate}

/-- A new cache, with the part limits of `LiveTsCache::new`. -/
def new (cache : LiveTsCache C) (partTarget maxPartBytes now nowMs : Nat) : ByteStreamCache C where
  toLiveTsCache := cache
  partTarget := partTarget
  maxPartBytes := maxPartBytes
  pending := PendingBytes.new now nowMs

/-- The counters of a push, plain 64-bit sums. -/
def recordDatagram (s : LiveState) (bytes nowMs : Nat) : LiveState :=
  { s with
    datagramsReceived := (s.datagramsReceived + 1) % 2 ^ 64
    lastIngestUnixMs := some nowMs
    bytesReceived := (s.bytesReceived + bytes) % 2 ^ 64 }

/-- The part of `push_payload` under the state lock. -/
def pushPending (cache : ByteStreamCache C) (payload : Bytes) (clock : PushClock) :
    Option PendingPart × ByteStreamCache C :=
  let state := recordDatagram cache.state payload.length clock.nowMs
  let pending := cache.pending.extend payload clock.now clock.nowMs
  -- the payload is in the buffer before the limits are looked at, so a part can exceed its size
  let (finalized, pending) :=
    if pending.Due cache.partTarget clock.now ∨ pending.current.length ≥ cache.maxPartBytes then
      pending.takeCurrent clock.now clock.nowMs
    else (none, pending)
  (finalized, { cache with state, pending })

/-- The part of `rotate_if_due` under the state lock. -/
def rotatePending (cache : ByteStreamCache C) (force : Bool) (clock : PushClock) :
    Option PendingPart × ByteStreamCache C :=
  let (finalized, pending) :=
    if force ∨ cache.pending.Due cache.partTarget clock.now then
      cache.pending.takeCurrent clock.now clock.nowMs
    else (none, cache.pending)
  (finalized, { cache with pending })

/-- What `commit_part` records once the part is in the chunk cache. -/
def recordPart (cache : ByteStreamCache C) (part : PendingPart) (availableUs : Nat) :
    ByteStreamCache C :=
  let s := { cache.state with
    lastCommittedSeq := some part.seq.toNat
    lastCommittedUnixMs := some part.committedUnixMs
    lastCommittedBytes := some part.bytes
    lastCommittedDurationMs := some part.durationMs }
  { cache with
    state := s.recordPartAvailable cache.streamId part.seq.toNat part.bytes availableUs
      (tryFrom 32 part.durationMs) false false cache.windowParts
    partUpdates := part.seq.toNat }

def commitPart (cache : ByteStreamCache C) (part : PendingPart) (availableUs : Nat) :
    CacheResult Unit × ByteStreamCache C :=
  match C.addForStreamId cache.chunkCache cache.streamId part.seq.toNat part.data with
  -- the part has left the buffer, and its bytes are lost
  | (.error err, chunkCache) => (.error s!"chunk cache write failed: {err}", { cache with chunkCache })
  | (.ok _, chunkCache) => (.ok (), ({ cache with chunkCache }).recordPart part availableUs)

/-- `if let Some(part) = finalized { self.commit_part(part).await?; } Ok(())`. -/
def commitFinalized (cache : ByteStreamCache C) (finalized : Option PendingPart)
    (availableUs : Nat) : CacheResult Unit × ByteStreamCache C :=
  match finalized with
  | some part => cache.commitPart part availableUs
  | none => (.ok (), cache)

def pushPayload (cache : ByteStreamCache C) (payload : Bytes) (clock : PushClock) :
    CacheResult Unit × ByteStreamCache C :=
  let (finalized, cache) := cache.pushPending payload clock
  cache.commitFinalized finalized clock.availableUs

def rotateIfDue (cache : ByteStreamCache C) (force : Bool) (clock : PushClock) :
    CacheResult Unit × ByteStreamCache C :=
  let (finalized, cache) := cache.rotatePending force clock
  cache.commitFinalized finalized clock.availableUs

/-! ## §3. Runs. -/

inductive Call where
  | push (payload : Bytes) (clock : PushClock)
  | rotate (force : Bool) (clock : PushClock)

/-- What a call does under the state lock. -/
def underLock (cache : ByteStreamCache C) : Call → Option PendingPart × ByteStreamCache C
  | .push payload clock => cache.pushPending payload clock
  | .rotate force clock => cache.rotatePending force clock

def step (cache : ByteStreamCache C) : Call → CacheResult Unit × ByteStreamCache C
  | .push payload clock => cache.pushPayload payload clock
  | .rotate force clock => cache.rotateIfDue force clock

/-- The payloads of a run. -/
def payloads (calls : List Call) : List Bytes :=
  calls.filterMap fun
    | .push payload _ => some payload
    | .rotate _ _ => none

/-- The parts of a run whose calls returned `Ok`. -/
def committed (cache : ByteStreamCache C) (calls : List Call) : List PendingPart :=
  (trace step cache calls).filterMap fun e => (e.1.underLock e.2).1

/-- The cache after the writes of `parts`. -/
def written (chunkCache : C.Cache) (streamId : UInt64) (parts : List PendingPart) : C.Cache :=
  parts.foldl
    (fun chunkCache part => (C.addForStreamId chunkCache streamId part.seq.toNat part.data).2)
    chunkCache

/-! ## §4. What one call does to the buffer. -/

variable {cache cache' : ByteStreamCache C} {call : Call} {part : PendingPart}

/-- The bytes a call adds to the buffer. -/
def Call.added : Call → Bytes
  | .push payload _ => payload
  | .rotate _ _ => []

/-- The call leaves all bytes in the buffer, or cuts all of them into one part. -/
def Kept (limit : Nat) (before after : PendingBytes) (added : Bytes) : Prop :=
  after.current = before.current ++ added ∧ after.nextSeq = before.nextSeq ∧
    after.current.length < limit

def Cut (part : PendingPart) (before after : PendingBytes) (added : Bytes) : Prop :=
  part.data = before.current ++ added ∧ part.data ≠ [] ∧ part.seq = before.nextSeq ∧
    after.current = [] ∧ after.nextSeq = before.nextSeq + 1

theorem extend_current (p : PendingBytes) (payload : Bytes) (now nowMs : Nat) :
    (p.extend payload now nowMs).current = p.current ++ payload := by
  unfold PendingBytes.extend
  split
  · rfl
  · rfl

theorem extend_nextSeq (p : PendingBytes) (payload : Bytes) (now nowMs : Nat) :
    (p.extend payload now nowMs).nextSeq = p.nextSeq := by
  unfold PendingBytes.extend
  split
  · rfl
  · rfl

/-- Taking the bytes cuts them, unless there are none. -/
theorem takeCurrent_cases {before p : PendingBytes} {added : Bytes} {limit now nowMs : Nat}
    (hlimit : 0 < limit) (hcurrent : p.current = before.current ++ added)
    (hseq : p.nextSeq = before.nextSeq) :
    ((p.takeCurrent now nowMs).1 = none ∧
      Kept limit before (p.takeCurrent now nowMs).2 added) ∨
    ∃ part, (p.takeCurrent now nowMs).1 = some part ∧
      Cut part before (p.takeCurrent now nowMs).2 added := by
  unfold PendingBytes.takeCurrent
  split
  · next hempty =>
      -- an empty buffer is below any positive limit
      refine .inl ⟨rfl, hcurrent, hseq, ?_⟩
      show p.current.length < limit
      rw [List.isEmpty_iff.mp hempty]
      exact hlimit
  · next hne =>
      refine .inr ⟨_, rfl, hcurrent, ?_, hseq, rfl, ?_⟩
      · intro hnil
        exact hne (List.isEmpty_iff.mpr hnil)
      · show p.nextSeq + 1 = _
        rw [hseq]

theorem takeCurrent_current (p : PendingBytes) (now nowMs : Nat) :
    (p.takeCurrent now nowMs).2.current = [] := by
  unfold PendingBytes.takeCurrent
  split
  · next hempty => exact List.isEmpty_iff.mp hempty
  · rfl

/-- **The two entry points** do one of the two things. -/
theorem underLock_cases (hlimit : 0 < cache.maxPartBytes)
    (hshort : cache.pending.current.length < cache.maxPartBytes) (call : Call) :
    ((cache.underLock call).1 = none ∧
      Kept cache.maxPartBytes cache.pending (cache.underLock call).2.pending call.added) ∨
    ∃ part, (cache.underLock call).1 = some part ∧
      Cut part cache.pending (cache.underLock call).2.pending call.added := by
  cases call with
  | push payload clock =>
      have hcurrent := extend_current cache.pending payload clock.now clock.nowMs
      have hseq := extend_nextSeq cache.pending payload clock.now clock.nowMs
      show ((cache.pushPending payload clock).1 = none ∧ _) ∨ _
      unfold underLock pushPending
      dsimp only
      split
      · exact takeCurrent_cases hlimit hcurrent hseq
      · next hstays =>
          -- neither old nor many enough: the buffer is below the limit
          exact .inl ⟨rfl, hcurrent, hseq, Nat.lt_of_not_le fun hle => hstays (.inr hle)⟩
  | rotate force clock =>
      have hcurrent : cache.pending.current = cache.pending.current ++ [] :=
        (List.append_nil _).symm
      show ((cache.rotatePending force clock).1 = none ∧ _) ∨ _
      unfold underLock rotatePending
      dsimp only
      split
      · exact takeCurrent_cases hlimit hcurrent rfl
      -- a timer that is early leaves the buffer as it was
      · exact .inl ⟨rfl, hcurrent, rfl, hshort⟩

/-- A forced rotation leaves nothing in the buffer. -/
theorem rotatePending_true_current (cache : ByteStreamCache C) (clock : PushClock) :
    (cache.rotatePending true clock).2.pending.current = [] := by
  unfold rotatePending
  rw [if_pos (.inl rfl)]
  exact takeCurrent_current cache.pending clock.now clock.nowMs

/-! ## §5. What the commit does. -/

/-- Under the lock nothing is written. -/
theorem underLock_frame (cache : ByteStreamCache C) (call : Call) :
    (cache.underLock call).2.chunkCache = cache.chunkCache ∧
      (cache.underLock call).2.streamId = cache.streamId ∧
      (cache.underLock call).2.maxPartBytes = cache.maxPartBytes := by
  cases call with
  | push payload clock => exact ⟨rfl, rfl, rfl⟩
  | rotate force clock => exact ⟨rfl, rfl, rfl⟩

theorem step_eq (cache : ByteStreamCache C) (call : Call) :
    ∃ availableUs, cache.step call =
      (cache.underLock call).2.commitFinalized (cache.underLock call).1 availableUs := by
  cases call with
  | push payload clock => exact ⟨clock.availableUs, rfl⟩
  | rotate force clock => exact ⟨clock.availableUs, rfl⟩

theorem commitPart_frame (cache : ByteStreamCache C) (part : PendingPart) (availableUs : Nat) :
    (cache.commitPart part availableUs).2.pending = cache.pending ∧
      (cache.commitPart part availableUs).2.streamId = cache.streamId ∧
      (cache.commitPart part availableUs).2.maxPartBytes = cache.maxPartBytes := by
  unfold commitPart
  split
  · exact ⟨rfl, rfl, rfl⟩
  · exact ⟨rfl, rfl, rfl⟩

/-- The buffer and the settings are not the commit's. -/
theorem commitFinalized_frame (cache : ByteStreamCache C) (finalized : Option PendingPart)
    (availableUs : Nat) :
    (cache.commitFinalized finalized availableUs).2.pending = cache.pending ∧
      (cache.commitFinalized finalized availableUs).2.streamId = cache.streamId ∧
      (cache.commitFinalized finalized availableUs).2.maxPartBytes = cache.maxPartBytes := by
  cases finalized with
  | none => exact ⟨rfl, rfl, rfl⟩
  | some part => exact cache.commitPart_frame part availableUs

/-- A commit that returns has written the part. -/
theorem commitFinalized_chunkCache {finalized : Option PendingPart} {availableUs : Nat}
    (hok : (cache.commitFinalized finalized availableUs).1 = .ok ()) :
    (cache.commitFinalized finalized availableUs).2.chunkCache
      = written cache.chunkCache cache.streamId finalized.toList := by
  cases finalized with
  | none => rfl
  | some part =>
      show (cache.commitPart part availableUs).2.chunkCache
        = (C.addForStreamId cache.chunkCache cache.streamId part.seq.toNat part.data).2
      replace hok : (cache.commitPart part availableUs).1 = .ok () := hok
      unfold commitPart at hok ⊢
      cases hwrite : C.addForStreamId cache.chunkCache cache.streamId part.seq.toNat part.data with
      | mk result chunkCache =>
          rw [hwrite] at hok
          cases result with
          | error err => cases hok
          | ok _ => rfl

/-! ## §6. A whole run. -/

/-- What a run of successful calls has done with the payloads. -/
structure Conserved (start : ByteStreamCache C) (calls : List Call) (cache : ByteStreamCache C) :
    Prop where
  chunked : Chunked start.maxPartBytes (payloads calls)
    ((committed start calls).map (·.data)) cache.pending.current
  seqs : (committed start calls).map (·.seq)
    = (List.range (committed start calls).length).map UInt64.ofNat
  nextSeq : cache.pending.nextSeq = UInt64.ofNat (committed start calls).length
  short : cache.pending.current.length < cache.maxPartBytes
  limit : cache.maxPartBytes = start.maxPartBytes
  streamId : cache.streamId = start.streamId
  stored : cache.chunkCache = written start.chunkCache start.streamId (committed start calls)

theorem committed_append (start : ByteStreamCache C) (calls : List Call) (call : Call) :
    committed start (calls ++ [call])
      = committed start calls ++ ((exec step start calls).underLock call).1.toList :=
  filterMap_trace_append_singleton step _ start calls call

theorem payloads_append (calls : List Call) (call : Call) :
    payloads (calls ++ [call]) = payloads calls ++ payloads [call] :=
  List.filterMap_append

theorem written_append (chunkCache : C.Cache) (streamId : UInt64) (parts more : List PendingPart) :
    written chunkCache streamId (parts ++ more)
      = written (written chunkCache streamId parts) streamId more :=
  List.foldl_append

/-- A call that cuts nothing only feeds the chunker. -/
theorem chunked_kept {limit : Nat} {calls : List Call} {chunks : List Bytes} {kept : Bytes}
    (h : Chunked limit (payloads calls) chunks kept) (call : Call) :
    Chunked limit (payloads (calls ++ [call])) chunks (kept ++ call.added) := by
  rw [payloads_append]
  cases call with
  | push payload clock => exact h.feed payload
  | rotate force clock =>
      show Chunked limit (payloads calls ++ []) chunks (kept ++ [])
      rw [List.append_nil, List.append_nil]
      exact h

/-- A call that cuts feeds it and cuts. -/
theorem chunked_cut {limit : Nat} {calls : List Call} {chunks : List Bytes} {kept : Bytes}
    (h : Chunked limit (payloads calls) chunks kept) (hlt : kept.length < limit) (call : Call)
    (hne : kept ++ call.added ≠ []) :
    Chunked limit (payloads (calls ++ [call])) (chunks ++ [kept ++ call.added]) [] := by
  rw [payloads_append]
  cases call with
  | push payload clock => exact h.feed_cut hne hlt
  | rotate force clock =>
      replace hne : kept ++ [] ≠ [] := hne
      show Chunked limit (payloads calls ++ []) (chunks ++ [kept ++ []]) []
      rw [List.append_nil] at hne
      rw [List.append_nil, List.append_nil]
      exact h.cut hne hlt

theorem range_succ_map (n : Nat) :
    (List.range (n + 1)).map UInt64.ofNat = (List.range n).map UInt64.ofNat ++ [UInt64.ofNat n] := by
  rw [List.range_succ, List.map_append, List.map_singleton]

/-- What the run has done with the chunk cache, after one more call. -/
theorem stored_step {start : ByteStreamCache C} {calls : List Call} {availableUs : Nat}
    (h : Conserved start calls (exec step start calls)) (call : Call)
    (hok : (((exec step start calls).underLock call).2.commitFinalized
      ((exec step start calls).underLock call).1 availableUs).1 = .ok ()) :
    (((exec step start calls).underLock call).2.commitFinalized
      ((exec step start calls).underLock call).1 availableUs).2.chunkCache
      = written start.chunkCache start.streamId (committed start (calls ++ [call])) := by
  obtain ⟨hchunk, hstream, -⟩ := underLock_frame (exec step start calls) call
  rw [commitFinalized_chunkCache hok, hchunk, hstream, h.stored, h.streamId, committed_append,
    written_append]

/-- **The step**: one more successful call. -/
theorem Conserved.step {start : ByteStreamCache C} {calls : List Call}
    (hlimit : 0 < start.maxPartBytes)
    (h : Conserved start calls (exec step start calls)) (call : Call)
    (hok : ((exec ByteStreamCache.step start calls).step call).1 = .ok ()) :
    Conserved start (calls ++ [call]) ((exec ByteStreamCache.step start calls).step call).2 := by
  obtain ⟨availableUs, hstep⟩ := (exec ByteStreamCache.step start calls).step_eq call
  rw [hstep] at hok ⊢
  obtain ⟨hpending, hstream, hmax⟩ := commitFinalized_frame
    ((exec ByteStreamCache.step start calls).underLock call).2
    ((exec ByteStreamCache.step start calls).underLock call).1 availableUs
  obtain ⟨-, hstream', hmax'⟩ := underLock_frame (exec ByteStreamCache.step start calls) call
  have hlimit' : 0 < (exec ByteStreamCache.step start calls).maxPartBytes := by
    rw [h.limit]
    exact hlimit
  have hstored := stored_step h call hok
  -- neither the size limit nor the stream of the cache ever changes
  have hlimitKept := (hmax.trans hmax').trans h.limit
  have hstreamKept := (hstream.trans hstream').trans h.streamId
  rcases underLock_cases hlimit' h.short call with
    ⟨hnone, hcurrent, hseq, hshort⟩ | ⟨part, hsome, hdata, hne, hpart, hcurrent, hseq⟩
  · -- nothing was cut: the buffer has grown, the parts are the same
    have hparts : committed start (calls ++ [call]) = committed start calls := by
      rw [committed_append, hnone, Option.toList_none, List.append_nil]
    constructor
    case chunked =>
      rw [hparts, hpending, hcurrent]
      exact chunked_kept h.chunked call
    case seqs =>
      rw [hparts]
      exact h.seqs
    case nextSeq =>
      rw [hparts, hpending, hseq]
      exact h.nextSeq
    case short =>
      rw [hpending, hmax, hmax']
      exact hshort
    case limit => exact hlimitKept
    case streamId => exact hstreamKept
    case stored => exact hstored
  · -- one part more, numbered by the counter, and the buffer is empty
    have hparts : committed start (calls ++ [call]) = committed start calls ++ [part] := by
      rw [committed_append, hsome, Option.toList_some]
    constructor
    case chunked =>
      rw [hparts, hpending, hcurrent, List.map_append, List.map_singleton, hdata]
      -- the buffer was below the limit before this call's payload
      refine chunked_cut h.chunked ?_ call ?_
      · rw [← h.limit]
        exact h.short
      · rw [← hdata]
        exact hne
    case seqs =>
      rw [hparts, List.map_append, List.map_singleton, List.length_append, List.length_singleton,
        range_succ_map, h.seqs, hpart, h.nextSeq]
    case nextSeq =>
      rw [hparts, hpending, hseq, List.length_append, List.length_singleton, h.nextSeq]
      exact (UInt64.ofNat_add _ 1).symm
    case short =>
      rw [hpending, hcurrent, hmax, hmax']
      exact hlimit'
    case limit => exact hlimitKept
    case streamId => exact hstreamKept
    case stored => exact hstored

/-- **The run.** -/
theorem conserved_exec (cache : LiveTsCache C) (partTarget now nowMs : Nat) {maxPartBytes : Nat}
    (hlimit : 0 < maxPartBytes) (calls : List Call)
    (hok : ∀ e ∈ trace step (new cache partTarget maxPartBytes now nowMs) calls,
      (e.1.step e.2).1 = .ok ()) :
    Conserved (new cache partTarget maxPartBytes now nowMs) calls
      (exec step (new cache partTarget maxPartBytes now nowMs) calls) := by
  -- on the calls so far: as long as all of them succeeded
  refine exec_history step (fun calls cache' =>
    (∀ e ∈ trace step (new cache partTarget maxPartBytes now nowMs) calls,
      (e.1.step e.2).1 = .ok ()) →
    Conserved (new cache partTarget maxPartBytes now nowMs) calls cache') _ ?_ ?_ calls hok
  · intro _
    exact ⟨Chunked.nil _, rfl, rfl, hlimit, rfl, rfl, rfl⟩
  · intro calls call ih hok
    rw [trace_append] at hok
    exact Conserved.step hlimit (ih fun e he => hok e (List.mem_append_left _ he)) call
      (hok _ (List.mem_append_right _ (List.mem_singleton_self _)))

/-- **The byte stream loses nothing**, for every run of pushes and rotations on a
new cache whose writes succeed: the parts are numbered from zero, none is empty,
their bytes and then the buffer are the pushed bytes, only its last payload takes
a part past the limit, the parts are what the chunk cache was given, and a forced
rotation empties the buffer. -/
theorem byte_stream_conserved (cache : LiveTsCache C) (partTarget maxPartBytes now nowMs : Nat)
    (hlimit : 0 < maxPartBytes) (calls : List Call)
    (hok : ∀ e ∈ trace step (new cache partTarget maxPartBytes now nowMs) calls,
      (e.1.step e.2).1 = .ok ()) :
    let last := exec step (new cache partTarget maxPartBytes now nowMs) calls
    let parts := committed (new cache partTarget maxPartBytes now nowMs) calls
    parts.map (·.seq) = (List.range parts.length).map UInt64.ofNat ∧
      (∀ part ∈ parts, part.data ≠ []) ∧
      (parts.map (·.data)).flatten ++ last.pending.current = (payloads calls).flatten ∧
      Chunked maxPartBytes (payloads calls) (parts.map (·.data)) last.pending.current ∧
      last.chunkCache = written cache.chunkCache cache.streamId parts ∧
      ∀ clock, (last.rotateIfDue true clock).2.pending.current = [] := by
  have h := conserved_exec cache partTarget now nowMs hlimit calls hok
  refine ⟨h.seqs, ?_, h.chunked.flatten_append, h.chunked, h.stored, ?_⟩
  · intro part hpart
    exact h.chunked.ne_nil (List.mem_map_of_mem hpart)
  · intro clock
    show ((ByteStreamCache.rotatePending _ true clock).2.commitFinalized _ _).2.pending.current = []
    rw [(commitFinalized_frame _ _ _).1]
    exact rotatePending_true_current _ clock

/-- A chunk cache that takes every write. -/
theorem sample_step_ok (cache : ByteStreamCache LiveTsCache.sampleChunkCache) (call : Call) :
    (cache.step call).1 = .ok () := by
  obtain ⟨availableUs, hstep⟩ := cache.step_eq call
  rw [hstep]
  cases (cache.underLock call).1 with
  | none => rfl
  | some part => rfl

/-- Two payloads pass the limit, the timer cuts the third, and the shutdown the last. -/
def sampleCalls : List Call :=
  [.push [1, 2, 3] ⟨5, 0, 0⟩, .rotate false ⟨7, 0, 0⟩, .push [4, 5] ⟨9, 0, 0⟩,
    .push [6] ⟨10, 0, 0⟩, .rotate false ⟨30, 0, 0⟩, .push [7] ⟨31, 0, 0⟩, .rotate true ⟨32, 0, 0⟩]

theorem byte_stream_conserved_sample :
    (committed (new (LiveTsCache.sampleCache 41) 20 4 0 0) sampleCalls).map (·.data)
        = [[1, 2, 3, 4, 5], [6], [7]] ∧
      ((committed (new (LiveTsCache.sampleCache 41) 20 4 0 0) sampleCalls).map (·.data)).flatten ++
        (exec step (new (LiveTsCache.sampleCache 41) 20 4 0 0) sampleCalls).pending.current
        = [1, 2, 3, 4, 5, 6, 7] :=
  ⟨rfl, (byte_stream_conserved (LiveTsCache.sampleCache 41) 20 4 0 0 (by decide) sampleCalls
    fun e _ => sample_step_ok e.1 e.2).2.2.1⟩

end ByteStreamCache

end AvMesh.LiveCache
