/-
  AvMesh.LiveCache.Retention
  ──────────────────────────
  **THE RETAINED PARTS OF A STREAM, IN ANY ORDER OF ARRIVAL**
  (`LiveState::record_part_available`).

  Everything `record_part_available` reads and writes of one stream is its
  `StreamIndex`; a call leaves the other streams alone, and retiring a stream or
  switching its epoch empties its index.  So the state after any run is, stream
  by stream, the state after the calls of that stream since its last reset
  (`index_exec`).

  Main result: `retention_window`.  The parts are the window of `windowParts`
  numbers below the greatest one, each as it was first recorded, and the byte
  account is their sum.

  The general part, a window over numbered items, is `Lib.KeyWindow`.
-/
import AvMesh.Lib.KeyWindow
import AvMesh.Lib.StepSystem
import AvMesh.LiveCache.Epochs

namespace AvMesh.LiveCache

open AvMesh.Lib

/-! ## §1. The calls. -/

/-- The arguments of `record_part_available`, less the window. -/
structure PartCall where
  streamId : UInt64
  sequence : UInt64
  bytes : UInt64
  availableUnixUs : Nat
  durationMs : Option Nat
  keyframe : Bool
  keyframeSegments : Bool
  deriving DecidableEq

namespace LiveState

def recordPart (windowParts : Nat) (s : LiveState) (call : PartCall) : LiveState :=
  s.recordPartAvailable call.streamId call.sequence.toNat call.bytes.toNat call.availableUnixUs
    call.durationMs call.keyframe call.keyframeSegments windowParts

inductive PartOp where
  | record (call : PartCall)
  /-- The stream is retired. -/
  | forget (streamId : UInt64)
  /-- A new epoch of the stream becomes current. -/
  | activate (streamId : UInt64) (sourceEpoch : Nat) (activationDelayUs : Option Nat)

def partStep (windowParts : Nat) (s : LiveState) : PartOp → Unit × LiveState
  | .record call => ((), s.recordPart windowParts call)
  | .forget streamId => ((), s.forgetStream streamId)
  | .activate streamId sourceEpoch activationDelayUs =>
      ((), LiveTsCache.resetStream s streamId sourceEpoch activationDelayUs)

/-- The calls of a stream since its last reset, after one more operation. -/
def sinceStep (streamId : UInt64) (calls : List PartCall) : PartOp → List PartCall
  | .record call => if call.streamId = streamId then calls ++ [call] else calls
  | .forget streamId' => if streamId' = streamId then [] else calls
  | .activate streamId' _ _ => if streamId' = streamId then [] else calls

/-- The calls of a stream since its last reset. -/
def since (streamId : UInt64) (ops : List PartOp) : List PartCall :=
  ops.foldl (sinceStep streamId) []

/-- The entry of a stream in the map of `retained_stream_summaries`. -/
structure RetainedStreamSummary where
  latestSequence : Option Nat
  latestBytes : Option Nat
  retainedBytes : Nat
  retainedParts : Nat
  deriving Repr, DecidableEq

def retainedStreamSummary (s : LiveState) (streamId : UInt64) : Option RetainedStreamSummary :=
  match s.streamParts.lookup streamId with
  | none => none
  | some parts =>
      match parts.getLast? with
      | none => none
      | some (latestSequence, latest) =>
          some {
            latestSequence := some latestSequence
            latestBytes := some latest.bytes
            retainedBytes := (s.streamRetainedBytes.lookup streamId).getD 0
            retainedParts := parts.length }

end LiveState

/-! ## §2. The index of one stream. -/

/-- What `record_part_available` reads and writes of one stream. -/
structure StreamIndex where
  parts : Option RetainedParts := none
  current : Option Nat := none
  retainedBytes : Option Nat := none
  maxDurationMs : Option Nat := none
  deriving DecidableEq

def LiveState.index (s : LiveState) (streamId : UInt64) : StreamIndex where
  parts := s.streamParts.lookup streamId
  current := s.streamCurrentFmp4Segment.lookup streamId
  retainedBytes := s.streamRetainedBytes.lookup streamId
  maxDurationMs := s.streamMaxPartDurationMs.lookup streamId

namespace StreamIndex

/-- The retained parts. -/
def entries (i : StreamIndex) : RetainedParts := i.parts.getD []

/-- What a call records if its sequence is vacant. -/
def observe (i : StreamIndex) (call : PartCall) : RetainedPartObservation where
  bytes := call.bytes.toNat
  availableUnixUs := call.availableUnixUs
  durationMs := call.durationMs
  keyframe := call.keyframe
  fmp4SegmentId := nextSegment i.current call.keyframe call.keyframeSegments

/-- The parts before those below the window are dropped. -/
def arrived (i : StreamIndex) (call : PartCall) : RetainedParts :=
  insertVacant i.entries call.sequence.toNat (i.observe call)

/-- `inserted_bytes`. -/
def insertedBytes (i : StreamIndex) (call : PartCall) : Nat :=
  match i.entries.lookup call.sequence.toNat with
  | some _ => 0
  | none => call.bytes.toNat

/-- `removed_bytes`. -/
def removedBytes (windowParts : Nat) (i : StreamIndex) (call : PartCall) : Nat :=
  (below windowParts (i.arrived call) call.sequence.toNat).foldl
    (fun total entry => satAdd total entry.2.bytes) 0

/-- The call opens a segment. -/
def opens (i : StreamIndex) (call : PartCall) : Bool :=
  (i.entries.lookup call.sequence.toNat).isNone && call.keyframeSegments && call.keyframe

/-- The longest part after the call. -/
def noted (i : StreamIndex) (call : PartCall) : Option Nat :=
  match call.durationMs with
  | none => i.maxDurationMs
  | some durationMs =>
      some (match i.maxDurationMs with
        | some maximum => max maximum durationMs
        | none => durationMs)

/-- `record_part_available` on the index of its stream. -/
def record (windowParts : Nat) (i : StreamIndex) (call : PartCall) : StreamIndex where
  parts := some (offer windowParts i.entries call.sequence.toNat (i.observe call))
  current :=
    if i.opens call then nextSegment i.current call.keyframe call.keyframeSegments
    else i.current
  retainedBytes :=
    some (satAdd (i.retainedBytes.getD 0) (i.insertedBytes call) - i.removedBytes windowParts call)
  maxDurationMs := i.noted call

def step (windowParts : Nat) (i : StreamIndex) (call : PartCall) : Unit × StreamIndex :=
  ((), i.record windowParts call)

/-- What each call records if its sequence is vacant, in the order of the calls. -/
def log (windowParts : Nat) (calls : List PartCall) : List (Nat × RetainedPartObservation) :=
  (trace (step windowParts) {} calls).map fun e => (e.2.sequence.toNat, e.1.observe e.2)

end StreamIndex

/-! ## §3. The state is its indices. -/

namespace StreamIndex

variable {windowParts : Nat} {i : StreamIndex} {call : PartCall}

/-- A sequence that is there. -/
theorem record_of_known {part : RetainedPartObservation}
    (h : i.entries.lookup call.sequence.toNat = some part) :
    i.record windowParts call =
      { parts := some (within windowParts i.entries call.sequence.toNat)
        current := i.current
        retainedBytes := some (satAdd (i.retainedBytes.getD 0) 0 -
          (below windowParts i.entries call.sequence.toNat).foldl
            (fun total entry => satAdd total entry.2.bytes) 0)
        maxDurationMs := i.noted call } := by
  unfold record removedBytes arrived offer insertVacant insertedBytes opens
  simp only [h, Option.isNone_some, Bool.false_and, Bool.false_eq_true, if_false]

/-- A vacant sequence. -/
theorem record_of_new (h : i.entries.lookup call.sequence.toNat = none) :
    i.record windowParts call =
      { parts := some (within windowParts
          (insertAscending i.entries call.sequence.toNat (i.observe call)) call.sequence.toNat)
        current :=
          if call.keyframeSegments && call.keyframe then
            nextSegment i.current call.keyframe call.keyframeSegments
          else i.current
        retainedBytes := some (satAdd (i.retainedBytes.getD 0) call.bytes.toNat -
          (below windowParts (insertAscending i.entries call.sequence.toNat (i.observe call))
            call.sequence.toNat).foldl (fun total entry => satAdd total entry.2.bytes) 0)
        maxDurationMs := i.noted call } := by
  unfold record removedBytes arrived offer insertVacant insertedBytes opens
  simp only [h, Option.isNone_none, Bool.true_and]

end StreamIndex

namespace LiveState

variable {windowParts : Nat} {s : LiveState} {call : PartCall} {streamId : UInt64}

/-- Opening a segment leaves the other maps alone. -/
theorem fmp4Segment_frame (s : LiveState) (streamId : UInt64) (keyframe keyframeSegments : Bool) :
    (s.fmp4Segment streamId keyframe keyframeSegments).2.streamParts = s.streamParts ∧
      (s.fmp4Segment streamId keyframe keyframeSegments).2.streamRetainedBytes
        = s.streamRetainedBytes ∧
      (s.fmp4Segment streamId keyframe keyframeSegments).2.streamMaxPartDurationMs
        = s.streamMaxPartDurationMs := by
  cases keyframe <;> cases keyframeSegments <;> exact ⟨rfl, rfl, rfl⟩

theorem index_recordPart_self (windowParts : Nat) (s : LiveState) (call : PartCall) :
    (s.recordPart windowParts call).index call.streamId =
      (s.index call.streamId).record windowParts call := by
  cases hlookup : (s.index call.streamId).entries.lookup call.sequence.toNat with
  | some part =>
      -- `Entry::Occupied`: no segment is opened, the part stays as it was
      have hget : RetainedParts.get? ((s.streamParts.lookup call.streamId).getD [])
          call.sequence.toNat = some part := hlookup
      rw [StreamIndex.record_of_known hlookup]
      unfold recordPart recordPartAvailable index StreamIndex.noted
      cases call.durationMs with
      | none =>
          simp only [hget, AList.lookup_insert]
          rfl
      | some durationMs =>
          simp only [hget, AList.lookup_insert]
          rfl
  | none =>
      -- `Entry::Vacant`: the segment is opened before the part is inserted
      have hget : RetainedParts.get? ((s.streamParts.lookup call.streamId).getD [])
          call.sequence.toNat = none := hlookup
      have hcurrent := fun s : LiveState =>
        current_fmp4Segment s call.streamId call.keyframe call.keyframeSegments
      have hframe := fun s : LiveState =>
        fmp4Segment_frame s call.streamId call.keyframe call.keyframeSegments
      unfold current at hcurrent
      rw [StreamIndex.record_of_new hlookup]
      unfold recordPart recordPartAvailable index StreamIndex.noted StreamIndex.observe
      cases call.durationMs with
      | none =>
          simp only [hget, AList.lookup_insert, fst_fmp4Segment, hcurrent, (hframe _).1,
            (hframe _).2.1, (hframe _).2.2]
          rfl
      | some durationMs =>
          simp only [hget, AList.lookup_insert, fst_fmp4Segment, hcurrent, (hframe _).1,
            (hframe _).2.1, (hframe _).2.2]
          rfl

theorem index_recordPart_of_ne (h : streamId ≠ call.streamId) :
    (s.recordPart windowParts call).index streamId = s.index streamId := by
  have hsegment : ∀ s : LiveState, AList.lookup streamId
      (s.fmp4Segment call.streamId call.keyframe
        call.keyframeSegments).2.streamCurrentFmp4Segment
        = AList.lookup streamId s.streamCurrentFmp4Segment := by
    intro s
    unfold fmp4Segment
    split
    · exact AList.lookup_insert_ne h
    · split <;> rfl
  have hframe := fun s : LiveState =>
    fmp4Segment_frame s call.streamId call.keyframe call.keyframeSegments
  unfold recordPart recordPartAvailable index
  cases hget : RetainedParts.get? ((s.streamParts.lookup call.streamId).getD [])
      call.sequence.toNat with
  | some part =>
      cases call.durationMs with
      | none => simp only [hget, AList.lookup_insert_ne h]
      | some durationMs => simp only [hget, AList.lookup_insert_ne h]
  | none =>
      cases call.durationMs with
      | none =>
          simp only [hget, AList.lookup_insert_ne h, hsegment, (hframe _).1, (hframe _).2.1,
            (hframe _).2.2]
      | some durationMs =>
          simp only [hget, AList.lookup_insert_ne h, hsegment, (hframe _).1, (hframe _).2.1,
            (hframe _).2.2]

/-- **One call** is the call on the index of its stream. -/
theorem index_recordPart (windowParts : Nat) (s : LiveState) (call : PartCall)
    (streamId : UInt64) :
    (s.recordPart windowParts call).index streamId =
      if call.streamId = streamId then (s.index streamId).record windowParts call
      else s.index streamId := by
  split
  · next hsame =>
      subst hsame
      exact index_recordPart_self windowParts s call
  · next hother => exact index_recordPart_of_ne fun heq => hother heq.symm

/-- A reset empties the index of its stream and leaves the others. -/
theorem index_reset (s : LiveState) (streamId' streamId : UInt64) (sourceEpoch : Nat)
    (activationDelayUs : Option Nat) :
    (s.forgetStream streamId').index streamId =
        (if streamId' = streamId then {} else s.index streamId) ∧
      (LiveTsCache.resetStream s streamId' sourceEpoch activationDelayUs).index streamId =
        (if streamId' = streamId then {} else s.index streamId) := by
  unfold forgetStream LiveTsCache.resetStream index
  by_cases hsame : streamId' = streamId
  · subst hsame
    simp only [if_pos, AList.lookup_erase]
    exact ⟨trivial, trivial⟩
  · have hne : streamId ≠ streamId' := fun heq => hsame heq.symm
    simp only [if_neg hsame, AList.lookup_erase_ne hne]
    exact ⟨trivial, trivial⟩

/-- **The state after a run**, stream by stream. -/
theorem index_exec (windowParts startedUnixUs : Nat) (ops : List PartOp) (streamId : UInt64) :
    (exec (partStep windowParts) (LiveState.new startedUnixUs) ops).index streamId =
      exec (StreamIndex.step windowParts) {} (since streamId ops) := by
  refine exec_history (partStep windowParts)
    (fun ops s => s.index streamId = exec (StreamIndex.step windowParts) {} (since streamId ops))
    (LiveState.new startedUnixUs) rfl (fun ops op ih => ?_) ops
  -- the last operation: a call of the stream extends its calls, a reset of it forgets them
  have hsince : since streamId (ops ++ [op]) = sinceStep streamId (since streamId ops) op :=
    List.foldl_append
  rw [hsince]
  cases op with
  | record call =>
      show (recordPart windowParts _ call).index streamId = exec _ _ (if _ then _ else _)
      rw [index_recordPart, ih]
      split
      · rw [exec_append, exec_cons, exec_nil]
        rfl
      · rfl
  | forget streamId' =>
      show (forgetStream _ streamId').index streamId = exec _ _ (if _ then _ else _)
      rw [(index_reset _ streamId' streamId 0 none).1, ih]
      split
      · rfl
      · rfl
  | activate streamId' sourceEpoch activationDelayUs =>
      show (LiveTsCache.resetStream _ streamId' sourceEpoch activationDelayUs).index streamId
        = exec _ _ (if _ then _ else _)
      rw [(index_reset _ streamId' streamId sourceEpoch activationDelayUs).2, ih]
      split
      · rfl
      · rfl

end LiveState

/-! ## §4. The byte account. -/

namespace StreamIndex

variable {windowParts : Nat} {i : StreamIndex} {call : PartCall}

/-- The bytes of the retained parts. -/
def partBytes (i : StreamIndex) : Nat := total (·.bytes) i.entries

/-- A saturating sum that stays in range is the sum. -/
theorem foldl_satAdd (parts : RetainedParts) :
    ∀ start : Nat, start + total (·.bytes) parts ≤ u64Max →
      parts.foldl (fun total entry => satAdd total entry.2.bytes) start
        = start + total (·.bytes) parts := by
  -- on the parts, for every start: the bound is on the start and what is left
  induction parts with
  | nil =>
      intro start _
      rfl
  | cons part parts ih =>
      intro start hfits
      have hcons : total (·.bytes) (part :: parts) = part.2.bytes + total (·.bytes) parts := by
        unfold total
        rw [List.map_cons, List.sum_cons]
      rw [hcons] at hfits ⊢
      have hadd : satAdd start part.2.bytes = start + part.2.bytes := satAdd_of_le (by omega)
      rw [List.foldl_cons, hadd, ih _ (by omega)]
      omega

/-- Nothing is lost between the parts before and after a call. -/
theorem partBytes_arrived :
    total (·.bytes) (i.arrived call) = i.partBytes + i.insertedBytes call := by
  unfold arrived insertVacant insertedBytes partBytes
  cases i.entries.lookup call.sequence.toNat with
  | some part => rfl
  | none => exact total_insertAscending _

theorem total_below_add_within (windowParts : Nat) (parts : RetainedParts) (sequence : Nat) :
    total (·.bytes) (below windowParts parts sequence)
        + total (·.bytes) (within windowParts parts sequence)
      = total (·.bytes) parts := by
  unfold below within
  rw [← total_append, List.takeWhile_append_dropWhile]

/-- The account is the sum of the retained parts. -/
def Accounted (i : StreamIndex) : Prop := i.retainedBytes.getD 0 = i.partBytes

/-- The parts retained and the one that arrives stay below 2^64 bytes. -/
def Fits (i : StreamIndex) (call : PartCall) : Prop := i.partBytes + call.bytes.toNat < 2 ^ 64

theorem insertedBytes_le : i.insertedBytes call ≤ call.bytes.toNat := by
  unfold insertedBytes
  split
  · exact Nat.zero_le _
  · exact Nat.le_refl _

/-- The sum that a call forms is in range, and so is what it removes. -/
theorem Accounted.sums (h : i.Accounted) (hfits : i.Fits call) (windowParts : Nat) :
    satAdd (i.retainedBytes.getD 0) (i.insertedBytes call) = total (·.bytes) (i.arrived call) ∧
      i.removedBytes windowParts call
        = total (·.bytes) (below windowParts (i.arrived call) call.sequence.toNat) := by
  have hsplit := total_below_add_within windowParts (i.arrived call) call.sequence.toNat
  have hle := @insertedBytes_le i call
  rw [partBytes_arrived] at hsplit ⊢
  unfold Fits at hfits
  constructor
  · rw [h]
    refine satAdd_of_le ?_
    unfold u64Max
    omega
  · unfold removedBytes
    rw [foldl_satAdd _ 0 (by unfold u64Max; omega), Nat.zero_add]

/-- **The subtraction does not clamp.** -/
theorem Accounted.removedBytes_le (h : i.Accounted) (hfits : i.Fits call) (windowParts : Nat) :
    i.removedBytes windowParts call ≤ satAdd (i.retainedBytes.getD 0) (i.insertedBytes call) := by
  obtain ⟨hsum, hremoved⟩ := h.sums hfits windowParts
  rw [hsum, hremoved, ← total_below_add_within windowParts (i.arrived call) call.sequence.toNat]
  omega

/-- **One call keeps the account.** -/
theorem Accounted.record (h : i.Accounted) (hfits : i.Fits call) (windowParts : Nat) :
    (i.record windowParts call).Accounted := by
  obtain ⟨hsum, hremoved⟩ := h.sums hfits windowParts
  have hsplit := total_below_add_within windowParts (i.arrived call) call.sequence.toNat
  show satAdd (i.retainedBytes.getD 0) (i.insertedBytes call) - i.removedBytes windowParts call
    = total (·.bytes) (within windowParts (i.arrived call) call.sequence.toNat)
  rw [hsum, hremoved]
  omega

/-- Every call of a run meets an exact account. -/
theorem accounted_exec (calls : List PartCall)
    (hfits : ∀ e ∈ trace (step windowParts) {} calls, e.1.Fits e.2) :
    (exec (step windowParts) {} calls).Accounted :=
  exec_invariant_along (step windowParts) Accounted Fits
    (fun _ _ hfits h => h.record hfits windowParts) calls {} hfits rfl

theorem accounted_of_mem_trace {calls : List PartCall}
    (hfits : ∀ e ∈ trace (step windowParts) {} calls, e.1.Fits e.2)
    {e : StreamIndex × PartCall} (he : e ∈ trace (step windowParts) {} calls) :
    e.1.Accounted := by
  -- a visited state ends a shorter run, whose calls all fit
  obtain ⟨before, after, rfl, hstate⟩ := exists_exec_of_mem_trace (step windowParts) he
  rw [hstate]
  refine accounted_exec before fun e he => hfits e ?_
  rw [trace_append]
  exact List.mem_append_left _ he

theorem partBytes_record_le (i : StreamIndex) (call : PartCall) :
    (i.record windowParts call).partBytes ≤ i.partBytes + call.bytes.toNat := by
  have hsplit := total_below_add_within windowParts (i.arrived call) call.sequence.toNat
  have hle := @insertedBytes_le i call
  rw [partBytes_arrived] at hsplit
  show total (·.bytes) (within windowParts (i.arrived call) call.sequence.toNat) ≤ _
  omega

/-- The parts that are retained have arrived. -/
theorem partBytes_exec_le (calls : List PartCall) :
    (exec (step windowParts) {} calls).partBytes ≤ (calls.map (·.bytes.toNat)).sum := by
  refine exec_history (step windowParts)
    (fun calls i => i.partBytes ≤ (calls.map (·.bytes.toNat)).sum) {} (Nat.zero_le _) ?_ calls
  intro calls call h
  rw [List.map_append, List.sum_append, List.map_singleton, List.sum_singleton]
  exact Nat.le_trans (partBytes_record_le _ call) (Nat.add_le_add_right h _)

/-- **Calls fit** when the sum of their bytes is below 2^64. -/
theorem fits_of_sum {calls : List PartCall} (hsum : (calls.map (·.bytes.toNat)).sum < 2 ^ 64) :
    ∀ e ∈ trace (step windowParts) {} calls, e.1.Fits e.2 := by
  intro e he
  obtain ⟨before, after, rfl, hstate⟩ := exists_exec_of_mem_trace (step windowParts) he
  have hle := @partBytes_exec_le windowParts before
  rw [List.map_append, List.sum_append, List.map_cons, List.sum_cons] at hsum
  unfold Fits
  rw [hstate]
  omega

/-! ## §5. The window. -/

theorem log_append (windowParts : Nat) (calls : List PartCall) (call : PartCall) :
    log windowParts (calls ++ [call]) = log windowParts calls ++
      [(call.sequence.toNat, (exec (step windowParts) {} calls).observe call)] := by
  unfold log
  rw [trace_append, List.map_append]
  rfl

theorem sequences_log (windowParts : Nat) (calls : List PartCall) :
    (log windowParts calls).map (·.1) = calls.map (·.sequence.toNat) := by
  induction calls using List.reverseRecOn with
  | nil => rfl
  | append_singleton calls call ih =>
      rw [log_append, List.map_append, List.map_append, ih]
      rfl

/-- The greatest sequence that was recorded. -/
def head (calls : List PartCall) : Nat := (calls.map (·.sequence.toNat)).foldr max 0

theorem top_log (windowParts : Nat) (calls : List PartCall) :
    top (log windowParts calls) = head calls := by
  unfold top head
  rw [sequences_log]

/-- **The retained parts are the window of the calls.** -/
theorem windowed_exec (windowParts : Nat) (calls : List PartCall) :
    Windowed windowParts (log windowParts calls)
      (exec (step windowParts) {} calls).entries := by
  refine exec_history (step windowParts)
    (fun calls i => Windowed windowParts (log windowParts calls) i.entries) {} .nil ?_ calls
  intro calls call h
  rw [log_append]
  exact h.offer call.sequence.toNat _

end StreamIndex

namespace LiveState

variable {windowParts : Nat} {streamId : UInt64}

/-- The summary of a stream, read off its index. -/
theorem retainedStreamSummary_eq {s : LiveState} {summary : RetainedStreamSummary}
    (h : s.retainedStreamSummary streamId = some summary) :
    (s.index streamId).entries ≠ [] ∧ summary.latestSequence = lastKey (s.index streamId).entries ∧
      summary.retainedBytes = (s.index streamId).retainedBytes.getD 0 ∧
      summary.retainedParts = (s.index streamId).entries.length := by
  unfold retainedStreamSummary at h
  unfold index StreamIndex.entries lastKey
  cases hparts : s.streamParts.lookup streamId with
  | none =>
      rw [hparts] at h
      cases h
  | some parts =>
      rw [hparts] at h
      cases hlast : parts.getLast? with
      | none =>
          simp only [hlast] at h
          cases h
      | some last =>
          simp only [hlast] at h
          cases h
          simp only [Option.getD_some, hlast]
          refine ⟨?_, rfl, trivial, trivial⟩
          rintro rfl
          cases hlast

/-- **The retained-part window.**  After every run of calls and resets, for every
stream, with the greatest sequence recorded since its last reset at the top:
- the byte account is the sum of the retained parts, no subtraction clamps, and
  the summary has that sum and their number,
- every retained sequence is in the window below the top,
- there are at most `windowParts` of them, or one,
- every sequence of the window that was recorded is there as it was recorded first.
The sizes fit when the bytes of the calls since the reset add up to less than 2^64
(`StreamIndex.fits_of_sum`), and also when only those of the retained parts do. -/
theorem retention_window (windowParts startedUnixUs : Nat) (ops : List PartOp)
    (hfits : ∀ streamId, ∀ e ∈ trace (StreamIndex.step windowParts) {} (since streamId ops),
      e.1.Fits e.2) (streamId : UInt64) :
    let s := exec (partStep windowParts) (LiveState.new startedUnixUs) ops
    let parts := (s.streamParts.lookup streamId).getD []
    let log := StreamIndex.log windowParts (since streamId ops)
    let head := StreamIndex.head (since streamId ops)
    ((s.streamRetainedBytes.lookup streamId).getD 0 = total (·.bytes) parts ∧
        (∀ e ∈ trace (StreamIndex.step windowParts) {} (since streamId ops),
          e.1.removedBytes windowParts e.2
            ≤ satAdd (e.1.retainedBytes.getD 0) (e.1.insertedBytes e.2)) ∧
        ∀ summary, s.retainedStreamSummary streamId = some summary →
          summary.latestSequence = some head ∧
            summary.retainedBytes = total (·.bytes) parts ∧
            summary.retainedParts = parts.length) ∧
      (∀ entry ∈ parts, head < entry.1 + max windowParts 1 ∧ entry.1 ≤ head) ∧
      parts.length ≤ max windowParts 1 ∧
      ∀ sequence part, head < sequence + max windowParts 1 →
        log.lookup sequence = some part → parts.get? sequence = some part := by
  intro s parts log head
  have htop : top log = head := StreamIndex.top_log windowParts (since streamId ops)
  -- all that is claimed is about the index of the stream
  have hindex : s.index streamId = exec (StreamIndex.step windowParts) {} (since streamId ops) :=
    index_exec windowParts startedUnixUs ops streamId
  have hwindow : Windowed windowParts log parts := by
    have h := StreamIndex.windowed_exec windowParts (since streamId ops)
    rw [← hindex] at h
    exact h
  have hbytes : (s.streamRetainedBytes.lookup streamId).getD 0 = total (·.bytes) parts := by
    have h := StreamIndex.accounted_exec (since streamId ops) (hfits streamId)
    rw [← hindex] at h
    exact h
  refine ⟨⟨hbytes, ?_, ?_⟩, ?_, hwindow.length_le, ?_⟩
  · intro e he
    exact (StreamIndex.accounted_of_mem_trace (hfits streamId) he).removedBytes_le
      (hfits streamId e he) windowParts
  · intro summary hsummary
    obtain ⟨hne, hlatest, hretained, hcount⟩ := retainedStreamSummary_eq hsummary
    rw [← htop]
    exact ⟨hlatest.trans (hwindow.lastKey_eq_top hne), hretained.trans hbytes, hcount⟩
  · intro entry hentry
    rw [← htop]
    exact ⟨((hwindow.mem_iff entry.1 entry.2).1 hentry).1, hwindow.key_le hentry⟩
  · intro sequence part hin hfirst
    rw [← htop] at hin
    exact hwindow.ascending.lookup_eq_some_iff.2 ((hwindow.mem_iff _ _).2 ⟨hin, hfirst⟩)

/-- Part 9 of a stream, and then part 5, which is below a window of four parts. -/
def lateOps : List PartOp :=
  [.record ⟨77, 9, 100, 0, some 33, false, true⟩, .record ⟨77, 5, 200, 1, some 33, true, true⟩]

/-- The late part is not retained, and its bytes are not counted. -/
theorem retention_window_late :
    let s := exec (partStep 4) (LiveState.new 0) lateOps
    (s.streamRetainedBytes.lookup 77).getD 0
        = total (·.bytes) ((s.streamParts.lookup 77).getD []) ∧
      ∀ entry ∈ (s.streamParts.lookup 77).getD [], 9 < entry.1 + 4 ∧ entry.1 ≤ 9 := by
  have hfits : ∀ streamId, ∀ e ∈ trace (StreamIndex.step 4) {} (since streamId lateOps),
      e.1.Fits e.2 := by
    intro streamId
    refine StreamIndex.fits_of_sum ?_
    by_cases hstream : 77 = streamId
    · subst hstream
      decide
    · simp [since, lateOps, sinceStep, hstream]
  obtain ⟨⟨hbytes, -⟩, hin, -⟩ := retention_window 4 0 lateOps hfits 77
  exact ⟨hbytes, hin⟩

end LiveState

end AvMesh.LiveCache
