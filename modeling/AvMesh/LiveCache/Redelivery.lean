/-
  AvMesh.LiveCache.Redelivery
  ───────────────────────────
  **A PART THAT IS RECORDED A SECOND TIME** (`LiveState::record_part_available`).

  The second parent of a relay delivers every part again, often late.  A part
  that is still in the window is recognised: nothing changes.  A part that has
  left it is vacant again: it is inserted, dropped in the same call, and on the
  way a keyframe opens a segment that no retained part starts.

    • `redelivery_unchanged_iff` — exactly when a repeated call changes nothing,
    • `evicted_keyframe_opens_segment` — a call that does.
-/
import AvMesh.LiveCache.Retention

namespace AvMesh.LiveCache

open AvMesh.Lib

/-- The same part, recorded at another time. -/
def PartCall.again (call : PartCall) (availableUnixUs : Nat) : PartCall :=
  { call with availableUnixUs }

namespace StreamIndex

variable {windowParts : Nat} {i : StreamIndex} {call again : PartCall} {calls : List PartCall}

/-! ## §1. What the calls of a stream leave behind. -/

/-- The maps have an entry, the account is a `u64`, and no part was longer than
the longest. -/
structure Called (calls : List PartCall) (i : StreamIndex) : Prop where
  present : calls ≠ [] →
    i.parts = some i.entries ∧ i.retainedBytes = some (i.retainedBytes.getD 0)
  bytes_le : i.retainedBytes.getD 0 ≤ u64Max
  longest : ∀ call ∈ calls, ∀ durationMs, call.durationMs = some durationMs →
    ∃ maximum, i.maxDurationMs = some maximum ∧ durationMs ≤ maximum

theorem noted_some {durationMs : Nat} (h : call.durationMs = some durationMs) :
    ∃ maximum, i.noted call = some maximum ∧ durationMs ≤ maximum ∧
      ∀ before, i.maxDurationMs = some before → before ≤ maximum := by
  unfold noted
  rw [h]
  cases i.maxDurationMs with
  | none => exact ⟨durationMs, rfl, Nat.le_refl _, nofun⟩
  | some before =>
      refine ⟨max before durationMs, rfl, Nat.le_max_right _ _, ?_⟩
      rintro _ ⟨⟩
      exact Nat.le_max_left _ _

theorem Called.record (h : Called calls i) (windowParts : Nat) (call : PartCall) :
    Called (calls ++ [call]) (i.record windowParts call) where
  present := fun _ => ⟨rfl, rfl⟩
  bytes_le := by
    show satAdd _ _ - _ ≤ u64Max
    unfold satAdd
    omega
  longest := by
    intro earlier hearlier durationMs hduration
    show ∃ maximum, i.noted call = some maximum ∧ durationMs ≤ maximum
    -- an earlier part is below the longest one, which never falls; the last is noted by the call
    rcases List.mem_append.1 hearlier with hold | hnew
    · obtain ⟨before, hbefore, hle⟩ := h.longest earlier hold durationMs hduration
      cases hcall : call.durationMs with
      | none =>
          refine ⟨before, ?_, hle⟩
          unfold noted
          rw [hcall]
          exact hbefore
      | some other =>
          obtain ⟨maximum, hnoted, -, hmax⟩ := @noted_some i call other hcall
          exact ⟨maximum, hnoted, Nat.le_trans hle (hmax before hbefore)⟩
    · obtain rfl := List.mem_singleton.1 hnew
      obtain ⟨maximum, hnoted, hle, -⟩ := @noted_some i earlier durationMs hduration
      exact ⟨maximum, hnoted, hle⟩

theorem called_exec (windowParts : Nat) (calls : List PartCall) :
    Called calls (exec (step windowParts) {} calls) := by
  refine exec_history (step windowParts) Called {} ⟨fun h => absurd rfl h, Nat.zero_le _, nofun⟩
    ?_ calls
  intro calls call h
  exact h.record windowParts call

/-- The longest part stays the longest. -/
theorem Called.noted_eq (h : Called calls i) (hcall : call ∈ calls) :
    i.noted call = i.maxDurationMs := by
  unfold noted
  cases hduration : call.durationMs with
  | none => rfl
  | some durationMs =>
      obtain ⟨maximum, hmaximum, hle⟩ := h.longest call hcall durationMs hduration
      rw [hmaximum]
      show some (max maximum durationMs) = some maximum
      rw [Nat.max_eq_left hle]

/-! ## §2. The second call. -/

/-- A call that changes nothing. -/
theorem record_eq_self_iff :
    i.record windowParts call = i ↔
      some (offer windowParts i.entries call.sequence.toNat (i.observe call)) = i.parts ∧
      (if i.opens call then nextSegment i.current call.keyframe call.keyframeSegments
        else i.current) = i.current ∧
      some (satAdd (i.retainedBytes.getD 0) (i.insertedBytes call)
        - i.removedBytes windowParts call) = i.retainedBytes ∧
      i.noted call = i.maxDurationMs := by
  unfold record
  cases i
  rw [StreamIndex.mk.injEq]

/-- A counter that stays has reached the last `u64`. -/
theorem nextSegment_eq_self_iff {current : Option Nat} {keyframe keyframeSegments : Bool}
    (hopens : (keyframeSegments && keyframe) = true) :
    nextSegment current keyframe keyframeSegments = current ↔ current = some u64Max := by
  unfold nextSegment
  rw [if_pos hopens]
  cases current with
  | none => simp
  | some segmentId =>
      simp only [Option.some.injEq]
      unfold satAdd
      omega

/-- What a part needs for a second call to change nothing: it is in the window, or
recording it opens no segment and its bytes fit on top of the retained ones. -/
def Unharmed (windowParts : Nat) (calls : List PartCall) (i : StreamIndex) (call : PartCall) :
    Prop :=
  head calls < call.sequence.toNat + max windowParts 1 ∨
    ((call.keyframeSegments && call.keyframe) = true → i.current = some u64Max) ∧
      i.retainedBytes.getD 0 + call.bytes.toNat ≤ u64Max

/-- A part that is there is recognised. -/
theorem Called.record_known (h : Called calls i) (hne : calls ≠ [])
    (hwindow : Windowed windowParts (log windowParts calls) i.entries)
    (hmem : call.sequence.toNat ∈ calls.map (·.sequence.toNat))
    (hin : head calls < call.sequence.toNat + max windowParts 1)
    (hnoted : i.noted call = i.maxDurationMs) : i.record windowParts call = i := by
  obtain ⟨hparts, hbytes⟩ := h.present hne
  have hle := h.bytes_le
  rw [← top_log windowParts calls] at hin
  rw [← sequences_log windowParts calls] at hmem
  -- it is there, and nothing is below the window that was not dropped before
  obtain ⟨⟨part, hpart⟩, hbelow, hoffer⟩ := hwindow.offer_known hmem hin (i.observe call)
  have hopens : i.opens call = false := by
    unfold opens
    rw [hpart]
    rfl
  have hinserted : i.insertedBytes call = 0 := by
    unfold insertedBytes
    rw [hpart]
  have hremoved : i.removedBytes windowParts call = 0 := by
    unfold removedBytes arrived
    rw [hbelow]
    rfl
  rw [record_eq_self_iff, hoffer, hopens, hinserted, hremoved, satAdd_of_le (by omega)]
  exact ⟨hparts.symm, rfl, hbytes.symm, hnoted⟩

/-- A part that has left is inserted and dropped again. -/
theorem Called.record_late (h : Called calls i) (hne : calls ≠ [])
    (hwindow : Windowed windowParts (log windowParts calls) i.entries)
    (hout : ¬ head calls < call.sequence.toNat + max windowParts 1)
    (hnoted : i.noted call = i.maxDurationMs) :
    i.record windowParts call = i ↔
      ((call.keyframeSegments && call.keyframe) = true → i.current = some u64Max) ∧
        i.retainedBytes.getD 0 + call.bytes.toNat ≤ u64Max := by
  obtain ⟨hparts, hbytes⟩ := h.present hne
  have hle := h.bytes_le
  have hcall := toNat_le_u64Max call.bytes
  rw [← top_log windowParts calls] at hout
  -- it is vacant, and the one part below the window is this one
  obtain ⟨hnone, hbelow, hoffer⟩ := hwindow.offer_late (Nat.le_of_not_lt hout) (i.observe call)
  have hopens : i.opens call = (call.keyframeSegments && call.keyframe) := by
    unfold opens
    rw [hnone]
    rfl
  have hinserted : i.insertedBytes call = call.bytes.toNat := by
    unfold insertedBytes
    rw [hnone]
  have hremoved : i.removedBytes windowParts call = call.bytes.toNat := by
    unfold removedBytes arrived
    rw [hbelow]
    show satAdd 0 call.bytes.toNat = _
    rw [satAdd_of_le (by omega), Nat.zero_add]
  -- the bytes come and go in one call: only a sum that saturates is not undone
  have haccount : some (satAdd (i.retainedBytes.getD 0) call.bytes.toNat - call.bytes.toNat) =
      i.retainedBytes ↔ i.retainedBytes.getD 0 + call.bytes.toNat ≤ u64Max := by
    constructor
    · intro hsame
      have hvalue := congrArg (·.getD 0) hsame
      dsimp only [Option.getD_some] at hvalue
      unfold satAdd at hvalue
      omega
    · intro hfits
      rw [satAdd_of_le hfits, Nat.add_sub_cancel]
      exact hbytes.symm
  rw [record_eq_self_iff, hoffer, hopens, hinserted, hremoved, haccount]
  constructor
  · rintro ⟨-, hcurrent, hfits, -⟩
    refine ⟨fun hkeyframe => ?_, hfits⟩
    rw [if_pos hkeyframe] at hcurrent
    exact (nextSegment_eq_self_iff hkeyframe).1 hcurrent
  · rintro ⟨hcurrent, hfits⟩
    refine ⟨hparts.symm, ?_, hfits, hnoted⟩
    split
    · next hkeyframe => exact (nextSegment_eq_self_iff hkeyframe).2 (hcurrent hkeyframe)
    · rfl

/-- **A second call** changes nothing exactly in these cases. -/
theorem record_again_iff (hcall : call ∈ calls) (availableUnixUs : Nat) :
    (exec (step windowParts) {} calls).record windowParts (call.again availableUnixUs) =
        exec (step windowParts) {} calls ↔
      Unharmed windowParts calls (exec (step windowParts) {} calls) call := by
  have hcalled := called_exec windowParts calls
  have hne : calls ≠ [] := List.ne_nil_of_mem hcall
  have hwindow := windowed_exec windowParts calls
  have hnoted : (exec (step windowParts) {} calls).noted (call.again availableUnixUs) =
      (exec (step windowParts) {} calls).maxDurationMs := by
    show StreamIndex.noted _ call = _
    exact hcalled.noted_eq hcall
  unfold Unharmed
  -- a part in the window was recorded before, so it is still there
  by_cases hin : head calls < call.sequence.toNat + max windowParts 1
  · have hmem : (call.again availableUnixUs).sequence.toNat ∈ calls.map (·.sequence.toNat) :=
      List.mem_map.2 ⟨call, hcall, rfl⟩
    exact iff_of_true (hcalled.record_known hne hwindow hmem hin hnoted) (.inl hin)
  · rw [or_iff_right hin]
    exact hcalled.record_late hne hwindow hin hnoted

end StreamIndex

/-! ## §3. The whole state. -/

namespace LiveState

/-- The parts, the open segment, the account and the longest part of every stream
are the same. -/
def SameStreams (s s' : LiveState) : Prop :=
  ∀ streamId, s'.streamParts.lookup streamId = s.streamParts.lookup streamId ∧
    s'.streamCurrentFmp4Segment.lookup streamId = s.streamCurrentFmp4Segment.lookup streamId ∧
    s'.streamRetainedBytes.lookup streamId = s.streamRetainedBytes.lookup streamId ∧
    s'.streamMaxPartDurationMs.lookup streamId = s.streamMaxPartDurationMs.lookup streamId

theorem sameStreams_iff {s s' : LiveState} :
    SameStreams s s' ↔ ∀ streamId, s'.index streamId = s.index streamId := by
  unfold SameStreams index
  refine forall_congr' fun streamId => ?_
  rw [StreamIndex.mk.injEq]

/-- **Recording a part again changes nothing** if and only if the part is still in
the window, or it opens no segment (the counter of the segments has reached its
end) and its bytes fit on top of the account. -/
theorem redelivery_unchanged_iff (windowParts startedUnixUs : Nat) (ops : List PartOp)
    {call : PartCall} (hcall : call ∈ since call.streamId ops) (availableUnixUs : Nat) :
    let s := exec (partStep windowParts) (LiveState.new startedUnixUs) ops
    SameStreams s (s.recordPart windowParts (call.again availableUnixUs)) ↔
      StreamIndex.head (since call.streamId ops) < call.sequence.toNat + max windowParts 1 ∨
        ((call.keyframeSegments && call.keyframe) = true →
            s.streamCurrentFmp4Segment.lookup call.streamId = some u64Max) ∧
          (s.streamRetainedBytes.lookup call.streamId).getD 0 + call.bytes.toNat ≤ u64Max := by
  intro s
  have hindex : s.index call.streamId =
      exec (StreamIndex.step windowParts) {} (since call.streamId ops) :=
    index_exec windowParts startedUnixUs ops call.streamId
  have hagain := @StreamIndex.record_again_iff windowParts call _ hcall availableUnixUs
  rw [← hindex] at hagain
  have hwhole : SameStreams s (s.recordPart windowParts (call.again availableUnixUs)) ↔
      (s.index call.streamId).record windowParts (call.again availableUnixUs)
        = s.index call.streamId := by
    -- the other streams are left alone by any call
    rw [sameStreams_iff]
    constructor
    · intro h
      exact (index_recordPart_self windowParts s (call.again availableUnixUs)).symm.trans
        (h call.streamId)
    · intro h streamId
      rw [index_recordPart]
      split
      · next hsame =>
          have hstream : call.streamId = streamId := hsame
          rw [← hstream]
          exact h
      · rfl
  rw [hwhole]
  exact hagain

/-- A keyframe and five parts behind it, with a window of four parts. -/
def evictedOps : List PartOp :=
  [.record ⟨77, 0, 100, 0, some 33, true, true⟩,
    .record ⟨77, 1, 100, 1, some 33, false, true⟩,
    .record ⟨77, 2, 100, 2, some 33, false, true⟩,
    .record ⟨77, 3, 100, 3, some 33, false, true⟩,
    .record ⟨77, 4, 100, 4, some 33, false, true⟩]

/-- The keyframe again: the open segment is a new one. -/
theorem evicted_keyframe_opens_segment :
    (⟨77, 0, 100, 0, some 33, true, true⟩ : PartCall) ∈ since 77 evictedOps ∧
      ¬ SameStreams (exec (partStep 4) (LiveState.new 0) evictedOps)
        ((exec (partStep 4) (LiveState.new 0) evictedOps).recordPart 4
          ⟨77, 0, 100, 9, some 33, true, true⟩) := by
  refine ⟨by decide, fun h => ?_⟩
  have hcurrent := (h 77).2.1
  revert hcurrent
  decide

/-- A part that is still there. -/
theorem redelivery_unchanged_iff_retained :
    SameStreams (exec (partStep 4) (LiveState.new 0) evictedOps)
      ((exec (partStep 4) (LiveState.new 0) evictedOps).recordPart 4
        (PartCall.again ⟨77, 4, 100, 4, some 33, false, true⟩ 9)) :=
  (redelivery_unchanged_iff 4 0 evictedOps (by decide) 9).2 (.inl (by decide))

end LiveState

end AvMesh.LiveCache
