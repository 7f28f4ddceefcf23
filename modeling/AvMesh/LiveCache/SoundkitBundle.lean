/-
  AvMesh.LiveCache.SoundkitBundle
  ───────────────────────────────
  **PARSING A SOUNDKIT BUNDLE** (the front part of `rebox_soundkit_v2_bundle`).

  `AvMesh.LiveCache.Slot` has the whole function with total slices.  Here the
  part before the external call is written again with the accesses that panic
  (`payload[8]`, `payload[a..b]`, `try_into().unwrap()`) and with the number of
  rounds its loop enters; `reboxSoundkitV2Bundle_eq` says it is the same
  function.

  A bundle on the wire is

      "NTV2PART"  tag  count:u64  group:u16  1:u16  (group:u16 length:u32 frame)*

    • `parseBundle_spec` — few rounds whatever the count says, no access out of
                           range, and success exactly on such byte strings.
-/
import AvMesh.LiveCache.Slot

namespace AvMesh.LiveCache

open AvMesh.Lib

/-! ## §1. The parsing part, with its panics. -/

/-- `&[u8]`: a slice holds at most `isize::MAX` bytes. -/
structure ByteSlice where
  bytes : Bytes
  fits : bytes.length < 2 ^ 63

/-- `uN::from_be_bytes(bytes[start..stop].try_into().unwrap())`. -/
def readBe {ε : Type} (width : Nat) (bytes : Bytes) (start stop : Nat) : Outcome ε Nat := do
  let field ← range bytes start stop
  if field.length = width then return fromBeBytes field
  else .error (.panic "called `Result::unwrap()` on an `Err` value")

/-- The header: its codec, the declared number of epochs, the group. -/
def parseHeader (payload : Bytes) : Outcome String (SoundKitFmp4Codec × Nat × Nat) :=
  if payload.length < soundkitV2BundleHeaderLen ∨ ¬ soundkitV2BundleMagic <+: payload then
    .error (.err "Soundkit v2 bundle has an invalid header")
  else do
    let codec ← (bundleCodec (← byteAt payload 8)).mapError Stop.err
    -- the fields end at byte 21, the length just checked
    let epochCount ← readBe 8 payload 9 17
    let baseGroupId ← readBe 2 payload 17 19
    let trackCount ← readBe 2 payload 19 21
    if epochCount = 0 ∨ trackCount = 0 then
      .error (.err "Soundkit v2 bundle declares no epochs or tracks")
    -- an entry carries no track number, so one track is all it can hold
    else if trackCount ≠ 1 then
      .error (.err s!"Soundkit v2 HLS publication currently requires one track per canonical stream; bundle has {trackCount}")
    else return (codec, epochCount, baseGroupId)

/-- One round of the epoch loop: where the frame ends, and the frame. -/
def epochRound (payload : Bytes) (baseGroupId epoch offset : Nat) : Outcome String (Nat × Bytes) :=
  match checkedAdd offset 6 with
  | none => .error (.err "Soundkit v2 bundle entry header overflow")
  | some entryHeaderEnd =>
      if entryHeaderEnd > payload.length then
        .error (.err s!"Soundkit v2 bundle ended before epoch {epoch}")
      else do
        let groupId ← readBe 2 payload offset (offset + 2)
        let frameLen ← readBe 4 payload (offset + 2) entryHeaderEnd
        -- the group is compared after the length is read, before it is used
        if groupId ≠ baseGroupId then
          .error (.err s!"Soundkit v2 bundle epoch {epoch} changed group identity")
        else
          -- at most `isize::MAX + u32::MAX`: the sum itself never overflows
          match checkedAdd entryHeaderEnd frameLen with
          | none => .error (.err "Soundkit v2 bundle frame length overflow")
          | some frameEnd =>
              if frameEnd > payload.length then
                .error (.err s!"Soundkit v2 bundle epoch {epoch} frame is truncated")
              else
                let frame ← range payload entryHeaderEnd frameEnd
                return (frameEnd, frame)

/-- `for epoch in 0..epoch_count`: the number of rounds entered, and the offset and the joined
frames after the last one. -/
def epochRounds (payload : Bytes) (baseGroupId : Nat) :
    Nat → Nat → Nat → Bytes → Nat × Outcome String (Nat × Bytes)
  | 0, epoch, offset, framed => (epoch, .ok (offset, framed))
  | remaining + 1, epoch, offset, framed =>
      match epochRound payload baseGroupId epoch offset with
      -- the round that fails has been entered
      | .error stop => (epoch + 1, .error stop)
      | .ok (frameEnd, frame) =>
          epochRounds payload baseGroupId remaining (epoch + 1) frameEnd (framed ++ frame)

structure ParsedBundle where
  codec : SoundKitFmp4Codec
  epochCount : Nat
  framed : Bytes
  deriving DecidableEq

/-- After the loop nothing may follow the last frame. -/
def checkEnd (payload : Bytes) (codec : SoundKitFmp4Codec) (epochCount : Nat) :
    Outcome String (Nat × Bytes) → Outcome String ParsedBundle
  | .error stop => .error stop
  | .ok (offset, framed) =>
      if offset ≠ payload.length then .error (.err "Soundkit v2 bundle has trailing bytes")
      else .ok ⟨codec, epochCount, framed⟩

/-- The parsing part of `rebox_soundkit_v2_bundle`, with the rounds of its loop. -/
def parseBundle (payload : Bytes) : Nat × Outcome String ParsedBundle :=
  match parseHeader payload with
  | .error stop => (0, .error stop)
  | .ok (codec, epochCount, baseGroupId) =>
      let loop := epochRounds payload baseGroupId epochCount 0 soundkitV2BundleHeaderLen []
      (loop.1, checkEnd payload codec epochCount loop.2)

/-! ## §2. The grammar. -/

/-- The codec tag of the header. -/
def codecTag : SoundKitFmp4Codec → UInt8
  | .flac => 1
  | .opus => 2

def bundleEntry (groupId : Nat) (frame : Bytes) : Bytes :=
  toBeBytes 2 groupId ++ (toBeBytes 4 frame.length ++ frame)

def bundleBytes (codec : SoundKitFmp4Codec) (groupId : Nat) (frames : List Bytes) : Bytes :=
  soundkitV2BundleMagic ++ ([codecTag codec] ++ (toBeBytes 8 frames.length ++
    (toBeBytes 2 groupId ++ (toBeBytes 2 1 ++ (frames.map (bundleEntry groupId)).flatten))))

/-- The payload is the bundle of the frames: as many as a `u64` counts and at least one, each as
long as a `u32` says, all of one group. -/
structure IsBundle (payload : Bytes) (codec : SoundKitFmp4Codec) (groupId : Nat)
    (frames : List Bytes) : Prop where
  nonempty : frames ≠ []
  count_lt : frames.length < 2 ^ 64
  group_lt : groupId < 2 ^ 16
  frame_lt : ∀ frame ∈ frames, frame.length < 2 ^ 32
  bytes : payload = bundleBytes codec groupId frames

/-! ## §3. Fields. -/

section Fields

variable {payload : Bytes} {start stop width n : Nat}

theorem readBe_of_le {ε : Type} (h : stop = start + width) (h' : stop ≤ payload.length) :
    (readBe width payload start stop : Outcome ε Nat) = .ok (fromBeBytes (slice payload start stop)) := by
  have hlength : (slice payload start stop).length = width := by
    rw [length_slice h']
    omega
  unfold readBe
  rw [range_of_le (by omega) h']
  show (if (slice payload start stop).length = width then _ else _) = _
  rw [if_pos hlength]
  rfl

/-- A field of a layout holds `n`. -/
theorem fromBeBytes_slice (h : stop = start + width) (h' : stop ≤ payload.length)
    (hn : n < 256 ^ width) :
    fromBeBytes (slice payload start stop) = n ↔ slice payload start stop = toBeBytes width n := by
  have hlength : (slice payload start stop).length = width := by
    rw [length_slice h']
    omega
  exact fromBeBytes_eq_iff hlength hn

theorem fromBeBytes_slice_lt (h : stop = start + width) (h' : stop ≤ payload.length) :
    fromBeBytes (slice payload start stop) < 256 ^ width := by
  have hlength : (slice payload start stop).length = width := by
    rw [length_slice h']
    omega
  have hlt := fromBeBytes_lt (slice payload start stop)
  rwa [hlength] at hlt

theorem bundleCodec_eq_ok {tag : UInt8} {codec : SoundKitFmp4Codec} :
    bundleCodec tag = .ok codec ↔ tag = codecTag codec := by
  unfold bundleCodec
  split
  next h =>
    subst h
    cases codec
    · exact ⟨fun _ => rfl, fun _ => rfl⟩
    · exact ⟨nofun, fun h => absurd h (by decide)⟩
  next hone =>
    split
    next h =>
      subst h
      cases codec
      · exact ⟨nofun, fun h => absurd h (by decide)⟩
      · exact ⟨fun _ => rfl, fun _ => rfl⟩
    next htwo =>
      refine ⟨nofun, fun h => ?_⟩
      cases codec
      · exact absurd h hone
      · exact absurd h htwo

end Fields

/-! ## §4. One round. -/

section Round

variable {payload : Bytes} {groupId epoch offset frameEnd : Nat} {frame : Bytes}

theorem length_bundleEntry (groupId : Nat) (frame : Bytes) :
    (bundleEntry groupId frame).length = 6 + frame.length := by
  unfold bundleEntry
  rw [List.length_append, List.length_append, length_toBeBytes, length_toBeBytes]
  omega

/-- An entry, field by field. -/
theorem slice_eq_bundleEntry_iff (hend : frameEnd = offset + (6 + frame.length))
    (hle : frameEnd ≤ payload.length) :
    slice payload offset frameEnd = bundleEntry groupId frame ↔
      slice payload offset (offset + 2) = toBeBytes 2 groupId ∧
        slice payload (offset + 2) (offset + 6) = toBeBytes 4 frame.length ∧
          slice payload (offset + 6) frameEnd = frame := by
  unfold bundleEntry
  rw [slice_eq_append_iff (length_toBeBytes 2 groupId) (by omega) hle,
    slice_eq_append_iff (length_toBeBytes 4 frame.length) (by omega) hle]

/-- A round with its accesses resolved: within the length no sum overflows and no access is out of
range. -/
theorem epochRound_eq (hfits : payload.length < 2 ^ 63) (hoffset : offset ≤ payload.length) :
    epochRound payload groupId epoch offset =
      if offset + 6 > payload.length then
        .error (.err s!"Soundkit v2 bundle ended before epoch {epoch}")
      else if fromBeBytes (slice payload offset (offset + 2)) ≠ groupId then
        .error (.err s!"Soundkit v2 bundle epoch {epoch} changed group identity")
      else if offset + 6 + fromBeBytes (slice payload (offset + 2) (offset + 6)) > payload.length then
        .error (.err s!"Soundkit v2 bundle epoch {epoch} frame is truncated")
      else
        .ok (offset + 6 + fromBeBytes (slice payload (offset + 2) (offset + 6)),
          slice payload (offset + 6)
            (offset + 6 + fromBeBytes (slice payload (offset + 2) (offset + 6)))) := by
  have hmax : 2 ^ 63 + 2 ^ 32 ≤ u64Max := by decide
  unfold epochRound
  rw [checkedAdd_of_le (by omega)]
  dsimp only
  split
  · rfl
  next hheader =>
    have hheader' : offset + 6 ≤ payload.length := by omega
    have hframeLen : fromBeBytes (slice payload (offset + 2) (offset + 6)) < 256 ^ 4 :=
      fromBeBytes_slice_lt (by omega) hheader'
    rw [readBe_of_le (by omega) (by omega), readBe_of_le (by omega) hheader']
    show (if _ then _ else _) = _
    split
    · rfl
    · rw [checkedAdd_of_le (by omega)]
      dsimp only
      split
      · rfl
      · rw [range_of_le (by omega) (by omega)]
        rfl

theorem epochRound_noPanic (hfits : payload.length < 2 ^ 63) (hoffset : offset ≤ payload.length) :
    NoPanic (epochRound payload groupId epoch offset) := by
  rw [epochRound_eq hfits hoffset]
  split
  · exact NoPanic.err _
  · split
    · exact NoPanic.err _
    · split
      · exact NoPanic.err _
      · exact NoPanic.ok _

/-- **One round** succeeds exactly when an entry of the group comes next. -/
theorem epochRound_eq_ok (hfits : payload.length < 2 ^ 63) (hoffset : offset ≤ payload.length)
    (hgroup : groupId < 2 ^ 16) :
    epochRound payload groupId epoch offset = .ok (frameEnd, frame) ↔
      frame.length < 2 ^ 32 ∧ frameEnd = offset + (bundleEntry groupId frame).length ∧
        frameEnd ≤ payload.length ∧ slice payload offset frameEnd = bundleEntry groupId frame := by
  rw [epochRound_eq hfits hoffset, length_bundleEntry]
  by_cases hheader : offset + 6 > payload.length
  · rw [if_pos hheader]
    refine ⟨nofun, ?_⟩
    intro h
    omega
  rw [if_neg hheader]
  have hheader' : offset + 6 ≤ payload.length := by omega
  have hgroupField : fromBeBytes (slice payload offset (offset + 2)) = groupId ↔
      slice payload offset (offset + 2) = toBeBytes 2 groupId :=
    fromBeBytes_slice (by omega) (by omega) hgroup
  have hlength : fromBeBytes (slice payload (offset + 2) (offset + 6)) < 256 ^ 4 :=
    fromBeBytes_slice_lt (by omega) hheader'
  constructor
  · intro h
    split at h
    · cases h
    next hsame =>
      rw [ne_eq, not_not] at hsame
      split at h
      · cases h
      next hfit =>
        obtain ⟨hend, hframe⟩ := Prod.mk.inj (Except.ok.inj h)
        have hframeLength : frame.length =
            fromBeBytes (slice payload (offset + 2) (offset + 6)) := by
          rw [← hframe, length_slice (by omega)]
          omega
        have hend' : frameEnd = offset + (6 + frame.length) := by omega
        have hle : frameEnd ≤ payload.length := by omega
        refine ⟨by omega, hend', hle,
          (slice_eq_bundleEntry_iff hend' hle).mpr ⟨hgroupField.mp hsame, ?_, ?_⟩⟩
        · exact (fromBeBytes_slice (by omega) hheader' (by omega)).mp hframeLength.symm
        · rw [← hend]
          exact hframe
  · rintro ⟨hlt, hend, hle, hslice⟩
    obtain ⟨hg, hl, hf⟩ := (slice_eq_bundleEntry_iff hend hle).mp hslice
    have hlen : fromBeBytes (slice payload (offset + 2) (offset + 6)) = frame.length :=
      (fromBeBytes_slice (by omega) hheader' (by omega)).mpr hl
    rw [if_neg (not_not.mpr (hgroupField.mpr hg)), hlen, if_neg (by omega)]
    have hend' : offset + 6 + frame.length = frameEnd := by omega
    rw [hend', hf]

end Round

/-! ## §5. The loop. -/

section Loop

variable {payload : Bytes} {groupId epochCount epoch offset stop : Nat} {framed out : Bytes}

/-- Each completed round consumes at least the six bytes of an entry's header. -/
theorem rounds_le (hfits : payload.length < 2 ^ 63) (hgroup : groupId < 2 ^ 16)
    (hoffset : offset ≤ payload.length) :
    6 * (epochRounds payload groupId epochCount epoch offset framed).1 ≤
      6 * epoch + (payload.length - offset) + 6 := by
  induction epochCount generalizing epoch offset framed with
  | zero =>
      show 6 * epoch ≤ _
      omega
  | succ remaining ih =>
      unfold epochRounds
      cases hround : epochRound payload groupId epoch offset with
      | error stop =>
          show 6 * (epoch + 1) ≤ _
          omega
      | ok next =>
          obtain ⟨frameEnd, frame⟩ := next
          have hnext := (epochRound_eq_ok hfits hoffset hgroup).mp hround
          have hentry := length_bundleEntry groupId frame
          have hrest : 6 * (epochRounds payload groupId remaining (epoch + 1) frameEnd
              (framed ++ frame)).1 ≤ 6 * (epoch + 1) + (payload.length - frameEnd) + 6 :=
            ih hnext.2.2.1
          show 6 * (epochRounds payload groupId remaining (epoch + 1) frameEnd
            (framed ++ frame)).1 ≤ _
          omega

theorem epochRounds_noPanic (hfits : payload.length < 2 ^ 63) (hgroup : groupId < 2 ^ 16)
    (hoffset : offset ≤ payload.length) :
    NoPanic (epochRounds payload groupId epochCount epoch offset framed).2 := by
  induction epochCount generalizing epoch offset framed with
  | zero => exact NoPanic.ok _
  | succ remaining ih =>
      unfold epochRounds
      cases hround : epochRound payload groupId epoch offset with
      | error stop => exact (epochRound_noPanic hfits hoffset).error hround
      | ok next =>
          obtain ⟨frameEnd, frame⟩ := next
          exact ih ((epochRound_eq_ok hfits hoffset hgroup).mp hround).2.2.1

/-- **The loop** succeeds exactly when as many entries follow as were declared. -/
theorem epochRounds_eq_ok (hfits : payload.length < 2 ^ 63) (hgroup : groupId < 2 ^ 16)
    (hoffset : offset ≤ payload.length) :
    (epochRounds payload groupId epochCount epoch offset framed).2 = .ok (stop, out) ↔
      ∃ frames : List Bytes, frames.length = epochCount ∧ (∀ frame ∈ frames, frame.length < 2 ^ 32) ∧
        out = framed ++ frames.flatten ∧ offset ≤ stop ∧ stop ≤ payload.length ∧
        slice payload offset stop = (frames.map (bundleEntry groupId)).flatten := by
  induction epochCount generalizing epoch offset framed with
  | zero =>
      show (Except.ok (offset, framed) : Outcome String (Nat × Bytes)) = .ok (stop, out) ↔ _
      constructor
      · intro h
        obtain ⟨rfl, rfl⟩ := Prod.mk.inj (Except.ok.inj h)
        exact ⟨[], rfl, nofun, by simp, Nat.le_refl _, hoffset, slice_self _ _⟩
      · rintro ⟨frames, hcount, -, hout, hle, hstop, hslice⟩
        obtain rfl := List.eq_nil_of_length_eq_zero hcount
        have hlength := congrArg List.length hslice
        rw [length_slice hstop] at hlength
        simp only [List.map_nil, List.flatten_nil, List.length_nil, List.append_nil] at hlength hout
        have hend : offset = stop := by omega
        rw [hend, hout]
  | succ remaining ih =>
      unfold epochRounds
      constructor
      · intro h
        cases hround : epochRound payload groupId epoch offset with
        | error stop' =>
            rw [hround] at h
            cases h
        | ok next =>
            obtain ⟨frameEnd, frame⟩ := next
            rw [hround] at h
            obtain ⟨hlt, hend, hle, hentry⟩ := (epochRound_eq_ok hfits hoffset hgroup).mp hround
            obtain ⟨frames, hcount, hframes, hout, hfrom, hstop, hslice⟩ := (ih hle).mp h
            refine ⟨frame :: frames, by simp [hcount], ?_, ?_, by omega, hstop, ?_⟩
            · intro frame' hmem
              rcases List.mem_cons.mp hmem with rfl | hmem
              · exact hlt
              · exact hframes frame' hmem
            · rw [hout, List.flatten_cons, List.append_assoc]
            · rw [List.map_cons, List.flatten_cons, ← hentry, ← hslice,
                slice_append_slice (by omega) hfrom]
      · rintro ⟨frames, hcount, hframes, hout, hfrom, hstop, hslice⟩
        cases frames with
        | nil => cases hcount
        | cons frame frames =>
            rw [List.map_cons, List.flatten_cons] at hslice
            have hlength := congrArg List.length hslice
            rw [length_slice hstop, List.length_append] at hlength
            obtain ⟨hentry, hrest⟩ := (slice_eq_append_iff rfl (by omega) hstop).mp hslice
            have hle : offset + (bundleEntry groupId frame).length ≤ payload.length := by omega
            rw [(epochRound_eq_ok hfits hoffset hgroup).mpr
              ⟨hframes frame List.mem_cons_self, rfl, hle, hentry⟩]
            refine (ih hle).mpr ⟨frames, Nat.succ.inj hcount, ?_, ?_, by omega, hstop, hrest⟩
            · exact fun frame' hmem => hframes frame' (List.mem_cons_of_mem _ hmem)
            · rw [hout, List.flatten_cons, List.append_assoc]

end Loop

/-! ## §6. The whole payload. -/

section Header

variable {payload : Bytes} {codec : SoundKitFmp4Codec} {epochCount groupId : Nat}

/-- A header with its accesses resolved. -/
theorem parseHeader_eq (hlen : 21 ≤ payload.length) :
    parseHeader payload =
      if ¬ soundkitV2BundleMagic <+: payload then
        .error (.err "Soundkit v2 bundle has an invalid header")
      else do
        let codec ← (bundleCodec payload[8]).mapError Stop.err
        if fromBeBytes (slice payload 9 17) = 0 ∨ fromBeBytes (slice payload 19 21) = 0 then
          .error (.err "Soundkit v2 bundle declares no epochs or tracks")
        else if fromBeBytes (slice payload 19 21) ≠ 1 then
          .error (.err s!"Soundkit v2 HLS publication currently requires one track per canonical stream; bundle has {fromBeBytes (slice payload 19 21)}")
        else return (codec, fromBeBytes (slice payload 9 17), fromBeBytes (slice payload 17 19)) := by
  unfold parseHeader soundkitV2BundleHeaderLen
  have hshort : ¬ payload.length < 21 := by omega
  simp only [hshort, false_or]
  split
  · rfl
  · rw [byteAt_of_lt (by omega), readBe_of_le (by omega) (by omega),
      readBe_of_le (by omega) (by omega), readBe_of_le (by omega) (by omega)]
    rfl

theorem parseHeader_noPanic : NoPanic (parseHeader payload) := by
  by_cases hlen : 21 ≤ payload.length
  · rw [parseHeader_eq hlen]
    split
    · exact NoPanic.err _
    · refine NoPanic.bind (NoPanic.mapError _ _) ?_
      intro codec
      split
      · exact NoPanic.err _
      · split
        · exact NoPanic.err _
        · exact NoPanic.ok _
  · unfold parseHeader soundkitV2BundleHeaderLen
    rw [if_pos (.inl (by omega))]
    exact NoPanic.err _

/-- A header, field by field. -/
theorem eq_bundleHeader_iff (hlen : 21 ≤ payload.length) :
    payload = soundkitV2BundleMagic ++ ([codecTag codec] ++ (toBeBytes 8 epochCount ++
        (toBeBytes 2 groupId ++ (toBeBytes 2 1 ++ slice payload 21 payload.length)))) ↔
      slice payload 0 8 = soundkitV2BundleMagic ∧ slice payload 8 9 = [codecTag codec] ∧
        slice payload 9 17 = toBeBytes 8 epochCount ∧ slice payload 17 19 = toBeBytes 2 groupId ∧
          slice payload 19 21 = toBeBytes 2 1 := by
  have hmagicLength : soundkitV2BundleMagic.length = 8 := by decide
  have hwhole := slice_zero_length payload
  conv_lhs => rw [← hwhole]
  rw [slice_eq_append_iff hmagicLength (by omega) (Nat.le_refl _),
    slice_eq_append_iff (List.length_singleton) (by omega) (Nat.le_refl _),
    slice_eq_append_iff (length_toBeBytes 8 epochCount) (by omega) (Nat.le_refl _),
    slice_eq_append_iff (length_toBeBytes 2 groupId) (by omega) (Nat.le_refl _),
    slice_eq_append_iff (length_toBeBytes 2 1) (by omega) (Nat.le_refl _), hwhole]
  simp only [and_true, Nat.zero_add, Nat.reduceAdd]

/-- **The header** is accepted exactly when the payload starts with one. -/
theorem parseHeader_eq_ok :
    parseHeader payload = .ok (codec, epochCount, groupId) ↔
      0 < epochCount ∧ epochCount < 2 ^ 64 ∧ groupId < 2 ^ 16 ∧ 21 ≤ payload.length ∧
        payload = soundkitV2BundleMagic ++ ([codecTag codec] ++ (toBeBytes 8 epochCount ++
          (toBeBytes 2 groupId ++ (toBeBytes 2 1 ++ slice payload 21 payload.length)))) := by
  by_cases hlen : 21 ≤ payload.length
  · have hmagicLength : soundkitV2BundleMagic.length = 8 := by decide
    have hmagic : soundkitV2BundleMagic <+: payload ↔ slice payload 0 8 = soundkitV2BundleMagic := by
      rw [List.prefix_iff_eq_take, hmagicLength, eq_comm]
      rfl
    have htag : slice payload 8 9 = [codecTag codec] ↔ bundleCodec payload[8] = .ok codec := by
      rw [slice_cons (by omega) (by omega), slice_self, List.singleton_inj, bundleCodec_eq_ok]
    have htrack : fromBeBytes (slice payload 19 21) = 1 ↔ slice payload 19 21 = toBeBytes 2 1 :=
      fromBeBytes_slice (by omega) hlen (by decide)
    have hcountLt : fromBeBytes (slice payload 9 17) < 256 ^ 8 :=
      fromBeBytes_slice_lt (by omega) (by omega)
    have hgroupLt : fromBeBytes (slice payload 17 19) < 256 ^ 2 :=
      fromBeBytes_slice_lt (by omega) (by omega)
    rw [eq_bundleHeader_iff hlen, parseHeader_eq hlen, ← hmagic, htag, ← htrack]
    by_cases hm : soundkitV2BundleMagic <+: payload
    · rw [if_neg (not_not.mpr hm)]
      constructor
      · -- each check passed, so each field holds what was read from it
        intro h
        obtain ⟨codec', hcodec, h⟩ := except_bind_eq_ok.mp h
        have hcodec' : bundleCodec payload[8] = .ok codec' := by
          cases hb : bundleCodec payload[8] with
          | error e =>
              rw [hb] at hcodec
              cases hcodec
          | ok c =>
              rw [hb] at hcodec
              rw [Except.ok.inj hcodec]
        split at h
        · cases h
        next hzero =>
          split at h
          · cases h
          next hone =>
            rw [ne_eq, not_not] at hone
            rw [not_or] at hzero
            obtain ⟨rfl, hcount, hgroup⟩ : codec' = codec ∧ _ ∧ _ := by
              simpa using Except.ok.inj h
            refine ⟨by omega, by omega, by omega, hlen, hm, hcodec', ?_, ?_, hone⟩
            · exact (fromBeBytes_slice (by omega) (by omega) (by omega)).mp hcount
            · exact (fromBeBytes_slice (by omega) (by omega) (by omega)).mp hgroup
      · rintro ⟨hpos, hcountLt', hgroupLt', -, -, hcodec, hcount, hgroup, hone⟩
        have hcount' : fromBeBytes (slice payload 9 17) = epochCount :=
          (fromBeBytes_slice (by omega) (by omega) (by omega)).mpr hcount
        have hgroup' : fromBeBytes (slice payload 17 19) = groupId :=
          (fromBeBytes_slice (by omega) (by omega) (by omega)).mpr hgroup
        rw [hcodec]
        show (if _ then _ else _) = _
        rw [if_neg (by omega), if_neg (by omega), hcount', hgroup']
        rfl
    · rw [if_pos hm]
      exact ⟨nofun, fun h => absurd h.2.2.2.2.1 hm⟩
  · unfold parseHeader soundkitV2BundleHeaderLen
    rw [if_pos (.inl (by omega))]
    exact ⟨nofun, fun h => absurd h.2.2.2.1 hlen⟩

end Header

section Bundle

variable {payload : Bytes} {codec : SoundKitFmp4Codec} {epochCount : Nat} {parsed : ParsedBundle}
  {loop : Outcome String (Nat × Bytes)}

theorem checkEnd_noPanic (h : NoPanic loop) : NoPanic (checkEnd payload codec epochCount loop) := by
  cases loop with
  | error stop => exact h.error rfl
  | ok reached =>
      unfold checkEnd
      dsimp only
      split
      · exact NoPanic.err _
      · exact NoPanic.ok _

theorem checkEnd_eq_ok : checkEnd payload codec epochCount loop = .ok parsed ↔
    codec = parsed.codec ∧ epochCount = parsed.epochCount ∧
      loop = .ok (payload.length, parsed.framed) := by
  cases loop with
  | error stop => exact ⟨nofun, fun h => nomatch h.2.2⟩
  | ok reached =>
      obtain ⟨offset, framed⟩ := reached
      unfold checkEnd
      dsimp only
      split
      next hend =>
        refine ⟨nofun, ?_⟩
        rintro ⟨-, -, h⟩
        exact absurd (Prod.mk.inj (Except.ok.inj h)).1 hend
      next hend =>
        rw [ne_eq, not_not] at hend
        subst hend
        constructor
        · intro h
          rw [← Except.ok.inj h]
          exact ⟨rfl, rfl, rfl⟩
        · rintro ⟨rfl, rfl, h⟩
          rw [(Prod.mk.inj (Except.ok.inj h)).2]

/-- What the parser answers, given the header. -/
theorem parseBundle_eq_ok :
    (parseBundle payload).2 = .ok parsed ↔
      ∃ groupId, parseHeader payload = .ok (parsed.codec, parsed.epochCount, groupId) ∧
        (epochRounds payload groupId parsed.epochCount 0 21 []).2 =
          .ok (payload.length, parsed.framed) := by
  unfold parseBundle
  cases hheader : parseHeader payload with
  | error stop =>
      refine ⟨nofun, ?_⟩
      rintro ⟨groupId, h, -⟩
      cases h
  | ok header =>
      obtain ⟨codec, epochCount, groupId⟩ := header
      show checkEnd payload codec epochCount _ = _ ↔ _
      rw [checkEnd_eq_ok]
      constructor
      · rintro ⟨rfl, rfl, hloop⟩
        exact ⟨groupId, rfl, hloop⟩
      · rintro ⟨groupId', hsame, hloop⟩
        obtain ⟨hcodec, hcount, rfl⟩ : codec = parsed.codec ∧ epochCount = parsed.epochCount ∧
            groupId = groupId' := by
          simpa using Except.ok.inj hsame
        rw [← hcount] at hloop
        exact ⟨hcodec, hcount, hloop⟩

end Bundle

/-- **The parser**: it enters at most `len / 6 + 1` rounds whatever count is declared, never
panics, and succeeds exactly on the bundle of some frames, which it joins in their order. -/
theorem parseBundle_spec (payload : ByteSlice) :
    (parseBundle payload.bytes).1 ≤ payload.bytes.length / 6 + 1 ∧
    NoPanic (parseBundle payload.bytes).2 ∧
    ∀ codec epochCount framed,
      (parseBundle payload.bytes).2 = .ok ⟨codec, epochCount, framed⟩ ↔
        ∃ groupId frames, IsBundle payload.bytes codec groupId frames ∧
          epochCount = frames.length ∧ framed = frames.flatten := by
  obtain ⟨payload, hfits⟩ := payload
  dsimp only
  refine ⟨?_, ?_, ?_⟩
  · unfold parseBundle
    cases hheader : parseHeader payload with
    | error stop => exact Nat.zero_le _
    | ok header =>
        obtain ⟨codec, epochCount, groupId⟩ := header
        obtain ⟨-, -, hgroup, hlen, -⟩ := parseHeader_eq_ok.mp hheader
        have hrounds : 6 * (epochRounds payload groupId epochCount 0 21 []).1 ≤
            6 * 0 + (payload.length - 21) + 6 := rounds_le hfits hgroup hlen
        show (epochRounds payload groupId epochCount 0 21 []).1 ≤ _
        omega
  · unfold parseBundle
    cases hheader : parseHeader payload with
    | error stop => exact parseHeader_noPanic.error hheader
    | ok header =>
        obtain ⟨codec, epochCount, groupId⟩ := header
        obtain ⟨-, -, hgroup, hlen, -⟩ := parseHeader_eq_ok.mp hheader
        exact checkEnd_noPanic (epochRounds_noPanic hfits hgroup hlen)
  · intro codec epochCount framed
    rw [parseBundle_eq_ok]
    constructor
    · rintro ⟨groupId, hheader, hloop⟩
      obtain ⟨hpos, hcount, hgroup, hlen, hbytes⟩ := parseHeader_eq_ok.mp hheader
      obtain ⟨frames, hframes, hlt, hframed, -, -, hslice⟩ :=
        (epochRounds_eq_ok hfits hgroup hlen).mp hloop
      dsimp only at hpos hcount hframes hbytes
      refine ⟨groupId, frames, ⟨?_, by omega, hgroup, hlt, ?_⟩, hframes.symm, hframed⟩
      · rintro rfl
        rw [List.length_nil] at hframes
        omega
      · rw [hslice, ← hframes] at hbytes
        exact hbytes
    · rintro ⟨groupId, frames, hbundle, rfl, rfl⟩
      have hlength := congrArg List.length hbundle.bytes
      have hmagicLength : soundkitV2BundleMagic.length = 8 := by decide
      simp only [bundleBytes, List.length_append, length_toBeBytes, List.length_singleton,
        hmagicLength] at hlength
      have hlen : 21 ≤ payload.length := by omega
      have hslice : slice payload 21 payload.length =
          (frames.map (bundleEntry groupId)).flatten := by
        rw [slice_to_length]
        conv_lhs => rw [hbundle.bytes]
        unfold bundleBytes
        simp only [← List.append_assoc]
        rw [List.drop_append_of_le_length (by simp [hmagicLength]), List.drop_eq_nil_of_le
          (by simp [hmagicLength]), List.nil_append]
      refine ⟨groupId, parseHeader_eq_ok.mpr ⟨?_, hbundle.count_lt, hbundle.group_lt, hlen, ?_⟩,
        (epochRounds_eq_ok hfits hbundle.group_lt hlen).mpr
          ⟨frames, rfl, hbundle.frame_lt, rfl, hlen, Nat.le_refl _, hslice⟩⟩
      · exact List.length_pos_iff.mpr hbundle.nonempty
      · rw [hslice]
        exact hbundle.bytes

/-! ## §7. The parser is the front part of the function. -/

/-- `rebox_soundkit_v2_bundle` from the publication timeline on. -/
def reboxParsed (K : SoundkitCrate) (parsed : ParsedBundle) (sequence : UInt64) :
    CacheResult ReboxedLiveAudio := do
  let startPtsMs ← context
    ((checkedMul sequence.toNat parsed.epochCount).bind (checkedMul · soundkitV2EpochDurationMs))
    "Soundkit v2 publication timeline overflow"
  let fragment ← context (tryFrom 32 sequence.toNat) "fMP4 sequence exceeds u32"
  let reboxed ← (K.reboxSoundkitV2 parsed.framed ⟨fragment, true, some startPtsMs⟩).mapError
    fun error => s!"Soundkit v2 rebox failed: {error}"
  if reboxed.codec ≠ parsed.codec then
    .error s!"Soundkit v2 bundle codec {K.codecName parsed.codec} disagrees with framed codec {K.codecName reboxed.codec}"
  else
    let init ← context reboxed.init "Soundkit v2 rebox did not return fMP4 initialization"
    return ⟨init, reboxed.media, reboxed.durationMs⟩

/-- The result of a call that does not panic. -/
def message {α : Type} : Outcome String α → CacheResult α
  | .ok a => .ok a
  | .error (.err text) => .error text
  | .error (.panic text) => .error text

section Refines

variable {payload : Bytes} {groupId : Nat}

theorem collectFrames_eq (hfits : payload.length < 2 ^ 63)
    (epochCount epoch offset : Nat) (framed : Bytes) (hoffset : offset ≤ payload.length) :
    collectFrames payload groupId epochCount epoch offset framed =
      message (epochRounds payload groupId epochCount epoch offset framed).2 := by
  have hmax : 2 ^ 63 + 2 ^ 32 ≤ u64Max := by decide
  induction epochCount generalizing epoch offset framed with
  | zero => rfl
  | succ remaining ih =>
      unfold collectFrames epochRounds
      rw [epochRound_eq hfits hoffset, checkedAdd_of_le (by omega)]
      show (if offset + 6 > payload.length then _ else _) = _
      split
      · rfl
      next hheader =>
        have hlength : fromBeBytes (slice payload (offset + 2) (offset + 6)) < 256 ^ 4 :=
          fromBeBytes_slice_lt (by omega) (by omega)
        show (if fromBeBytes (slice payload offset (offset + 2)) ≠ groupId then _ else _) = _
        split
        · rfl
        · rw [checkedAdd_of_le (by omega)]
          show (if offset + 6 + fromBeBytes (slice payload (offset + 2) (offset + 6)) >
            payload.length then _ else _) = _
          split
          · rfl
          next hfit => exact ih _ _ _ (by omega)

/-- **The function is its parser and then the rest.** -/
theorem reboxSoundkitV2Bundle_eq (K : SoundkitCrate) (payload : ByteSlice) (sequence : UInt64) :
    reboxSoundkitV2Bundle K payload.bytes sequence =
      message (parseBundle payload.bytes).2 >>= fun parsed => reboxParsed K parsed sequence := by
  obtain ⟨payload, hfits⟩ := payload
  dsimp only
  unfold reboxSoundkitV2Bundle parseBundle
  by_cases hinvalid : payload.length < soundkitV2BundleHeaderLen ∨
      ¬ soundkitV2BundleMagic <+: payload
  · have hheader : parseHeader payload =
        .error (.err "Soundkit v2 bundle has an invalid header") := if_pos hinvalid
    rw [if_pos hinvalid, hheader]
    rfl
  · rw [if_neg hinvalid]
    obtain ⟨hshort, hmagic⟩ := not_or.mp hinvalid
    have hlen : 21 ≤ payload.length := Nat.le_of_not_lt hshort
    have htag : (slice payload 8 9).headD 0 = payload[8] := by
      rw [slice_cons (by omega) (by omega)]
      rfl
    rw [htag]
    have hheader := parseHeader_eq hlen
    rw [if_neg hmagic] at hheader
    cases hcodec : bundleCodec payload[8] with
    | error text =>
        rw [hcodec] at hheader
        rw [hheader]
        rfl
    | ok codec =>
        rw [hcodec] at hheader
        change parseHeader payload = if _ then _ else _ at hheader
        show (if fromBeBytes (slice payload 9 17) = 0 ∨ fromBeBytes (slice payload 19 21) = 0
          then _ else _) = _
        split at hheader
        next hzero =>
          rw [if_pos hzero, hheader]
          rfl
        next hzero =>
          rw [if_neg hzero]
          split at hheader
          next hone =>
            rw [if_pos hone, hheader]
            rfl
          next hone =>
            rw [if_neg hone, hheader]
            show (collectFrames payload _ _ 0 21 [] >>= _) = message (checkEnd payload codec
              (fromBeBytes (slice payload 9 17)) (epochRounds payload _ _ 0 21 []).2) >>= _
            rw [collectFrames_eq hfits _ _ _ _ hlen]
            cases (epochRounds payload (fromBeBytes (slice payload 17 19))
                (fromBeBytes (slice payload 9 17)) 0 21 []).2 with
            | error stop =>
                cases stop with
                | err text => rfl
                | panic text => rfl
            | ok reached =>
                obtain ⟨offset, framed⟩ := reached
                unfold checkEnd
                show (if offset ≠ payload.length then _ else _) = _
                dsimp only
                split
                · rfl
                · rfl

end Refines

end AvMesh.LiveCache
