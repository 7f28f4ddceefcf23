/-
  AvMesh.LiveCache.Codecs
  ───────────────────────
  **WHAT A MASTER PLAYLIST SAYS OF AN INITIALIZATION SEGMENT**
  (`hls_codecs_from_init`, src/main.rs).

  Two scanners look at the same bytes.  `hlsCodecsFromInit` builds the CODECS
  attribute of a variant, `fmp4InitIsAudioOnly` chooses between audio/mp4 and
  video/mp4 for its media.  The second knows four kinds of video
  configuration, the first only `avcC`:

    • `codecs_agree_iff` — for which initialization segments they agree.
-/
import AvMesh.LiveCache.Playlist

namespace AvMesh.LiveCache

open AvMesh.Lib

/-! ## §1. Boxes and descriptors. -/

/-- `bytes.get(start..stop)`. -/
def getRange (bytes : Bytes) (start stop : Nat) : Option Bytes :=
  if start ≤ stop ∧ stop ≤ bytes.length then some (slice bytes start stop) else none

/-- `bytes.get(start..)`. -/
def getFrom (bytes : Bytes) (start : Nat) : Option Bytes :=
  if start ≤ bytes.length then some (bytes.drop start) else none

/-- The loop of `mp4_box_payload` over the offsets of a box type. -/
def scanBoxes (input boxType : Bytes) : List Nat → Option Bytes
  | [] => none
  | typeOffset :: rest =>
      if getRange input typeOffset (typeOffset + 4) ≠ some boxType then scanBoxes input boxType rest
      else do
        -- the four bytes before the type are the size of the whole box
        let sizeOffset := typeOffset - 4
        let size := fromBeBytes (← getRange input sizeOffset typeOffset)
        if size < 8 then scanBoxes input boxType rest
        else
          -- an overflow ends the search, a box past the end of the input does not
          let stop ← checkedAdd sizeOffset size
          if stop ≤ input.length then getRange input (typeOffset + 4) stop
          else scanBoxes input boxType rest

def mp4BoxPayload (input : Bytes) (boxType : String) : Option Bytes :=
  scanBoxes input (asBytes boxType) (List.range' 4 (input.length - 3 - 4))

/-- The length field of a descriptor, at most four bytes of seven bits: where it ends, and its
value. -/
def descriptorLength (input : Bytes) : Nat → Nat → Nat → Option (Nat × Nat)
  | 0, _, _ => none
  | remaining + 1, headerLength, payloadLength => do
      let byte ← input[headerLength]?
      let payloadLength ←
        (checkedMul payloadLength 128).bind fun high => checkedAdd high (byte &&& 0x7f).toNat
      -- the high bit says that another byte of the length follows
      if byte &&& 0x80 = 0 then return (headerLength + 1, payloadLength)
      else descriptorLength input remaining (headerLength + 1) payloadLength

/-- The tag, the payload and the end of a descriptor. -/
def mp4Descriptor (input : Bytes) : Option (UInt8 × Bytes × Nat) := do
  let tag ← input.head?
  let (headerLength, payloadLength) ← descriptorLength input 4 1 0
  let stop ← checkedAdd headerLength payloadLength
  return (tag, ← getRange input headerLength stop, stop)

/-! ## §2. Codec names. -/

/-- A digit of `{:02X}`. -/
def hexDigitUpper (n : Nat) : Char :=
  if n < 10 then Char.ofNat ('0'.toNat + n) else Char.ofNat ('A'.toNat + (n - 10))

/-- `{:02X}` of a byte. -/
def hexByte (b : UInt8) : String :=
  String.ofList [hexDigitUpper (b.toNat / 16), hexDigitUpper (b.toNat % 16)]

def hlsAvcCodecFromInit (init : Bytes) : Option String := do
  let avcc ← mp4BoxPayload init "avcC"
  match avcc with
  | version :: profile :: compatibility :: level :: _ =>
      if version ≠ 1 then none
      else return "avc1." ++ hexByte profile ++ hexByte compatibility ++ hexByte level
  -- shorter than four bytes
  | _ => none

/-- Where the decoder configuration starts in an ES descriptor with these flags. -/
def decoderConfigOffset (esDescriptor : Bytes) (flags : UInt8) : Option Nat := do
  let offset ← if flags &&& 0x80 ≠ 0 then checkedAdd 3 2 else some 3
  let offset ←
    if flags &&& 0x40 ≠ 0 then do
      let urlLength ← esDescriptor[offset]?
      (checkedAdd offset 1).bind fun next => checkedAdd next urlLength.toNat
    else some offset
  if flags &&& 0x20 ≠ 0 then checkedAdd offset 2 else some offset

/-- The object type at the start of an AudioSpecificConfig, with its escape value 31. -/
def audioObjectType (config : Bytes) : Option Nat := do
  let first ← config.head?
  let objectType ←
    if first >>> 3 = 31 then do
      let second ← config[1]?
      some (32 + (((first &&& 0x07) <<< 3) ||| (second >>> 5)).toNat)
    else some (first >>> 3).toNat
  if objectType = 0 then none else return objectType

def hlsAacCodecFromInit (init : Bytes) : Option String := do
  let esds ← mp4BoxPayload init "esds"
  -- the box starts with its version and flags
  let (tag, esDescriptor, _) ← mp4Descriptor (← getFrom esds 4)
  if tag ≠ 0x03 ∨ esDescriptor.length < 3 then none
  else
    let flags ← esDescriptor[2]?
    -- past the ES id, the flags and the optional fields they announce
    let decoderOffset ← decoderConfigOffset esDescriptor flags
    let (tag, decoderConfig, _) ← mp4Descriptor (← getFrom esDescriptor decoderOffset)
    if tag ≠ 0x04 ∨ decoderConfig.length < 13 then none
    else
      let objectTypeIndication ← decoderConfig.head?
      let (tag, audioSpecificConfig, _) ← mp4Descriptor (← getFrom decoderConfig 13)
      if tag ≠ 0x05 then none
      else
        let objectType ← audioObjectType audioSpecificConfig
        return "mp4a." ++ hexByte objectTypeIndication ++ "." ++ toString objectType

/-- The codecs of the first audio sample entry that is known. -/
def audioCodecs (init : Bytes) : Option (List String) :=
  -- an AAC entry without a readable configuration drops the attribute
  if hasWindow init "mp4a" then (hlsAacCodecFromInit init).map ([·])
  else if hasWindow init "fLaC" then some ["fLaC"]
  else if hasWindow init "alac" then some ["alac"]
  else if hasWindow init "Opus" then some ["opus"]
  else if hasWindow init "ipcm" then some ["ipcm"]
  else some []

def videoCodecs (init : Bytes) : Option (List String) :=
  if hasWindow init "avcC" then (hlsAvcCodecFromInit init).map ([·]) else some []

def hlsCodecsFromInit (init : Bytes) : Option String := do
  let codecs := (← videoCodecs init) ++ (← audioCodecs init)
  if codecs.isEmpty then none else return ",".intercalate codecs

def fmp4ContentTypeFromInit (init : Option Bytes) : String :=
  if init.any fmp4InitIsAudioOnly then "audio/mp4" else "video/mp4"

/-! ## §3. The entries of a CODECS attribute. -/

/-- The entries of the attribute. -/
def codecEntries (codecs : String) : List (List Char) := codecs.toList.splitOn ','

/-- The sample entries of the video codecs that have one of the four configuration boxes. -/
def videoSampleEntries : List String :=
  ["avc1", "avc2", "avc3", "avc4", "hvc1", "hev1", "av01", "vp08", "vp09"]

def isVideoEntry (entry : List Char) : Bool :=
  videoSampleEntries.any fun sampleEntry => sampleEntry.toList.isPrefixOf entry

/-- The attribute names a video codec. -/
def namesVideo (codecs : String) : Bool := (codecEntries codecs).any isVideoEntry

section Entries

variable {init : Bytes} {codec codecs : String}

theorem hexDigitUpper_ne_comma : ∀ n < 16, hexDigitUpper n ≠ ',' := by
  decide

theorem comma_notMem_hexByte (b : UInt8) : ',' ∉ (hexByte b).toList := by
  have hb := b.toNat_lt
  have hhigh := hexDigitUpper_ne_comma (b.toNat / 16) (by omega)
  have hlow := hexDigitUpper_ne_comma (b.toNat % 16) (by omega)
  unfold hexByte
  rw [String.toList_ofList]
  simp [hhigh.symm, hlow.symm]

theorem comma_notMem_toString (n : Nat) : ',' ∉ (toString n).toList := by
  intro hmem
  have hdigits : (toString n).toList = Nat.toDigits 10 n := Nat.toList_repr
  rw [hdigits] at hmem
  exact absurd (Nat.isDigit_of_mem_toDigits (by decide) (by decide) hmem) (by decide)

/-- The entry of an AVC configuration: one entry, and a video one. -/
theorem avcCodec_entry (h : hlsAvcCodecFromInit init = some codec) :
    ',' ∉ codec.toList ∧ isVideoEntry codec.toList = true := by
  unfold hlsAvcCodecFromInit at h
  obtain ⟨avcc, -, h⟩ := Option.bind_eq_some_iff.mp h
  split at h
  next version profile compatibility level _ =>
    split at h
    · cases h
    · obtain rfl := Option.some.inj h
      simp only [String.toList_append, List.mem_append, not_or]
      refine ⟨⟨⟨⟨by decide, ?_⟩, ?_⟩, ?_⟩, ?_⟩
      · exact comma_notMem_hexByte profile
      · exact comma_notMem_hexByte compatibility
      · exact comma_notMem_hexByte level
      · unfold isVideoEntry videoSampleEntries
        rw [List.any_cons, List.append_assoc, List.append_assoc]
        rfl
  next => cases h

/-- The entry of an AAC configuration: one entry, and not a video one. -/
theorem aacCodec_entry (h : hlsAacCodecFromInit init = some codec) :
    ',' ∉ codec.toList ∧ isVideoEntry codec.toList = false := by
  have hform : ∃ indication objectType,
      codec = "mp4a." ++ hexByte indication ++ "." ++ toString (objectType : Nat) := by
    unfold hlsAacCodecFromInit at h
    obtain ⟨esds, -, h⟩ := Option.bind_eq_some_iff.mp h
    obtain ⟨rest, -, h⟩ := Option.bind_eq_some_iff.mp h
    obtain ⟨⟨tag, esDescriptor, stop⟩, -, h⟩ := Option.bind_eq_some_iff.mp h
    dsimp only at h
    split at h
    · cases h
    · obtain ⟨flags, -, h⟩ := Option.bind_eq_some_iff.mp h
      obtain ⟨offset, -, h⟩ := Option.bind_eq_some_iff.mp h
      obtain ⟨rest', -, h⟩ := Option.bind_eq_some_iff.mp h
      obtain ⟨⟨tag', decoderConfig, stop'⟩, -, h⟩ := Option.bind_eq_some_iff.mp h
      dsimp only at h
      split at h
      · cases h
      · obtain ⟨indication, -, h⟩ := Option.bind_eq_some_iff.mp h
        obtain ⟨rest'', -, h⟩ := Option.bind_eq_some_iff.mp h
        obtain ⟨⟨tag'', config, stop''⟩, -, h⟩ := Option.bind_eq_some_iff.mp h
        dsimp only at h
        split at h
        · cases h
        · obtain ⟨objectType, -, h⟩ := Option.bind_eq_some_iff.mp h
          exact ⟨indication, objectType, (Option.some.inj h).symm⟩
  obtain ⟨indication, objectType, rfl⟩ := hform
  simp only [String.toList_append, List.mem_append, not_or]
  refine ⟨⟨⟨⟨by decide, ?_⟩, by decide⟩, ?_⟩, ?_⟩
  · exact comma_notMem_hexByte indication
  · exact comma_notMem_toString objectType
  · rw [List.append_assoc, List.append_assoc]
    rfl

/-- The audio entries: at most one, and not a video one. -/
theorem audioCodecs_entries {audio : List String} (h : audioCodecs init = some audio) :
    ∀ codec ∈ audio, ',' ∉ codec.toList ∧ isVideoEntry codec.toList = false := by
  unfold audioCodecs at h
  intro codec hcodec
  split at h
  · obtain ⟨aac, haac, rfl⟩ := Option.map_eq_some_iff.mp h
    rw [List.mem_singleton.mp hcodec]
    exact aacCodec_entry haac
  · -- the other names are constants
    have hnames : codec ∈ ["fLaC", "alac", "opus", "ipcm"] := by
      revert h
      repeat' split
      all_goals
        intro h
        obtain rfl := Option.some.inj h
        simp_all
    have hconstants : ∀ name ∈ ["fLaC", "alac", "opus", "ipcm"],
        ',' ∉ name.toList ∧ isVideoEntry name.toList = false := by
      decide
    exact hconstants codec hnames

theorem videoCodecs_entries {video : List String} (h : videoCodecs init = some video) :
    ∀ codec ∈ video, ',' ∉ codec.toList ∧ isVideoEntry codec.toList = true := by
  unfold videoCodecs at h
  intro codec hcodec
  split at h
  · obtain ⟨avc, havc, rfl⟩ := Option.map_eq_some_iff.mp h
    rw [List.mem_singleton.mp hcodec]
    exact avcCodec_entry havc
  · obtain rfl := Option.some.inj h
    cases hcodec

/-- Joined names without commas are split into these names again. -/
theorem namesVideo_intercalate {names : List String} (hne : names ≠ [])
    (hcomma : ∀ name ∈ names, ',' ∉ name.toList) :
    namesVideo (",".intercalate names) = names.any fun name => isVideoEntry name.toList := by
  have hsplit : codecEntries (",".intercalate names) = names.map String.toList := by
    unfold codecEntries
    rw [String.toList_intercalate]
    refine List.splitOn_intercalate ',' ?_ ?_
    · intro entry hentry
      obtain ⟨name, hname, rfl⟩ := List.mem_map.mp hentry
      exact hcomma name hname
    · exact fun hnil => hne (List.map_eq_nil_iff.mp hnil)
  unfold namesVideo
  rw [hsplit, List.any_map]
  rfl

theorem hlsCodecsFromInit_eq_some : hlsCodecsFromInit init = some codecs ↔
    ∃ video audio, videoCodecs init = some video ∧ audioCodecs init = some audio ∧
      video ++ audio ≠ [] ∧ codecs = ",".intercalate (video ++ audio) := by
  unfold hlsCodecsFromInit
  constructor
  · intro h
    obtain ⟨video, hvideo, h⟩ := Option.bind_eq_some_iff.mp h
    obtain ⟨audio, haudio, h⟩ := Option.bind_eq_some_iff.mp h
    dsimp only at h
    split at h
    · cases h
    next hne =>
      refine ⟨video, audio, hvideo, haudio, ?_, (Option.some.inj h).symm⟩
      simpa using hne
  · rintro ⟨video, audio, hvideo, haudio, hne, rfl⟩
    rw [hvideo, haudio]
    show (if (video ++ audio).isEmpty then none else _) = _
    rw [if_neg (by simpa using hne)]
    rfl

/-- The attribute names a video codec exactly when there is an AVC configuration. -/
theorem namesVideo_iff_avc (h : hlsCodecsFromInit init = some codecs) :
    namesVideo codecs = hasWindow init "avcC" := by
  obtain ⟨video, audio, hvideo, haudio, hne, rfl⟩ := hlsCodecsFromInit_eq_some.mp h
  have hvideoEntries := videoCodecs_entries hvideo
  have haudioEntries := audioCodecs_entries haudio
  rw [namesVideo_intercalate hne fun name hname =>
    (List.mem_append.mp hname).elim (fun h => (hvideoEntries name h).1)
      fun h => (haudioEntries name h).1]
  rw [List.any_append]
  have haudioNone : (audio.any fun name => isVideoEntry name.toList) = false := by
    rw [List.any_eq_false]
    intro name hname
    rw [(haudioEntries name hname).2]
    exact Bool.false_ne_true
  rw [haudioNone, Bool.or_false]
  unfold videoCodecs at hvideo
  split at hvideo
  next havc =>
    obtain ⟨avc, hcodec, rfl⟩ := Option.map_eq_some_iff.mp hvideo
    rw [List.any_cons, (avcCodec_entry hcodec).2, havc]
    rfl
  next havc =>
    obtain rfl := Option.some.inj hvideo
    rw [Bool.not_eq_true] at havc
    rw [havc]
    rfl

end Entries

/-! ## §4. Where the two scanners agree. -/

/-- The audio sample entries that have a codec name. -/
def namedAudio (init : Bytes) : Bool :=
  ["mp4a", "fLaC", "alac", "Opus", "ipcm"].any (hasWindow init)

/-- A video configuration without a codec name. -/
def unnamedVideo (init : Bytes) : Bool := ["hvcC", "av1C", "vpcC"].any (hasWindow init)

/-- What is advertised for the segment agrees with how its media is served. -/
def CodecsAgree (init : Bytes) : Prop :=
  ∀ codecs, hlsCodecsFromInit init = some codecs →
    (namesVideo codecs = true ↔ fmp4InitIsAudioOnly init = false) ∧
    (namesVideo codecs = false → fmp4ContentTypeFromInit (some init) ≠ "video/mp4")

section Agree

variable {init : Bytes}

theorem audioCodecs_eq_none : audioCodecs init = none ↔
    hasWindow init "mp4a" = true ∧ hlsAacCodecFromInit init = none := by
  unfold audioCodecs
  split
  next h => simp [h]
  next h =>
    have hnone : ¬ (hasWindow init "mp4a" = true ∧ hlsAacCodecFromInit init = none) :=
      fun hboth => h hboth.1
    simp only [hnone, iff_false]
    repeat' split
    all_goals exact nofun

theorem audioCodecs_eq_nil : audioCodecs init = some [] ↔ namedAudio init = false := by
  unfold audioCodecs namedAudio
  simp only [List.any_cons, List.any_nil, Bool.or_false]
  cases hasWindow init "mp4a" with
  | true => simp
  | false =>
      cases hasWindow init "fLaC" <;> cases hasWindow init "alac" <;>
        cases hasWindow init "Opus" <;> cases hasWindow init "ipcm" <;> simp

theorem namedAudio_of_ne_nil {audio : List String} (haudio : audioCodecs init = some audio)
    (hne : audio ≠ []) : namedAudio init = true := by
  rw [← Bool.not_eq_false]
  intro hno
  rw [audioCodecs_eq_nil.mpr hno] at haudio
  exact hne (Option.some.inj haudio).symm

/-- An AVC configuration is served, and advertised, as video. -/
theorem codecsAgree_of_avc (havc : hasWindow init "avcC" = true) : CodecsAgree init := by
  intro codecs hcodecs
  have hvideo := namesVideo_iff_avc hcodecs
  rw [havc] at hvideo
  have hserved : fmp4InitIsAudioOnly init = false := by
    unfold fmp4InitIsAudioOnly
    have hfound : ["avcC", "hvcC", "av1C", "vpcC"].any (hasWindow init) = true :=
      List.any_eq_true.mpr ⟨"avcC", List.mem_cons_self, havc⟩
    rw [hfound, Bool.not_true, Bool.and_false]
  rw [hvideo, hserved]
  exact ⟨⟨fun _ => rfl, fun _ => rfl⟩, nofun⟩

/-- Without an AVC configuration the segment is audio only unless it has another one. -/
theorem audioOnly_of_named (hcodec : namedAudio init = true) :
    fmp4InitIsAudioOnly init = !(hasWindow init "avcC" || unnamedVideo init) := by
  unfold namedAudio at hcodec
  unfold fmp4InitIsAudioOnly unnamedVideo
  have haudio : ["fLaC", "alac", "Opus", "mp4a", "ipcm", "fpcm"].any (hasWindow init) = true := by
    rw [List.any_eq_true] at hcodec ⊢
    obtain ⟨name, hname, hfound⟩ := hcodec
    refine ⟨name, ?_, hfound⟩
    simp only [List.mem_cons, List.not_mem_nil, or_false] at hname ⊢
    tauto
  rw [haudio, Bool.true_and, List.any_cons]

theorem contentType_eq : fmp4ContentTypeFromInit (some init) =
    if fmp4InitIsAudioOnly init then "audio/mp4" else "video/mp4" := rfl

/-- **What is advertised agrees with what is served** exactly when every video configuration that
occurs besides a codec name of audio is an AVC one. -/
theorem codecs_agree_iff (init : Bytes) :
    CodecsAgree init ↔
      hasWindow init "avcC" = true ∨ unnamedVideo init = false ∨
        (hasWindow init "mp4a" = true ∧ hlsAacCodecFromInit init = none) ∨
          namedAudio init = false := by
  by_cases havc : hasWindow init "avcC" = true
  · exact ⟨fun _ => .inl havc, fun _ => codecsAgree_of_avc havc⟩
  · have hnoAvc : hasWindow init "avcC" = false := by simpa using havc
    have hnoVideo : videoCodecs init = some [] := by
      unfold videoCodecs
      rw [if_neg havc]
    constructor
    · intro hagree
      by_cases hnone : audioCodecs init = none
      · exact .inr (.inr (.inl (audioCodecs_eq_none.mp hnone)))
      · obtain ⟨audio, haudio⟩ := Option.ne_none_iff_exists'.mp hnone
        by_cases hnil : audio = []
        · rw [hnil] at haudio
          exact .inr (.inr (.inr (audioCodecs_eq_nil.mp haudio)))
        · -- the attribute names only audio, so the segment is served as audio
          refine .inr (.inl ?_)
          have hcodecs : hlsCodecsFromInit init = some (",".intercalate audio) :=
            hlsCodecsFromInit_eq_some.mpr ⟨[], audio, hnoVideo, haudio, hnil, rfl⟩
          have hnamed := namedAudio_of_ne_nil haudio hnil
          have hiff := (hagree _ hcodecs).1
          rw [namesVideo_iff_avc hcodecs, hnoAvc, audioOnly_of_named hnamed, hnoAvc] at hiff
          cases hother : unnamedVideo init with
          | false => rfl
          | true =>
              rw [hother] at hiff
              exact absurd (hiff.mpr rfl) Bool.false_ne_true
    · intro hcond codecs hcodecs
      have hvideo := namesVideo_iff_avc hcodecs
      obtain ⟨video, audio, hvideo', haudio, hne, -⟩ := hlsCodecsFromInit_eq_some.mp hcodecs
      rw [hnoVideo] at hvideo'
      obtain rfl := Option.some.inj hvideo'
      have hnamed := namedAudio_of_ne_nil haudio hne
      have hother : unnamedVideo init = false := by
        rcases hcond with h | h | h | h
        · exact absurd h havc
        · exact h
        · rw [audioCodecs_eq_none.mpr h] at haudio
          cases haudio
        · rw [h] at hnamed
          cases hnamed
      have hserved : fmp4InitIsAudioOnly init = true := by
        rw [audioOnly_of_named hnamed, hnoAvc, hother]
        rfl
      rw [hvideo, hnoAvc, hserved, contentType_eq, hserved]
      exact ⟨⟨nofun, nofun⟩, fun _ => by decide⟩

/-- An HEVC configuration beside a FLAC sample entry: only FLAC is advertised, for video/mp4. -/
theorem hevc_advertised_as_flac :
    hlsCodecsFromInit ([0, 0, 0, 8] ++ asBytes "hvcC" ++ [0, 0, 0, 8] ++ asBytes "fLaC") =
      some "fLaC" ∧
    namesVideo "fLaC" = false ∧
    fmp4ContentTypeFromInit
      (some ([0, 0, 0, 8] ++ asBytes "hvcC" ++ [0, 0, 0, 8] ++ asBytes "fLaC")) = "video/mp4" ∧
    ¬ CodecsAgree ([0, 0, 0, 8] ++ asBytes "hvcC" ++ [0, 0, 0, 8] ++ asBytes "fLaC") := by
  have hcodecs : hlsCodecsFromInit
      ([0, 0, 0, 8] ++ asBytes "hvcC" ++ [0, 0, 0, 8] ++ asBytes "fLaC") = some "fLaC" := by
    decide
  have hserved : fmp4ContentTypeFromInit
      (some ([0, 0, 0, 8] ++ asBytes "hvcC" ++ [0, 0, 0, 8] ++ asBytes "fLaC")) = "video/mp4" := by
    decide
  refine ⟨hcodecs, by decide, hserved, fun hagree => ?_⟩
  exact (hagree "fLaC" hcodecs).2 (by decide) hserved

end Agree

end AvMesh.LiveCache
