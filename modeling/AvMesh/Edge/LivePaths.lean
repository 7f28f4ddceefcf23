/-
  AvMesh.Edge.LivePaths
  ─────────────────────
  **THE LIVE URLS** (`parse_llhls_tail_path` … `strip_live_media_suffix`,
  `hls_failover_media_path` and the dispatch in `route`, src/main.rs).

      /live/stream.m3u8    /live/init.mp4    /live/part{n}.{ext}   …
      /live/{id}/tail      /live/{id}/stream.m3u8   …

  A path under `/live/` is a file, or a stream id and a file.  The parsers are
  hand-written, one for each URL, and `route` tries them one after the other.

    • `…_eq_some`     — a parser accepts exactly the paths that are written the
                        one way it is about,
    • `testFor`       — from the number of slashes and the first letters of the
                        file: the only test that can accept a path,
    • `resolve_file`  — a relative URI of a playlist replaces its file name.

  So no two tests accept one path, and what a playlist names is found again.
-/
import AvMesh.Edge.PlaybackSession
import AvMesh.Lib.Text
import AvMesh.LiveCache.Playlist

namespace AvMesh.LiveCache

/-- `LiveMediaKind::extension`. -/
def LiveMediaKind.extension : LiveMediaKind → List Char
  | .fmp4 => "mp4".toList
  | .opaqueMedia => "bin".toList
  | .ts => "ts".toList

end AvMesh.LiveCache

namespace AvMesh.Edge

open AvMesh.Lib AvMesh.LiveCache

/-! ## §1. The parsers. -/

/-- `text.parse::<u64>().ok()`. -/
def parseU64 (text : List Char) : Option UInt64 := (parseDecimal 64 text).map UInt64.ofNat

def hlsFailoverMediaPath (path : List Char) : Option (List Char) :=
  if path = "/live/master.m3u8".toList then some "/live/stream.m3u8".toList
  else do
    let rest ← stripPrefix "/live/".toList path
    let streamId ← stripSuffix "/master.m3u8".toList rest
    if streamId = [] ∨ '/' ∈ streamId ∨ parseU64 streamId = none then none
    else some ("/live/".toList ++ streamId ++ "/stream.m3u8".toList)

/-- The parsers of a stream's single files, which differ in the file's name. -/
def parseStreamFilePath (file path : List Char) : Option UInt64 := do
  let rest ← stripPrefix "/live/".toList path
  let streamId ← stripSuffix file rest
  if streamId = [] ∨ '/' ∈ streamId then none else parseU64 streamId

def parseLlhlsTailPath : List Char → Option UInt64 := parseStreamFilePath "/tail".toList

def parseStreamPlaylistPath : List Char → Option UInt64 :=
  parseStreamFilePath "/stream.m3u8".toList

def parseStreamInitPath : List Char → Option UInt64 := parseStreamFilePath "/init.mp4".toList

def stripLiveMediaSuffix (value : List Char) : Option (List Char × LiveMediaKind) :=
  ((stripSuffix ".mp4".toList value).map fun seq => (seq, .fmp4)).orElse fun _ =>
    ((stripSuffix ".bin".toList value).map fun seq => (seq, .opaqueMedia)).orElse fun _ =>
      (stripSuffix ".ts".toList value).map fun seq => (seq, .ts)

/-- The parsers of a stream's numbered files, which differ in the text before the number. -/
def parseStreamNumberedPath (marker path : List Char) :
    Option (UInt64 × UInt64 × LiveMediaKind) := do
  let rest ← stripPrefix "/live/".toList path
  let (streamId, file) ← splitOnceAt marker rest
  let (seq, mediaKind) ← stripLiveMediaSuffix file
  if streamId = [] ∨ '/' ∈ streamId ∨ seq = [] ∨ '/' ∈ seq then none
  else return (← parseU64 streamId, ← parseU64 seq, mediaKind)

def parseStreamPartPath : List Char → Option (UInt64 × UInt64 × LiveMediaKind) :=
  parseStreamNumberedPath "/part".toList

def parseStreamSegmentPath : List Char → Option (UInt64 × UInt64 × LiveMediaKind) :=
  parseStreamNumberedPath "/seg".toList

def parseInitPath (path : List Char) : Bool := path = "/live/init.mp4".toList

/-- The parsers of numbered files without a stream, which differ in the text before the number. -/
def parseNumberedPath (pre path : List Char) : Option (UInt64 × LiveMediaKind) := do
  let file ← stripPrefix pre path
  let (seq, mediaKind) ← stripLiveMediaSuffix file
  return (← parseU64 seq, mediaKind)

def parsePartPath : List Char → Option (UInt64 × LiveMediaKind) :=
  parseNumberedPath "/live/part".toList

def parseSegmentPath : List Char → Option (UInt64 × LiveMediaKind) :=
  parseNumberedPath "/live/seg".toList

def parseMediaUnitPath (path : List Char) : Option (UInt64 × UInt64) := do
  let rest ← stripPrefix "/media/".toList path
  let (streamId, sequence) ← splitOnceAt "/unit/".toList rest
  if streamId = [] ∨ sequence = [] ∨ '/' ∈ sequence then none
  else return (← parseU64 streamId, ← parseU64 sequence)

/-! ## §2. The dispatch. -/

/-- What a test hands to its branch of `route`. -/
inductive LiveTarget where
  | defaultPlaylist
  | failover (mediaPath : List Char)
  | playlist (streamId : UInt64)
  | tailBundle
  | tailBundleStream
  | tail (streamId : UInt64)
  | streamInit (streamId : UInt64)
  | mediaUnit (streamId sequence : UInt64)
  | streamPart (streamId seq : UInt64) (requestedKind : LiveMediaKind)
  | streamSegment (streamId seq : UInt64) (requestedKind : LiveMediaKind)
  | init
  | part (seq : UInt64) (requestedKind : LiveMediaKind)
  | segment (seq : UInt64) (requestedKind : LiveMediaKind)
  deriving Repr, DecidableEq

/-- The tests a path goes through. -/
inductive LiveTest where
  | defaultPlaylist
  | failover
  | playlist
  | tailBundle
  | tailBundleStream
  | tail
  | streamInit
  | mediaUnit
  | streamPart
  | streamSegment
  | init
  | part
  | segment
  deriving Repr, DecidableEq

/-- `path == literal`. -/
def literalPath (literal path : List Char) (target : LiveTarget) : Option LiveTarget :=
  if path = literal then some target else none

def LiveTest.run : LiveTest → List Char → Option LiveTarget
  | .defaultPlaylist, path => literalPath "/live/stream.m3u8".toList path .defaultPlaylist
  | .failover, path => (hlsFailoverMediaPath path).map .failover
  | .playlist, path => (parseStreamPlaylistPath path).map .playlist
  | .tailBundle, path => literalPath "/live/tail-bundle".toList path .tailBundle
  | .tailBundleStream, path =>
      literalPath "/live/tail-bundle-stream".toList path .tailBundleStream
  | .tail, path => (parseLlhlsTailPath path).map .tail
  | .streamInit, path => (parseStreamInitPath path).map .streamInit
  | .mediaUnit, path => (parseMediaUnitPath path).map fun found => .mediaUnit found.1 found.2
  | .streamPart, path =>
      (parseStreamPartPath path).map fun found => .streamPart found.1 found.2.1 found.2.2
  | .streamSegment, path =>
      (parseStreamSegmentPath path).map fun found => .streamSegment found.1 found.2.1 found.2.2
  | .init, path => if parseInitPath path then some .init else none
  | .part, path => (parsePartPath path).map fun found => .part found.1 found.2
  | .segment, path => (parseSegmentPath path).map fun found => .segment found.1 found.2

/-- The tests in the order in which `route` makes them; the stream of bundles comes first, since
`is_streaming` sends it elsewhere. -/
def routeTests : List LiveTest :=
  [.tailBundleStream, .defaultPlaylist, .failover, .playlist, .tailBundle, .tail, .streamInit,
    .mediaUnit, .streamPart, .streamSegment, .init, .part, .segment]

/-- The branch that serves a path. -/
def routeLive (path : List Char) : Option LiveTarget := routeTests.findSome? fun t => t.run path

/-! ## §3. What each parser accepts. -/

section Accepts

variable {path streamId file marker pre value seq : List Char} {id n : UInt64}
  {kind : LiveMediaKind}

theorem parseU64_chars (h : parseU64 streamId = some id) : streamId ≠ [] ∧ '/' ∉ streamId := by
  unfold parseU64 at h
  obtain ⟨number, hnumber, _⟩ := Option.map_eq_some_iff.mp h
  exact ⟨(parseDecimal_chars hnumber).1,
    not_mem_of_parseDecimal hnumber (by decide) (by decide)⟩

/-- A number of 64 bits reads back. -/
theorem parseU64_toString (n : UInt64) : parseU64 (toString n.toNat).toList = some n := by
  unfold parseU64
  rw [parseDecimal_digits n.toNat_lt]
  simp

theorem stripLiveMediaSuffix_eq_some :
    stripLiveMediaSuffix value = some (seq, kind) ↔ value = seq ++ '.' :: kind.extension := by
  unfold stripLiveMediaSuffix
  constructor
  · intro h
    -- the suffixes are tried in this order
    cases hmp4 : stripSuffix ".mp4".toList value with
    | some found =>
        rw [hmp4] at h
        cases h
        exact stripSuffix_eq_some.mp hmp4
    | none =>
        cases hbin : stripSuffix ".bin".toList value with
        | some found =>
            rw [hmp4, hbin] at h
            cases h
            exact stripSuffix_eq_some.mp hbin
        | none =>
            rw [hmp4, hbin] at h
            obtain ⟨found, hts, hpair⟩ := Option.map_eq_some_iff.mp h
            cases hpair
            exact stripSuffix_eq_some.mp hts
  · intro h
    subst h
    cases kind with
    | fmp4 =>
        have hmp4 : stripSuffix ".mp4".toList (seq ++ '.' :: LiveMediaKind.fmp4.extension)
            = some seq := stripSuffix_append seq ".mp4".toList
        rw [hmp4]
        rfl
    | opaqueMedia =>
        have hmp4 : stripSuffix ".mp4".toList (seq ++ '.' :: LiveMediaKind.opaqueMedia.extension)
            = none :=
          stripSuffix_none_of_getLast? (a := 'n') (by simp [LiveMediaKind.extension]) (by decide)
            (by decide)
        have hbin : stripSuffix ".bin".toList (seq ++ '.' :: LiveMediaKind.opaqueMedia.extension)
            = some seq := stripSuffix_append seq ".bin".toList
        rw [hmp4, hbin]
        rfl
    | ts =>
        have hlast : (seq ++ '.' :: LiveMediaKind.ts.extension).getLast? = some 's' := by
          simp [LiveMediaKind.extension]
        have hts : stripSuffix ".ts".toList (seq ++ '.' :: LiveMediaKind.ts.extension)
            = some seq := stripSuffix_append seq ".ts".toList
        rw [stripSuffix_none_of_getLast? hlast (by decide) (by decide),
          stripSuffix_none_of_getLast? hlast (by decide) (by decide), hts]
        rfl

theorem stripLiveMediaSuffix_append (seq : List Char) (kind : LiveMediaKind) :
    stripLiveMediaSuffix (seq ++ '.' :: kind.extension) = some (seq, kind) :=
  stripLiveMediaSuffix_eq_some.mpr (Eq.refl _)

theorem parseStreamFilePath_eq_some :
    parseStreamFilePath file path = some id ↔
      ∃ streamId, path = "/live/".toList ++ (streamId ++ file) ∧ parseU64 streamId = some id := by
  unfold parseStreamFilePath
  constructor
  · intro h
    obtain ⟨rest, hrest, hthen⟩ := Option.bind_eq_some_iff.mp h
    obtain ⟨streamId, hfile, hid⟩ := Option.bind_eq_some_iff.mp hthen
    rw [stripPrefix_eq_some] at hrest
    rw [stripSuffix_eq_some] at hfile
    subst hrest hfile
    split at hid
    · cases hid
    · exact ⟨streamId, rfl, hid⟩
  · intro h
    obtain ⟨streamId, rfl, hid⟩ := h
    obtain ⟨hne, hslash⟩ := parseU64_chars hid
    rw [stripPrefix_append]
    show (stripSuffix file (streamId ++ file)).bind _ = _
    rw [stripSuffix_append]
    show (if _ then none else parseU64 streamId) = _
    rw [if_neg (by simp [hne, hslash]), hid]

/-- The marker starts with a slash, which the stream id has not. -/
theorem parseStreamNumberedPath_eq_some :
    parseStreamNumberedPath ('/' :: marker) path = some (id, n, kind) ↔
      ∃ streamId seq, path = "/live/".toList
          ++ (streamId ++ ('/' :: marker) ++ (seq ++ '.' :: kind.extension)) ∧
        parseU64 streamId = some id ∧ parseU64 seq = some n := by
  unfold parseStreamNumberedPath
  constructor
  · intro h
    obtain ⟨rest, hrest, hthen⟩ := Option.bind_eq_some_iff.mp h
    obtain ⟨⟨streamId, file⟩, hsplit, hfound⟩ := Option.bind_eq_some_iff.mp hthen
    obtain ⟨⟨seq, found⟩, hsuffix, hread⟩ := Option.bind_eq_some_iff.mp hfound
    rw [stripPrefix_eq_some] at hrest
    rw [stripLiveMediaSuffix_eq_some] at hsuffix
    have hfile := splitOnceAt_eq_some hsplit
    subst hrest hfile hsuffix
    dsimp only at hread
    split at hread
    · cases hread
    · obtain ⟨id', hid, hrest⟩ := Option.bind_eq_some_iff.mp hread
      obtain ⟨n', hn, hpair⟩ := Option.bind_eq_some_iff.mp hrest
      cases hpair
      exact ⟨streamId, seq, rfl, hid, hn⟩
  · intro h
    obtain ⟨streamId, seq, rfl, hid, hn⟩ := h
    obtain ⟨hidNe, hidSlash⟩ := parseU64_chars hid
    obtain ⟨hseqNe, hseqSlash⟩ := parseU64_chars hn
    rw [stripPrefix_append]
    -- the digits of the stream contain no slash, so the first marker is the one after them
    show (splitOnceAt ('/' :: marker) _).bind _ = _
    rw [splitOnceAt_append hidSlash]
    show (stripLiveMediaSuffix _).bind _ = _
    rw [stripLiveMediaSuffix_append]
    show (if _ then none else _) = _
    rw [if_neg (by simp [hidNe, hidSlash, hseqNe, hseqSlash]), hid, hn]
    rfl

theorem parseNumberedPath_eq_some :
    parseNumberedPath pre path = some (n, kind) ↔
      ∃ seq, path = pre ++ (seq ++ '.' :: kind.extension) ∧ parseU64 seq = some n := by
  unfold parseNumberedPath
  constructor
  · intro h
    obtain ⟨file, hfile, hthen⟩ := Option.bind_eq_some_iff.mp h
    obtain ⟨⟨seq, found⟩, hsuffix, hread⟩ := Option.bind_eq_some_iff.mp hthen
    obtain ⟨n', hn, hpair⟩ := Option.bind_eq_some_iff.mp hread
    rw [stripPrefix_eq_some] at hfile
    rw [stripLiveMediaSuffix_eq_some] at hsuffix
    subst hfile hsuffix
    cases hpair
    exact ⟨seq, rfl, hn⟩
  · intro h
    obtain ⟨seq, rfl, hn⟩ := h
    rw [stripPrefix_append]
    show (stripLiveMediaSuffix _).bind _ = _
    rw [stripLiveMediaSuffix_append]
    show (parseU64 seq).bind _ = _
    rw [hn]
    rfl

theorem hlsFailoverMediaPath_eq_some {mediaPath : List Char}
    (h : hlsFailoverMediaPath path = some mediaPath) :
    (path = "/live/master.m3u8".toList ∧ mediaPath = "/live/stream.m3u8".toList) ∨
      ∃ streamId id, path = "/live/".toList ++ (streamId ++ "/master.m3u8".toList) ∧
        parseU64 streamId = some id ∧
        mediaPath = "/live/".toList ++ streamId ++ "/stream.m3u8".toList := by
  unfold hlsFailoverMediaPath at h
  by_cases hmaster : path = "/live/master.m3u8".toList
  · rw [if_pos hmaster] at h
    exact .inl ⟨hmaster, (Option.some.inj h).symm⟩
  · rw [if_neg hmaster] at h
    obtain ⟨rest, hrest, hthen⟩ := Option.bind_eq_some_iff.mp h
    obtain ⟨streamId, hfile, hpath⟩ := Option.bind_eq_some_iff.mp hthen
    rw [stripPrefix_eq_some] at hrest
    rw [stripSuffix_eq_some] at hfile
    subst hrest hfile
    split at hpath
    · cases hpath
    · next hok =>
        rw [not_or, not_or] at hok
        obtain ⟨id, hid⟩ := Option.ne_none_iff_exists'.mp hok.2.2
        exact .inr ⟨streamId, id, rfl, hid, (Option.some.inj hpath).symm⟩

theorem parseMediaUnitPath_prefix {found : UInt64 × UInt64}
    (h : parseMediaUnitPath path = some found) : ∃ rest, path = "/media/".toList ++ rest := by
  unfold parseMediaUnitPath at h
  obtain ⟨rest, hrest, _⟩ := Option.bind_eq_some_iff.mp h
  exact ⟨rest, stripPrefix_eq_some.mp hrest⟩

end Accepts

/-! ## §4. At most one test accepts a path. -/

/-- The only test that can accept a file directly under `/live/`. -/
def fileTest (file : List Char) : Option LiveTest :=
  if (stripPrefix "part".toList file).isSome then some .part
  else if (stripPrefix "seg".toList file).isSome then some .segment
  else if file = "stream.m3u8".toList then some .defaultPlaylist
  else if file = "master.m3u8".toList then some .failover
  else if file = "tail-bundle".toList then some .tailBundle
  else if file = "tail-bundle-stream".toList then some .tailBundleStream
  else if file = "init.mp4".toList then some .init
  else none

/-- The only test that can accept a file of a stream. -/
def streamFileTest (file : List Char) : Option LiveTest :=
  if (stripPrefix "part".toList file).isSome then some .streamPart
  else if (stripPrefix "seg".toList file).isSome then some .streamSegment
  else if file = "stream.m3u8".toList then some .playlist
  else if file = "master.m3u8".toList then some .failover
  else if file = "tail".toList then some .tail
  else if file = "init.mp4".toList then some .streamInit
  else none

/-- The only test that can accept `path`. -/
def testFor (path : List Char) : Option LiveTest :=
  match stripPrefix "/live/".toList path with
  | none => some .mediaUnit
  | some rest =>
      match splitOnce '/' rest with
      | none => fileTest rest
      | some (_, file) => streamFileTest file

theorem testFor_file {file : List Char} (h : '/' ∉ file) :
    testFor ("/live/".toList ++ file) = fileTest file := by
  unfold testFor
  rw [stripPrefix_append]
  dsimp only
  rw [splitOnce_none h]

theorem testFor_stream {streamId : List Char} (h : '/' ∉ streamId) (file : List Char) :
    testFor ("/live/".toList ++ (streamId ++ '/' :: file)) = streamFileTest file := by
  unfold testFor
  rw [stripPrefix_append]
  dsimp only
  rw [splitOnce_append h]

/-- A file that starts with `seg` does not start with `part`. -/
theorem stripPrefix_part_seg (rest : List Char) :
    stripPrefix "part".toList ("seg".toList ++ rest) = none := by
  cases hstrip : stripPrefix "part".toList ("seg".toList ++ rest) with
  | none => rfl
  | some found =>
      have heq := stripPrefix_eq_some.mp hstrip
      simp at heq

theorem fileTest_part (rest : List Char) : fileTest ("part".toList ++ rest) = some .part := by
  unfold fileTest
  rw [stripPrefix_append]
  rfl

theorem fileTest_seg (rest : List Char) : fileTest ("seg".toList ++ rest) = some .segment := by
  unfold fileTest
  rw [stripPrefix_part_seg, stripPrefix_append]
  rfl

theorem streamFileTest_part (rest : List Char) :
    streamFileTest ("part".toList ++ rest) = some .streamPart := by
  unfold streamFileTest
  rw [stripPrefix_append]
  rfl

theorem streamFileTest_seg (rest : List Char) :
    streamFileTest ("seg".toList ++ rest) = some .streamSegment := by
  unfold streamFileTest
  rw [stripPrefix_part_seg, stripPrefix_append]
  rfl

theorem literalPath_eq_some {literal path : List Char} {target found : LiveTarget}
    (h : literalPath literal path target = some found) : path = literal := by
  unfold literalPath at h
  split at h
  · next hpath => exact hpath
  · cases h

/-- A path that one of the single-file parsers accepts. -/
theorem testFor_of_streamFile (name : List Char) {path : List Char} {id : UInt64}
    (h : parseStreamFilePath ('/' :: name) path = some id) :
    testFor path = streamFileTest name := by
  obtain ⟨streamId, rfl, hid⟩ := parseStreamFilePath_eq_some.mp h
  exact testFor_stream (parseU64_chars hid).2 name

/-- A path that one of the numbered-file parsers accepts. -/
theorem testFor_of_streamNumbered (marker : List Char) {path : List Char} {id n : UInt64}
    {kind : LiveMediaKind}
    (h : parseStreamNumberedPath ('/' :: marker) path = some (id, n, kind)) :
    ∃ rest, testFor path = streamFileTest (marker ++ rest) := by
  obtain ⟨streamId, seq, rfl, hid, _⟩ := parseStreamNumberedPath_eq_some.mp h
  refine ⟨seq ++ '.' :: kind.extension, ?_⟩
  rw [List.append_assoc]
  exact testFor_stream (parseU64_chars hid).2 _

theorem slash_notMem_extension (kind : LiveMediaKind) : '/' ∉ kind.extension := by
  cases kind with
  | fmp4 => decide
  | opaqueMedia => decide
  | ts => decide

/-- A numbered file without a stream. -/
theorem testFor_of_numbered (pre : List Char) {path : List Char} {n : UInt64}
    {kind : LiveMediaKind} (hpre : '/' ∉ pre)
    (h : parseNumberedPath ("/live/".toList ++ pre) path = some (n, kind)) :
    ∃ rest, testFor path = fileTest (pre ++ rest) := by
  obtain ⟨seq, rfl, hn⟩ := parseNumberedPath_eq_some.mp h
  refine ⟨seq ++ '.' :: kind.extension, ?_⟩
  rw [List.append_assoc]
  apply testFor_file
  simp [hpre, (parseU64_chars hn).2, slash_notMem_extension kind]

/-- **A test that accepts a path is the one the path is for.** -/
theorem testFor_of_run {t : LiveTest} {path : List Char} {target : LiveTarget}
    (h : t.run path = some target) : testFor path = some t := by
  cases t with
  | defaultPlaylist =>
      rw [literalPath_eq_some h]
      decide
  | tailBundle =>
      rw [literalPath_eq_some h]
      decide
  | tailBundleStream =>
      rw [literalPath_eq_some h]
      decide
  | init =>
      have hpath : path = "/live/init.mp4".toList := by
        simp only [LiveTest.run, parseInitPath, decide_eq_true_eq] at h
        split at h
        · next hpath => exact hpath
        · cases h
      rw [hpath]
      decide
  | failover =>
      obtain ⟨mediaPath, hmedia, _⟩ := Option.map_eq_some_iff.mp h
      rcases hlsFailoverMediaPath_eq_some hmedia with ⟨rfl, _⟩ | ⟨streamId, id, hmaster, hid, _⟩
      · decide
      · have hfile : testFor ("/live/".toList ++ (streamId ++ "/master.m3u8".toList))
            = streamFileTest "master.m3u8".toList :=
          testFor_stream (parseU64_chars hid).2 "master.m3u8".toList
        rw [hmaster, hfile]
        decide
  | playlist =>
      obtain ⟨id, hid, _⟩ := Option.map_eq_some_iff.mp h
      rw [testFor_of_streamFile "stream.m3u8".toList hid]
      decide
  | tail =>
      obtain ⟨id, hid, _⟩ := Option.map_eq_some_iff.mp h
      rw [testFor_of_streamFile "tail".toList hid]
      decide
  | streamInit =>
      obtain ⟨id, hid, _⟩ := Option.map_eq_some_iff.mp h
      rw [testFor_of_streamFile "init.mp4".toList hid]
      decide
  | mediaUnit =>
      obtain ⟨found, hfound, _⟩ := Option.map_eq_some_iff.mp h
      obtain ⟨rest, rfl⟩ := parseMediaUnitPath_prefix hfound
      -- the one test that is about a path not under `/live/`
      unfold testFor
      have hother : stripPrefix "/live/".toList ("/media/".toList ++ rest) = none := by
        cases hstrip : stripPrefix "/live/".toList ("/media/".toList ++ rest) with
        | none => rfl
        | some found =>
            have heq := stripPrefix_eq_some.mp hstrip
            simp at heq
      rw [hother]
  | streamPart =>
      obtain ⟨found, hfound, _⟩ := Option.map_eq_some_iff.mp h
      obtain ⟨rest, hrest⟩ := testFor_of_streamNumbered "part".toList hfound
      rw [hrest, streamFileTest_part]
  | streamSegment =>
      obtain ⟨found, hfound, _⟩ := Option.map_eq_some_iff.mp h
      obtain ⟨rest, hrest⟩ := testFor_of_streamNumbered "seg".toList hfound
      rw [hrest, streamFileTest_seg]
  | part =>
      obtain ⟨found, hfound, _⟩ := Option.map_eq_some_iff.mp h
      obtain ⟨rest, hrest⟩ := testFor_of_numbered "part".toList (by decide) hfound
      rw [hrest, fileTest_part]
  | segment =>
      obtain ⟨found, hfound, _⟩ := Option.map_eq_some_iff.mp h
      obtain ⟨rest, hrest⟩ := testFor_of_numbered "seg".toList (by decide) hfound
      rw [hrest, fileTest_seg]

theorem run_unique {path : List Char} {t t' : LiveTest} (h : (t.run path).isSome)
    (h' : (t'.run path).isSome) : t = t' := by
  obtain ⟨target, htarget⟩ := Option.isSome_iff_exists.mp h
  obtain ⟨target', htarget'⟩ := Option.isSome_iff_exists.mp h'
  exact Option.some.inj ((testFor_of_run htarget).symm.trans (testFor_of_run htarget'))

theorem routeLive_of_run {path : List Char} {t : LiveTest} {target : LiveTarget}
    (h : t.run path = some target) : routeLive path = some target := by
  refine (findSome?_eq_some_iff_of_unique fun _ _ _ _ => run_unique).mpr ⟨t, ?_, h⟩
  cases t <;> decide

/-! ## §5. The URIs of a playlist. -/

def initUri : List Char := "init.mp4".toList

/-- `part{seq}.{extension}`. -/
def partUri (seq : Nat) (kind : LiveMediaKind) : List Char :=
  "part".toList ++ ((toString seq).toList ++ '.' :: kind.extension)

/-- `seg{segment}.{extension}`. -/
def segmentUri (segment : Nat) (kind : LiveMediaKind) : List Char :=
  "seg".toList ++ ((toString segment).toList ++ '.' :: kind.extension)

/-- The playlist of the stream the cache is configured for. -/
def defaultPlaylistPath : List Char := "/live/stream.m3u8".toList

/-- `/live/{stream_id}/stream.m3u8`. -/
def streamPlaylistPath (streamId : UInt64) : List Char :=
  "/live/".toList ++ ((toString streamId.toNat).toList ++ "/stream.m3u8".toList)

/-- What a client requests for a relative reference: a single path segment, other than a dot
segment, replaces the last segment of the base. -/
def resolve (base reference : List Char) : List Char :=
  base.rdropWhile (fun c => c != '/') ++ reference

theorem resolve_file (dir file reference : List Char) (hfile : '/' ∉ file) :
    resolve (dir ++ '/' :: file) reference = dir ++ '/' :: reference := by
  have hempty : file.rdropWhile (fun c => c != '/') = [] := by
    rw [List.rdropWhile_eq_nil_iff]
    intro c hc
    exact bne_iff_ne.mpr fun heq => hfile (heq ▸ hc)
  unfold resolve
  rw [rdropWhile_append_cons (by decide), hempty, List.append_assoc]
  rfl

theorem resolve_default (reference : List Char) :
    resolve defaultPlaylistPath reference = "/live/".toList ++ reference :=
  resolve_file "/live".toList "stream.m3u8".toList reference (by decide)

theorem resolve_stream (streamId : UInt64) (reference : List Char) :
    resolve (streamPlaylistPath streamId) reference
      = "/live/".toList ++ ((toString streamId.toNat).toList ++ '/' :: reference) := by
  have hresolve := resolve_file ("/live/".toList ++ (toString streamId.toNat).toList)
    "stream.m3u8".toList reference (by decide)
  rw [List.append_assoc, List.append_assoc] at hresolve
  exact hresolve

section RoundTrip

variable (streamId n : UInt64) (kind : LiveMediaKind)

theorem parseStreamPlaylistPath_base :
    parseStreamPlaylistPath (streamPlaylistPath streamId) = some streamId :=
  parseStreamFilePath_eq_some.mpr ⟨_, rfl, parseU64_toString streamId⟩

theorem parseStreamInitPath_resolve :
    parseStreamInitPath (resolve (streamPlaylistPath streamId) initUri) = some streamId := by
  rw [resolve_stream]
  exact parseStreamFilePath_eq_some.mpr ⟨_, rfl, parseU64_toString streamId⟩

/-- The numbered files of a stream. -/
theorem parseStreamNumberedPath_resolve (marker : List Char) :
    parseStreamNumberedPath ('/' :: marker)
        (resolve (streamPlaylistPath streamId)
          (marker ++ ((toString n.toNat).toList ++ '.' :: kind.extension)))
      = some (streamId, n, kind) := by
  rw [resolve_stream]
  refine parseStreamNumberedPath_eq_some.mpr
    ⟨_, _, ?_, parseU64_toString streamId, parseU64_toString n⟩
  simp only [List.append_assoc, List.cons_append]

/-- The numbered files without a stream. -/
theorem parseNumberedPath_resolve (pre : List Char) :
    parseNumberedPath ("/live/".toList ++ pre)
        (resolve defaultPlaylistPath
          (pre ++ ((toString n.toNat).toList ++ '.' :: kind.extension)))
      = some (n, kind) := by
  rw [resolve_default]
  refine parseNumberedPath_eq_some.mpr ⟨_, ?_, parseU64_toString n⟩
  rw [List.append_assoc]

theorem parseStreamPartPath_resolve :
    parseStreamPartPath (resolve (streamPlaylistPath streamId) (partUri n.toNat kind))
      = some (streamId, n, kind) :=
  parseStreamNumberedPath_resolve streamId n kind "part".toList

theorem parseStreamSegmentPath_resolve :
    parseStreamSegmentPath (resolve (streamPlaylistPath streamId) (segmentUri n.toNat kind))
      = some (streamId, n, kind) :=
  parseStreamNumberedPath_resolve streamId n kind "seg".toList

theorem parsePartPath_resolve :
    parsePartPath (resolve defaultPlaylistPath (partUri n.toNat kind)) = some (n, kind) :=
  parseNumberedPath_resolve n kind "part".toList

theorem parseSegmentPath_resolve :
    parseSegmentPath (resolve defaultPlaylistPath (segmentUri n.toNat kind)) = some (n, kind) :=
  parseNumberedPath_resolve n kind "seg".toList

end RoundTrip

/-- **The live URLs.**  No two tests accept one path, so any order of the tests finds the same
branch.  The URIs of a playlist, resolved against the stream's playlist or the default one,
are read by their parsers as the stream, the number and the kind they were written for. -/
theorem live_url_grammar :
    (∀ (path : List Char) (t t' : LiveTest), (t.run path).isSome → (t'.run path).isSome → t = t') ∧
    (∀ (tests : List LiveTest) (path : List Char), tests.Perm routeTests →
      (tests.findSome? fun t => t.run path) = routeLive path) ∧
    ∀ (streamId n : UInt64) (kind : LiveMediaKind),
      parseStreamInitPath (resolve (streamPlaylistPath streamId) initUri) = some streamId ∧
      parseStreamPartPath (resolve (streamPlaylistPath streamId) (partUri n.toNat kind))
        = some (streamId, n, kind) ∧
      parseStreamSegmentPath (resolve (streamPlaylistPath streamId) (segmentUri n.toNat kind))
        = some (streamId, n, kind) ∧
      parseInitPath (resolve defaultPlaylistPath initUri) = true ∧
      parsePartPath (resolve defaultPlaylistPath (partUri n.toNat kind)) = some (n, kind) ∧
      parseSegmentPath (resolve defaultPlaylistPath (segmentUri n.toNat kind))
        = some (n, kind) := by
  refine ⟨fun _ _ _ => run_unique, ?_, ?_⟩
  · intro tests path hperm
    exact findSome?_perm hperm fun _ _ _ _ => run_unique
  · intro streamId n kind
    exact ⟨parseStreamInitPath_resolve streamId, parseStreamPartPath_resolve streamId n kind,
      parseStreamSegmentPath_resolve streamId n kind, by decide, parsePartPath_resolve n kind,
      parseSegmentPath_resolve n kind⟩

/-- A part of stream 77: the test of a segment does not accept it, and the tests find it from the
last to the first as well. -/
theorem live_url_grammar_part :
    ¬ (LiveTest.streamSegment.run "/live/77/part42.ts".toList).isSome ∧
    (routeTests.reverse.findSome? fun t => t.run "/live/77/part42.ts".toList)
      = routeLive "/live/77/part42.ts".toList := by
  refine ⟨fun hsegment => ?_, ?_⟩
  · have hsame := live_url_grammar.1 "/live/77/part42.ts".toList .streamSegment .streamPart hsegment
      (by decide)
    cases hsame
  · exact live_url_grammar.2.1 routeTests.reverse _ routeTests.reverse_perm

example : routeLive "/live/77/part42.ts".toList = some (.streamPart 77 42 .ts) := by decide

/-! ## §6. The lines of a playlist. -/

/-- The URI a line of a playlist contains. -/
def lineUri : PlaylistLine → Option (List Char)
  | .map => some initUri
  | .part _ sequence kind _ => some (partUri sequence kind)
  | .segment number kind => some (segmentUri number kind)
  | .preloadHint sequence kind => some (partUri sequence kind)
  | _ => none

/-- What a line of the playlist of `streamId`, or of the default playlist, is about. -/
def lineTarget (streamId : Option UInt64) : PlaylistLine → Option LiveTarget
  | .map => some (streamId.elim .init .streamInit)
  | .part _ sequence kind _ => some (partTarget sequence kind)
  | .segment number kind =>
      some (streamId.elim (.segment (.ofNat number) kind) fun id =>
        .streamSegment id (.ofNat number) kind)
  | .preloadHint sequence kind => some (partTarget sequence kind)
  | _ => none
where
  partTarget (sequence : Nat) (kind : LiveMediaKind) : LiveTarget :=
    streamId.elim (.part (.ofNat sequence) kind) fun id => .streamPart id (.ofNat sequence) kind

/-- The numbers of a line that are `u64` in the source. -/
def lineFits : PlaylistLine → Prop
  | .part _ sequence _ _ => sequence < 2 ^ 64
  | .segment number _ => number < 2 ^ 64
  | .preloadHint sequence _ => sequence < 2 ^ 64
  | _ => True

theorem routeLive_part (streamId : UInt64) {sequence : Nat} (h : sequence < 2 ^ 64)
    (kind : LiveMediaKind) :
    routeLive (resolve (streamPlaylistPath streamId) (partUri sequence kind))
        = some (.streamPart streamId (.ofNat sequence) kind) ∧
    routeLive (resolve defaultPlaylistPath (partUri sequence kind))
        = some (.part (.ofNat sequence) kind) := by
  have hnumber : (UInt64.ofNat sequence).toNat = sequence := UInt64.toNat_ofNat_of_lt h
  have hstream := parseStreamPartPath_resolve streamId (.ofNat sequence) kind
  have hdefault := parsePartPath_resolve (.ofNat sequence) kind
  rw [hnumber] at hstream hdefault
  constructor
  · apply routeLive_of_run (t := .streamPart)
    simp only [LiveTest.run, hstream, Option.map_some]
  · apply routeLive_of_run (t := .part)
    simp only [LiveTest.run, hdefault, Option.map_some]

theorem routeLive_segment (streamId : UInt64) {number : Nat} (h : number < 2 ^ 64)
    (kind : LiveMediaKind) :
    routeLive (resolve (streamPlaylistPath streamId) (segmentUri number kind))
        = some (.streamSegment streamId (.ofNat number) kind) ∧
    routeLive (resolve defaultPlaylistPath (segmentUri number kind))
        = some (.segment (.ofNat number) kind) := by
  have hnumber : (UInt64.ofNat number).toNat = number := UInt64.toNat_ofNat_of_lt h
  have hstream := parseStreamSegmentPath_resolve streamId (.ofNat number) kind
  have hdefault := parseSegmentPath_resolve (.ofNat number) kind
  rw [hnumber] at hstream hdefault
  constructor
  · apply routeLive_of_run (t := .streamSegment)
    simp only [LiveTest.run, hstream, Option.map_some]
  · apply routeLive_of_run (t := .segment)
    simp only [LiveTest.run, hdefault, Option.map_some]

/-- The playlists themselves. -/
theorem routeLive_playlist (streamId : UInt64) :
    routeLive (streamPlaylistPath streamId) = some (.playlist streamId) ∧
      routeLive defaultPlaylistPath = some .defaultPlaylist := by
  constructor
  · apply routeLive_of_run (t := .playlist)
    simp only [LiveTest.run, parseStreamPlaylistPath_base, Option.map_some]
  · decide

/-- **The media playlist of a failover path is served**, as the stream's own where the path names
a stream. -/
theorem routeLive_failover {path mediaPath : List Char}
    (h : hlsFailoverMediaPath path = some mediaPath) :
    routeLive mediaPath = some .defaultPlaylist ∨
      ∃ streamId id, path = "/live/".toList ++ (streamId ++ "/master.m3u8".toList) ∧
        parseU64 streamId = some id ∧ routeLive mediaPath = some (.playlist id) := by
  rcases hlsFailoverMediaPath_eq_some h with ⟨_, rfl⟩ | ⟨streamId, id, hpath, hid, rfl⟩
  · exact .inl (routeLive_playlist 0).2
  · -- the stream's playlist is written with the same digits as the failover path
    have hplaylist : parseStreamPlaylistPath
        ("/live/".toList ++ streamId ++ "/stream.m3u8".toList) = some id :=
      parseStreamFilePath_eq_some.mpr ⟨streamId, List.append_assoc _ _ _, hid⟩
    refine .inr ⟨streamId, id, hpath, hid, ?_⟩
    apply routeLive_of_run (t := .playlist)
    simp only [LiveTest.run, hplaylist, Option.map_some]

/-- **A playlist line leads to the branch it is about**, from the playlist of a stream and from
the default one. -/
theorem routeLive_line {line : PlaylistLine} {uri : List Char} (hfits : lineFits line)
    (huri : lineUri line = some uri) (streamId : UInt64) :
    routeLive (resolve (streamPlaylistPath streamId) uri) = lineTarget (some streamId) line ∧
      routeLive (resolve defaultPlaylistPath uri) = lineTarget none line := by
  cases line with
  | map =>
      cases huri
      constructor
      · apply routeLive_of_run (t := .streamInit)
        simp only [LiveTest.run, parseStreamInitPath_resolve, Option.map_some, Option.elim_some]
      · decide
  | part durationMs sequence kind independent =>
      cases huri
      exact routeLive_part streamId hfits kind
  | segment number kind =>
      cases huri
      exact routeLive_segment streamId hfits kind
  | preloadHint sequence kind =>
      cases huri
      exact routeLive_part streamId hfits kind
  | _ => cases huri

end AvMesh.Edge
