/-
  AvMesh.Edge.PlaybackSession
  ───────────────────────────
  **THE SESSION A VIEWER NAMES** (`playback_session_id`, src/main.rs).

  A player names its playback session in a CMCD field `sid`, in a header or
  percent-coded in the query.  A hand-written scanner splits the fields at the
  commas outside quoted strings, a second loop undoes the escapes, and
  `normalize_playback_session_id` accepts what is left:

    • `scanFields_text`  — the scanner passes over any other field, whatever its
                           quoted strings hold,
    • `scanFields_sid`   — and returns the session id of the `sid` field,
    • `normalize_some`   — what an accepted id looks like.

  Main result: `session_id_extracted`.
-/
import AvMesh.Lib.QuotedFields
import AvMesh.Lib.Percent
import AvMesh.Lib.DebugText
import Mathlib.Data.List.DropRight

namespace AvMesh.Edge

open AvMesh.Lib

/-! ## §1. Text helpers of the standard library. -/

/-- `char::is_whitespace`: the Unicode property White_Space. -/
def isWhitespace (c : Char) : Bool :=
  (9 ≤ c.toNat && c.toNat ≤ 13) || c.toNat == 0x20 || c.toNat == 0x85 || c.toNat == 0xA0
    || c.toNat == 0x1680 || (0x2000 ≤ c.toNat && c.toNat ≤ 0x200A) || c.toNat == 0x2028
    || c.toNat == 0x2029 || c.toNat == 0x202F || c.toNat == 0x205F || c.toNat == 0x3000

/-- `text.trim()`. -/
def trim (text : List Char) : List Char :=
  (text.dropWhile isWhitespace).rdropWhile isWhitespace

/-- `text.split_once(separator)`. -/
def splitOnce (separator : Char) : List Char → Option (List Char × List Char)
  | [] => none
  | c :: rest =>
      if c = separator then some ([], rest)
      else (splitOnce separator rest).map fun parts => (c :: parts.1, parts.2)

/-- `byte.is_ascii() && !byte.is_ascii_control()`. -/
def isPlainAscii (byte : UInt8) : Bool := 32 ≤ byte && byte < 127

/-! ## §2. The scanner. -/

def normalizePlaybackSessionId (value : List Char) : Option (List Char) :=
  let value := trim value
  if value ≠ [] ∧ (utf8Bytes value).length ≤ 64 ∧ (utf8Bytes value).all isPlainAscii = true then
    some value
  else none

def parseCmcdString (value : List Char) : Option (List Char) :=
  match value with
  | [] => none
  | first :: rest =>
      -- a lone quote is not a quoted string: `rest` is empty
      if first = quoteChar ∧ rest.getLast? = some quoteChar then
        (unescape backslash rest.dropLast).bind normalizePlaybackSessionId
      else none

/-- The raw value of a field whose key is `sid`. -/
def sidValue (field : List Char) : Option (List Char) :=
  match splitOnce '=' field with
  | some (key, rawValue) => if trim key = ['s', 'i', 'd'] then some rawValue else none
  | none => none

/-- The loop of `parse_cmcd_session_id`; `field` is the text since the last
field started. -/
def scanFields : List Char → List Char → QuoteFlags → Option (List Char)
  | [], _, _ => none
  | c :: rest, field, flags =>
      if Splits ',' flags c then
        match sidValue (trim field) with
        -- the first `sid` field decides, also when its value is refused
        | some rawValue => parseCmcdString (trim rawValue)
        -- another field: collecting starts again after the comma
        | none => scanFields rest [] flags
      else scanFields rest (field ++ [c]) (advance quoteChar backslash flags c)

/-- `parse_cmcd_session_id`; a last comma ends the last field. -/
def parseCmcdSessionId (value : String) : Option String :=
  (scanFields (value.toList ++ [',']) [] {}).map String.ofList

def percentDecodeQueryValue (value : String) : Option String :=
  if 4096 < (asBytes value).length then none
  else (percentDecode (asBytes value)).bind fromUtf8

def queryValue (query : Option String) (key : String) : Option String :=
  query.bind fun query =>
    (query.toList.splitOn '&').findSome? fun part =>
      -- a parameter without `=` has the empty value
      let parts := (splitOnce '=' part).getD (part, [])
      if parts.1 = key.toList then some (String.ofList parts.2) else none

/-- The header values `playback_session_id` reads, each after `to_str().ok()`. -/
structure PlaybackHeaders where
  /-- `headers.get_all("cmcd-session")`. -/
  cmcdSession : List (Option String)
  /-- `headers.get("x-playback-session-id")`. -/
  xPlaybackSessionId : Option String

def playbackSessionId (headers : PlaybackHeaders) (query : Option String) : Option String :=
  -- the CMCD headers come first, then the query, then the plain header
  ((headers.cmcdSession.filterMap id).findSome? parseCmcdSessionId).orElse fun _ =>
    (((queryValue query "CMCD").bind percentDecodeQueryValue).bind parseCmcdSessionId).orElse
      fun _ => headers.xPlaybackSessionId.bind fun value =>
        (normalizePlaybackSessionId value.toList).map String.ofList

/-! ## §3. Well-formed CMCD texts. -/

/-- A session id: 1 to 64 printable ASCII characters, no blank at either end. -/
structure SessionId where
  chars : List Char
  printable : ∀ c ∈ chars, 32 ≤ c.toNat ∧ c.toNat ≤ 126
  nonempty : chars ≠ []
  length_le : chars.length ≤ 64
  leading : chars.head? ≠ some ' '
  trailing : chars.getLast? ≠ some ' '

/-- The value of a CMCD field: none, a token, or a quoted string (here the text
before its quotes and backslashes are escaped). -/
inductive CmcdValue where
  | absent
  | token (text : List Char) (plain : ∀ c ∈ text, c ≠ ',' ∧ c ≠ quoteChar)
  | quoted (text : List Char)

/-- A CMCD field other than `sid`. -/
structure CmcdField where
  key : List Char
  value : CmcdValue
  token : ∀ c ∈ key, c.isAlphanum = true ∨ c = '-'
  key_ne : key ≠ ['s', 'i', 'd']

/-- A quoted string as it is written. -/
def quotedText (text : List Char) : List Char :=
  quoteChar :: (escape quoteChar backslash text ++ [quoteChar])

def CmcdField.text (field : CmcdField) : List Char :=
  match field.value with
  | .absent => field.key
  | .token text _ => field.key ++ '=' :: text
  | .quoted text => field.key ++ '=' :: quotedText text

def SessionId.text (s : SessionId) : String := String.ofList s.chars

/-- The field `sid="…"`. -/
def SessionId.field (s : SessionId) : List Char := ['s', 'i', 'd', '='] ++ quotedText s.chars

/-- Fields joined by commas, the `sid` field among them. -/
def cmcdText (before : List CmcdField) (s : SessionId) (after : List CmcdField) : String :=
  String.ofList ([','].intercalate
    (before.map CmcdField.text ++ s.field :: after.map CmcdField.text))

/-! ## §4. Trimming and splitting. -/

theorem dropWhile_append_cons {p : Char → Bool} {c : Char} (hc : p c = false)
    (front back : List Char) :
    (front ++ c :: back).dropWhile p = front.dropWhile p ++ c :: back := by
  induction front with
  | nil => simp [hc]
  | cons a front ih =>
      cases ha : p a with
      | true => simp [ha, ih]
      | false => simp [ha]

/-- Trimming cuts nothing off in front of a character that is no blank, nor
after one. -/
theorem rdropWhile_append_cons {p : Char → Bool} {c : Char} (hc : p c = false)
    (front back : List Char) :
    (front ++ c :: back).rdropWhile p = front ++ c :: back.rdropWhile p := by
  unfold List.rdropWhile
  rw [List.reverse_append, List.reverse_cons, List.append_assoc, List.singleton_append,
    dropWhile_append_cons hc]
  simp

/-- A text whose first and last characters are no blanks. -/
theorem trim_of_ends {text : List Char} (hfirst : ∀ c, text.head? = some c → isWhitespace c = false)
    (hlast : ∀ c, text.getLast? = some c → isWhitespace c = false) : trim text = text := by
  have hfront : text.dropWhile isWhitespace = text := by
    cases text with
    | nil => rfl
    | cons c text => simp [hfirst c rfl]
  unfold trim
  rw [hfront]
  rcases List.eq_nil_or_concat text with rfl | ⟨front, c, rfl⟩
  · rfl
  · have hc := hlast c (by simp)
    rw [List.concat_eq_append, rdropWhile_append_cons hc]
    rfl

/-- A text that starts with a character that is no blank. -/
theorem trim_cons {c : Char} (hc : isWhitespace c = false) (text : List Char) :
    trim (c :: text) = c :: text.rdropWhile isWhitespace := by
  unfold trim
  rw [List.dropWhile_cons_of_neg (by simp [hc])]
  exact rdropWhile_append_cons hc [] text

theorem splitOnce_append {separator : Char} {key : List Char} (hkey : separator ∉ key)
    (value : List Char) :
    splitOnce separator (key ++ separator :: value) = some (key, value) := by
  induction key with
  | nil => simp [splitOnce]
  | cons c key ih =>
      rw [List.mem_cons, not_or] at hkey
      have hc : c ≠ separator := fun heq => hkey.1 heq.symm
      rw [List.cons_append, splitOnce, if_neg hc, ih hkey.2]
      rfl

theorem splitOnce_none {separator : Char} {text : List Char} (h : separator ∉ text) :
    splitOnce separator text = none := by
  induction text with
  | nil => rfl
  | cons c text ih =>
      rw [List.mem_cons, not_or] at h
      have hc : c ≠ separator := fun heq => h.1 heq.symm
      rw [splitOnce, if_neg hc, ih h.2]
      rfl

/-! ## §5. One field under the scanner. -/

theorem quoteChar_ne_comma : quoteChar ≠ ',' := by decide

theorem quoteChar_ne_backslash : quoteChar ≠ backslash := by decide

/-- A text the scanner passes over is collected into the field. -/
theorem scanFields_append {flags flags' : QuoteFlags} {text : List Char}
    (h : ReadsTo ',' quoteChar backslash flags text flags') (rest field : List Char) :
    scanFields (text ++ rest) field flags = scanFields rest (field ++ text) flags' := by
  induction h generalizing field with
  | nil flags => rw [List.nil_append, List.append_nil]
  | cons hc _ ih =>
      rw [List.cons_append, scanFields, if_neg hc, ih, List.append_assoc]
      rfl

/-- The comma that ends a field. -/
theorem scanFields_comma (rest field : List Char) :
    scanFields (',' :: rest) field {}
      = match sidValue (trim field) with
        | some rawValue => parseCmcdString (trim rawValue)
        | none => scanFields rest [] {} := by
  rw [scanFields, if_pos ⟨rfl, rfl, rfl⟩]

/-- The characters of a key: no comma, no quote, no equals sign, no blank. -/
theorem key_char {c : Char} (h : c.isAlphanum = true ∨ c = '-') :
    c ≠ ',' ∧ c ≠ quoteChar ∧ c ≠ '=' ∧ isWhitespace c = false := by
  rcases h with h | rfl
  · have hrange : (48 ≤ c.toNat ∧ c.toNat ≤ 57) ∨ (65 ≤ c.toNat ∧ c.toNat ≤ 90)
        ∨ (97 ≤ c.toNat ∧ c.toNat ≤ 122) := by
      unfold Char.isAlphanum Char.isAlpha Char.isUpper Char.isLower Char.isDigit at h
      simp only [Bool.or_eq_true, Bool.and_eq_true, decide_eq_true_eq, UInt32.le_iff_toNat_le,
        ge_iff_le] at h
      have hval : c.toNat = c.val.toNat := rfl
      simp at h
      omega
    have hne : ∀ d : Char, d.toNat < 48 → c ≠ d := by
      rintro d hd rfl
      omega
    refine ⟨hne _ (by decide), hne _ (by decide), ?_, ?_⟩
    -- the equals sign, 61, lies between the digits and the letters
    · rintro rfl
      revert hrange
      decide
    · unfold isWhitespace
      simp
      omega
  · decide

theorem CmcdField.readsTo (field : CmcdField) :
    ReadsTo ',' quoteChar backslash {} field.text {} := by
  have hkey : ReadsTo ',' quoteChar backslash {} field.key {} :=
    readsTo_plain fun c hc => ⟨(key_char (field.token c hc)).1, (key_char (field.token c hc)).2.1⟩
  have hequals : ReadsTo ',' quoteChar backslash {} ['='] {} :=
    readsTo_plain (by simp [quoteChar])
  unfold CmcdField.text
  cases field.value with
  | absent => exact hkey
  | token text plain => exact hkey.append (hequals.append (readsTo_plain plain))
  | quoted text =>
      exact hkey.append
        (hequals.append (readsTo_quoted quoteChar_ne_comma quoteChar_ne_backslash text))

theorem SessionId.readsTo (s : SessionId) : ReadsTo ',' quoteChar backslash {} s.field {} :=
  (readsTo_plain (by simp [quoteChar])).append
    (readsTo_quoted quoteChar_ne_comma quoteChar_ne_backslash s.chars)

theorem not_mem_key {key : List Char} (htoken : ∀ c ∈ key, c.isAlphanum = true ∨ c = '-') :
    '=' ∉ key :=
  fun hmem => (key_char (htoken _ hmem)).2.2.1 rfl

theorem trim_key {key : List Char} (htoken : ∀ c ∈ key, c.isAlphanum = true ∨ c = '-') :
    trim key = key := by
  refine trim_of_ends ?_ ?_
  · intro c hc
    exact (key_char (htoken c (List.mem_of_head? hc))).2.2.2
  · intro c hc
    exact (key_char (htoken c (List.mem_of_getLast? hc))).2.2.2

/-- A key, an equals sign and a value: trimming cuts into the value only. -/
theorem trim_key_value {key : List Char} (htoken : ∀ c ∈ key, c.isAlphanum = true ∨ c = '-')
    (value : List Char) :
    trim (key ++ '=' :: value) = key ++ '=' :: value.rdropWhile isWhitespace := by
  have hequals : isWhitespace '=' = false := by decide
  -- an empty key leaves the equals sign in front
  cases key with
  | nil => exact trim_cons hequals value
  | cons c key =>
      have hc := (key_char (htoken c List.mem_cons_self)).2.2.2
      rw [List.cons_append, trim_cons hc, rdropWhile_append_cons hequals]
      rfl

/-- Another field is not taken for `sid`. -/
theorem CmcdField.sidValue_none (field : CmcdField) : sidValue (trim field.text) = none := by
  have hvalue : ∀ value, sidValue (trim (field.key ++ '=' :: value)) = none := by
    intro value
    unfold sidValue
    rw [trim_key_value field.token, splitOnce_append (not_mem_key field.token)]
    dsimp only
    rw [trim_key field.token, if_neg field.key_ne]
  unfold CmcdField.text
  cases field.value with
  -- without an equals sign there is no key to compare
  | absent =>
      unfold sidValue
      rw [trim_key field.token, splitOnce_none (not_mem_key field.token)]
  | token text plain => exact hvalue text
  | quoted text => exact hvalue _

/-- **Another field is passed over.** -/
theorem scanFields_text (field : CmcdField) (rest : List Char) :
    scanFields (field.text ++ ',' :: rest) [] {} = scanFields rest [] {} := by
  rw [scanFields_append field.readsTo, scanFields_comma, List.nil_append, field.sidValue_none]

/-! ## §6. The `sid` field. -/

/-- The only blank among the printable ASCII characters is the space. -/
theorem isWhitespace_printable {c : Char} (h : 32 ≤ c.toNat ∧ c.toNat ≤ 126) (hc : c ≠ ' ') :
    isWhitespace c = false := by
  have hne : c.toNat ≠ 32 := by
    intro heq
    exact hc (Char.ext (UInt32.toNat_inj.mp heq))
  unfold isWhitespace
  simp
  omega

theorem utf8EncodeChar_ascii {c : Char} (h : c.toNat < 128) :
    String.utf8EncodeChar c = [UInt8.ofNat c.toNat] := by
  unfold String.utf8EncodeChar
  exact if_pos (show c.val.toNat ≤ 0x7f by
    have : c.val.toNat < 128 := h
    omega)

theorem utf8Bytes_ascii {text : List Char} (h : ∀ c ∈ text, c.toNat < 128) :
    utf8Bytes text = text.map fun c => UInt8.ofNat c.toNat := by
  induction text with
  | nil => rfl
  | cons c text ih =>
      rw [utf8Bytes_cons, utf8EncodeChar_ascii (h c List.mem_cons_self),
        ih fun d hd => h d (List.mem_cons_of_mem _ hd)]
      rfl

/-- **A session id passes the last check unchanged.** -/
theorem SessionId.normalize (s : SessionId) :
    normalizePlaybackSessionId s.chars = some s.chars := by
  have htrim : trim s.chars = s.chars := by
    refine trim_of_ends ?_ ?_
    · intro c hc
      refine isWhitespace_printable (s.printable c (List.mem_of_head? hc)) ?_
      rintro rfl
      exact s.leading hc
    · intro c hc
      refine isWhitespace_printable (s.printable c (List.mem_of_getLast? hc)) ?_
      rintro rfl
      exact s.trailing hc
  -- ASCII characters are one byte each, so the byte limit is the character limit
  have hbytes : utf8Bytes s.chars = s.chars.map fun c => UInt8.ofNat c.toNat := by
    refine utf8Bytes_ascii fun c hc => ?_
    have := (s.printable c hc).2
    omega
  have hplain : (utf8Bytes s.chars).all isPlainAscii = true := by
    rw [hbytes, List.all_eq_true]
    intro byte hbyte
    obtain ⟨c, hc, rfl⟩ := List.mem_map.mp hbyte
    obtain ⟨hlow, hhigh⟩ := s.printable c hc
    unfold isPlainAscii
    simp [UInt8.le_iff_toNat_le, UInt8.lt_iff_toNat_lt]
    omega
  have hlen : (utf8Bytes s.chars).length ≤ 64 := by
    rw [hbytes, List.length_map]
    exact s.length_le
  unfold normalizePlaybackSessionId
  rw [htrim]
  exact if_pos ⟨s.nonempty, hlen, hplain⟩

theorem parseCmcdString_quoted (s : SessionId) :
    parseCmcdString (quotedText s.chars) = some s.chars := by
  unfold quotedText parseCmcdString
  dsimp only
  rw [if_pos ⟨rfl, List.getLast?_concat⟩, List.dropLast_concat, unescape_escape]
  exact s.normalize

theorem trim_quotedText (text : List Char) : trim (quotedText text) = quotedText text := by
  have hquote : isWhitespace quoteChar = false := by decide
  refine trim_of_ends ?_ ?_
  · intro c hc
    cases hc
    exact hquote
  · intro c hc
    unfold quotedText at hc
    rw [← List.cons_append, List.getLast?_concat] at hc
    cases hc
    exact hquote

/-- **The `sid` field gives the session id**, whatever follows it. -/
theorem scanFields_sid (s : SessionId) (rest : List Char) :
    scanFields (s.field ++ ',' :: rest) [] {} = some s.chars := by
  have htrim : trim s.field = s.field := by
    have hlast : s.field.getLast? = some quoteChar := by
      unfold SessionId.field quotedText
      rw [← List.cons_append, ← List.append_assoc, List.getLast?_concat]
    refine trim_of_ends ?_ ?_
    · intro c hc
      cases hc
      decide
    · intro c hc
      cases Option.some.inj (hlast.symm.trans hc)
      decide
  -- the key is exactly `sid`, and the value is quoted, so nothing is trimmed
  have hsid : sidValue (trim s.field) = some (quotedText s.chars) := by
    rw [htrim]
    unfold sidValue SessionId.field
    rw [show ['s', 'i', 'd', '='] ++ quotedText s.chars
        = ['s', 'i', 'd'] ++ '=' :: quotedText s.chars from rfl,
      splitOnce_append (by decide)]
    exact if_pos (by decide)
  rw [scanFields_append s.readsTo, scanFields_comma, List.nil_append, hsid]
  show parseCmcdString (trim (quotedText s.chars)) = some s.chars
  rw [trim_quotedText, parseCmcdString_quoted]

/-! ## §7. The joined text and the query. -/

/-- Joined fields, with the virtual comma at the end, are fields that each end
in a comma. -/
theorem intercalate_append_comma (field : List Char) (fields : List (List Char)) :
    [','].intercalate (field :: fields) ++ [',']
      = (field :: fields).flatMap fun f => f ++ [','] := by
  induction fields generalizing field with
  | nil => simp [List.intercalate]
  | cons next fields ih =>
      rw [List.flatMap_cons, ← ih next]
      simp [List.intercalate]

theorem scanFields_before (before : List CmcdField) (rest : List Char) :
    scanFields ((before.map CmcdField.text).flatMap (fun f => f ++ [',']) ++ rest) [] {}
      = scanFields rest [] {} := by
  induction before with
  | nil => rfl
  | cons field before ih =>
      rw [List.map_cons, List.flatMap_cons, List.append_assoc, List.append_assoc,
        List.singleton_append, scanFields_text, ih]

/-- **The session id of a well-formed CMCD text is found.** -/
theorem parseCmcdSessionId_cmcdText (before : List CmcdField) (s : SessionId)
    (after : List CmcdField) : parseCmcdSessionId (cmcdText before s after) = some s.text := by
  have hfields : ∃ field fields,
      before.map CmcdField.text ++ s.field :: after.map CmcdField.text = field :: fields := by
    cases before with
    | nil => exact ⟨_, _, rfl⟩
    | cons first before => exact ⟨_, _, rfl⟩
  obtain ⟨field, fields, heq⟩ := hfields
  have hscan : scanFields ((cmcdText before s after).toList ++ [',']) [] {} = some s.chars := by
    unfold cmcdText
    rw [String.toList_ofList, heq, intercalate_append_comma, ← heq, List.flatMap_append,
      scanFields_before, List.flatMap_cons, List.append_assoc, List.singleton_append,
      scanFields_sid]
  unfold parseCmcdSessionId
  rw [hscan]
  rfl

/-- The query value decodes to the text it was made from. -/
theorem percentDecodeQueryValue_encode {upper : Bool} {text : String}
    (hlen : (asBytes (percentEncodeText upper text)).length ≤ 4096) :
    percentDecodeQueryValue (percentEncodeText upper text) = some text := by
  unfold percentDecodeQueryValue
  rw [if_neg (by omega)]
  exact fromUtf8_percentDecode upper text

/-! ## §8. What an accepted id looks like. -/

/-- A character whose UTF-8 bytes are plain ASCII is a printable ASCII character. -/
theorem printable_of_bytes {c : Char}
    (h : ∀ byte ∈ String.utf8EncodeChar c, isPlainAscii byte = true) :
    32 ≤ c.toNat ∧ c.toNat ≤ 126 := by
  by_cases hascii : c.toNat < 128
  · rw [utf8EncodeChar_ascii hascii] at h
    have hplain := h _ (List.mem_singleton_self _)
    unfold isPlainAscii at hplain
    simp [UInt8.le_iff_toNat_le, UInt8.lt_iff_toNat_lt] at hplain
    omega
  · -- the first byte of a longer encoding is at least 0xC0
    exfalso
    have hfirst : ∃ byte ∈ String.utf8EncodeChar c, 192 ≤ byte.toNat := by
      have hbig : ¬c.val.toNat ≤ 0x7f := by
        intro hle
        have : c.toNat = c.val.toNat := rfl
        omega
      unfold String.utf8EncodeChar
      dsimp only
      rw [if_neg hbig]
      split
      · refine ⟨_, List.mem_cons_self, ?_⟩
        simp
        omega
      · split
        · refine ⟨_, List.mem_cons_self, ?_⟩
          simp
          omega
        · refine ⟨_, List.mem_cons_self, ?_⟩
          simp
          omega
    obtain ⟨byte, hmem, hbyte⟩ := hfirst
    have hplain := h byte hmem
    unfold isPlainAscii at hplain
    simp [UInt8.le_iff_toNat_le, UInt8.lt_iff_toNat_lt] at hplain
    omega

/-- 1 to 64 ASCII characters, none of them a control character. -/
def Accepted (id : List Char) : Prop :=
  1 ≤ id.length ∧ id.length ≤ 64 ∧ ∀ c ∈ id, 32 ≤ c.toNat ∧ c.toNat ≤ 126

theorem normalize_some {value id : List Char}
    (h : normalizePlaybackSessionId value = some id) : Accepted id := by
  unfold normalizePlaybackSessionId at h
  dsimp only at h
  split at h
  next hchecked =>
    cases h
    obtain ⟨hne, hlen, hplain⟩ := hchecked
    have hprintable : ∀ c ∈ trim value, 32 ≤ c.toNat ∧ c.toNat ≤ 126 := by
      intro c hc
      refine printable_of_bytes fun byte hbyte => ?_
      exact List.all_eq_true.mp hplain byte (List.mem_flatMap.mpr ⟨c, hc, hbyte⟩)
    have hbytes : utf8Bytes (trim value) = (trim value).map fun c => UInt8.ofNat c.toNat := by
      refine utf8Bytes_ascii fun c hc => ?_
      have := (hprintable c hc).2
      omega
    rw [hbytes, List.length_map] at hlen
    exact ⟨List.length_pos_iff.mpr hne, hlen, hprintable⟩
  next => cases h

theorem parseCmcdString_some {value id : List Char} (h : parseCmcdString value = some id) :
    Accepted id := by
  unfold parseCmcdString at h
  split at h
  · cases h
  · split at h
    · obtain ⟨decoded, _, hnormal⟩ := Option.bind_eq_some_iff.mp h
      exact normalize_some hnormal
    · cases h

/-- Whatever the scanner reads, an id it returns passed the last check. -/
theorem scanFields_some {rest field id : List Char} {flags : QuoteFlags}
    (h : scanFields rest field flags = some id) : Accepted id := by
  induction rest generalizing field flags with
  | nil => cases h
  | cons c rest ih =>
      unfold scanFields at h
      split at h
      · split at h
        · exact parseCmcdString_some h
        · exact ih h
      · exact ih h

theorem parseCmcdSessionId_some {text id : String} (h : parseCmcdSessionId text = some id) :
    Accepted id.toList := by
  obtain ⟨chars, hscan, rfl⟩ := Option.map_eq_some_iff.mp h
  rw [String.toList_ofList]
  exact scanFields_some hscan

/-- The code of a text holds no ampersand. -/
theorem percentEncodeText_no_ampersand (upper : Bool) (text : String) :
    ∀ c ∈ (percentEncodeText upper text).toList, (c == '&') = false := by
  have hbyte : ∀ byte : UInt8, isAlphanumeric byte = true ∨ byte = 37 →
      (asciiChar byte == '&') = false := by
    intro byte
    refine forall_byte (P := fun byte => isAlphanumeric byte = true ∨ byte = 37 →
      (asciiChar byte == '&') = false) ?_ byte
    decide +kernel
  intro c hc
  unfold percentEncodeText at hc
  rw [String.toList_ofList] at hc
  obtain ⟨byte, hmem, rfl⟩ := List.mem_map.mp hc
  exact hbyte byte (percentEncode_chars hmem)

/-- The value of the one parameter of a query. -/
theorem queryValue_encode (upper : Bool) (text : String) :
    queryValue (some ("CMCD=" ++ percentEncodeText upper text)) "CMCD"
      = some (percentEncodeText upper text) := by
  have hlist : ("CMCD=" ++ percentEncodeText upper text).toList
      = ['C', 'M', 'C', 'D'] ++ '=' :: (percentEncodeText upper text).toList := by
    rw [String.toList_append]
    rfl
  have hsingle : ("CMCD=" ++ percentEncodeText upper text).toList.splitOn '&'
      = [("CMCD=" ++ percentEncodeText upper text).toList] := by
    refine List.splitOnP_eq_singleton fun c hc => ?_
    rw [hlist] at hc
    rcases List.mem_append.mp hc with hc | hc
    · exact (show ∀ d ∈ ['C', 'M', 'C', 'D'], (d == '&') = false by simp) c hc
    · rcases List.mem_cons.mp hc with rfl | hc
      · decide
      · exact percentEncodeText_no_ampersand upper text c hc
  unfold queryValue
  rw [Option.bind_some, hsingle, hlist, List.findSome?_cons,
    splitOnce_append (by decide)]
  simp

/-- **Session ids are extracted exactly.**  The id of a well-formed CMCD text
is found at any position among other fields, in the text itself and in the
query that carries its percent code; and whatever the text is, a returned id has
1 to 64 ASCII characters, none of them a control character. -/
theorem session_id_extracted :
    (∀ (before : List CmcdField) (s : SessionId) (after : List CmcdField) (upper : Bool),
      parseCmcdSessionId (cmcdText before s after) = some s.text
        ∧ ((asBytes (percentEncodeText upper (cmcdText before s after))).length ≤ 4096 →
          percentDecodeQueryValue (percentEncodeText upper (cmcdText before s after))
              = some (cmcdText before s after)
            ∧ ∀ header, playbackSessionId ⟨[], header⟩
                (some ("CMCD=" ++ percentEncodeText upper (cmcdText before s after)))
              = some s.text))
      ∧ ∀ text id : String, parseCmcdSessionId text = some id →
        1 ≤ id.toList.length ∧ id.toList.length ≤ 64
          ∧ ∀ c ∈ id.toList, 32 ≤ c.toNat ∧ c.toNat ≤ 126 := by
  refine ⟨?_, fun text id h => parseCmcdSessionId_some h⟩
  intro before s after upper
  have hparsed := parseCmcdSessionId_cmcdText before s after
  refine ⟨hparsed, ?_⟩
  intro hlen
  have hdecoded := percentDecodeQueryValue_encode hlen
  refine ⟨hdecoded, ?_⟩
  intro header
  unfold playbackSessionId
  rw [queryValue_encode, Option.bind_some, hdecoded, Option.bind_some, hparsed]
  rfl

/-- The id `a"b`, behind a field whose quoted string holds a comma and `sid=`. -/
theorem session_id_extracted_decoy :
    parseCmcdSessionId (cmcdText
        [⟨['c', 'i', 'd'], .quoted ['x', ',', 's', 'i', 'd', '=', 'y'], by simp, by decide⟩]
        ⟨['a', quoteChar, 'b'], by simp [quoteChar], by decide, by decide, by decide, by decide⟩ [])
      = some (String.ofList ['a', quoteChar, 'b']) ∧
    percentDecodeQueryValue (percentEncodeText true (cmcdText []
        ⟨['a', quoteChar, 'b'], by simp [quoteChar], by decide, by decide, by decide, by decide⟩ []))
      = some (cmcdText []
        ⟨['a', quoteChar, 'b'], by simp [quoteChar], by decide, by decide, by decide, by decide⟩ []) :=
  ⟨(session_id_extracted.1 _ _ _ true).1,
    ((session_id_extracted.1 [] _ [] true).2 (by decide +kernel)).1⟩

end AvMesh.Edge
