/-
  AvMesh.LiveCache.Tail
  ─────────────────────
  **THE TAIL OF A STREAM: THE NEXT PARTS BEHIND A CURSOR.**

  A tail request looks for the first part behind the cursor, waits for the last
  part of its batch, and reads the batch as one range.  These are different
  moments: between any two of them the cache may have changed (`Lib.Awaits`).

    • the slots behind the cursor are tried in turn, and those without media are
      passed over; a part that was passed over had nothing to read when it was
      looked at (`PassedOver`),
    • the range that is read afterwards begins at the part that was found.

  For caches that only grow, `ensures_nextPartBatch` says what a request answers
  and `ensures_exactPartBatch` what a bundle has of one stream.
-/
import AvMesh.Lib.Awaits
import AvMesh.LiveCache.Served

namespace AvMesh.LiveCache

open AvMesh.Lib

variable {C : ChunkCacheCrate}

/-! ## §1. The functions. -/

/-- What a tail request reads of the chunk cache, and the hash that is kept with a slot. -/
structure ChunkCacheTail (C : ChunkCacheCrate) extends ChunkCacheReads C where
  hash : C.Cache → UInt64 → Nat → UInt64
  getRangeForStreamId : C.Cache → UInt64 → Nat → Nat → Option (List Bytes)
  exactPartWaiter : C.Cache → UInt64 → Nat → Bool

/-- The await points. -/
inductive TailPoint where
  | position
  /-- `chunk_cache.get` in the search. -/
  | slot (seq : Nat)
  | rememberInit
  | rememberKind
  /-- `updates.changed()`. -/
  | update
  /-- `chunk_cache.get_for_stream_id`. -/
  | exactly (seq : Nat)
  | waiter (seq : Nat)
  | notified (seq : Nat)
  | range
  | state
  deriving Repr, DecidableEq

def maxLlhlsTailParts : Nat := 200

/-- A part as `read_part_for_stream_id` returns it. -/
structure TailPart where
  media : Bytes
  hash : UInt64
  mediaKind : LiveMediaKind
  init : Option Bytes

/-- A batch: its first and last sequence, the media, and the hash of a single part. -/
structure TailBatch where
  start : Nat
  stop : Nat
  body : Bytes
  etag : Option UInt64

namespace HlsCache

variable (R : ChunkCacheTail C) (M : MediaObjectCrate)

/-- The media joined, if every slot has some. -/
def joinMedia (streamId : UInt64) : List Bytes → Option Bytes
  | [] => some []
  | bytes :: rest =>
      let slot := LiveSlotPayload.decodeForStream M bytes streamId
      if slot.hasMedia then (joinMedia streamId rest).map (slot.media ++ ·) else none

/-- The part that was found, once its initialization and kind are remembered. -/
def rememberPart (streamId : UInt64) (slot : LiveSlotPayload) :
    Awaits TailPoint (HlsCache C) Unit := do
  match slot.init with
  | some init => Awaits.write .rememberInit fun cache => cache.rememberStreamInit streamId init
  | none => pure ()
  Awaits.write .rememberKind fun cache => cache.rememberMediaKind streamId slot.mediaKind

/-- The search: the first of these slots with media. -/
def firstPart (streamId : UInt64) (streamIdx : Nat) :
    List Nat → Awaits TailPoint (HlsCache C) (Option (Nat × Bytes × UInt64))
  | [] => pure none
  | seq :: rest => do
      let found ← Awaits.look (.slot seq) fun cache =>
        (R.get cache.chunkCache streamIdx seq).map fun bytes =>
          (bytes, R.hash cache.chunkCache streamId seq)
      match found with
      | none => firstPart streamId streamIdx rest
      | some (bytes, hash) =>
          let slot := LiveSlotPayload.decodeForStream M bytes streamId
          if slot.hasMedia then do
            rememberPart streamId slot
            return some (seq, slot.media, hash)
          else firstPart streamId streamIdx rest

/-- The slots to search, once the end of the contiguous run is known. -/
def tailSequences (windowParts last : Nat) (after : Option Nat) (startAtOldest : Bool) : List Nat :=
  match after with
  | some after =>
      match checkedAdd after 1 with
      | none => []
      | some start => if start > last then [] else List.range' start (last + 1 - start)
  | none =>
      let first := last - (windowParts - 1)
      let sequences := List.range' first (last + 1 - first)
      if startAtOldest then sequences else sequences.reverse

def nextPartAfterForStreamId (streamId : UInt64) (after : Option Nat) (startAtOldest : Bool) :
    Awaits TailPoint (HlsCache C) (Option (Nat × Bytes × UInt64)) :=
  Awaits.andThen
    (Awaits.look .position fun cache =>
      (cache.streamPosition R.toChunkCacheReads streamId).map fun position =>
        (position, cache.windowParts))
    fun ((streamIdx, last), windowParts) =>
      firstPart R M streamId streamIdx (tailSequences windowParts last after startAtOldest)

def nextPartAfterBlockingForStreamId (streamId : UInt64) (after : Option Nat)
    (startAtOldest : Bool) : Awaits TailPoint (HlsCache C) (Option (Nat × Bytes × UInt64)) := do
  let updates ← Awaits.wakeups
  Awaits.untilSome .update (nextPartAfterForStreamId R M streamId after startAtOldest) updates

def readPartForStreamId (streamId : UInt64) (seq : Nat) :
    Awaits TailPoint (HlsCache C) (Option TailPart) :=
  Awaits.look (.exactly seq) fun cache =>
    (R.getForStreamId cache.chunkCache streamId seq).bind fun bytes =>
      let slot := LiveSlotPayload.decodeForStream M bytes streamId
      if slot.hasMedia then
        some ⟨slot.media, R.hash cache.chunkCache streamId seq, slot.mediaKind, slot.init⟩
      else none

/-- A round of the loop: the part, or no part for want of a waiter, or else the loop waits. -/
def readPartRound (streamId : UInt64) (seq : Nat) :
    Awaits TailPoint (HlsCache C) (Option (Option TailPart)) := do
  match ← readPartForStreamId R M streamId seq with
  | some part => return some (some part)
  | none =>
      let waiter ← Awaits.look (.waiter seq) fun cache =>
        R.exactPartWaiter cache.chunkCache streamId seq
      if waiter then
        -- registered before the cache is checked again
        match ← readPartForStreamId R M streamId seq with
        | some part => return some (some part)
        | none => return none
      else return some none

/-- Also `read_part_blocking_for_stream_id`, whose deadline is its own. -/
def readPartUntilForStreamId (streamId : UInt64) (seq : Nat) :
    Awaits TailPoint (HlsCache C) (Option TailPart) := do
  let notifications ← Awaits.wakeups
  let part ← Awaits.untilSome (.notified seq) (readPartRound R M streamId seq) notifications
  return part.join

/-- The range read of a batch. -/
def readRange (streamId : UInt64) (start partCount : Nat) :
    Awaits TailPoint (HlsCache C) (Option Bytes) :=
  Awaits.look .range fun cache =>
    (R.getRangeForStreamId cache.chunkCache streamId start partCount).bind (joinMedia M streamId)

def nextPartBatchAfterBlockingForStreamId (streamId : UInt64) (after : Option Nat)
    (startAtOldest : Bool) (partCount : Nat) :
    Awaits TailPoint (HlsCache C) (Option TailBatch) :=
  if partCount = 0 ∨ partCount > maxLlhlsTailParts then pure none
  else
    Awaits.andThen (nextPartAfterBlockingForStreamId R M streamId after startAtOldest)
      fun (start, first, firstHash) =>
        if partCount = 1 then pure (some ⟨start, start, first, some firstHash⟩)
        else
          match checkedAdd start (partCount - 1) with
          | none => pure none
          | some stop =>
              Awaits.andThen (readPartUntilForStreamId R M streamId stop) fun _ =>
                Awaits.andThen (readRange R M streamId start partCount) fun body =>
                  pure (some ⟨start, stop, body, none⟩)

def exactPartBatchUntilForStreamId (streamId : UInt64) (start partCount : Nat) :
    Awaits TailPoint (HlsCache C) (Option TailBatch) :=
  if partCount = 0 ∨ partCount > maxLlhlsTailParts then pure none
  else
    match checkedAdd start (partCount - 1) with
    | none => pure none
    | some stop =>
        Awaits.andThen (readPartUntilForStreamId R M streamId stop) fun finalPart =>
          if partCount = 1 then pure (some ⟨start, stop, finalPart.media, some finalPart.hash⟩)
          else
            Awaits.andThen (readRange R M streamId start partCount) fun body =>
              pure (some ⟨start, stop, body, none⟩)

end HlsCache

/-! ## §2. What a look can see. -/

/-- Nothing that can be read goes away, and the contiguous run does not shrink. -/
structure ChunkGrows (R : ChunkCacheTail C) (chunk chunk' : C.Cache) : Prop where
  slot : ∀ streamId q bytes, R.getForStreamId chunk streamId q = some bytes →
    R.getForStreamId chunk' streamId q = some bytes
  position : ∀ streamId idx last, R.position chunk streamId = some (idx, last) →
    ∃ last', R.position chunk' streamId = some (idx, last') ∧ last ≤ last'

/-- The chunk cache is a map of slots, a range read returns all slots or nothing, and an
initialization touches none. -/
structure LawfulTail (R : ChunkCacheTail C) : Prop where
  for_stream : ∀ chunk streamId slot, R.getForStreamId chunk streamId slot =
    (R.getStreamIdx chunk streamId).bind fun idx => R.get chunk idx slot
  range : ∀ chunk streamId start count slots,
    R.getRangeForStreamId chunk streamId start count = some slots →
    (List.range' start count).map (R.getForStreamId chunk streamId) = slots.map some
  init : ∀ chunk streamId init, ChunkGrows R chunk (C.setStreamInitialization chunk streamId init).2

theorem ChunkGrows.refl {R : ChunkCacheTail C} (chunk : C.Cache) : ChunkGrows R chunk chunk :=
  ⟨fun _ _ _ h => h, fun _ _ last h => ⟨last, h, Nat.le_refl _⟩⟩

theorem ChunkGrows.trans {R : ChunkCacheTail C} {chunk chunk' chunk'' : C.Cache}
    (h : ChunkGrows R chunk chunk') (h' : ChunkGrows R chunk' chunk'') :
    ChunkGrows R chunk chunk'' := by
  refine ⟨fun streamId q bytes hq => h'.slot _ _ _ (h.slot _ _ _ hq), ?_⟩
  intro streamId idx last hposition
  obtain ⟨last', hposition', hle⟩ := h.position streamId idx last hposition
  obtain ⟨last'', hposition'', hle'⟩ := h'.position streamId idx last' hposition'
  exact ⟨last'', hposition'', Nat.le_trans hle hle'⟩

/-- The order of caches that only grow. -/
def HlsCache.growth (R : ChunkCacheTail C) : Growth (HlsCache C) where
  le cache cache' := ChunkGrows R cache.chunkCache cache'.chunkCache
  refl cache := ChunkGrows.refl cache.chunkCache
  trans := ChunkGrows.trans

/-- The media of a slot, if it holds some. -/
def slotMedia (M : MediaObjectCrate) (streamId : UInt64) (bytes : Bytes) : Option Bytes :=
  let slot := LiveSlotPayload.decodeForStream M bytes streamId
  if slot.hasMedia then some slot.media else none

namespace HlsCache

variable (R : ChunkCacheTail C) (M : MediaObjectCrate)

/-- The media of a part of the stream. -/
def partMedia (cache : HlsCache C) (streamId : UInt64) (q : Nat) : Option Bytes :=
  (R.getForStreamId cache.chunkCache streamId q).bind (slotMedia M streamId)

/-- The slot of the part holds media and is not above the watermark. -/
def Readable (cache : HlsCache C) (streamId : UInt64) (q : Nat) : Prop :=
  (cache.partMedia R M streamId q).isSome = true ∧
    ∃ idx last, cache.streamPosition R.toChunkCacheReads streamId = some (idx, last) ∧ q ≤ last

/-- The body is the media of these parts. -/
def ExactBody (cache : HlsCache C) (streamId : UInt64) (start count : Nat) (body : Bytes) : Prop :=
  ∃ parts : List Bytes,
    (List.range' start count).map (cache.partMedia R M streamId) = parts.map some ∧
      body = parts.flatten

/-- The part was looked at, and at no look was there anything to read. -/
def PassedOver (streamId : UInt64) (looks : List (TailPoint × HlsCache C)) (q : Nat) : Prop :=
  (∃ cache, (TailPoint.slot q, cache) ∈ looks) ∧
    ∀ cache, (TailPoint.slot q, cache) ∈ looks → ¬ cache.Readable R M streamId q

end HlsCache

/-- Looks that are not part of a search. -/
def Quiet (looks : List (TailPoint × HlsCache C)) : Prop :=
  ∀ q cache, (TailPoint.slot q, cache) ∉ looks

section Looks

variable {R : ChunkCacheTail C} {M : MediaObjectCrate} {cache cache' : HlsCache C}
  {streamId : UInt64} {q start count : Nat} {body media : Bytes}
  {looks looks' : List (TailPoint × HlsCache C)}

theorem Quiet.nil : Quiet ([] : List (TailPoint × HlsCache C)) :=
  fun _ _ h => by cases h

theorem Quiet.single {point : TailPoint} (h : ∀ q, TailPoint.slot q ≠ point) :
    Quiet [(point, cache)] := by
  intro q other hlook
  exact h q (congrArg Prod.fst (List.mem_singleton.1 hlook))

theorem Quiet.append (h : Quiet looks) (h' : Quiet looks') : Quiet (looks ++ looks') := by
  intro q other hlook
  rcases List.mem_append.1 hlook with hfirst | hsecond
  · exact h q other hfirst
  · exact h' q other hsecond

theorem partMedia_grows (h : (HlsCache.growth R).le cache cache')
    (hmedia : cache.partMedia R M streamId q = some media) :
    cache'.partMedia R M streamId q = some media := by
  obtain ⟨bytes, hslot, hbytes⟩ := Option.bind_eq_some_iff.1 hmedia
  rw [HlsCache.partMedia, h.slot streamId q bytes hslot]
  exact hbytes

/-- What can be read stays readable. -/
theorem HlsCache.Readable.grows (hread : cache.Readable R M streamId q)
    (h : (HlsCache.growth R).le cache cache') : cache'.Readable R M streamId q := by
  obtain ⟨hmedia, idx, last, hposition, hle⟩ := hread
  obtain ⟨media, hmedia⟩ := Option.isSome_iff_exists.1 hmedia
  obtain ⟨last', hposition', hle'⟩ := h.position streamId idx last hposition
  refine ⟨?_, idx, last', hposition', Nat.le_trans hle hle'⟩
  rw [partMedia_grows h hmedia]
  rfl

theorem HlsCache.ExactBody.grows (hbody : cache.ExactBody R M streamId start count body)
    (h : (HlsCache.growth R).le cache cache') : cache'.ExactBody R M streamId start count body := by
  obtain ⟨parts, hparts, rfl⟩ := hbody
  refine ⟨parts, ?_, rfl⟩
  have hlength := congrArg List.length hparts
  rw [List.length_map, List.length_map] at hlength
  refine List.ext_getElem (by simpa using hlength) fun i hi hi' => ?_
  have helem := List.getElem_of_eq hparts (by simpa using hi)
  rw [List.getElem_map, List.getElem_map] at helem ⊢
  exact partMedia_grows h helem

/-- A single part. -/
theorem exactBody_single (h : cache.partMedia R M streamId start = some media) :
    cache.ExactBody R M streamId start 1 media :=
  ⟨[media], by rw [List.range'_one, List.map_singleton, h]; rfl, by simp⟩

theorem joinMedia_eq_some {slots : List Bytes} (h : HlsCache.joinMedia M streamId slots = some body) :
    ∃ parts : List Bytes, slots.map (slotMedia M streamId) = parts.map some ∧
      body = parts.flatten := by
  induction slots generalizing body with
  | nil =>
      obtain rfl := Option.some.inj h
      exact ⟨[], rfl, rfl⟩
  | cons bytes rest ih =>
      rw [HlsCache.joinMedia] at h
      split at h
      · next hmedia =>
          obtain ⟨joined, hjoined, rfl⟩ := Option.map_eq_some_iff.1 h
          obtain ⟨parts, hparts, rfl⟩ := ih hjoined
          refine ⟨(LiveSlotPayload.decodeForStream M bytes streamId).media :: parts, ?_, rfl⟩
          rw [List.map_cons, List.map_cons, hparts, slotMedia, if_pos hmedia]
      · cases h

/-- The range read gives the media of the parts. -/
theorem LawfulTail.exactBody (hR : LawfulTail R)
    (h : (R.getRangeForStreamId cache.chunkCache streamId start count).bind
      (HlsCache.joinMedia M streamId) = some body) :
    cache.ExactBody R M streamId start count body := by
  obtain ⟨slots, hslots, hjoined⟩ := Option.bind_eq_some_iff.1 h
  obtain ⟨parts, hparts, hbody⟩ := joinMedia_eq_some hjoined
  refine ⟨parts, ?_, hbody⟩
  have hrange := congrArg (List.map fun slot : Option Bytes => slot.bind (slotMedia M streamId))
    (hR.range _ _ _ _ _ hslots)
  rw [List.map_map, List.map_map] at hrange
  rw [← hparts]
  exact hrange

/-- A slot read through the index of its stream. -/
theorem LawfulTail.partMedia_eq (hR : LawfulTail R) {idx last : Nat}
    (hposition : cache.streamPosition R.toChunkCacheReads streamId = some (idx, last)) :
    cache.partMedia R M streamId q =
      (R.get cache.chunkCache idx q).bind (slotMedia M streamId) := by
  rw [HlsCache.streamPosition, Option.bind_eq_some_iff] at hposition
  obtain ⟨idx', hidx, hlast⟩ := hposition
  obtain ⟨last', _, hpair⟩ := Option.map_eq_some_iff.1 hlast
  obtain rfl : idx' = idx := congrArg Prod.fst hpair
  rw [HlsCache.partMedia, hR.for_stream, hidx, Option.bind_some]

end Looks

/-! ## §3. The search. -/

/-- What a search through these slots has looked at, and what it has found. -/
structure Scanned (R : ChunkCacheTail C) (M : MediaObjectCrate) (streamId : UInt64) (idx : Nat)
    (sequences : List Nat) (found : Option (Nat × Bytes × UInt64))
    (looks : List (TailPoint × HlsCache C)) : Prop where
  inside : ∀ q cache, (TailPoint.slot q, cache) ∈ looks → q ∈ sequences
  hit : ∀ q cache media, (TailPoint.slot q, cache) ∈ looks →
    (R.get cache.chunkCache idx q).bind (slotMedia M streamId) = some media →
    ∃ hash, found = some (q, media, hash)
  passed : ∀ front rest, sequences = front ++ rest →
    (∀ q ∈ front, found.map (·.1) ≠ some q) → ∀ q ∈ front, ∃ cache, (TailPoint.slot q, cache) ∈ looks
  seen : ∀ q media hash, found = some (q, media, hash) → ∃ cache,
    (TailPoint.slot q, cache) ∈ looks ∧
      (R.get cache.chunkCache idx q).bind (slotMedia M streamId) = some media

/-- The search for a part behind the cursor, over all its attempts. -/
structure Sought (R : ChunkCacheTail C) (M : MediaObjectCrate) (streamId : UInt64)
    (after : Option Nat) (found : Option (Nat × Bytes × UInt64))
    (looks : List (TailPoint × HlsCache C)) (s : HlsCache C) : Prop where
  above : ∀ a, after = some a → ∀ q cache, (TailPoint.slot q, cache) ∈ looks → a < q
  hit : ∀ q cache, (TailPoint.slot q, cache) ∈ looks → cache.Readable R M streamId q →
    found.map (·.1) = some q
  passed : ∀ a q media hash, after = some a → found = some (q, media, hash) →
    ∀ p, a < p → p < q → ∃ cache, (TailPoint.slot p, cache) ∈ looks
  seen : ∀ q media hash, found = some (q, media, hash) →
    (∃ cache, (TailPoint.slot q, cache) ∈ looks ∧ cache.Readable R M streamId q) ∧
      s.partMedia R M streamId q = some media

section Search

variable {R : ChunkCacheTail C} {M : MediaObjectCrate} {streamId : UInt64}

theorem ensures_rememberPart (hR : LawfulTail R) (slot : LiveSlotPayload) :
    Ensures (HlsCache.growth R) (HlsCache.rememberPart (C := C) streamId slot)
      fun _ looks _ => Quiet looks := by
  have hkind : Ensures (HlsCache.growth R)
      (Awaits.write .rememberKind fun cache : HlsCache C =>
        cache.rememberMediaKind streamId slot.mediaKind) fun _ looks _ => Quiet looks :=
    Ensures.write (fun _ => ChunkGrows.refl _) fun _ => Quiet.single fun _ => by simp
  unfold HlsCache.rememberPart
  cases slot.init with
  | none => exact hkind
  | some init =>
      refine Ensures.bind (P := fun _ looks _ => Quiet looks) ?_ (fun _ => hkind) ?_
      · exact Ensures.write (fun cache => hR.init cache.chunkCache streamId init) fun _ =>
          Quiet.single fun _ => by simp
      · intro _ looks _ _ looks' _ hlooks _ hlooks'
        exact hlooks.append hlooks'

/-- A slot without media is passed over. -/
theorem Scanned.cons {idx seq : Nat} {rest : List Nat} {found : Option (Nat × Bytes × UInt64)}
    {looks : List (TailPoint × HlsCache C)} {cache : HlsCache C}
    (h : Scanned R M streamId idx rest found looks)
    (hempty : (R.get cache.chunkCache idx seq).bind (slotMedia M streamId) = none) :
    Scanned R M streamId idx (seq :: rest) found ((.slot seq, cache) :: looks) := by
  constructor
  case inside =>
    intro q other hlook
    rcases List.mem_cons.1 hlook with heq | hlook
    · cases heq
      exact List.mem_cons_self
    · exact List.mem_cons_of_mem _ (h.inside q other hlook)
  case hit =>
    intro q other media hlook hmedia
    rcases List.mem_cons.1 hlook with heq | hlook
    · cases heq
      rw [hempty] at hmedia
      cases hmedia
    · exact h.hit q other media hlook hmedia
  case passed =>
    intro front back hsplit hmissed q hq
    cases front with
    | nil => cases hq
    | cons first front =>
        obtain ⟨rfl, hrest⟩ := List.cons.inj hsplit
        rcases List.mem_cons.1 hq with rfl | hq
        · exact ⟨cache, List.mem_cons_self⟩
        · obtain ⟨other, hlook⟩ := h.passed front back hrest
            (fun p hp => hmissed p (List.mem_cons_of_mem _ hp)) q hq
          exact ⟨other, List.mem_cons_of_mem _ hlook⟩
  case seen =>
    intro q media hash hfound
    obtain ⟨other, hlook, hmedia⟩ := h.seen q media hash hfound
    exact ⟨other, List.mem_cons_of_mem _ hlook, hmedia⟩

/-- A slot with media ends the search. -/
theorem Scanned.found {idx seq : Nat} {rest : List Nat} {media : Bytes} {hash : UInt64}
    {looks : List (TailPoint × HlsCache C)} {cache : HlsCache C} (h : Quiet looks)
    (hmedia : (R.get cache.chunkCache idx seq).bind (slotMedia M streamId) = some media) :
    Scanned R M streamId idx (seq :: rest) (some (seq, media, hash))
      ((.slot seq, cache) :: looks) := by
  have honly : ∀ q other, (TailPoint.slot q, other) ∈ (TailPoint.slot seq, cache) :: looks →
      q = seq ∧ other = cache := by
    intro q other hlook
    rcases List.mem_cons.1 hlook with heq | hlook
    · cases heq
      exact ⟨rfl, rfl⟩
    · exact absurd hlook (h q other)
  constructor
  case inside =>
    intro q other hlook
    obtain ⟨rfl, _⟩ := honly q other hlook
    exact List.mem_cons_self
  case hit =>
    intro q other media' hlook hmedia'
    obtain ⟨rfl, rfl⟩ := honly q other hlook
    rw [hmedia] at hmedia'
    obtain rfl := Option.some.inj hmedia'
    exact ⟨hash, rfl⟩
  case passed =>
    intro front back hsplit hmissed q hq
    cases front with
    | nil => cases hq
    | cons first front =>
        obtain ⟨rfl, _⟩ := List.cons.inj hsplit
        exact absurd rfl (hmissed _ List.mem_cons_self)
  case seen =>
    intro q media' hash' hfound
    obtain ⟨rfl, rfl, _⟩ : seq = q ∧ media = media' ∧ hash = hash' := by simpa using hfound
    exact ⟨cache, List.mem_cons_self, hmedia⟩

/-- **The search** looks at one slot after the other until there is media in one. -/
theorem ensures_firstPart (hR : LawfulTail R) (idx : Nat) (sequences : List Nat) :
    Ensures (HlsCache.growth R) (HlsCache.firstPart R M streamId idx sequences)
      fun found looks _ => Scanned R M streamId idx sequences found looks := by
  induction sequences with
  | nil =>
      refine Ensures.pure fun s => ⟨?_, ?_, ?_, ?_⟩
      · intro q cache hlook
        cases hlook
      · intro q cache media hlook
        cases hlook
      · intro front rest hsplit _ q hq
        rw [(List.append_eq_nil_iff.1 hsplit.symm).1] at hq
        cases hq
      · intro q media hash hfound
        cases hfound
  | cons seq rest ih =>
      rw [HlsCache.firstPart]
      refine Ensures.bind
        (P := fun slot looks s => looks = [(.slot seq, s)] ∧
          slot = (R.get s.chunkCache idx seq).map fun bytes =>
            (bytes, R.hash s.chunkCache streamId seq))
        (S := fun slot found looks _ =>
          match slot.bind fun slot => slotMedia M streamId slot.1 with
          | some media => Quiet looks ∧ ∃ hash, found = some (seq, media, hash)
          | none => Scanned R M streamId idx rest found looks)
        (Ensures.look fun s => ⟨rfl, rfl⟩) ?_ ?_
      · intro slot
        cases slot with
        | none => exact ih
        | some slot =>
            obtain ⟨bytes, hash⟩ := slot
            simp only [Option.bind_some, slotMedia]
            split
            · next hmedia =>
                refine Ensures.bind (ensures_rememberPart hR _) (fun _ => Ensures.pure
                  (P := fun found looks _ => looks = [] ∧ found = some (seq,
                    (LiveSlotPayload.decodeForStream M bytes streamId).media, hash))
                  fun _ => ⟨rfl, rfl⟩) ?_
                rintro _ looks _ found looks' _ hlooks _ ⟨rfl, hfound⟩
                rw [List.append_nil]
                exact ⟨hlooks, hash, hfound⟩
            · exact ih
      · rintro slot looks s found looks' s' ⟨rfl, rfl⟩ _ hP'
        have hbind : ((R.get s.chunkCache idx seq).map fun bytes =>
            (bytes, R.hash s.chunkCache streamId seq)).bind
            (fun slot => slotMedia M streamId slot.1) =
            (R.get s.chunkCache idx seq).bind (slotMedia M streamId) := by
          cases R.get s.chunkCache idx seq <;> rfl
        rw [hbind] at hP'
        cases hmedia : (R.get s.chunkCache idx seq).bind (slotMedia M streamId) with
        | none =>
            rw [hmedia] at hP'
            exact Scanned.cons hP' hmedia
        | some media =>
            rw [hmedia] at hP'
            obtain ⟨hquiet, hash, rfl⟩ := hP'
            exact Scanned.found hquiet hmedia

end Search

section Cursor

variable {R : ChunkCacheTail C} {M : MediaObjectCrate} {streamId : UInt64}

theorem mem_tailSequences {windowParts last q : Nat} {after : Option Nat} {startAtOldest : Bool}
    (h : q ∈ HlsCache.tailSequences windowParts last after startAtOldest) :
    q ≤ last ∧ ∀ a, after = some a → a < q := by
  unfold HlsCache.tailSequences at h
  cases after with
  | none =>
      refine ⟨?_, fun a ha => by cases ha⟩
      have hrange : q ∈ List.range' (last - (windowParts - 1))
          (last + 1 - (last - (windowParts - 1))) := by
        cases startAtOldest
        · exact List.mem_reverse.1 h
        · exact h
      rw [List.mem_range'_1] at hrange
      omega
  | some a =>
      dsimp only at h
      split at h
      · cases h
      · next start hstart =>
          split at h
          · cases h
          · rw [List.mem_range'_1] at h
            rw [checkedAdd] at hstart
            split at hstart
            · obtain rfl := Option.some.inj hstart
              refine ⟨by omega, fun a' ha' => ?_⟩
              cases ha'
              omega
            · cases hstart

/-- Behind a cursor the slots come in order, with none left out. -/
theorem tailSequences_split {windowParts last q a : Nat} {startAtOldest : Bool}
    (h : q ∈ HlsCache.tailSequences windowParts last (some a) startAtOldest) :
    ∃ rest, HlsCache.tailSequences windowParts last (some a) startAtOldest =
      List.range' (a + 1) (q - (a + 1)) ++ q :: rest := by
  obtain ⟨hle, hlt⟩ := mem_tailSequences h
  have hbehind := hlt a rfl
  rw [HlsCache.tailSequences] at h ⊢
  split at h
  · cases h
  · next start hstart =>
      rw [checkedAdd] at hstart
      split at hstart
      · obtain rfl := Option.some.inj hstart
        rw [if_neg (by omega)]
        refine ⟨List.range' (q + 1) (last - q), ?_⟩
        have hcons : q :: List.range' (q + 1) (last - q) = List.range' q (last - q + 1) := rfl
        have happend : List.range' (a + 1) (q - (a + 1)) ++ List.range' q (last - q + 1) =
            List.range' (a + 1) (q - (a + 1) + (last - q + 1)) := by
          have hnext := @List.range'_append (a + 1) (q - (a + 1)) (last - q + 1) 1
          rwa [Nat.one_mul, show a + 1 + (q - (a + 1)) = q by omega] at hnext
        rw [hcons, happend]
        congr 1
        omega
      · cases hstart

/-- One attempt: the looks were taken in states in which the run reached at least as far. -/
theorem Scanned.sought {windowParts idx last : Nat} {after : Option Nat} {startAtOldest : Bool}
    {found : Option (Nat × Bytes × UInt64)} {looks : List (TailPoint × HlsCache C)}
    {before s : HlsCache C} (hR : LawfulTail R)
    (h : Scanned R M streamId idx (HlsCache.tailSequences windowParts last after startAtOldest)
      found looks)
    (hposition : before.streamPosition R.toChunkCacheReads streamId = some (idx, last))
    (hgrown : Grown (HlsCache.growth R) before looks s) :
    Sought R M streamId after found looks s := by
  have hreach : ∀ q cache, (TailPoint.slot q, cache) ∈ looks → ∃ last',
      cache.streamPosition R.toChunkCacheReads streamId = some (idx, last') ∧ q ≤ last' := by
    intro q cache hlook
    obtain ⟨hle, _⟩ := mem_tailSequences (h.inside q cache hlook)
    obtain ⟨last', hlast', hle'⟩ := (hgrown.looks _ hlook).1.position streamId idx last hposition
    exact ⟨last', hlast', Nat.le_trans hle hle'⟩
  constructor
  case above =>
    intro a ha q cache hlook
    exact (mem_tailSequences (h.inside q cache hlook)).2 a ha
  case hit =>
    intro q cache hlook hread
    obtain ⟨last', hlast', _⟩ := hreach q cache hlook
    obtain ⟨media, hmedia⟩ := Option.isSome_iff_exists.1 hread.1
    rw [hR.partMedia_eq hlast'] at hmedia
    obtain ⟨hash, rfl⟩ := h.hit q cache media hlook hmedia
    rfl
  case passed =>
    rintro a q media hash rfl rfl p hp hpq
    obtain ⟨cache, hlook, _⟩ := h.seen q media hash rfl
    obtain ⟨rest, hsplit⟩ := tailSequences_split (h.inside q cache hlook)
    refine h.passed _ _ hsplit (fun x hx heq => ?_) p ?_
    · obtain rfl : q = x := Option.some.inj heq
      rw [List.mem_range'_1] at hx
      omega
    · rw [List.mem_range'_1]
      omega
  case seen =>
    rintro q media hash rfl
    obtain ⟨cache, hlook, hmedia⟩ := h.seen q media hash rfl
    obtain ⟨last', hlast', hle⟩ := hreach q cache hlook
    rw [← hR.partMedia_eq hlast'] at hmedia
    refine ⟨⟨cache, hlook, ?_, idx, last', hlast', hle⟩, ?_⟩
    · rw [hmedia]
      rfl
    · exact partMedia_grows (hgrown.looks _ hlook).2 hmedia

/-- Looks outside the search in front of it. -/
theorem Sought.of_quiet {after : Option Nat} {found : Option (Nat × Bytes × UInt64)}
    {front looks : List (TailPoint × HlsCache C)} {s : HlsCache C} (hfront : Quiet front)
    (h : Sought R M streamId after found looks s) :
    Sought R M streamId after found (front ++ looks) s := by
  have hback : ∀ q cache, (TailPoint.slot q, cache) ∈ front ++ looks →
      (TailPoint.slot q, cache) ∈ looks := by
    intro q cache hlook
    exact (List.mem_append.1 hlook).resolve_left (hfront q cache)
  constructor
  case above =>
    exact fun a ha q cache hlook => h.above a ha q cache (hback q cache hlook)
  case hit =>
    exact fun q cache hlook => h.hit q cache (hback q cache hlook)
  case passed =>
    intro a q media hash ha hfound p hp hpq
    obtain ⟨cache, hlook⟩ := h.passed a q media hash ha hfound p hp hpq
    exact ⟨cache, List.mem_append_right _ hlook⟩
  case seen =>
    intro q media hash hfound
    obtain ⟨⟨cache, hlook, hread⟩, hmedia⟩ := h.seen q media hash hfound
    exact ⟨⟨cache, List.mem_append_right _ hlook, hread⟩, hmedia⟩

/-- Nothing was looked at and nothing found. -/
theorem Sought.nothing {after : Option Nat} {looks : List (TailPoint × HlsCache C)}
    {s : HlsCache C} (h : Quiet looks) : Sought R M streamId after none looks s := by
  constructor
  case above =>
    exact fun _ _ q cache hlook => absurd hlook (h q cache)
  case hit =>
    exact fun q cache hlook => absurd hlook (h q cache)
  case passed =>
    exact fun _ _ _ _ _ hfound => by cases hfound
  case seen =>
    exact fun _ _ _ hfound => by cases hfound

/-- An attempt that found nothing, then the others. -/
theorem Sought.retry {after : Option Nat} {found : Option (Nat × Bytes × UInt64)}
    {looks looks' : List (TailPoint × HlsCache C)} {s between s' : HlsCache C}
    (h : Sought R M streamId after none looks s) (h' : Sought R M streamId after found looks' s') :
    Sought R M streamId after found (looks ++ (.update, between) :: looks') s' := by
  have hor : ∀ q cache, (TailPoint.slot q, cache) ∈ looks ++ (.update, between) :: looks' →
      (TailPoint.slot q, cache) ∈ looks ∨ (TailPoint.slot q, cache) ∈ looks' := by
    intro q cache hlook
    simpa using hlook
  have hright : ∀ look ∈ looks', look ∈ looks ++ (.update, between) :: looks' := by
    intro look hlook
    exact List.mem_append_right _ (List.mem_cons_of_mem _ hlook)
  constructor
  case above =>
    intro a ha q cache hlook
    rcases hor q cache hlook with hfirst | hsecond
    · exact h.above a ha q cache hfirst
    · exact h'.above a ha q cache hsecond
  case hit =>
    intro q cache hlook hread
    rcases hor q cache hlook with hfirst | hsecond
    · cases h.hit q cache hfirst hread
    · exact h'.hit q cache hsecond hread
  case passed =>
    intro a q media hash ha hfound p hp hpq
    obtain ⟨cache, hlook⟩ := h'.passed a q media hash ha hfound p hp hpq
    exact ⟨cache, hright _ hlook⟩
  case seen =>
    intro q media hash hfound
    obtain ⟨⟨cache, hlook, hread⟩, hmedia⟩ := h'.seen q media hash hfound
    exact ⟨⟨cache, hright _ hlook, hread⟩, hmedia⟩

theorem ensures_nextPartAfter (hR : LawfulTail R) (after : Option Nat) (startAtOldest : Bool) :
    Ensures (HlsCache.growth R)
      (HlsCache.nextPartAfterForStreamId R M streamId after startAtOldest)
      (Sought R M streamId after) := by
  refine Ensures.andThen
    (P := fun position looks s => Quiet looks ∧ ∀ idx last windowParts,
      position = some ((idx, last), windowParts) →
        s.streamPosition R.toChunkCacheReads streamId = some (idx, last))
    (S := fun position found looks _ => Scanned R M streamId position.1.1
      (HlsCache.tailSequences position.2 position.1.2 after startAtOldest) found looks)
    ?_ ?_ ?_ ?_
  · refine Ensures.look fun s => ⟨Quiet.single fun _ => by simp, ?_⟩
    intro idx last windowParts hposition
    obtain ⟨position, hsome, hpair⟩ := Option.map_eq_some_iff.1 hposition
    rw [hsome]
    exact congrArg some (congrArg Prod.fst hpair)
  · rintro ⟨⟨idx, last⟩, windowParts⟩
    exact ensures_firstPart hR idx _
  · rintro looks s ⟨hquiet, _⟩
    exact Sought.nothing hquiet
  · rintro ⟨⟨idx, last⟩, windowParts⟩ looks s found looks' s' ⟨hquiet, hposition⟩ hgrown hscanned
    exact (hscanned.sought hR (hposition idx last windowParts rfl) hgrown).of_quiet hquiet

/-- **The search behind a cursor**, over all its attempts. -/
theorem ensures_nextPartAfterBlocking (hR : LawfulTail R) (after : Option Nat)
    (startAtOldest : Bool) :
    Ensures (HlsCache.growth R)
      (HlsCache.nextPartAfterBlockingForStreamId R M streamId after startAtOldest)
      (Sought R M streamId after) := by
  refine Ensures.wakeups fun updates => ?_
  refine Ensures.untilSome (ensures_nextPartAfter hR after startAtOldest) ?_ updates
  intro looks s found looks' s' between hnone _ _ hfound
  exact hnone.retry hfound

end Cursor

/-! ## §4. A batch. -/

/-- What a tail request has looked at, and what it answers. -/
structure TailAnswer (R : ChunkCacheTail C) (M : MediaObjectCrate) (streamId : UInt64)
    (after : Option Nat) (partCount : Nat) (answer : Option TailBatch)
    (looks : List (TailPoint × HlsCache C)) (s : HlsCache C) : Prop where
  above : ∀ a, after = some a → ∀ q cache, (TailPoint.slot q, cache) ∈ looks → a < q
  exact : ∀ batch, answer = some batch → 0 < partCount ∧
    batch.stop = batch.start + partCount - 1 ∧
    s.ExactBody R M streamId batch.start partCount batch.body
  seen : ∀ batch, answer = some batch → ∃ cache, (TailPoint.slot batch.start, cache) ∈ looks ∧
    cache.Readable R M streamId batch.start
  hit : ∀ batch, answer = some batch → ∀ q cache, (TailPoint.slot q, cache) ∈ looks →
    cache.Readable R M streamId q → batch.start = q
  passed : ∀ a batch, after = some a → answer = some batch → ∀ q, a < q → q < batch.start →
    ∃ cache, (TailPoint.slot q, cache) ∈ looks

section Batch

variable {R : ChunkCacheTail C} {M : MediaObjectCrate} {streamId : UInt64}

theorem ensures_readPart (seq : Nat) :
    Ensures (HlsCache.growth R) (HlsCache.readPartForStreamId R M streamId seq)
      fun part looks s => Quiet looks ∧
        ∀ p, part = some p → s.partMedia R M streamId seq = some p.media := by
  refine Ensures.look fun s => ⟨Quiet.single fun _ => by simp, fun part hpart => ?_⟩
  obtain ⟨bytes, hbytes, hslot⟩ := Option.bind_eq_some_iff.1 hpart
  rw [HlsCache.partMedia, hbytes, Option.bind_some, slotMedia]
  dsimp only at hslot ⊢
  split at hslot
  · next hmedia =>
      obtain rfl := Option.some.inj hslot
      rw [if_pos hmedia]
  · cases hslot

theorem ensures_readPartRound (seq : Nat) :
    Ensures (HlsCache.growth R) (HlsCache.readPartRound R M streamId seq)
      fun part looks s => Quiet looks ∧
        ∀ p, part = some (some p) → s.partMedia R M streamId seq = some p.media := by
  have hread := @ensures_readPart C R M streamId seq
  -- the second look, after the waiter is registered, so that no notification is missed
  have hsecond : Ensures (HlsCache.growth R)
      (HlsCache.readPartForStreamId R M streamId seq >>= fun part =>
        match part with
        | some part => pure (some (some part))
        | none => pure none)
      fun part looks s => Quiet looks ∧
        ∀ p, part = some (some p) → s.partMedia R M streamId seq = some p.media := by
    refine Ensures.bind (S := fun part result looks _ => looks = [] ∧ result = part.map some)
      hread (fun part => ?_) ?_
    · cases part <;> exact Ensures.pure fun _ => ⟨rfl, rfl⟩
    · rintro part looks s _ _ s' ⟨hquiet, hmedia⟩ hgrown ⟨rfl, rfl⟩
      rw [List.append_nil]
      refine ⟨hquiet, fun p hp => ?_⟩
      obtain ⟨p', rfl, heq⟩ := Option.map_eq_some_iff.1 hp
      obtain rfl := Option.some.inj heq
      exact partMedia_grows hgrown.state (hmedia p' rfl)
  refine Ensures.bind (S := fun part result looks s' => match part with
    | some part => looks = [] ∧ result = some (some part)
    | none => Quiet looks ∧
        ∀ p, result = some (some p) → s'.partMedia R M streamId seq = some p.media)
    hread (fun part => ?_) ?_
  · cases part with
    | some part => exact Ensures.pure fun _ => ⟨rfl, rfl⟩
    | none =>
        refine Ensures.bind (P := fun _ looks _ => Quiet looks)
          (S := fun _ result looks s' => Quiet looks ∧
            ∀ p, result = some (some p) → s'.partMedia R M streamId seq = some p.media)
          (Ensures.look fun _ => Quiet.single fun _ => by simp) (fun waiter => ?_) ?_
        · cases waiter with
          | true => exact hsecond
          | false =>
              refine Ensures.pure fun _ => ⟨Quiet.nil, fun p hp => ?_⟩
              cases hp
        · rintro _ looks _ result looks' s' hquiet _ ⟨hquiet', hmedia⟩
          exact ⟨hquiet.append hquiet', hmedia⟩
  · rintro part looks s result looks' s' ⟨hquiet, hmedia⟩ hgrown hP'
    cases part with
    | some part =>
        obtain ⟨rfl, rfl⟩ := hP'
        rw [List.append_nil]
        refine ⟨hquiet, fun p hp => ?_⟩
        cases hp
        exact partMedia_grows hgrown.state (hmedia part rfl)
    | none =>
        obtain ⟨hquiet', hmedia'⟩ := hP'
        exact ⟨hquiet.append hquiet', hmedia'⟩

/-- The wait for a part: if it ends with the part, the part is there. -/
theorem ensures_readPartUntil (seq : Nat) :
    Ensures (HlsCache.growth R) (HlsCache.readPartUntilForStreamId R M streamId seq)
      fun part looks s => Quiet looks ∧
        ∀ p, part = some p → s.partMedia R M streamId seq = some p.media := by
  refine Ensures.wakeups fun notifications => ?_
  refine Ensures.mono (Ensures.map
    (Ensures.untilSome (ensures_readPartRound seq) ?_ notifications) Option.join) ?_
  · rintro looks s part looks' s' between ⟨hquiet, _⟩ _ _ ⟨hquiet', hmedia⟩
    refine ⟨hquiet.append fun q cache hlook => ?_, hmedia⟩
    rcases List.mem_cons.1 hlook with heq | hlook
    · cases heq
    · exact hquiet' q cache hlook
  · rintro _ looks s ⟨part, rfl, hquiet, hmedia⟩
    exact ⟨hquiet, fun p hp => hmedia p (Option.join_eq_some_iff.1 hp)⟩

theorem ensures_readRange (hR : LawfulTail R) (start partCount : Nat) :
    Ensures (HlsCache.growth R) (HlsCache.readRange R M streamId start partCount)
      fun body looks s => Quiet looks ∧
        ∀ b, body = some b → s.ExactBody R M streamId start partCount b :=
  Ensures.look fun _ => ⟨Quiet.single fun _ => by simp, fun _ hbody => hR.exactBody hbody⟩

/-- A range that is read after something else, with the batch it makes. -/
theorem ensures_rangeBatch (hR : LawfulTail R) (start stop partCount : Nat) :
    Ensures (HlsCache.growth R)
      (Awaits.andThen (HlsCache.readRange R M streamId start partCount) fun body =>
        pure (some (TailBatch.mk start stop body none)))
      fun answer looks s => Quiet looks ∧ ∀ batch, answer = some batch →
        batch.start = start ∧ batch.stop = stop ∧
          s.ExactBody R M streamId start partCount batch.body := by
  refine Ensures.mono ((ensures_readRange hR start partCount).mapSome
    fun body => TailBatch.mk start stop body none) ?_
  rintro _ looks s ⟨body, rfl, hquiet, hbody⟩
  refine ⟨hquiet, fun batch hbatch => ?_⟩
  obtain ⟨b, rfl, rfl⟩ := Option.map_eq_some_iff.1 hbatch
  exact ⟨rfl, rfl, hbody b rfl⟩

theorem checkedAdd_stop {start partCount stop : Nat}
    (h : checkedAdd start (partCount - 1) = some stop) (hpos : 0 < partCount) :
    stop = start + partCount - 1 := by
  rw [checkedAdd] at h
  split at h
  · obtain rfl := Option.some.inj h
    omega
  · cases h

/-- A request that answers nothing. -/
theorem TailAnswer.nothing {after : Option Nat} {partCount : Nat}
    {looks : List (TailPoint × HlsCache C)} {s : HlsCache C}
    (h : ∀ a, after = some a → ∀ q cache, (TailPoint.slot q, cache) ∈ looks → a < q) :
    TailAnswer R M streamId after partCount none looks s := by
  constructor
  case above => exact h
  case exact =>
    exact fun batch hbatch => by cases hbatch
  case seen =>
    exact fun batch hbatch => by cases hbatch
  case hit =>
    exact fun batch hbatch => by cases hbatch
  case passed =>
    exact fun a batch _ hbatch => by cases hbatch

/-- The part that was found begins the batch. -/
theorem Sought.answer {after : Option Nat} {partCount start : Nat} {first : Bytes} {hash : UInt64}
    {answer : Option TailBatch} {looks looks' : List (TailPoint × HlsCache C)} {s s' : HlsCache C}
    (h : Sought R M streamId after (some (start, first, hash)) looks s) (hquiet : Quiet looks')
    (hpos : 0 < partCount)
    (hanswer : ∀ batch, answer = some batch → batch.start = start ∧
      batch.stop = start + partCount - 1 ∧ s'.ExactBody R M streamId start partCount batch.body) :
    TailAnswer R M streamId after partCount answer (looks ++ looks') s' := by
  have hback : ∀ q cache, (TailPoint.slot q, cache) ∈ looks ++ looks' →
      (TailPoint.slot q, cache) ∈ looks := by
    intro q cache hlook
    exact (List.mem_append.1 hlook).resolve_right (hquiet q cache)
  constructor
  case above =>
    exact fun a ha q cache hlook => h.above a ha q cache (hback q cache hlook)
  case exact =>
    intro batch hbatch
    obtain ⟨hstart, hstop, hbody⟩ := hanswer batch hbatch
    rw [hstart]
    exact ⟨hpos, hstop, hbody⟩
  case seen =>
    intro batch hbatch
    obtain ⟨⟨cache, hlook, hread⟩, _⟩ := h.seen start first hash rfl
    rw [(hanswer batch hbatch).1]
    exact ⟨cache, List.mem_append_left _ hlook, hread⟩
  case hit =>
    intro batch hbatch q cache hlook hread
    rw [(hanswer batch hbatch).1]
    exact Option.some.inj (h.hit q cache (hback q cache hlook) hread)
  case passed =>
    intro a batch ha hbatch q hq hlt
    rw [(hanswer batch hbatch).1] at hlt
    obtain ⟨cache, hlook⟩ := h.passed a start first hash ha rfl q hq hlt
    exact ⟨cache, List.mem_append_left _ hlook⟩

/-- **A tail request** answers the batch that begins at the part it found. -/
theorem ensures_nextPartBatch (hR : LawfulTail R) (after : Option Nat) (startAtOldest : Bool)
    (partCount : Nat) :
    Ensures (HlsCache.growth R)
      (HlsCache.nextPartBatchAfterBlockingForStreamId R M streamId after startAtOldest partCount)
      (TailAnswer R M streamId after partCount) := by
  rw [HlsCache.nextPartBatchAfterBlockingForStreamId]
  split
  · exact Ensures.pure fun _ => TailAnswer.nothing fun _ _ _ _ hlook => by cases hlook
  · next hcount =>
      have hpos : 0 < partCount := by omega
      refine Ensures.andThen (S := fun found answer looks s' => Quiet looks ∧
          ∀ batch, answer = some batch →
            batch.start = found.1 ∧ batch.stop = found.1 + partCount - 1 ∧
              (s'.ExactBody R M streamId found.1 partCount batch.body ∨
                partCount = 1 ∧ batch.body = found.2.1))
        (ensures_nextPartAfterBlocking hR after startAtOldest) ?_ ?_ ?_
      -- a batch of one part is the part that was found, and a longer one waits for its last part
      · rintro ⟨start, first, hash⟩
        dsimp only
        split
        · next hone =>
            refine Ensures.pure fun _ => ⟨Quiet.nil, fun batch hbatch => ?_⟩
            cases hbatch
            exact ⟨rfl, by simp only; omega, .inr ⟨hone, rfl⟩⟩
        · split
          · exact Ensures.pure fun _ => ⟨Quiet.nil, fun batch hbatch => by cases hbatch⟩
          · next stop hstop =>
              refine Ensures.andThen (ensures_readPartUntil stop)
                (fun _ => ensures_rangeBatch hR start stop partCount) ?_ ?_
              · rintro looks s ⟨hquiet, _⟩
                exact ⟨hquiet, fun batch hbatch => by cases hbatch⟩
              · rintro _ looks s answer looks' s' ⟨hquiet, _⟩ _ ⟨hquiet', hanswer⟩
                refine ⟨hquiet.append hquiet', fun batch hbatch => ?_⟩
                obtain ⟨hstart, hend, hbody⟩ := hanswer batch hbatch
                exact ⟨hstart, hend.trans (checkedAdd_stop hstop hpos), .inl hbody⟩
      · intro looks s hsought
        exact TailAnswer.nothing hsought.above
      · rintro ⟨start, first, hash⟩ looks s answer looks' s' hsought hgrown ⟨hquiet, hanswer⟩
        refine hsought.answer hquiet hpos fun batch hbatch => ?_
        obtain ⟨hstart, hstop, hbody | ⟨hone, hfirst⟩⟩ := hanswer batch hbatch
        · exact ⟨hstart, hstop, hbody⟩
        · refine ⟨hstart, hstop, ?_⟩
          rw [hone, hfirst]
          exact exactBody_single
            (partMedia_grows hgrown.state (hsought.seen start first hash rfl).2)

/-- **A bundle's batch** is exactly the range that was asked for. -/
theorem ensures_exactPartBatch (hR : LawfulTail R) (start partCount : Nat) :
    Ensures (HlsCache.growth R)
      (HlsCache.exactPartBatchUntilForStreamId R M streamId start partCount)
      fun answer _ s => ∀ batch, answer = some batch → batch.start = start ∧
        batch.stop = start + partCount - 1 ∧ 0 < partCount ∧
          s.ExactBody R M streamId start partCount batch.body := by
  rw [HlsCache.exactPartBatchUntilForStreamId]
  split
  · exact Ensures.pure fun _ batch hbatch => by cases hbatch
  · next hcount =>
      have hpos : 0 < partCount := by omega
      split
      · exact Ensures.pure fun _ batch hbatch => by cases hbatch
      · next stop hstop =>
          have hend := checkedAdd_stop hstop hpos
          refine Ensures.andThen (S := fun part answer looks s' => ∀ batch, answer = some batch →
              batch.start = start ∧ batch.stop = stop ∧
                (s'.ExactBody R M streamId start partCount batch.body ∨
                  partCount = 1 ∧ batch.body = part.media))
            (ensures_readPartUntil stop) ?_ ?_ ?_
          · intro part
            split
            · next hone =>
                refine Ensures.pure fun _ batch hbatch => ?_
                cases hbatch
                exact ⟨rfl, rfl, .inr ⟨hone, rfl⟩⟩
            · refine (ensures_rangeBatch hR start stop partCount).mono ?_
              rintro answer looks s ⟨_, hanswer⟩ batch hbatch
              obtain ⟨hstart, hstop', hbody⟩ := hanswer batch hbatch
              exact ⟨hstart, hstop', .inl hbody⟩
          · exact fun _ _ _ batch hbatch => by cases hbatch
          · rintro part looks s answer looks' s' ⟨_, hpart⟩ hgrown hanswer batch hbatch
            obtain ⟨hstart, hstop', hbody | ⟨hone, hmedia⟩⟩ := hanswer batch hbatch
            · exact ⟨hstart, hstop'.trans hend, hpos, hbody⟩
            · refine ⟨hstart, hstop'.trans hend, hpos, ?_⟩
              have hfinal := partMedia_grows hgrown.state (hpart part rfl)
              rw [hend, hone, Nat.add_sub_cancel] at hfinal
              rw [hone, hmedia]
              exact exactBody_single hfinal

end Batch

end AvMesh.LiveCache
