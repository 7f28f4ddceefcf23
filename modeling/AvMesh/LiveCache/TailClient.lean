/-
  AvMesh.LiveCache.TailClient
  ───────────────────────────
  **A CLIENT AT THE TAIL OF A STREAM, AND A BUNDLE OF STREAMS.**

  A client asks again and again, each time behind the last part it has received.
  What it receives are ranges in order, and a part between two of them was passed
  over: it was looked at when there was nothing to read, and later requests do
  not come back to it.  A bundle is all or nothing: one range of every stream.

  Main result: `tail_reads_exact`.
-/
import AvMesh.LiveCache.Tail

namespace AvMesh.LiveCache

open AvMesh.Lib

variable {C : ChunkCacheCrate}

/-! ## §1. The functions. -/

/-- `TailBundleEntry`. -/
structure TailBundleEntry where
  streamId : UInt64
  startSequence : Nat
  endSequence : Nat
  availableUnixUs : Option Nat
  payload : Bytes

/-- The bundle format of the playlists crate. -/
structure TailBundleCrate where
  maxTailBundleEntries : Nat
  encodeTailBundle : List TailBundleEntry → Option Bytes

namespace HlsCache

variable (R : ChunkCacheTail C) (M : MediaObjectCrate)

/-- The batches of a bundle, stream after stream. -/
def bundleBatches (start partCount : Nat) :
    List UInt64 → Awaits TailPoint (HlsCache C) (Option (List (UInt64 × TailBatch)))
  | [] => pure (some [])
  | streamId :: streamIds =>
      Awaits.andThen (exactPartBatchUntilForStreamId R M streamId start partCount) fun batch =>
        Awaits.andThen (bundleBatches start partCount streamIds) fun batches =>
          pure (some ((streamId, batch) :: batches))

/-- The entry of a batch, with the time its last part became available. -/
def bundleEntry (cache : HlsCache C) (batch : UInt64 × TailBatch) : TailBundleEntry where
  streamId := batch.1
  startSequence := batch.2.start
  endSequence := batch.2.stop
  availableUnixUs := (cache.state.streamParts.lookup batch.1).bind fun parts =>
    (parts.get? batch.2.stop).map (·.availableUnixUs)
  payload := batch.2.body

def nextPartBundleAfterBlockingForStreamIds (T : TailBundleCrate) (streamIds : List UInt64)
    (start partCount : Nat) : Awaits TailPoint (HlsCache C) (Option Bytes) :=
  if streamIds.isEmpty ∨ streamIds.length > T.maxTailBundleEntries then pure none
  else
    Awaits.andThen (bundleBatches R M start partCount streamIds) fun batches =>
      Awaits.look .state fun cache => T.encodeTailBundle (batches.map (bundleEntry cache))

/-- The cursor of a request, from `after` and `from`, and whether it starts at the oldest part. -/
def tailCursor (after fromSeq : Option Nat) : Option Nat × Bool :=
  (after.or (fromSeq.bind fun sequence => if 1 ≤ sequence then some (sequence - 1) else none),
    fromSeq == some 0)

/-- A client with these batch sizes: it goes on behind what it has received, and repeats a request
that brought nothing. -/
def tailClient (streamId : UInt64) :
    Option Nat → Option Nat → List Nat → Awaits TailPoint (HlsCache C) (List TailBatch)
  | _, _, [] => pure []
  | after, fromSeq, partCount :: partCounts => do
      let (cursor, startAtOldest) := tailCursor after fromSeq
      -- an empty answer is a 204, and the client asks the same again
      match ← nextPartBatchAfterBlockingForStreamId R M streamId cursor startAtOldest partCount with
      | none => tailClient streamId after fromSeq partCounts
      | some batch =>
          let batches ← tailClient streamId (some batch.stop) none partCounts
          return batch :: batches

end HlsCache

/-! ## §2. What they read. -/

/-- What a client has received, and what it has passed over. -/
structure ClientReads (R : ChunkCacheTail C) (M : MediaObjectCrate) (streamId : UInt64)
    (cursor : Option Nat) (batches : List TailBatch) (looks : List (TailPoint × HlsCache C))
    (s : HlsCache C) : Prop where
  above : ∀ a, cursor = some a → ∀ q cache, (TailPoint.slot q, cache) ∈ looks → a < q
  exact : ∀ batch ∈ batches, batch.start ≤ batch.stop ∧
    s.ExactBody R M streamId batch.start (batch.stop + 1 - batch.start) batch.body
  behind : ∀ a, cursor = some a → ∀ batch ∈ batches, a < batch.start
  increasing : batches.Pairwise fun batch next => batch.stop < next.start
  unskipped : ∀ q, (∃ last ∈ batches, q ≤ last.stop) → (∀ a, cursor = some a → a < q) →
    (cursor = none → ∃ first ∈ batches, first.start ≤ q) →
    (∃ batch ∈ batches, batch.start ≤ q ∧ q ≤ batch.stop) ∨
      HlsCache.PassedOver R M streamId looks q

/-- What a bundle holds, if there is one. -/
def BundleReads (R : ChunkCacheTail C) (M : MediaObjectCrate) (T : TailBundleCrate)
    (streamIds : List UInt64) (start partCount : Nat) (bundle : Option Bytes) (s : HlsCache C) :
    Prop :=
  ∀ bytes, bundle = some bytes → ∃ entries, T.encodeTailBundle entries = some bytes ∧
    entries.map (·.streamId) = streamIds ∧ ∀ entry ∈ entries,
      entry.startSequence = start ∧ entry.endSequence = start + partCount - 1 ∧
        s.ExactBody R M entry.streamId start partCount entry.payload

section Client

variable {R : ChunkCacheTail C} {M : MediaObjectCrate} {streamId : UInt64}

/-- What was passed over could not be read before either. -/
theorem HlsCache.PassedOver.earlier {q : Nat} {looks looks' : List (TailPoint × HlsCache C)}
    {s s' : HlsCache C} (h : HlsCache.PassedOver R M streamId looks' q)
    (hlooks : ∀ look ∈ looks, (HlsCache.growth R).le look.2 s)
    (hgrown : Grown (HlsCache.growth R) s looks' s') :
    HlsCache.PassedOver R M streamId (looks ++ looks') q := by
  obtain ⟨⟨cache, hlook⟩, hunread⟩ := h
  refine ⟨⟨cache, List.mem_append_right _ hlook⟩, fun other hother hread => ?_⟩
  rcases List.mem_append.1 hother with hfirst | hsecond
  · -- it would still be readable at the look that passed it over
    have hthen := (hread.grows (hlooks _ hfirst)).grows (hgrown.looks _ hlook).1
    exact hunread cache hlook hthen
  · exact hunread other hsecond hread

/-- The first part of an answer lies behind the cursor. -/
theorem TailAnswer.behind {after : Option Nat} {partCount a : Nat} {batch : TailBatch}
    {looks : List (TailPoint × HlsCache C)} {s : HlsCache C}
    (h : TailAnswer R M streamId after partCount (some batch) looks s) (ha : after = some a) :
    a < batch.start := by
  obtain ⟨cache, hlook, _⟩ := h.seen batch rfl
  exact h.above a ha _ cache hlook

/-- A part in front of the answer was passed over. -/
theorem TailAnswer.passedOver {after : Option Nat} {partCount a q : Nat} {batch : TailBatch}
    {looks : List (TailPoint × HlsCache C)} {s : HlsCache C}
    (h : TailAnswer R M streamId after partCount (some batch) looks s) (ha : after = some a)
    (hq : a < q) (hlt : q < batch.start) : HlsCache.PassedOver R M streamId looks q := by
  refine ⟨h.passed a batch ha rfl q hq hlt, fun cache hlook hread => ?_⟩
  have hstart := h.hit batch rfl q cache hlook hread
  omega

theorem ClientReads.nil {cursor : Option Nat} {s : HlsCache C} :
    ClientReads R M streamId cursor [] [] s := by
  constructor
  case above =>
    exact fun _ _ _ _ hlook => by cases hlook
  case exact =>
    exact fun _ hbatch => by cases hbatch
  case behind =>
    exact fun _ _ _ hbatch => by cases hbatch
  case increasing => exact List.Pairwise.nil
  case unskipped =>
    rintro q ⟨last, hlast, _⟩
    cases hlast

/-- A request that brought nothing, then the others. -/
theorem ClientReads.again {cursor : Option Nat} {partCount : Nat} {batches : List TailBatch}
    {looks looks' : List (TailPoint × HlsCache C)} {s s' : HlsCache C}
    (hanswer : TailAnswer R M streamId cursor partCount none looks s)
    (hlooks : ∀ look ∈ looks, (HlsCache.growth R).le look.2 s)
    (hgrown : Grown (HlsCache.growth R) s looks' s')
    (h : ClientReads R M streamId cursor batches looks' s') :
    ClientReads R M streamId cursor batches (looks ++ looks') s' := by
  constructor
  case above =>
    intro a ha q cache hlook
    rcases List.mem_append.1 hlook with hfirst | hsecond
    · exact hanswer.above a ha q cache hfirst
    · exact h.above a ha q cache hsecond
  case exact => exact h.exact
  case behind => exact h.behind
  case increasing => exact h.increasing
  case unskipped =>
    intro q hlast hcursor hfirst
    rcases h.unskipped q hlast hcursor hfirst with hin | hpassed
    · exact .inl hin
    · exact .inr (hpassed.earlier hlooks hgrown)

/-- A batch, then those behind it. -/
theorem ClientReads.cons {cursor : Option Nat} {partCount : Nat} {batch : TailBatch}
    {batches : List TailBatch} {looks looks' : List (TailPoint × HlsCache C)} {s s' : HlsCache C}
    (hanswer : TailAnswer R M streamId cursor partCount (some batch) looks s)
    (hlooks : ∀ look ∈ looks, (HlsCache.growth R).le look.2 s)
    (hgrown : Grown (HlsCache.growth R) s looks' s')
    (h : ClientReads R M streamId (some batch.stop) batches looks' s') :
    ClientReads R M streamId cursor (batch :: batches) (looks ++ looks') s' := by
  obtain ⟨hpos, hstop, hbody⟩ := hanswer.exact batch rfl
  have hle : batch.start ≤ batch.stop := by omega
  have hrest : ∀ next ∈ batches, batch.stop < next.start := h.behind batch.stop rfl
  constructor
  case above =>
    intro a ha q cache hlook
    -- the first request looks behind the cursor, the later ones behind the batch
    have hstart := hanswer.behind ha
    rcases List.mem_append.1 hlook with hfirst | hsecond
    · exact hanswer.above a ha q cache hfirst
    · have hq := h.above batch.stop rfl q cache hsecond
      omega
  case exact =>
    intro next hnext
    rcases List.mem_cons.1 hnext with rfl | hnext
    · refine ⟨hle, ?_⟩
      rw [show next.stop + 1 - next.start = partCount by omega]
      exact hbody.grows hgrown.state
    · exact h.exact next hnext
  case behind =>
    intro a ha next hnext
    have hstart := hanswer.behind ha
    rcases List.mem_cons.1 hnext with rfl | hnext
    · exact hstart
    · have hbehind := hrest next hnext
      omega
  case increasing => exact List.pairwise_cons.2 ⟨hrest, h.increasing⟩
  case unskipped =>
    rintro q ⟨last, hlast, hqlast⟩ hcursor hbegun
    by_cases hafter : batch.stop < q
    · -- behind this batch: what the later requests say
      have hlast' : last ∈ batches := by
        rcases List.mem_cons.1 hlast with rfl | hlast
        · omega
        · exact hlast
      rcases h.unskipped q ⟨last, hlast', hqlast⟩
        (fun a ha => by cases ha; exact hafter) (fun hnone => by cases hnone) with
        ⟨next, hnext, hin⟩ | hpassed
      · exact .inl ⟨next, List.mem_cons_of_mem _ hnext, hin⟩
      · exact .inr (hpassed.earlier hlooks hgrown)
    · by_cases hin : batch.start ≤ q
      · exact .inl ⟨batch, List.mem_cons_self, hin, by omega⟩
      · -- in front of it: the search passed it over, and no later one comes back
        right
        cases hcur : cursor with
        | none =>
            obtain ⟨first, hmem, hfirst⟩ := hbegun hcur
            rcases List.mem_cons.1 hmem with rfl | hmem
            · exact absurd hfirst hin
            · have hbehind := hrest first hmem
              omega
        | some a =>
            obtain ⟨⟨cache, hlook⟩, hunread⟩ :=
              hanswer.passedOver hcur (hcursor a hcur) (by omega)
            refine ⟨⟨cache, List.mem_append_left _ hlook⟩, fun other hother => ?_⟩
            rcases List.mem_append.1 hother with hfirst' | hsecond
            · exact hunread other hfirst'
            · have hq := h.above batch.stop rfl q other hsecond
              omega

/-- **A client** receives ranges in order and passes over no part that could be read. -/
theorem ensures_tailClient (hR : LawfulTail R) (partCounts : List Nat)
    (after fromSeq : Option Nat) :
    Ensures (HlsCache.growth R) (HlsCache.tailClient R M streamId after fromSeq partCounts)
      (ClientReads R M streamId (HlsCache.tailCursor after fromSeq).1) := by
  -- on the requests that are left, for every cursor they start from
  induction partCounts generalizing after fromSeq with
  | nil => exact Ensures.pure fun _ => ClientReads.nil
  | cons partCount partCounts ih =>
      rw [HlsCache.tailClient]
      refine Ensures.bind (S := fun answer batches looks s' => match answer with
          | none =>
              ClientReads R M streamId (HlsCache.tailCursor after fromSeq).1 batches looks s'
          | some batch => ∃ rest, batches = batch :: rest ∧
              ClientReads R M streamId (some batch.stop) rest looks s')
        (ensures_nextPartBatch hR (HlsCache.tailCursor after fromSeq).1
          (HlsCache.tailCursor after fromSeq).2 partCount).grown (fun answer => ?_) ?_
      · cases answer with
        | none => exact ih after fromSeq
        | some batch =>
            exact (ih (some batch.stop) none).map (batch :: ·)
      · rintro answer looks s batches looks' s' ⟨hanswer, hlooks⟩ hgrown hreads
        cases answer with
        | none => exact ClientReads.again hanswer hlooks hgrown hreads
        | some batch =>
            obtain ⟨rest, rfl, hrest⟩ := hreads
            exact ClientReads.cons hanswer hlooks hgrown hrest

theorem ensures_bundleBatches (hR : LawfulTail R) (start partCount : Nat)
    (streamIds : List UInt64) :
    Ensures (HlsCache.growth R) (HlsCache.bundleBatches R M start partCount streamIds)
      fun batches _ s => ∀ bs, batches = some bs → bs.map (·.1) = streamIds ∧
        ∀ b ∈ bs, b.2.start = start ∧ b.2.stop = start + partCount - 1 ∧
          s.ExactBody R M b.1 start partCount b.2.body := by
  -- on the streams: the batch of the first stays exact while the others are read
  induction streamIds with
  | nil =>
      refine Ensures.pure fun _ bs hbs => ?_
      cases hbs
      exact ⟨rfl, fun b hb => by cases hb⟩
  | cons streamId streamIds ih =>
      refine Ensures.andThen (S := fun batch batches looks s => ∀ bs, batches = some bs →
          ∃ rest, bs = (streamId, batch) :: rest ∧ rest.map (·.1) = streamIds ∧
            ∀ b ∈ rest, b.2.start = start ∧ b.2.stop = start + partCount - 1 ∧
              s.ExactBody R M b.1 start partCount b.2.body)
        (ensures_exactPartBatch hR start partCount) (fun batch => ?_) ?_ ?_
      · refine Ensures.mono (ih.mapSome fun rest => (streamId, batch) :: rest) ?_
        rintro _ looks s ⟨batches, rfl, hrest⟩ bs hbs
        obtain ⟨rest, rfl, rfl⟩ := Option.map_eq_some_iff.1 hbs
        exact ⟨rest, rfl, hrest rest rfl⟩
      · exact fun _ _ _ bs hbs => by cases hbs
      · intro batch looks s batches looks' s' hbatch hgrown hbatches bs hbs
        obtain ⟨rest, rfl, hids, hexact⟩ := hbatches bs hbs
        obtain ⟨hstart, hstop, _, hbody⟩ := hbatch batch rfl
        refine ⟨congrArg (streamId :: ·) hids, fun b hb => ?_⟩
        rcases List.mem_cons.1 hb with rfl | hb
        · exact ⟨hstart, hstop, hbody.grows hgrown.state⟩
        · exact hexact b hb

/-- **A bundle** has the range of every stream, in the order of the request, or nothing. -/
theorem ensures_nextPartBundle (hR : LawfulTail R) (T : TailBundleCrate) (streamIds : List UInt64)
    (start partCount : Nat) :
    Ensures (HlsCache.growth R)
      (HlsCache.nextPartBundleAfterBlockingForStreamIds R M T streamIds start partCount)
      fun bundle _ s => BundleReads R M T streamIds start partCount bundle s := by
  rw [HlsCache.nextPartBundleAfterBlockingForStreamIds]
  split
  · exact Ensures.pure fun _ bytes hbytes => by cases hbytes
  · refine Ensures.andThen (S := fun batches bundle looks s => bundle =
        T.encodeTailBundle (batches.map (HlsCache.bundleEntry s)))
      (ensures_bundleBatches hR start partCount streamIds)
      (fun batches => Ensures.look fun _ => rfl) ?_ ?_
    · exact fun _ _ _ bytes hbytes => by cases hbytes
    · rintro batches looks s bundle looks' s' hbatches hgrown rfl bytes hbytes
      obtain ⟨hids, hexact⟩ := hbatches batches rfl
      refine ⟨_, hbytes, ?_, fun entry hentry => ?_⟩
      · rw [List.map_map, ← hids]
        rfl
      · obtain ⟨b, hb, rfl⟩ := List.mem_map.1 hentry
        obtain ⟨hstart, hstop, hbody⟩ := hexact b hb
        exact ⟨hstart, hstop, hbody.grows hgrown.state⟩

end Client

/-! ## §3. Tail reads are exact and leave nothing out. -/

/-- The batch begins at the smallest part behind the cursor that could be read: it could when it
was looked at, and none in front of it could when it was passed over. -/
structure SmallestReadable (R : ChunkCacheTail C) (M : MediaObjectCrate) (streamId : UInt64)
    (looks : List (TailPoint × HlsCache C)) (after start : Nat) : Prop where
  behind : after < start
  readable : ∃ cache, (TailPoint.slot start, cache) ∈ looks ∧ cache.Readable R M streamId start
  smallest : ∀ q, after < q → q < start → HlsCache.PassedOver R M streamId looks q

/-- What a tail request answers, if it answers. -/
structure BatchReads (R : ChunkCacheTail C) (M : MediaObjectCrate) (streamId : UInt64)
    (after : Option Nat) (partCount : Nat) (batch : TailBatch)
    (looks : List (TailPoint × HlsCache C)) (s : HlsCache C) : Prop where
  pos : 0 < partCount
  stop : batch.stop = batch.start + partCount - 1
  body : s.ExactBody R M streamId batch.start partCount batch.body
  first : ∀ a, after = some a → SmallestReadable R M streamId looks a batch.start

theorem TailAnswer.reads {R : ChunkCacheTail C} {M : MediaObjectCrate} {streamId : UInt64}
    {after : Option Nat} {partCount : Nat} {batch : TailBatch}
    {looks : List (TailPoint × HlsCache C)} {s : HlsCache C}
    (h : TailAnswer R M streamId after partCount (some batch) looks s) :
    BatchReads R M streamId after partCount batch looks s := by
  obtain ⟨hpos, hstop, hbody⟩ := h.exact batch rfl
  refine ⟨hpos, hstop, hbody, fun a ha => ⟨h.behind ha, h.seen batch rfl, fun q hq hlt => ?_⟩⟩
  exact h.passedOver ha hq hlt

/-- **Tail reads are exact and leave nothing out**, among other tasks that only let the cache
grow: a batch is the parts it names and begins at the smallest one behind the cursor, a client
passes over nothing it could have read, and a bundle is all of its ranges or nothing. -/
theorem tail_reads_exact {C : ChunkCacheCrate} {R : ChunkCacheTail C} (hR : LawfulTail R)
    (M : MediaObjectCrate) (T : TailBundleCrate) {others : Others TailPoint (HlsCache C)}
    (honly : others.Only (HlsCache.growth R)) (w : Shared TailPoint (HlsCache C)) :
    (∀ streamId after startAtOldest partCount batch,
      let run := HlsCache.nextPartBatchAfterBlockingForStreamId R M streamId after startAtOldest
        partCount others w
      run.1 = some batch → BatchReads R M streamId after partCount batch
        (run.2.looks.drop w.looks.length) run.2.state) ∧
    (∀ streamId after fromSeq partCounts,
      let run := HlsCache.tailClient R M streamId after fromSeq partCounts others w
      ClientReads R M streamId (HlsCache.tailCursor after fromSeq).1 run.1
        (run.2.looks.drop w.looks.length) run.2.state) ∧
    ∀ streamIds start partCount,
      let run := HlsCache.nextPartBundleAfterBlockingForStreamIds R M T streamIds start partCount
        others w
      BundleReads R M T streamIds start partCount run.1 run.2.state := by
  refine ⟨?_, ?_, ?_⟩
  · intro streamId after startAtOldest partCount batch run hbatch
    have hanswer := (@ensures_nextPartBatch C R M streamId hR after startAtOldest
      partCount).run honly w
    rw [show (HlsCache.nextPartBatchAfterBlockingForStreamId R M streamId after startAtOldest
      partCount others w).1 = some batch from hbatch] at hanswer
    exact hanswer.reads
  · intro streamId after fromSeq partCounts
    exact (ensures_tailClient hR partCounts after fromSeq).run honly w
  · intro streamIds start partCount
    exact (ensures_nextPartBundle hR T streamIds start partCount).run honly w

/-! ## §4. The sample store. -/

@[reducible] def sampleTail : ChunkCacheTail sampleStore where
  toChunkCacheReads := sampleReads
  hash := fun _ _ _ => 0
  getRangeForStreamId := fun chunk streamId start count =>
    (List.range' start count).mapM fun q => (chunk streamId).slots.lookup q
  exactPartWaiter := fun _ _ _ => true

theorem mapM_eq_some {α β : Type} {f : α → Option β} {xs : List α} {ys : List β}
    (h : xs.mapM f = some ys) : xs.map f = ys.map some := by
  induction xs generalizing ys with
  | nil =>
      obtain rfl := Option.some.inj h
      rfl
  | cons x xs ih =>
      rw [List.mapM_cons] at h
      obtain ⟨y, hy, hrest⟩ := Option.bind_eq_some_iff.1 h
      obtain ⟨ys', hys', hpure⟩ := Option.bind_eq_some_iff.1 hrest
      obtain rfl := Option.some.inj hpure
      rw [List.map_cons, List.map_cons, hy, ih hys']

theorem chunkGrows_update {chunk : sampleStore.Cache} {streamId : UInt64} {stream : SampleStream}
    (hslots : ∀ q bytes, (chunk streamId).slots.lookup q = some bytes →
      stream.slots.lookup q = some bytes)
    (hlast : ∀ last, (chunk streamId).last = some last → ∃ last', stream.last = some last' ∧
      last ≤ last') : ChunkGrows sampleTail chunk (Function.update chunk streamId stream) := by
  refine ⟨fun other q bytes hq => ?_, fun other idx last hposition => ?_⟩
  · show (Function.update chunk streamId stream other).slots.lookup q = some bytes
    by_cases hother : other = streamId
    · subst hother
      rw [Function.update_self]
      exact hslots q bytes hq
    · rw [Function.update_of_ne hother]
      exact hq
  · rw [position_sampleReads] at hposition ⊢
    by_cases hother : other = streamId
    · subst hother
      rw [Function.update_self]
      obtain ⟨last', hsome, hpair⟩ := Option.map_eq_some_iff.1 hposition
      obtain ⟨rfl, rfl⟩ := Prod.mk.inj hpair
      obtain ⟨last'', hsome', hle⟩ := hlast last' hsome
      exact ⟨last'', by rw [hsome']; rfl, hle⟩
    · rw [Function.update_of_ne hother]
      exact ⟨last, hposition, Nat.le_refl _⟩

/-- A put only adds a slot. -/
theorem chunkGrows_put (chunk : sampleStore.Cache) (streamId : UInt64) (slot base : Nat)
    (bytes : Bytes) :
    ChunkGrows sampleTail chunk
      (sampleStore.putIfAbsentContiguous chunk streamId slot base bytes).2 := by
  simp only [sampleStore]
  split
  · exact ChunkGrows.refl _
  · next hvacant =>
      refine chunkGrows_update (fun q found hq => ?_) fun last hlast => ?_
      · simp only [SampleStream.put]
        rw [lookup_cons_ite, if_neg]
        · exact hq
        · rintro rfl
          rw [hvacant] at hq
          cases hq
      · simp only [SampleStream.put, hlast]
        exact ⟨_, rfl, (runEnd_spec _ _ _).1⟩

theorem sampleTail_lawful : LawfulTail sampleTail where
  for_stream := (sampleReads_lawful 0).for_stream
  range := fun _ _ _ _ _ h => mapM_eq_some h
  init := fun _ _ _ => chunkGrows_update (fun _ _ h => h) fun last h => ⟨last, h, Nat.le_refl _⟩

/-- Another task puts part 3 of stream 3 while the request waits for it. -/
def lastPartArrives : Others TailPoint (HlsCache sampleStore) where
  move := fun looks cache =>
    if looks.length = 6 then
      { cache with
        chunkCache := (sampleStore.putIfAbsentContiguous cache.chunkCache 3 3 0 [9]).2 }
    else cache
  wakeups := fun _ => 2

theorem lastPartArrives_only : lastPartArrives.Only (HlsCache.growth sampleTail) := by
  intro looks cache
  show ChunkGrows sampleTail cache.chunkCache (lastPartArrives.move looks cache).chunkCache
  simp only [lastPartArrives]
  split
  · exact chunkGrows_put cache.chunkCache 3 3 0 [9]
  · exact ChunkGrows.refl _

/-- Stream 3 has the parts 0 to 2, and there is no media in part 1. -/
def threeParts : HlsCache sampleStore :=
  { emptyHlsCache 2 6 with
    chunkCache := fun _ => ⟨[(0, [7]), (1, []), (2, [8])], some 2, 0, none⟩ }

/-- Behind part 0 the next part is 2, and the batch of two is read once part 3 is there. -/
theorem tail_reads_exact_waits :
    let run := HlsCache.nextPartBatchAfterBlockingForStreamId sampleTail feedCrate 3 (some 0) false
      2 lastPartArrives ⟨threeParts, []⟩
    run.1 = some ⟨2, 3, [8, 9], none⟩ ∧
      BatchReads sampleTail feedCrate 3 (some 0) 2 ⟨2, 3, [8, 9], none⟩ run.2.looks
        run.2.state := by
  intro run
  have hrun : run.1 = some ⟨2, 3, [8, 9], none⟩ := by rfl
  exact ⟨hrun, (tail_reads_exact sampleTail_lawful feedCrate ⟨8, fun _ => some []⟩
    lastPartArrives_only ⟨threeParts, []⟩).1 3 (some 0) false 2 _ hrun⟩

end AvMesh.LiveCache
