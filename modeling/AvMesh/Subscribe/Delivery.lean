/-
  AvMesh.Subscribe.Delivery
  ─────────────────────────
  **THE DELIVERY BUFFER OF A SUBSCRIBER** (`AuthorizedDeliveryBuffer`).

  Objects on their way to one subscriber are authorized twice: when they are
  pushed and again when they are popped.  In between the registry may revoke the
  lease or close, and the deadline of an object may pass; then everything that
  is buffered is dropped.

  `pop` takes the lock of the registry twice, once for the lease and once more
  inside `authorize`.  What the other callers of the edge do between the two is
  an argument of the operation.

  Main result: `deliveries_authorized`.  The buffer keeps its byte account and
  its bounds, hands out exactly the objects that pass every check at that
  moment, in the order in which they were pushed, and is empty after a purge.

  The payload length is a `u32` of the envelope (`hbytes`), so 65536 objects
  never make the byte account saturate.
-/
import AvMesh.Lib.Queue
import AvMesh.Subscribe.Catalog
import Mathlib.Algebra.Group.Action.Defs
import Mathlib.Algebra.Order.BigOperators.Group.List

namespace AvMesh.Subscribe

open AvMesh.Lib

variable {C : MediaCrates} {O : ObjectCrates C}

/-! ## §1. The buffer. -/

/-- `DEFAULT_MAX_CATALOG_OBJECTS`. -/
def defaultMaxCatalogObjects : Nat := 65536

structure AuthorizedDeliveryBuffer (O : ObjectCrates C) where
  maxObjects : Nat
  maxBytes : Nat
  bufferedBytes : Nat
  entries : List (CanonicalCatalogEntry O)

/-- `entry.object.payload().len()`. -/
def CanonicalCatalogEntry.payloadLen (entry : CanonicalCatalogEntry O) : Nat :=
  (O.payload entry.object).length

namespace AuthorizedDeliveryBuffer

def new (O : ObjectCrates C) (maxObjects maxBytes : Nat) :
    EdgeResult (AuthorizedDeliveryBuffer O) :=
  if maxObjects = 0 ∨ maxBytes = 0 ∨ defaultMaxCatalogObjects < maxObjects then
    .error ⟨.invalidConfiguration, "delivery_buffer"⟩
  else .ok ⟨maxObjects, maxBytes, 0, []⟩

def clear (b : AuthorizedDeliveryBuffer O) : AuthorizedDeliveryBuffer O :=
  { b with entries := [], bufferedBytes := 0 }

section Calls

variable [DecidableEq C.TenantId] [LinearOrder C.SourceId] [LinearOrder C.AudienceId]

def push (b : AuthorizedDeliveryBuffer O) (gate : EdgeSubscribeGate C)
    (lease : SubscriptionLease C) (entry : CanonicalCatalogEntry O) (nowUnixSeconds : Int) :
    EdgeResult Unit × AuthorizedDeliveryBuffer O × EdgeSubscribeGate C :=
  match entry.authorize gate lease entry.lane nowUnixSeconds with
  | (.error error, gate) => (.error error, b, gate)
  | (.ok _, gate) =>
      let bytes := entry.payloadLen
      if b.maxObjects ≤ b.entries.length ∨ b.maxBytes < satAdd b.bufferedBytes bytes then
        (.error ⟨.capacity, "delivery_buffer"⟩, b, gate)
      else
        (.ok (),
          { b with
            bufferedBytes := satAdd b.bufferedBytes bytes
            entries := b.entries ++ [entry] }, gate)

/-- `between` is what happens at the edge after the lease is checked and before
the front object is. -/
def pop (b : AuthorizedDeliveryBuffer O) (edge : EdgeState C) (lease : SubscriptionLease C)
    (nowUnixSeconds : Int) (between : List (EdgeState.Op C)) :
    EdgeResult (Option (CanonicalCatalogEntry O)) × AuthorizedDeliveryBuffer O × EdgeState C :=
  match edge.gate.revalidate lease nowUnixSeconds with
  | (.error _, gate) =>
      (.error ⟨.deliveryPurged, "subscription_lease"⟩, b.clear, { edge with gate })
  | (.ok _, gate) =>
      match b.entries with
      | [] => (.ok none, b, { edge with gate })
      | front :: entries =>
          let edge := exec EdgeState.step { edge with gate } between
          match front.authorize edge.gate lease front.lane nowUnixSeconds with
          | (.error _, gate) =>
              (.error ⟨.deliveryPurged, "buffered_object"⟩, b.clear, { edge with gate })
          | (.ok _, gate) =>
              (.ok (some front),
                { b with
                  entries := entries
                  bufferedBytes := b.bufferedBytes - front.payloadLen }, { edge with gate })

end Calls

def purgeIfInvalid (b : AuthorizedDeliveryBuffer O) (gate : EdgeSubscribeGate C)
    (lease : SubscriptionLease C) (nowUnixSeconds : Int) :
    Nat × AuthorizedDeliveryBuffer O × EdgeSubscribeGate C :=
  match gate.revalidate lease nowUnixSeconds with
  | (.ok _, gate) => (0, b, gate)
  | (.error _, gate) => (b.entries.length, b.clear, gate)

end AuthorizedDeliveryBuffer

/-! ## §2. A subscriber and its edge as a step system. -/

structure Subscriber (O : ObjectCrates C) where
  edge : EdgeState C
  buffer : AuthorizedDeliveryBuffer O

namespace Subscriber

inductive Op (O : ObjectCrates C) where
  | push (lease : SubscriptionLease C) (entry : CanonicalCatalogEntry O) (built : entry.Built)
      (nowUnixSeconds : Int)
  | pop (lease : SubscriptionLease C) (nowUnixSeconds : Int) (between : List (EdgeState.Op C))
  | purgeIfInvalid (lease : SubscriptionLease C) (nowUnixSeconds : Int)
  /-- Another caller of the edge. -/
  | edge (op : EdgeState.Op C)

inductive Reply (O : ObjectCrates C) where
  | pushed (result : EdgeResult Unit)
  | popped (result : EdgeResult (Option (CanonicalCatalogEntry O)))
  | purged (count : Nat)
  | edge (reply : EdgeState.Reply C)

variable [DecidableEq C.TenantId] [LinearOrder C.SourceId] [LinearOrder C.AudienceId]

def step (s : Subscriber O) : Op O → Reply O × Subscriber O
  | .push lease entry _ nowUnixSeconds =>
      let pushed := s.buffer.push s.edge.gate lease entry nowUnixSeconds
      (.pushed pushed.1, ⟨{ s.edge with gate := pushed.2.2 }, pushed.2.1⟩)
  | .pop lease nowUnixSeconds between =>
      let popped := s.buffer.pop s.edge lease nowUnixSeconds between
      (.popped popped.1, ⟨popped.2.2, popped.2.1⟩)
  | .purgeIfInvalid lease nowUnixSeconds =>
      let purged := s.buffer.purgeIfInvalid s.edge.gate lease nowUnixSeconds
      (.purged purged.1, ⟨{ s.edge with gate := purged.2.2 }, purged.2.1⟩)
  | .edge op =>
      let stepped := s.edge.step op
      (.edge stepped.1, { s with edge := stepped.2 })

/-- The objects a step pushes successfully. -/
def pushes (s : Subscriber O) (op : Op O) : List (CanonicalCatalogEntry O) :=
  match op, (step s op).1 with
  | .push _ entry _ _, .pushed (.ok _) => [entry]
  | _, _ => []

/-- The objects a step returns. -/
def returns (s : Subscriber O) (op : Op O) : List (CanonicalCatalogEntry O) :=
  match (step s op).1 with
  | .popped (.ok (some entry)) => [entry]
  | _ => []

/-- The lease is valid at this moment. -/
def Valid (edge : EdgeState C) (lease : SubscriptionLease C) (nowUnixSeconds : Int) : Prop :=
  (edge.gate.revalidate lease nowUnixSeconds).1 = .ok ()

/-- A `pop` that returns an error, or a purge that finds the lease invalid. -/
def Purges (s : Subscriber O) (op : Op O) : Prop :=
  match op with
  | .pop lease nowUnixSeconds between =>
      ∃ error, (s.buffer.pop s.edge lease nowUnixSeconds between).1 = .error error
  | .purgeIfInvalid lease nowUnixSeconds => ¬ Valid s.edge lease nowUnixSeconds
  | _ => False

end Subscriber

/-! ## §3. The checks of an object. -/

namespace CanonicalCatalogEntry

variable {entry : CanonicalCatalogEntry O}

theorem fromMediaObject_canonical {object : O.MediaObject}
    (h : fromMediaObject object = .ok entry) :
    canonicalIdentity entry.object entry.configuration entry.envelope = true := by
  unfold fromMediaObject at h
  split at h
  · cases h
  · split at h
    · cases h
    · split at h
      · cases h
      · split at h
        · cases h
        · split at h
          · cases h
          · next hcanonical =>
              split at h
              · cases h
              · cases h
                exact eq_true_of_ne_false hcanonical

/-- The payload is as long as the envelope says. -/
theorem Built.payloadLen_eq (h : Built entry) :
    entry.payloadLen = O.payloadBytes entry.envelope := by
  obtain ⟨object, hobject⟩ := h
  have hcanonical := fromMediaObject_canonical hobject
  unfold canonicalIdentity at hcanonical
  simp only [Bool.and_eq_true, decide_eq_true_eq] at hcanonical
  exact hcanonical.1.1.2

section Authorize

variable [DecidableEq C.TenantId] [LinearOrder C.SourceId] [LinearOrder C.AudienceId]
variable {lease : SubscriptionLease C} {now : Int}

/-- Every check of `authorize` but that of the lease, of an object of the program
lane. -/
structure Passes (entry : CanonicalCatalogEntry O) (lease : SubscriptionLease C) (now : Int) :
    Prop where
  scope : entry.InScope lease
  source : entry.FromSourceOf lease
  channels : O.channelCount entry.configuration ≤ lease.maxChannels
  bitrate : satMul128 (satMul128 (O.payloadBytes entry.envelope) 8)
      (O.captureTimebaseHz entry.configuration)
    ≤ satMul128 lease.maxBitrate (O.durationTicks entry.envelope)
  /-- The time in nanoseconds is in range. -/
  clock : FitsI64 (now * 1000000000)
  deadline : ∃ deadline, O.deadline entry.object = some deadline ∧
    now * 1000000000 < deadline.unixTimeNs

omit [DecidableEq C.TenantId] [LinearOrder C.AudienceId] [LinearOrder C.SourceId] in
theorem checkLimits_eq_ok_iff :
    entry.checkLimits lease now = .ok () ↔
      O.channelCount entry.configuration ≤ lease.maxChannels ∧
      satMul128 (satMul128 (O.payloadBytes entry.envelope) 8)
          (O.captureTimebaseHz entry.configuration)
        ≤ satMul128 lease.maxBitrate (O.durationTicks entry.envelope) ∧
      FitsI64 (now * 1000000000) ∧
      ∃ deadline, O.deadline entry.object = some deadline ∧
        now * 1000000000 < deadline.unixTimeNs := by
  unfold checkLimits
  by_cases hchannels : lease.maxChannels < O.channelCount entry.configuration
  · rw [if_pos hchannels]
    refine iff_of_false (by nofun) ?_
    rintro ⟨hle, -⟩
    omega
  · rw [if_neg hchannels]
    by_cases hbits : satMul128 lease.maxBitrate (O.durationTicks entry.envelope)
        < satMul128 (satMul128 (O.payloadBytes entry.envelope) 8)
          (O.captureTimebaseHz entry.configuration)
    · rw [if_pos hbits]
      refine iff_of_false (by nofun) ?_
      rintro ⟨-, hle, -⟩
      omega
    · rw [if_neg hbits]
      unfold checkedMulI64
      by_cases hfits : FitsI64 (now * 1000000000)
      · rw [if_pos hfits]
        cases hdeadline : O.deadline entry.object with
        | none => simp
        | some deadline =>
            by_cases hexpired : deadline.unixTimeNs ≤ now * 1000000000
            · simp [hexpired]
            · simp [hexpired, hfits]
              omega
      · simp [hfits]

omit [DecidableEq C.TenantId] in
/-- In a sorted lease the selector is membership. -/
theorem checkSelector_eq_ok_iff (hlane : entry.lane = .program)
    (hsorted : lease.sourceIds.Pairwise (· ≤ ·)) :
    entry.checkSelector lease = .ok () ↔ entry.FromSourceOf lease := by
  constructor
  · exact checkSelector_ok hlane
  · rintro ⟨sourceId, hmem, hsource⟩
    unfold checkSelector
    rw [hlane, hsource]
    show (if binarySearch lease.sourceIds sourceId = true then _ else _) = _
    rw [if_pos ((binarySearch_eq_true_iff hsorted).2 hmem)]

/-- The checks that follow the lease, one after the other. -/
theorem checkLease_eq_ok_iff {lane : CatalogLane} :
    entry.checkLease lease lane now = .ok () ↔
      entry.lane = lane ∧ entry.InScope lease ∧ entry.checkSelector lease = .ok () ∧
        entry.checkLimits lease now = .ok () := by
  unfold checkLease
  by_cases hlane : entry.lane = lane
  · by_cases hscope : entry.InScope lease
    · rw [if_neg (not_not.2 hlane), if_neg (not_not.2 hscope)]
      cases hselector : entry.checkSelector lease with
      | error error => simp
      | ok u => simp [hlane, hscope]
    · rw [if_neg (not_not.2 hlane), if_pos hscope]
      simp [hscope]
  · rw [if_pos hlane]
    simp [hlane]

theorem passes_of_checkLease (hbuilt : Built entry)
    (h : entry.checkLease lease entry.lane now = .ok ()) : entry.Passes lease now := by
  obtain ⟨-, hscope, hselector, hlimits⟩ := checkLease_eq_ok_iff.1 h
  obtain ⟨hchannels, hbits, hfits, hdeadline⟩ := checkLimits_eq_ok_iff.1 hlimits
  exact ⟨hscope, checkSelector_ok hbuilt.lane_eq hselector, hchannels, hbits, hfits, hdeadline⟩

theorem Passes.checkLease (h : entry.Passes lease now) (hbuilt : Built entry)
    (hsorted : lease.sourceIds.Pairwise (· ≤ ·)) :
    entry.checkLease lease entry.lane now = .ok () :=
  checkLease_eq_ok_iff.2 ⟨rfl, h.scope,
    (checkSelector_eq_ok_iff hbuilt.lane_eq hsorted).2 h.source,
    checkLimits_eq_ok_iff.2 ⟨h.channels, h.bitrate, h.clock, h.deadline⟩⟩

end Authorize

end CanonicalCatalogEntry

/-! ## §4. The byte account. -/

namespace AuthorizedDeliveryBuffer

/-- The payloads that are buffered. -/
def bytes (entries : List (CanonicalCatalogEntry O)) : Nat :=
  (entries.map (·.payloadLen)).sum

/-- The account and the bounds of a buffer with the given limits. -/
structure Accounted (maxObjects maxBytes : Nat) (b : AuthorizedDeliveryBuffer O) : Prop where
  maxObjects_eq : b.maxObjects = maxObjects
  maxBytes_eq : b.maxBytes = maxBytes
  maxObjects_le : maxObjects ≤ defaultMaxCatalogObjects
  built : ∀ entry ∈ b.entries, entry.Built
  bytes_eq : b.bufferedBytes = bytes b.entries
  bytes_le : b.bufferedBytes ≤ maxBytes
  length_le : b.entries.length ≤ maxObjects

variable {maxObjects maxBytes : Nat} {b : AuthorizedDeliveryBuffer O}
  {entry : CanonicalCatalogEntry O}

theorem Accounted.new (h : AuthorizedDeliveryBuffer.new O maxObjects maxBytes = .ok b) :
    Accounted maxObjects maxBytes b := by
  unfold AuthorizedDeliveryBuffer.new at h
  split at h
  · cases h
  · next hbounds =>
      cases h
      exact {
        maxObjects_eq := rfl
        maxBytes_eq := rfl
        maxObjects_le := by omega
        built := by nofun
        bytes_eq := rfl
        bytes_le := Nat.zero_le _
        length_le := Nat.zero_le _ }

theorem Accounted.clear (h : Accounted maxObjects maxBytes b) :
    Accounted maxObjects maxBytes b.clear where
  maxObjects_eq := h.maxObjects_eq
  maxBytes_eq := h.maxBytes_eq
  maxObjects_le := h.maxObjects_le
  built := by nofun
  bytes_eq := rfl
  bytes_le := Nat.zero_le _
  length_le := Nat.zero_le _

/-- Payloads of 32-bit lengths: the sum of a full buffer fits. -/
theorem bytes_le_of_built (hbytes : ∀ envelope, O.payloadBytes envelope < 2 ^ 32)
    {entries : List (CanonicalCatalogEntry O)} (h : ∀ entry ∈ entries, entry.Built) :
    bytes entries ≤ entries.length * 2 ^ 32 := by
  unfold bytes
  have hle := List.sum_le_card_nsmul (entries.map (·.payloadLen)) (2 ^ 32) (by
    intro length hlength
    obtain ⟨entry, hentry, rfl⟩ := List.mem_map.1 hlength
    show entry.payloadLen ≤ _
    rw [(h entry hentry).payloadLen_eq]
    exact Nat.le_of_lt (hbytes _))
  rw [List.length_map, smul_eq_mul] at hle
  exact hle

theorem Accounted.push (hbytes : ∀ envelope, O.payloadBytes envelope < 2 ^ 32)
    (h : Accounted maxObjects maxBytes b) (hentry : entry.Built)
    (hlength : b.entries.length < b.maxObjects)
    (hroom : satAdd b.bufferedBytes entry.payloadLen ≤ b.maxBytes) :
    Accounted maxObjects maxBytes
      { b with
        bufferedBytes := satAdd b.bufferedBytes entry.payloadLen
        entries := b.entries ++ [entry] } := by
  rw [h.maxObjects_eq] at hlength
  rw [h.maxBytes_eq] at hroom
  have hsum : bytes (b.entries ++ [entry]) = bytes b.entries + entry.payloadLen := by
    unfold bytes
    rw [List.map_append, List.sum_append, List.map_singleton, List.sum_singleton]
  have hbuilt : ∀ other ∈ b.entries ++ [entry], other.Built := by
    intro other hother
    rcases List.mem_append.1 hother with hold | hnew
    · exact h.built other hold
    · obtain rfl := List.mem_singleton.1 hnew
      exact hentry
  -- at most 65536 payloads of less than 2^32 bytes each
  have hexact : satAdd b.bufferedBytes entry.payloadLen = bytes (b.entries ++ [entry]) := by
    have hle := bytes_le_of_built hbytes hbuilt
    have hmax := h.maxObjects_le
    rw [List.length_append, List.length_singleton] at hle
    unfold defaultMaxCatalogObjects at hmax
    rw [h.bytes_eq, hsum]
    refine satAdd_of_le ?_
    unfold u64Max
    omega
  exact {
    maxObjects_eq := h.maxObjects_eq
    maxBytes_eq := h.maxBytes_eq
    maxObjects_le := h.maxObjects_le
    built := hbuilt
    bytes_eq := hexact
    bytes_le := hroom
    length_le := by
      show (b.entries ++ [entry]).length ≤ maxObjects
      rw [List.length_append, List.length_singleton]
      exact hlength }

theorem Accounted.pop (h : Accounted maxObjects maxBytes b)
    {entries : List (CanonicalCatalogEntry O)} (hentries : b.entries = entry :: entries) :
    Accounted maxObjects maxBytes
      { b with entries := entries, bufferedBytes := b.bufferedBytes - entry.payloadLen } := by
  have hbuilt := h.built
  have hbytes := h.bytes_eq
  have hlength := h.length_le
  have hle := h.bytes_le
  rw [hentries] at hbuilt hbytes hlength
  have hsum : bytes (entry :: entries) = entry.payloadLen + bytes entries := by
    unfold bytes
    rw [List.map_cons, List.sum_cons]
  exact {
    maxObjects_eq := h.maxObjects_eq
    maxBytes_eq := h.maxBytes_eq
    maxObjects_le := h.maxObjects_le
    built := fun other hother => hbuilt other (List.mem_cons_of_mem _ hother)
    bytes_eq := by
      show b.bufferedBytes - entry.payloadLen = bytes entries
      omega
    bytes_le := by
      show b.bufferedBytes - entry.payloadLen ≤ maxBytes
      omega
    length_le := by
      show entries.length ≤ maxObjects
      rw [List.length_cons] at hlength
      omega }

end AuthorizedDeliveryBuffer

namespace Subscriber

variable [DecidableEq C.TenantId] [LinearOrder C.SourceId] [LinearOrder C.AudienceId]
variable {s : Subscriber O} {op : Op O} {lease : SubscriptionLease C} {now : Int}
  {between : List (EdgeState.Op C)} {entry : CanonicalCatalogEntry O}

/-! ## §5. One step. -/

/-- An authorized object passes the checks under a valid lease. -/
theorem authorize_eq_ok_iff {edge : EdgeState C} {lane : CatalogLane} :
    (entry.authorize edge.gate lease lane now).1 = .ok () ↔
      Valid edge lease now ∧ entry.checkLease lease lane now = .ok () := by
  unfold CanonicalCatalogEntry.authorize Valid
  cases hvalid : edge.gate.revalidate lease now with
  | mk result gate =>
      cases result with
      | error error => simp
      | ok u => simp

/-- **A pop returns an object** exactly when the object is the front, the lease is
valid at both moments and the object passes the other checks. -/
theorem pop_eq_some_iff :
    (step s (.pop lease now between)).1 = .popped (.ok (some entry)) ↔
      s.buffer.entries.head? = some entry ∧ Valid s.edge lease now ∧
      Valid (exec EdgeState.step s.edge between) lease now ∧
      entry.checkLease lease entry.lane now = .ok () := by
  show Reply.popped (s.buffer.pop s.edge lease now between).1 = _ ↔ _
  rw [Reply.popped.injEq]
  unfold AuthorizedDeliveryBuffer.pop
  cases hvalid : s.edge.gate.revalidate lease now with
  | mk result gate =>
      cases result with
      | error error => simp [Valid, hvalid]
      | ok u =>
          -- between the two checks the edge goes on, so the second one is made in another state
          obtain rfl := EdgeSubscribeGate.revalidate_eq_ok hvalid
          cases hentries : s.buffer.entries with
          | nil => simp
          | cons front entries =>
              have hfront := @authorize_eq_ok_iff C O _ _ _ lease now front
                (exec EdgeState.step s.edge between) front.lane
              cases hauthorize : front.authorize (exec EdgeState.step s.edge between).gate lease
                  front.lane now with
              | mk result gate' =>
                  rw [hauthorize] at hfront
                  cases result with
                  | error error =>
                      simp only [hauthorize, List.head?_cons, Option.some.injEq]
                      refine iff_of_false (by nofun) ?_
                      rintro ⟨rfl, -, hsecond, hchecks⟩
                      exact absurd (hfront.2 ⟨hsecond, hchecks⟩) (by nofun)
                  | ok u =>
                      obtain ⟨hsecond, hchecks⟩ := hfront.1 rfl
                      simp only [hauthorize, List.head?_cons, Except.ok.injEq, Option.some.injEq]
                      constructor
                      · rintro rfl
                        exact ⟨rfl, by rw [Valid, hvalid], hsecond, hchecks⟩
                      · exact And.left

/-- What a push does to the buffer. -/
theorem push_cases (b : AuthorizedDeliveryBuffer O) (gate : EdgeSubscribeGate C)
    (lease : SubscriptionLease C) (entry : CanonicalCatalogEntry O) (now : Int) :
    (∃ error, (b.push gate lease entry now).1 = .error error ∧
        (b.push gate lease entry now).2.1 = b) ∨
      ((b.push gate lease entry now).1 = .ok () ∧ b.entries.length < b.maxObjects ∧
        satAdd b.bufferedBytes entry.payloadLen ≤ b.maxBytes ∧
        (b.push gate lease entry now).2.1 =
          { b with
            bufferedBytes := satAdd b.bufferedBytes entry.payloadLen
            entries := b.entries ++ [entry] }) := by
  unfold AuthorizedDeliveryBuffer.push
  cases hauthorize : entry.authorize gate lease entry.lane now with
  | mk result gate' =>
      cases result with
      | error error => exact .inl ⟨error, rfl, rfl⟩
      | ok u =>
          by_cases hfull : b.maxObjects ≤ b.entries.length ∨
              b.maxBytes < satAdd b.bufferedBytes entry.payloadLen
          -- authorized, but there is no room: refused, and nothing is purged
          · refine .inl ⟨⟨.capacity, "delivery_buffer"⟩, ?_, ?_⟩
            · simp only [if_pos hfull]
            · simp only [if_pos hfull]
          · refine .inr ⟨?_, by omega, by omega, ?_⟩
            · simp only [if_neg hfull]
            · simp only [if_neg hfull]

/-- What a pop does to the buffer: it purges, finds nothing, or takes the front. -/
theorem pop_cases (b : AuthorizedDeliveryBuffer O) (edge : EdgeState C)
    (lease : SubscriptionLease C) (now : Int) (between : List (EdgeState.Op C)) :
    (∃ field, (b.pop edge lease now between).1 = .error ⟨.deliveryPurged, field⟩ ∧
        (b.pop edge lease now between).2.1 = b.clear) ∨
      ((b.pop edge lease now between).1 = .ok none ∧ b.entries = [] ∧
        (b.pop edge lease now between).2.1 = b) ∨
      ∃ front entries, (b.pop edge lease now between).1 = .ok (some front) ∧
        b.entries = front :: entries ∧
        (b.pop edge lease now between).2.1 =
          { b with entries := entries, bufferedBytes := b.bufferedBytes - front.payloadLen } := by
  unfold AuthorizedDeliveryBuffer.pop
  cases hvalid : edge.gate.revalidate lease now with
  | mk result gate =>
      cases result with
      | error error => exact .inl ⟨"subscription_lease", rfl, rfl⟩
      | ok u =>
          cases hentries : b.entries with
          | nil => exact .inr (.inl ⟨rfl, rfl, rfl⟩)
          | cons front entries =>
              cases hauthorize : front.authorize
                  (exec EdgeState.step { edge with gate } between).gate lease front.lane now with
              | mk result gate' =>
                  cases result with
                  | error error =>
                      refine .inl ⟨"buffered_object", ?_, ?_⟩
                      · simp only [hauthorize]
                      · simp only [hauthorize]
                  | ok u =>
                      refine .inr (.inr ⟨front, entries, ?_, rfl, ?_⟩)
                      · simp only [hauthorize]
                      · simp only [hauthorize]

omit [DecidableEq C.TenantId] [LinearOrder C.SourceId] [LinearOrder C.AudienceId] in
/-- A purge empties the buffer exactly when the lease is invalid. -/
theorem purgeIfInvalid_eq (b : AuthorizedDeliveryBuffer O) (edge : EdgeState C)
    (lease : SubscriptionLease C) (now : Int) :
    (Valid edge lease now → (b.purgeIfInvalid edge.gate lease now).2.1 = b) ∧
      (¬ Valid edge lease now → (b.purgeIfInvalid edge.gate lease now).2.1 = b.clear) := by
  unfold AuthorizedDeliveryBuffer.purgeIfInvalid Valid
  cases hvalid : edge.gate.revalidate lease now with
  | mk result gate =>
      cases result with
      | error error => exact ⟨nofun, fun _ => rfl⟩
      | ok u => exact ⟨fun _ => rfl, fun hnot => absurd rfl hnot⟩

/-- **A purge leaves nothing.** -/
theorem Purges.cleared (h : Purges s op) : (step s op).2.buffer = s.buffer.clear := by
  cases op with
  | push lease entry built now => exact h.elim
  | pop lease now between =>
      obtain ⟨error, herror⟩ := h
      rcases pop_cases s.buffer s.edge lease now between with
        ⟨_, -, hclear⟩ | ⟨hnone, -⟩ | ⟨_, _, hsome, -⟩
      · exact hclear
      · rw [hnone] at herror
        cases herror
      · rw [hsome] at herror
        cases herror
  | purgeIfInvalid lease now => exact (purgeIfInvalid_eq s.buffer s.edge lease now).2 h
  | edge op => exact h.elim

/-- **Any other step** loses, doubles and moves nothing. -/
theorem conserves (h : ¬ Purges s op) :
    Conserves step (fun s => s.buffer.entries) pushes returns s op := by
  unfold Conserves
  cases op with
  | push lease entry built now =>
      show [] ++ (s.buffer.push s.edge.gate lease entry now).2.1.entries = _
      unfold pushes step
      rcases push_cases s.buffer s.edge.gate lease entry now with
        ⟨error, herror, hsame⟩ | ⟨hok, -, -, hnext⟩
      · simp [herror, hsame]
      · simp [hok, hnext]
  | pop lease now between =>
      show _ ++ (s.buffer.pop s.edge lease now between).2.1.entries = s.buffer.entries ++ []
      unfold returns step
      rcases pop_cases s.buffer s.edge lease now between with
        ⟨field, herror, -⟩ | ⟨hnone, hempty, hsame⟩ | ⟨front, entries, hsome, hfront, hnext⟩
      -- a pop that fails is a purge
      · exact absurd ⟨_, herror⟩ h
      · simp [hnone, hsame]
      · simp [hsome, hfront, hnext]
  | purgeIfInvalid lease now =>
      have hvalid : Valid s.edge lease now := not_not.1 h
      show [] ++ (s.buffer.purgeIfInvalid s.edge.gate lease now).2.1.entries = _ ++ []
      rw [(purgeIfInvalid_eq s.buffer s.edge lease now).1 hvalid, List.nil_append, List.append_nil]
  | edge op =>
      show [] ++ s.buffer.entries = s.buffer.entries ++ []
      rw [List.nil_append, List.append_nil]

/-! ## §6. Runs. -/

open AuthorizedDeliveryBuffer (bytes Accounted)

variable {maxObjects maxBytes : Nat}

theorem accounted_step (hbytes : ∀ envelope, O.payloadBytes envelope < 2 ^ 32)
    (h : Accounted maxObjects maxBytes s.buffer) (op : Op O) :
    Accounted maxObjects maxBytes (step s op).2.buffer := by
  cases op with
  | push lease entry built now =>
      show Accounted _ _ (s.buffer.push s.edge.gate lease entry now).2.1
      rcases push_cases s.buffer s.edge.gate lease entry now with
        ⟨_, -, hsame⟩ | ⟨-, hlength, hroom, hnext⟩
      · rw [hsame]
        exact h
      · rw [hnext]
        exact h.push hbytes built hlength hroom
  | pop lease now between =>
      show Accounted _ _ (s.buffer.pop s.edge lease now between).2.1
      rcases pop_cases s.buffer s.edge lease now between with
        ⟨_, -, hclear⟩ | ⟨-, -, hsame⟩ | ⟨front, entries, -, hfront, hnext⟩
      · rw [hclear]
        exact h.clear
      · rw [hsame]
        exact h
      · rw [hnext]
        exact h.pop hfront
  | purgeIfInvalid lease now =>
      show Accounted _ _ (s.buffer.purgeIfInvalid s.edge.gate lease now).2.1
      obtain ⟨hkept, hcleared⟩ := purgeIfInvalid_eq s.buffer s.edge lease now
      by_cases hvalid : Valid s.edge lease now
      · rw [hkept hvalid]
        exact h
      · rw [hcleared hvalid]
        exact h.clear
  | edge op => exact h

/-- Nothing has happened yet, or the last operation was a purge. -/
def AtPurge (s : Subscriber O) (ops : List (Op O)) : Prop :=
  ops = [] ∨ ∃ before op, ops = before ++ [op] ∧ Purges (exec step s before) op

theorem AtPurge.entries_eq {ops : List (Op O)} (h : AtPurge s ops)
    (hs : s.buffer.entries = []) : (exec step s ops).buffer.entries = [] := by
  rcases h with rfl | ⟨before, op, rfl, hpurges⟩
  · exact hs
  · rw [exec_append, exec_cons, exec_nil, hpurges.cleared]
    rfl

/-- **Deliveries are authorized.**  After every run of pushes, pops and purges with
any leases, with anything else happening at the edge:
- the byte account is the sum of the buffered payloads, within both bounds,
- a pop returns an object only if the lease is valid and the object passes every
  check under it, and for a sorted lease returns the front whenever that is so,
- between two purges the objects returned, followed by those still buffered, are
  those pushed, in that order,
- a purge leaves nothing. -/
theorem deliveries_authorized (hbytes : ∀ envelope, O.payloadBytes envelope < 2 ^ 32)
    {maxObjects maxBytes : Nat} {buffer : AuthorizedDeliveryBuffer O}
    (hnew : AuthorizedDeliveryBuffer.new O maxObjects maxBytes = .ok buffer)
    (edge : EdgeState C) (ops : List (Op O)) :
    ((exec step ⟨edge, buffer⟩ ops).buffer.bufferedBytes
          = bytes (exec step ⟨edge, buffer⟩ ops).buffer.entries ∧
        (exec step ⟨edge, buffer⟩ ops).buffer.bufferedBytes ≤ maxBytes ∧
        (exec step ⟨edge, buffer⟩ ops).buffer.entries.length ≤ maxObjects) ∧
      (∀ lease now between entry,
        (step (exec step ⟨edge, buffer⟩ ops) (.pop lease now between)).1
            = .popped (.ok (some entry)) →
          Valid (exec step ⟨edge, buffer⟩ ops).edge lease now ∧
          Valid (exec EdgeState.step (exec step ⟨edge, buffer⟩ ops).edge between) lease now ∧
          entry.Passes lease now) ∧
      (∀ lease now between entry, lease.sourceIds.Pairwise (· ≤ ·) →
        (exec step ⟨edge, buffer⟩ ops).buffer.entries.head? = some entry →
        Valid (exec step ⟨edge, buffer⟩ ops).edge lease now →
        Valid (exec EdgeState.step (exec step ⟨edge, buffer⟩ ops).edge between) lease now →
        entry.Passes lease now →
          (step (exec step ⟨edge, buffer⟩ ops) (.pop lease now between)).1
            = .popped (.ok (some entry))) ∧
      (∀ before between, ops = before ++ between → AtPurge ⟨edge, buffer⟩ before →
        (∀ e ∈ trace step (exec step ⟨edge, buffer⟩ before) between, ¬ Purges e.1 e.2) →
          delivered step returns (exec step ⟨edge, buffer⟩ before) between
              ++ (exec step ⟨edge, buffer⟩ ops).buffer.entries
            = accepted step pushes (exec step ⟨edge, buffer⟩ before) between) ∧
      (∀ op, Purges (exec step ⟨edge, buffer⟩ ops) op →
        (step (exec step ⟨edge, buffer⟩ ops) op).2.buffer.entries = [] ∧
          (step (exec step ⟨edge, buffer⟩ ops) op).2.buffer.bufferedBytes = 0) := by
  have haccounted : Accounted maxObjects maxBytes (exec step ⟨edge, buffer⟩ ops).buffer :=
    exec_invariant step (fun s => Accounted maxObjects maxBytes s.buffer)
      (fun _ op h => accounted_step hbytes h op) ops (Accounted.new hnew)
  refine ⟨⟨haccounted.bytes_eq, haccounted.bytes_le, haccounted.length_le⟩, ?_, ?_, ?_, ?_⟩
  · intro lease now between entry hpop
    obtain ⟨hhead, hfirst, hsecond, hchecks⟩ := pop_eq_some_iff.1 hpop
    have hbuilt := haccounted.built entry (List.mem_of_mem_head? hhead)
    exact ⟨hfirst, hsecond, CanonicalCatalogEntry.passes_of_checkLease hbuilt hchecks⟩
  · intro lease now between entry hsorted hhead hfirst hsecond hpasses
    have hbuilt := haccounted.built entry (List.mem_of_mem_head? hhead)
    exact pop_eq_some_iff.2 ⟨hhead, hfirst, hsecond, hpasses.checkLease hbuilt hsorted⟩
  · rintro before between rfl hpurge hkept
    have hstart : buffer.entries = [] := by
      unfold AuthorizedDeliveryBuffer.new at hnew
      split at hnew
      · cases hnew
      · cases hnew
        rfl
    -- the queue is empty at the purge, so what it delivers and holds is what it accepts
    have hempty := hpurge.entries_eq hstart
    have hlaw := delivered_append_queue between (exec step ⟨edge, buffer⟩ before)
      fun e he => conserves (hkept e he)
    rw [exec_append, hlaw, hempty, List.nil_append]
  · intro op hpurges
    rw [hpurges.cleared]
    exact ⟨rfl, rfl⟩

/-- A buffer of four objects and sixteen bytes. -/
def sampleBuffer : AuthorizedDeliveryBuffer PartitionedCatalog.sampleObjects := ⟨4, 16, 0, []⟩

/-- Two objects are pushed, one is popped, and the other is still there. -/
theorem deliveries_authorized_pop :
    (step (exec step ⟨⟨PartitionedCatalog.sampleGate, ∅⟩, sampleBuffer⟩
        [.push CurrentSubscribeRegistry.sampleLease (PartitionedCatalog.sampleEntry 1 2)
            ⟨((1, 2) : Nat × Nat), rfl⟩ 1000,
          .push CurrentSubscribeRegistry.sampleLease (PartitionedCatalog.sampleEntry 1 3)
            ⟨((1, 3) : Nat × Nat), rfl⟩ 1000])
        (.pop CurrentSubscribeRegistry.sampleLease 1000 [])).1
      = .popped (.ok (some (PartitionedCatalog.sampleEntry 1 2))) := by
  have hnew : AuthorizedDeliveryBuffer.new PartitionedCatalog.sampleObjects 4 16
      = .ok sampleBuffer := rfl
  refine (deliveries_authorized (fun _ => (by decide : 1 < 2 ^ 32)) hnew _ _).2.2.1 _ _ _ _
    (List.pairwise_singleton _ _) rfl rfl rfl ?_
  exact {
    scope := ⟨rfl, rfl, rfl, rfl, rfl⟩
    source := ⟨_, List.mem_singleton_self _, rfl⟩
    channels := by decide
    bitrate := by decide
    clock := by decide
    deadline := ⟨_, rfl, by decide⟩ }

end Subscriber

end AvMesh.Subscribe
