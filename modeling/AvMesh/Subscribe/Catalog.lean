/-
  AvMesh.Subscribe.Catalog
  ────────────────────────
  **THE RETAINED CATALOG OF AN EDGE** (`CanonicalCatalogEntry`,
  `PartitionedCatalog`).

  A publisher's `MediaObject` becomes a catalog entry once its configuration
  and envelope are parsed and found canonical.  The catalog stores the entries
  of every tenant and session under their object keys; `visible` lists, for one
  lease, those it authorizes.

  Main result: `visible_does_not_leak`.  A listing is decided by the entries
  the lease authorizes; two catalogs that agree on them answer alike, whatever
  else either of them stores.

  The object crate is a parameter (`ObjectCrates`): the objects and the frame
  contracts are opaque, with the accessors, parsers and canonical writers the
  source calls.  A call of `visible` reads the gate many times; the registry
  does not change during it.
-/
import AvMesh.Lib.SortedMap
import AvMesh.Subscribe.Leases
import Mathlib.Data.String.Basic

namespace AvMesh.Subscribe

open AvMesh.Lib

/-! ## §1. The object crate. -/

inductive CatalogLane where
  | program
  | talkback
  deriving Repr, DecidableEq

structure ClockTimestamp (Confidence : Type) where
  unixTimeNs : Int
  clockId : String
  confidence : Confidence

structure SessionMediaIdentityV1 (C : MediaCrates) where
  tenantId : C.TenantId
  sessionId : C.SessionId
  sessionEpoch : Nat
  topologyGeneration : Nat
  mediaClass : MediaClass
  sourceId : Option C.SourceId
  audienceId : Option C.AudienceId

/-- The objects of the media object crate and the frame contracts in their
metadata. -/
structure ObjectCrates (C : MediaCrates) where
  ObjectKey : Type
  /-- `Ord for ObjectKey`. -/
  keyOrder : LinearOrder ObjectKey
  keyTenant : ObjectKey → String
  keyTrack : ObjectKey → String
  keyEpoch : ObjectKey → Nat
  keyGroup : ObjectKey → Nat
  keyObject : ObjectKey → Nat
  keyVersion : ObjectKey → Nat
  ClockConfidence : Type
  decEqConfidence : DecidableEq ClockConfidence
  /-- `ClockConfidence::unknown`. -/
  unknownConfidence : ClockConfidence
  MediaObject : Type
  /-- `PartialEq for MediaObject`. -/
  beqObject : BEq MediaObject
  key : MediaObject → ObjectKey
  /-- `kind() == ObjectKind::Media`. -/
  isMedia : MediaObject → Bool
  verifyPayloadHash : MediaObject → Bool
  isKeyframe : MediaObject → Bool
  captureTimestamp : MediaObject → Option (ClockTimestamp ClockConfidence)
  stageTimestampsEmpty : MediaObject → Bool
  dependenciesEmpty : MediaObject → Bool
  metadata : MediaObject → Table String (List UInt8)
  configurationEpoch : MediaObject → Nat
  payload : MediaObject → List UInt8
  deadline : MediaObject → Option (ClockTimestamp ClockConfidence)
  /-- `MediaFrameConfigurationV1`. -/
  Configuration : Type
  configurationFromJson : List UInt8 → Option Configuration
  configurationToCanonicalJson : Configuration → Option (List UInt8)
  identity : Configuration → SessionMediaIdentityV1 C
  configurationId : Configuration → String
  channelCount : Configuration → Nat
  captureTimebaseHz : Configuration → Nat
  /-- `MediaFrameEnvelopeV1`. -/
  Envelope : Type
  envelopeFromJson : List UInt8 → Option Envelope
  envelopeToCanonicalJson : Envelope → Option (List UInt8)
  /-- `envelope.resolve(&configuration).is_ok()`. -/
  resolves : Envelope → Configuration → Bool
  bindingGeneration : Envelope → Nat
  configurationRef : Envelope → Nat
  sequence : Envelope → Nat
  envelopeEpoch : Envelope → Nat
  payloadBytes : Envelope → Nat
  durationTicks : Envelope → Nat
  /-- `TenantId::as_str`. -/
  tenantStr : C.TenantId → String

variable {C : MediaCrates} {O : ObjectCrates C}

instance : LinearOrder O.ObjectKey := O.keyOrder

instance : DecidableEq O.ClockConfidence := O.decEqConfidence

instance : BEq O.MediaObject := O.beqObject

/-- `binary_search(..).is_ok()`: after each comparison the half that can hold
the value is kept. -/
def binarySearchFrom {α : Type} [LinearOrder α] (xs : List α) (x : α) : Nat → Nat → Nat → Bool
  | 0, base, _ => decide (xs[base]? = some x)
  | fuel + 1, base, size =>
      if size ≤ 1 then decide (xs[base]? = some x)
      else
        let mid := base + size / 2
        match xs[mid]? with
        | none => false
        | some y => binarySearchFrom xs x fuel (if x < y then base else mid) (size - size / 2)

def binarySearch {α : Type} [LinearOrder α] (xs : List α) (x : α) : Bool :=
  binarySearchFrom xs x xs.length 0 xs.length

/-- `saturating_mul` of `u128`. -/
def satMul128 (a b : Nat) : Nat := min (a * b) (2 ^ 128 - 1)

def FitsI64 (z : Int) : Prop := -2 ^ 63 ≤ z ∧ z ≤ 2 ^ 63 - 1

instance (z : Int) : Decidable (FitsI64 z) := inferInstanceAs (Decidable (_ ∧ _))

/-- `checked_mul` of `i64`. -/
def checkedMulI64 (a b : Int) : Option Int := if FitsI64 (a * b) then some (a * b) else none

/-! ## §2. Catalog entries. -/

/-- `CONTRACT_METADATA` and its siblings. -/
def contractMetadata : String := "media-control-contract"

def operationMetadata : String := "media-operation-v1"

def configurationMetadata : String := "media-frame-configuration-v1"

def envelopeMetadata : String := "media-frame-envelope-v1"

/-- `b"v1"`. -/
def contractV1 : List UInt8 := [118, 49]

/-- `b"publish"`. -/
def publishOperation : List UInt8 := [112, 117, 98, 108, 105, 115, 104]

structure CanonicalCatalogEntry (O : ObjectCrates C) where
  object : O.MediaObject
  configuration : O.Configuration
  envelope : O.Envelope
  lane : CatalogLane

namespace CanonicalCatalogEntry

/-- The object carries nothing but its payload, its deadline and the four
metadata values. -/
def wellFormed (object : O.MediaObject) : Bool :=
  O.isMedia object && O.verifyPayloadHash object && !O.isKeyframe object
    && (O.captureTimestamp object).isNone && O.stageTimestampsEmpty object
    && O.dependenciesEmpty object && decide ((O.metadata object).size = 4)

/-- The key and the header of the object say what its configuration and
envelope say. -/
def canonicalIdentity (object : O.MediaObject) (configuration : O.Configuration)
    (envelope : O.Envelope) : Bool :=
  let identity := O.identity configuration
  let key := O.key object
  decide (O.keyTenant key = O.tenantStr identity.tenantId)
    && decide (O.keyTrack key = O.configurationId configuration)
    && decide (O.keyEpoch key = O.bindingGeneration envelope)
    && decide (O.keyGroup key = O.configurationRef envelope)
    && decide (O.keyObject key = O.sequence envelope)
    && decide (O.keyVersion key = 1)
    && decide (O.configurationEpoch object = O.envelopeEpoch envelope)
    && decide ((O.payload object).length = O.payloadBytes envelope)
    && (match O.deadline object with
        | none => false
        | some deadline =>
            decide (deadline.clockId = "media-capability:issuer")
              && decide (deadline.confidence = O.unknownConfidence))
    && decide (identity.mediaClass ≠ .takeChunk)

/-- The configuration and the envelope of the metadata, with the bytes they
were parsed from. -/
def parseControlMetadata (object : O.MediaObject) :
    EdgeResult ((List UInt8 × O.Configuration) × (List UInt8 × O.Envelope)) :=
  match (O.metadata object).lookup configurationMetadata,
      (O.metadata object).lookup envelopeMetadata with
  | none, _ => .error ⟨.malformedObject, "configuration"⟩
  | some _, none => .error ⟨.malformedObject, "frame_envelope"⟩
  | some configurationBytes, some envelopeBytes =>
      match O.configurationFromJson configurationBytes, O.envelopeFromJson envelopeBytes with
      | none, _ => .error ⟨.malformedObject, "configuration"⟩
      | some _, none => .error ⟨.malformedObject, "frame_envelope"⟩
      | some configuration, some envelope =>
          .ok ((configurationBytes, configuration), (envelopeBytes, envelope))

def fromMediaObject (object : O.MediaObject) : EdgeResult (CanonicalCatalogEntry O) :=
  if wellFormed object = false then .error ⟨.malformedObject, "media_object"⟩
  else if (O.metadata object).lookup contractMetadata ≠ some contractV1
      ∨ (O.metadata object).lookup operationMetadata ≠ some publishOperation then
    .error ⟨.malformedObject, "media_operation"⟩
  else match parseControlMetadata object with
    | .error error => .error error
    | .ok ((configurationBytes, configuration), (envelopeBytes, envelope)) =>
        if O.configurationToCanonicalJson configuration ≠ some configurationBytes
            ∨ O.envelopeToCanonicalJson envelope ≠ some envelopeBytes
            ∨ O.resolves envelope configuration = false then
          .error ⟨.nonCanonicalObject, "media_control_metadata"⟩
        else if canonicalIdentity object configuration envelope = false then
          .error ⟨.nonCanonicalObject, "canonical_identity"⟩
        else if (O.identity configuration).mediaClass = .talkback then
          .error ⟨.catalogLaneMismatch, "ephemeral_talkback_lane"⟩
        else .ok ⟨object, configuration, envelope, .program⟩

/-- Entries that a publisher's object can become. -/
def Built (entry : CanonicalCatalogEntry O) : Prop :=
  ∃ object, fromMediaObject object = .ok entry

def identity (entry : CanonicalCatalogEntry O) : SessionMediaIdentityV1 C :=
  O.identity entry.configuration

def objectKey (entry : CanonicalCatalogEntry O) : O.ObjectKey := O.key entry.object

section Authorize

variable [DecidableEq C.TenantId] [LinearOrder C.SourceId] [LinearOrder C.AudienceId]

/-- The entry belongs to the session, the generations and the class of the
lease. -/
def InScope (entry : CanonicalCatalogEntry O) (lease : SubscriptionLease C) : Prop :=
  entry.identity.tenantId = lease.binding.tenantId
    ∧ entry.identity.sessionId = lease.binding.sessionId
    ∧ entry.identity.sessionEpoch = lease.binding.sessionEpoch
    ∧ entry.identity.topologyGeneration = lease.binding.topologyGeneration
    ∧ entry.identity.mediaClass = lease.binding.mediaClass

instance (entry : CanonicalCatalogEntry O) (lease : SubscriptionLease C) :
    Decidable (entry.InScope lease) :=
  inferInstanceAs (Decidable (_ ∧ _))

/-- The `match self.lane` of `authorize`. -/
def checkSelector (entry : CanonicalCatalogEntry O) (lease : SubscriptionLease C) :
    EdgeResult Unit :=
  match entry.lane with
  | .program =>
      match entry.identity.sourceId with
      | none => .error ⟨.sourceNotAllowed, "source_id"⟩
      | some sourceId =>
          if binarySearch lease.sourceIds sourceId then .ok ()
          else .error ⟨.sourceNotAllowed, "source_id"⟩
  | .talkback =>
      match entry.identity.audienceId with
      | none => .error ⟨.audienceNotAllowed, "audience_id"⟩
      | some audienceId =>
          if binarySearch lease.audienceIds audienceId then .ok ()
          else .error ⟨.audienceNotAllowed, "audience_id"⟩

/-- The checks of `authorize` that follow the selector. -/
def checkLimits (entry : CanonicalCatalogEntry O) (lease : SubscriptionLease C)
    (nowUnixSeconds : Int) : EdgeResult Unit :=
  if lease.maxChannels < O.channelCount entry.configuration then
    .error ⟨.channelLimit, "channel_count"⟩
  else if satMul128 lease.maxBitrate (O.durationTicks entry.envelope)
      < satMul128 (satMul128 (O.payloadBytes entry.envelope) 8)
          (O.captureTimebaseHz entry.configuration) then
    .error ⟨.bitrateLimit, "max_bitrate"⟩
  else match checkedMulI64 nowUnixSeconds 1000000000 with
    | none => .error ⟨.invalidConfiguration, "now"⟩
    | some nowNs =>
        match O.deadline entry.object with
        | none => .error ⟨.objectExpired, "object_deadline"⟩
        | some deadline =>
            if deadline.unixTimeNs ≤ nowNs then .error ⟨.objectExpired, "object_deadline"⟩
            else .ok ()

/-- `authorize` once the lease is valid. -/
def checkLease (entry : CanonicalCatalogEntry O) (lease : SubscriptionLease C)
    (lane : CatalogLane) (nowUnixSeconds : Int) : EdgeResult Unit :=
  if entry.lane ≠ lane then .error ⟨.catalogLaneMismatch, "catalog_lane"⟩
  else if ¬ entry.InScope lease then .error ⟨.wrongScope, "media_identity"⟩
  else match entry.checkSelector lease with
    | .error error => .error error
    | .ok _ => entry.checkLimits lease nowUnixSeconds

def authorize (entry : CanonicalCatalogEntry O) (gate : EdgeSubscribeGate C)
    (lease : SubscriptionLease C) (lane : CatalogLane) (nowUnixSeconds : Int) :
    EdgeResult Unit × EdgeSubscribeGate C :=
  match gate.revalidate lease nowUnixSeconds with
  | (.error error, gate) => (.error error, gate)
  | (.ok _, gate) => (entry.checkLease lease lane nowUnixSeconds, gate)

/-- `authorize` succeeds. -/
def authorizes (gate : EdgeSubscribeGate C) (lease : SubscriptionLease C) (lane : CatalogLane)
    (nowUnixSeconds : Int) (entry : CanonicalCatalogEntry O) : Bool :=
  (entry.authorize gate lease lane nowUnixSeconds).1.isOk

end Authorize

end CanonicalCatalogEntry

/-! ## §3. The catalog. -/

/-- `MAX_CONFIGURED_CATALOG_OBJECTS`. -/
def maxConfiguredCatalogObjects : Nat := 1000000

structure PartitionedCatalog (O : ObjectCrates C) where
  maxObjects : Nat
  program : SortedMap O.ObjectKey (CanonicalCatalogEntry O)
  talkback : SortedMap O.ObjectKey (CanonicalCatalogEntry O)

namespace PartitionedCatalog

def new (O : ObjectCrates C) (maxObjects : Nat) : EdgeResult (PartitionedCatalog O) :=
  if maxObjects = 0 ∨ maxConfiguredCatalogObjects < maxObjects then
    .error ⟨.invalidConfiguration, "max_catalog_objects"⟩
  else .ok ⟨maxObjects, .empty, .empty⟩

/-- The map of a lane. -/
def partition (c : PartitionedCatalog O) :
    CatalogLane → SortedMap O.ObjectKey (CanonicalCatalogEntry O)
  | .program => c.program
  | .talkback => c.talkback

def setPartition (c : PartitionedCatalog O) (lane : CatalogLane)
    (map : SortedMap O.ObjectKey (CanonicalCatalogEntry O)) : PartitionedCatalog O :=
  match lane with
  | .program => { c with program := map }
  | .talkback => { c with talkback := map }

def insert (c : PartitionedCatalog O) (entry : CanonicalCatalogEntry O) :
    EdgeResult Bool × PartitionedCatalog O :=
  let total := satAdd c.program.size c.talkback.size
  match (c.partition entry.lane).lookup entry.objectKey with
  | some existing =>
      if existing.object == entry.object then (.ok false, c)
      else (.error ⟨.nonCanonicalObject, "object_identity"⟩, c)
  | none =>
      if c.maxObjects ≤ total then (.error ⟨.capacity, "catalog"⟩, c)
      else
        (.ok true,
          c.setPartition entry.lane ((c.partition entry.lane).insert entry.objectKey entry))

section Visible

variable [DecidableEq C.TenantId] [LinearOrder C.SourceId] [LinearOrder C.AudienceId]

/-- The errors of `authorize` that leave an entry out of the listing. -/
def leavesOut : EdgeSubscribeErrorCode → Bool
  | .wrongScope | .catalogLaneMismatch | .sourceNotAllowed | .audienceNotAllowed
  | .channelLimit | .bitrateLimit | .objectExpired => true
  | _ => false

/-- The loop of `visible`, with the entries listed so far. -/
def visibleFrom (gate : EdgeSubscribeGate C) (lease : SubscriptionLease C) (lane : CatalogLane)
    (nowUnixSeconds : Int) (maximum : Nat) :
    List (CanonicalCatalogEntry O) → List (CanonicalCatalogEntry O) →
      EdgeResult (List (CanonicalCatalogEntry O)) × EdgeSubscribeGate C
  | visible, [] => (.ok visible, gate)
  | visible, entry :: entries =>
      match entry.authorize gate lease lane nowUnixSeconds with
      | (.ok _, gate) =>
          if visible.length + 1 = maximum then (.ok (visible ++ [entry]), gate)
          else visibleFrom gate lease lane nowUnixSeconds maximum (visible ++ [entry]) entries
      | (.error error, gate) =>
          if leavesOut error.code then
            if visible.length = maximum then (.ok visible, gate)
            else visibleFrom gate lease lane nowUnixSeconds maximum visible entries
          else (.error error, gate)

def visible (c : PartitionedCatalog O) (gate : EdgeSubscribeGate C) (lease : SubscriptionLease C)
    (lane : CatalogLane) (nowUnixSeconds : Int) (maximum : Nat) :
    EdgeResult (List (CanonicalCatalogEntry O)) × EdgeSubscribeGate C :=
  if maximum = 0 ∨ c.maxObjects < maximum then
    (.error ⟨.invalidConfiguration, "catalog_limit"⟩, gate)
  else match gate.revalidate lease nowUnixSeconds with
    | (.error error, gate) => (.error error, gate)
    | (.ok _, gate) =>
        match visibleFrom gate lease lane nowUnixSeconds maximum [] (c.partition lane).values with
        | (.error error, gate) => (.error error, gate)
        | (.ok entries, gate) =>
            match gate.revalidate lease nowUnixSeconds with
            | (.error error, gate) => (.error error, gate)
            | (.ok _, gate) => (.ok entries, gate)

end Visible

end PartitionedCatalog

/-! ## §4. The checks of one entry. -/

/-- A valid lease leaves the gate as it was. -/
theorem EdgeSubscribeGate.revalidate_eq_ok {gate gate' : EdgeSubscribeGate C}
    {lease : SubscriptionLease C} {nowUnixSeconds : Int} {u : Unit}
    (h : gate.revalidate lease nowUnixSeconds = (.ok u, gate')) : gate' = gate := by
  unfold EdgeSubscribeGate.revalidate at h
  split at h
  · cases h
  · split at h
    · cases h
    · exact (Prod.mk.inj h).2.symm

/-- What the search finds is in the list, sorted or not. -/
theorem mem_of_binarySearchFrom {α : Type} [LinearOrder α] {xs : List α} {x : α} {fuel : Nat} :
    ∀ {base size : Nat}, binarySearchFrom xs x fuel base size = true → x ∈ xs := by
  induction fuel with
  | zero =>
      intro base size h
      exact List.mem_of_getElem? (of_decide_eq_true h)
  | succ fuel ih =>
      intro base size h
      unfold binarySearchFrom at h
      by_cases hsize : size ≤ 1
      · rw [if_pos hsize] at h
        exact List.mem_of_getElem? (of_decide_eq_true h)
      · rw [if_neg hsize] at h
        cases hmid : xs[base + size / 2]? with
        | none =>
            simp only [hmid] at h
            cases h
        | some y =>
            simp only [hmid] at h
            exact ih h

/-- In a sorted list the half that is kept holds the value. -/
theorem binarySearchFrom_of_getElem? {α : Type} [LinearOrder α] {xs : List α} {x : α}
    (hsorted : xs.Pairwise (· ≤ ·)) {fuel : Nat} :
    ∀ {base size i : Nat}, size ≤ fuel + 1 → base + size ≤ xs.length → base ≤ i → i < base + size →
      xs[i]? = some x → binarySearchFrom xs x fuel base size = true := by
  have hle : ∀ {i j : Nat} {a b : α}, i ≤ j → xs[i]? = some a → xs[j]? = some b → a ≤ b := by
    intro i j a b hij ha hb
    obtain ⟨hi, rfl⟩ := List.getElem?_eq_some_iff.1 ha
    obtain ⟨hj, rfl⟩ := List.getElem?_eq_some_iff.1 hb
    rcases Nat.lt_or_eq_of_le hij with hlt | rfl
    · exact List.pairwise_iff_getElem.1 hsorted i j hi hj hlt
    · exact le_refl _
  induction fuel with
  | zero =>
      intro base size i hsize _ hbase hi hx
      obtain rfl : i = base := by omega
      exact decide_eq_true hx
  | succ fuel ih =>
      intro base size i hsize hlength hbase hi hx
      unfold binarySearchFrom
      by_cases hone : size ≤ 1
      · obtain rfl : i = base := by omega
        rw [if_pos hone]
        exact decide_eq_true hx
      · rw [if_neg hone]
        have hmid : base + size / 2 < xs.length := by omega
        have hy : xs[base + size / 2]? = some xs[base + size / 2] := List.getElem?_eq_getElem hmid
        simp only [hy]
        by_cases hlt : x < xs[base + size / 2]
        · have hbelow : i < base + size / 2 := by
            by_contra hnot
            exact absurd (hle (Nat.le_of_not_lt hnot) hy hx) (not_le.2 hlt)
          rw [if_pos hlt]
          exact ih (by omega) (by omega) hbase (by omega) hx
        · rw [if_neg hlt]
          by_cases habove : base + size / 2 ≤ i
          · exact ih (by omega) (by omega) habove (by omega) hx
          · -- the value is also in the middle
            have heq : xs[base + size / 2] = x :=
              le_antisymm (not_lt.1 hlt) (hle (by omega) hx hy)
            rw [heq] at hy
            exact ih (by omega) (by omega) (Nat.le_refl _) (by omega) hy

/-- **The search of a sorted list finds what is in it.** -/
theorem binarySearch_eq_true_iff {α : Type} [LinearOrder α] {xs : List α} {x : α}
    (hsorted : xs.Pairwise (· ≤ ·)) : binarySearch xs x = true ↔ x ∈ xs := by
  constructor
  · exact mem_of_binarySearchFrom
  · intro hmem
    obtain ⟨i, hi⟩ := List.mem_iff_getElem?.1 hmem
    obtain ⟨hlt, -⟩ := List.getElem?_eq_some_iff.1 hi
    exact binarySearchFrom_of_getElem? hsorted (by omega) (by omega) (Nat.zero_le i) (by omega) hi

namespace CanonicalCatalogEntry

variable {object : O.MediaObject} {entry : CanonicalCatalogEntry O}

theorem fromMediaObject_lane (h : fromMediaObject object = .ok entry) : entry.lane = .program := by
  unfold fromMediaObject at h
  split at h
  · cases h
  · split at h
    · cases h
    · split at h
      · cases h
      · split at h
        · cases h
        · split at h
          · cases h
          · split at h
            · cases h
            · cases h
              rfl

theorem Built.lane_eq (h : Built entry) : entry.lane = .program := by
  obtain ⟨object, hobject⟩ := h
  exact fromMediaObject_lane hobject

section Authorize

variable [DecidableEq C.TenantId] [LinearOrder C.SourceId] [LinearOrder C.AudienceId]
variable {gate : EdgeSubscribeGate C} {lease : SubscriptionLease C} {lane : CatalogLane}
variable {now : Int} {error : EdgeSubscribeError}

theorem authorize_of_revalidate (h : gate.revalidate lease now = (.ok (), gate)) :
    entry.authorize gate lease lane now = (entry.checkLease lease lane now, gate) := by
  rw [authorize, h]

theorem authorizes_of_revalidate (h : gate.revalidate lease now = (.ok (), gate)) :
    entry.authorizes gate lease lane now = (entry.checkLease lease lane now).isOk := by
  rw [authorizes, authorize_of_revalidate h]

omit [DecidableEq C.TenantId] in
theorem checkSelector_error (h : entry.checkSelector lease = .error error) :
    PartitionedCatalog.leavesOut error.code = true := by
  unfold checkSelector at h
  split at h
  · split at h
    · cases h; rfl
    · split at h
      · cases h
      · cases h; rfl
  · split at h
    · cases h; rfl
    · split at h
      · cases h
      · cases h; rfl

omit [DecidableEq C.TenantId] [LinearOrder C.SourceId] [LinearOrder C.AudienceId] in
theorem checkLimits_error (hnow : FitsI64 (now * 1000000000))
    (h : entry.checkLimits lease now = .error error) :
    PartitionedCatalog.leavesOut error.code = true := by
  unfold checkLimits at h
  split at h
  · cases h; rfl
  · split at h
    · cases h; rfl
    · -- the only error that would end the listing is a time out of range
      rw [checkedMulI64, if_pos hnow] at h
      dsimp only at h
      split at h
      · cases h; rfl
      · split at h
        · cases h; rfl
        · cases h

/-- **While the lease is valid, every error of an entry leaves it out.** -/
theorem checkLease_error (hnow : FitsI64 (now * 1000000000))
    (h : entry.checkLease lease lane now = .error error) :
    PartitionedCatalog.leavesOut error.code = true := by
  unfold checkLease at h
  split at h
  · cases h; rfl
  · split at h
    · cases h; rfl
    · cases hselector : entry.checkSelector lease with
      | error e =>
          simp only [hselector] at h
          cases h
          exact checkSelector_error hselector
      | ok u =>
          simp only [hselector] at h
          exact checkLimits_error hnow h

/-- The sources whose objects a lease lets through. -/
def FromSourceOf (entry : CanonicalCatalogEntry O) (lease : SubscriptionLease C) : Prop :=
  ∃ sourceId ∈ lease.sourceIds, entry.identity.sourceId = some sourceId

omit [DecidableEq C.TenantId] in
theorem checkSelector_ok (hlane : entry.lane = .program) {u : Unit}
    (h : entry.checkSelector lease = .ok u) : entry.FromSourceOf lease := by
  unfold checkSelector at h
  rw [hlane] at h
  dsimp only at h
  cases hsource : entry.identity.sourceId with
  | none =>
      rw [hsource] at h
      cases h
  | some sourceId =>
      rw [hsource] at h
      dsimp only at h
      split at h
      · next hfound => exact ⟨sourceId, mem_of_binarySearchFrom hfound, hsource⟩
      · cases h

/-- **An entry that a lease authorizes is of its tenant, session and class, and
from one of its sources.** -/
theorem authorizes_confined (hbuilt : Built entry)
    (h : entry.authorizes gate lease lane now = true) :
    entry.InScope lease ∧ entry.FromSourceOf lease := by
  unfold authorizes authorize at h
  split at h
  · cases h
  · unfold checkLease at h
    dsimp only at h
    by_cases hlane : entry.lane ≠ lane
    · rw [if_pos hlane] at h
      cases h
    · by_cases hscope : entry.InScope lease
      · rw [if_neg hlane, if_neg (not_not.2 hscope)] at h
        refine ⟨hscope, ?_⟩
        cases hselector : entry.checkSelector lease with
        | error e =>
            simp only [hselector] at h
            cases h
        | ok u => exact checkSelector_ok hbuilt.lane_eq hselector
      · rw [if_neg hlane, if_pos hscope] at h
        cases h

end Authorize

end CanonicalCatalogEntry

/-! ## §5. Runs of insertions. -/

namespace PartitionedCatalog

variable {c : PartitionedCatalog O} {entry : CanonicalCatalogEntry O}
variable {entries : List (CanonicalCatalogEntry O)}

/-- An insertion that changes the catalog stores a new key within the bound. -/
theorem insert_cases (c : PartitionedCatalog O) (entry : CanonicalCatalogEntry O) :
    (c.insert entry).2 = c
      ∨ ((c.partition entry.lane).lookup entry.objectKey = none
        ∧ satAdd c.program.size c.talkback.size < c.maxObjects
        ∧ (c.insert entry).2 =
            c.setPartition entry.lane
              ((c.partition entry.lane).insert entry.objectKey entry)) := by
  cases hlookup : (c.partition entry.lane).lookup entry.objectKey with
  | some existing =>
      refine Or.inl ?_
      simp only [insert, hlookup]
      split
      · rfl
      · rfl
  | none =>
      by_cases hfull : c.maxObjects ≤ satAdd c.program.size c.talkback.size
      · refine Or.inl ?_
        simp only [insert, hlookup, if_pos hfull]
      · refine Or.inr ⟨rfl, Nat.lt_of_not_le hfull, ?_⟩
        simp only [insert, hlookup, if_neg hfull]

theorem partition_setPartition (lane lane' : CatalogLane)
    (map : SortedMap O.ObjectKey (CanonicalCatalogEntry O)) :
    (c.setPartition lane map).partition lane' = if lane' = lane then map else c.partition lane' := by
  cases lane <;> cases lane' <;> rfl

/-- **A stored object is never replaced.** -/
theorem lookup_insert {lane : CatalogLane} {key : O.ObjectKey} {stored : CanonicalCatalogEntry O}
    (h : (c.partition lane).lookup key = some stored) :
    ((c.insert entry).2.partition lane).lookup key = some stored := by
  rcases insert_cases c entry with hsame | ⟨hvacant, -, hinsert⟩
  · rw [hsame]
    exact h
  · rw [hinsert, partition_setPartition]
    split
    · next hlane =>
        subst hlane
        have hne : key ≠ entry.objectKey := by
          intro heq
          rw [heq, hvacant] at h
          cases h
        rw [SortedMap.lookup_insert_of_ne hne]
        exact h
    · exact h

theorem lookup_exec {lane : CatalogLane} {key : O.ObjectKey} {stored : CanonicalCatalogEntry O}
    (h : (c.partition lane).lookup key = some stored) :
    ((exec insert c entries).partition lane).lookup key = some stored :=
  exec_invariant insert (fun c => (c.partition lane).lookup key = some stored)
    (fun _ _ h => lookup_insert h) entries h

/-- What every catalog of built entries is like. -/
structure Consistent (maxObjects : Nat) (c : PartitionedCatalog O) : Prop where
  maxObjects_eq : c.maxObjects = maxObjects
  maxObjects_le : maxObjects ≤ u64Max
  bounded : c.program.size ≤ maxObjects
  talkback_empty : c.talkback = .empty
  keyed : ∀ stored ∈ c.program.entries, stored.1 = stored.2.objectKey
  built : ∀ stored ∈ c.program.entries, stored.2.Built

variable {maxObjects : Nat}

theorem Consistent.new (h : PartitionedCatalog.new O maxObjects = .ok c) :
    Consistent maxObjects c := by
  unfold PartitionedCatalog.new at h
  split at h
  · cases h
  · next hmax =>
      cases h
      have hle : maxObjects ≤ maxConfiguredCatalogObjects := by omega
      exact {
        maxObjects_eq := rfl
        maxObjects_le := le_trans hle (by decide)
        bounded := Nat.zero_le _
        talkback_empty := rfl
        keyed := fun stored hstored => absurd hstored List.not_mem_nil
        built := fun stored hstored => absurd hstored List.not_mem_nil }

theorem Consistent.insert (h : Consistent maxObjects c) (hentry : entry.Built) :
    Consistent maxObjects (c.insert entry).2 := by
  rcases insert_cases c entry with hsame | ⟨-, hroom, hinsert⟩
  · rw [hsame]
    exact h
  · rw [hinsert, hentry.lane_eq]
    have hsize : c.program.size < maxObjects := by
      have hle := h.maxObjects_le
      rw [h.maxObjects_eq, satAdd] at hroom
      omega
    have hmem : ∀ stored ∈ (c.program.insert entry.objectKey entry).entries,
        stored = (entry.objectKey, entry) ∨ stored ∈ c.program.entries := by
      intro stored hstored
      exact (SortedMap.mem_insert.1 hstored).imp_right And.left
    exact {
      maxObjects_eq := h.maxObjects_eq
      maxObjects_le := h.maxObjects_le
      bounded := le_trans SortedMap.size_insert_le hsize
      talkback_empty := h.talkback_empty
      keyed := by
        intro stored hstored
        rcases hmem stored hstored with rfl | hold
        · rfl
        · exact h.keyed stored hold
      built := by
        intro stored hstored
        rcases hmem stored hstored with rfl | hold
        · exact hentry
        · exact h.built stored hold }

/-- The catalogs that insertions of built entries lead to. -/
def Reachable (maxObjects : Nat) (c : PartitionedCatalog O) : Prop :=
  ∃ start entries, PartitionedCatalog.new O maxObjects = .ok start
    ∧ (∀ entry ∈ entries, entry.Built) ∧ exec PartitionedCatalog.insert start entries = c

theorem exec_consistent (hc : Consistent maxObjects c) (h : ∀ entry ∈ entries, entry.Built) :
    Consistent maxObjects (exec PartitionedCatalog.insert c entries) := by
  induction entries generalizing c with
  | nil => exact hc
  | cons entry entries ih =>
      rw [exec_cons]
      exact ih (hc.insert (h entry List.mem_cons_self))
        fun later hlater => h later (List.mem_cons_of_mem _ hlater)

theorem Reachable.consistent (h : Reachable maxObjects c) : Consistent maxObjects c := by
  obtain ⟨start, entries, hnew, hbuilt, rfl⟩ := h
  exact exec_consistent (.new hnew) hbuilt

/-- The entries a catalog holds. -/
def Stores (c : PartitionedCatalog O) (entry : CanonicalCatalogEntry O) : Prop :=
  ∃ lane, entry ∈ (c.partition lane).values

theorem Consistent.stores_iff (h : Consistent maxObjects c) :
    c.Stores entry ↔ entry ∈ c.program.values := by
  constructor
  · rintro ⟨lane, hmem⟩
    cases lane with
    | program => exact hmem
    | talkback =>
        change entry ∈ c.talkback.values at hmem
        rw [h.talkback_empty] at hmem
        exact absurd hmem List.not_mem_nil
  · intro hmem
    exact ⟨.program, hmem⟩

theorem Consistent.pairwise_values (h : Consistent maxObjects c) (lane : CatalogLane) :
    (c.partition lane).values.Pairwise fun left right => left.objectKey < right.objectKey := by
  cases lane with
  | program => exact SortedMap.pairwise_values h.keyed
  | talkback =>
      show c.talkback.values.Pairwise _
      rw [h.talkback_empty]
      exact List.Pairwise.nil

theorem Consistent.stores_built (h : Consistent maxObjects c) (hstores : c.Stores entry) :
    entry.Built := by
  obtain ⟨key, hmem⟩ := SortedMap.mem_values_iff.1 (h.stores_iff.1 hstores)
  exact h.built _ hmem

/-! ## §6. Listings. -/

section Visible

variable [DecidableEq C.TenantId] [LinearOrder C.SourceId] [LinearOrder C.AudienceId]
variable {gate : EdgeSubscribeGate C} {lease : SubscriptionLease C} {lane : CatalogLane}
variable {now : Int} {maximum : Nat}

open CanonicalCatalogEntry (authorizes)

/-- The loop lists the authorized entries until it has enough of them. -/
theorem visibleFrom_eq (hvalid : gate.revalidate lease now = (.ok (), gate))
    (hnow : FitsI64 (now * 1000000000)) {visible : List (CanonicalCatalogEntry O)}
    (hroom : visible.length < maximum) :
    visibleFrom gate lease lane now maximum visible entries =
      (.ok ((visible ++ entries.filter (authorizes gate lease lane now)).take maximum), gate) := by
  induction entries generalizing visible with
  | nil =>
      rw [List.filter_nil, List.append_nil, List.take_of_length_le (le_of_lt hroom)]
      rfl
  | cons entry entries ih =>
      have hauthorizes : entry.authorizes gate lease lane now = _ :=
        CanonicalCatalogEntry.authorizes_of_revalidate hvalid
      cases hcheck : entry.checkLease lease lane now with
      | ok u =>
          rw [hcheck] at hauthorizes
          rw [visibleFrom, CanonicalCatalogEntry.authorize_of_revalidate hvalid, hcheck,
            List.filter_cons_of_pos hauthorizes,
            List.append_cons visible entry (entries.filter _)]
          dsimp only
          by_cases hlast : visible.length + 1 = maximum
          · have hlength : (visible ++ [entry]).length = maximum := by
              rw [List.length_append, List.length_singleton, hlast]
            rw [if_pos hlast, List.take_left' hlength]
          · have hmore : (visible ++ [entry]).length < maximum := by
              rw [List.length_append, List.length_singleton]
              omega
            rw [if_neg hlast, ih hmore]
      | error error =>
          rw [hcheck] at hauthorizes
          have hno : ¬ authorizes gate lease lane now entry = true := by
            rw [hauthorizes]
            exact Bool.false_ne_true
          rw [visibleFrom, CanonicalCatalogEntry.authorize_of_revalidate hvalid, hcheck,
            List.filter_cons_of_neg hno]
          dsimp only
          rw [if_pos (CanonicalCatalogEntry.checkLease_error hnow hcheck),
            if_neg (Nat.ne_of_lt hroom), ih hroom]

/-- **A listing in closed form**: the first of the authorized entries, or the
error of the limit or of the lease. -/
theorem visible_eq (hnow : FitsI64 (now * 1000000000)) :
    c.visible gate lease lane now maximum =
      if maximum = 0 ∨ c.maxObjects < maximum then
        (.error ⟨.invalidConfiguration, "catalog_limit"⟩, gate)
      else match gate.revalidate lease now with
        | (.error error, gate) => (.error error, gate)
        | (.ok _, gate) =>
            (.ok (((c.partition lane).values.filter (authorizes gate lease lane now)).take maximum),
              gate) := by
  unfold visible
  by_cases hlimit : maximum = 0 ∨ c.maxObjects < maximum
  · rw [if_pos hlimit, if_pos hlimit]
  · rw [if_neg hlimit, if_neg hlimit]
    cases hvalid : gate.revalidate lease now with
    | mk result gate' =>
        cases result with
        | error error => rfl
        | ok u =>
            obtain rfl := EdgeSubscribeGate.revalidate_eq_ok hvalid
            have hroom : ([] : List (CanonicalCatalogEntry O)).length < maximum := by
              show 0 < maximum
              omega
            simp only [visibleFrom_eq hvalid hnow hroom, hvalid, List.nil_append]

/-- The entries of the program lane are all there is: the authorized entries of
any lane are those the catalog stores. -/
theorem Consistent.mem_authorized (h : Consistent maxObjects c) :
    entry ∈ (c.partition lane).values.filter (authorizes gate lease lane now) ↔
      c.Stores entry ∧ entry.authorizes gate lease lane now = true := by
  rw [List.mem_filter]
  constructor
  · intro hmem
    exact ⟨⟨lane, hmem.1⟩, hmem.2⟩
  · rintro ⟨hstores, hauthorizes⟩
    refine ⟨?_, hauthorizes⟩
    cases lane with
    | program => exact h.stores_iff.1 hstores
    | talkback =>
        -- a program entry is in no listing of the talkback lane
        exfalso
        have hlane := (h.stores_built hstores).lane_eq
        unfold CanonicalCatalogEntry.authorizes CanonicalCatalogEntry.authorize
          CanonicalCatalogEntry.checkLease at hauthorizes
        rw [if_pos (by rw [hlane]; exact fun heq => nomatch heq)] at hauthorizes
        split at hauthorizes
        · cases hauthorizes
        · cases hauthorizes

/-- **Catalog visibility does not leak.**  A catalog stays within its bound,
keeps what it stores and has no talkback; a listing is the first of the
authorized entries in the order of their keys, or an error of the limit or of
the lease; an authorized entry is of the lease's tenant, session, class and
sources; and two catalogs that agree on the authorized entries answer alike. -/
theorem visible_does_not_leak :
    (∀ (maxObjects : Nat) (c : PartitionedCatalog O), Reachable maxObjects c →
        c.program.size + c.talkback.size ≤ maxObjects ∧ c.talkback.size = 0)
      ∧ (∀ (c : PartitionedCatalog O) (entries : List (CanonicalCatalogEntry O))
          (lane : CatalogLane) (key : O.ObjectKey) (stored : CanonicalCatalogEntry O),
          (c.partition lane).lookup key = some stored →
            ((exec PartitionedCatalog.insert c entries).partition lane).lookup key = some stored)
      ∧ (∀ (maxObjects : Nat) (c : PartitionedCatalog O) (gate : EdgeSubscribeGate C)
          (lease : SubscriptionLease C) (lane : CatalogLane) (now : Int) (maximum : Nat),
          Reachable maxObjects c → FitsI64 (now * 1000000000) →
            ∃ authorized : List (CanonicalCatalogEntry O),
              (authorized.Pairwise fun left right => left.objectKey < right.objectKey)
                ∧ (∀ entry, entry ∈ authorized ↔
                    c.Stores entry ∧ entry.authorizes gate lease lane now = true)
                ∧ (∀ entry ∈ authorized, entry.InScope lease ∧ entry.FromSourceOf lease)
                ∧ c.visible gate lease lane now maximum =
                    if maximum = 0 ∨ maxObjects < maximum then
                      (.error ⟨.invalidConfiguration, "catalog_limit"⟩, gate)
                    else match gate.revalidate lease now with
                      | (.error error, gate) => (.error error, gate)
                      | (.ok _, gate) => (.ok (authorized.take maximum), gate))
      ∧ (∀ (maxObjects : Nat) (c c' : PartitionedCatalog O) (gate : EdgeSubscribeGate C)
          (lease : SubscriptionLease C) (lane : CatalogLane) (now : Int) (maximum : Nat),
          Reachable maxObjects c → Reachable maxObjects c' → FitsI64 (now * 1000000000) →
            (∀ entry : CanonicalCatalogEntry O, entry.authorizes gate lease lane now = true →
              (c.Stores entry ↔ c'.Stores entry)) →
            c.visible gate lease lane now maximum = c'.visible gate lease lane now maximum) := by
  refine ⟨?_, fun c entries lane key stored => lookup_exec, ?_, ?_⟩
  · intro maxObjects c hc
    have h := hc.consistent
    rw [h.talkback_empty]
    exact ⟨h.bounded, rfl⟩
  · intro maxObjects c gate lease lane now maximum hc hnow
    have h := hc.consistent
    refine ⟨(c.partition lane).values.filter (authorizes gate lease lane now),
      (h.pairwise_values lane).filter _, fun entry => h.mem_authorized, ?_, ?_⟩
    · intro entry hentry
      obtain ⟨hstores, hauthorizes⟩ := h.mem_authorized.1 hentry
      exact CanonicalCatalogEntry.authorizes_confined (h.stores_built hstores) hauthorizes
    · rw [visible_eq hnow, h.maxObjects_eq]
      cases hvalid : gate.revalidate lease now with
      | mk result gate' =>
          cases result with
          | error error => rfl
          | ok u =>
              obtain rfl := EdgeSubscribeGate.revalidate_eq_ok hvalid
              rfl
  · intro maxObjects c c' gate lease lane now maximum hc hc' hnow hagree
    have h := hc.consistent
    have h' := hc'.consistent
    have hlisted : (c.partition lane).values.filter (authorizes gate lease lane now)
        = (c'.partition lane).values.filter (authorizes gate lease lane now) := by
      refine SortedMap.eq_of_mem_iff_of_pairwise ((h.pairwise_values lane).filter _)
        ((h'.pairwise_values lane).filter _) fun entry => ?_
      rw [h.mem_authorized, h'.mem_authorized]
      exact and_congr_left (hagree entry)
    rw [visible_eq hnow, visible_eq hnow, h.maxObjects_eq, h'.maxObjects_eq]
    cases hvalid : gate.revalidate lease now with
    | mk result gate' =>
        cases result with
        | error error => rfl
        | ok u =>
            obtain rfl := EdgeSubscribeGate.revalidate_eq_ok hvalid
            simp only [hlisted]

end Visible

/-! ## §7. A concrete instance of the object crate. -/

instance : DecidableEq sampleMedia.TenantId := inferInstanceAs (DecidableEq String)

instance : LinearOrder sampleMedia.SourceId := inferInstanceAs (LinearOrder String)

instance : LinearOrder sampleMedia.AudienceId := inferInstanceAs (LinearOrder String)

/-- The JSON text of a digit. -/
def sampleJson (digit : Nat) : List UInt8 := [UInt8.ofNat (48 + digit)]

def sampleFromJson : List UInt8 → Option Nat
  | [byte] => if 48 ≤ byte.toNat ∧ byte.toNat ≤ 57 then some (byte.toNat - 48) else none
  | _ => none

/-- The configuration of session 1 or of another one, always of `source-1`. -/
def sampleIdentity (session : Nat) : SessionMediaIdentityV1 sampleMedia where
  tenantId := "tenant-1"
  sessionId := if session = 1 then "session-1" else "session-2"
  sessionEpoch := 1
  topologyGeneration := 1
  mediaClass := .source
  sourceId := some "source-1"
  audienceId := none

/-- An object is a session and a sequence number, which is also its key; its
configuration is the session, its envelope the sequence. -/
def sampleObjects : ObjectCrates sampleMedia where
  ObjectKey := Nat
  keyOrder := inferInstance
  keyTenant _ := "tenant-1"
  keyTrack _ := "configuration-1"
  keyEpoch _ := 1
  keyGroup _ := 1
  keyObject key := key
  keyVersion _ := 1
  ClockConfidence := Unit
  decEqConfidence := inferInstance
  unknownConfidence := ()
  MediaObject := Nat × Nat
  beqObject := inferInstance
  key object := object.2
  isMedia _ := true
  verifyPayloadHash _ := true
  isKeyframe _ := false
  captureTimestamp _ := none
  stageTimestampsEmpty _ := true
  dependenciesEmpty _ := true
  metadata object :=
    [(contractMetadata, contractV1), (operationMetadata, publishOperation),
      (configurationMetadata, sampleJson object.1), (envelopeMetadata, sampleJson object.2)].foldr
      (fun entry map => map.insert entry.1 entry.2) ∅
  configurationEpoch _ := 1
  payload _ := [90]
  deadline _ := some ⟨1080000000000, "media-capability:issuer", ()⟩
  Configuration := Nat
  configurationFromJson := sampleFromJson
  configurationToCanonicalJson session := some (sampleJson session)
  identity := sampleIdentity
  configurationId _ := "configuration-1"
  channelCount _ := 2
  captureTimebaseHz _ := 48000
  Envelope := Nat
  envelopeFromJson := sampleFromJson
  envelopeToCanonicalJson sequence := some (sampleJson sequence)
  resolves _ _ := true
  bindingGeneration _ := 1
  configurationRef _ := 1
  sequence envelope := envelope
  envelopeEpoch _ := 1
  payloadBytes _ := 1
  durationTicks _ := 480
  tenantStr tenant := tenant

/-- The entry of an object of the sample. -/
def sampleEntry (session sequence : Nat) : CanonicalCatalogEntry sampleObjects :=
  ⟨(session, sequence), session, sequence, .program⟩

/-- A gate whose registry has the binding of `sampleLease`. -/
def sampleGate : EdgeSubscribeGate sampleMedia := .new (sampleRegistry.install sampleBinding).2

theorem sampleEntry_own_built : (sampleEntry 1 2).Built := ⟨((1, 2) : Nat × Nat), rfl⟩

theorem sampleEntry_foreign_built : (sampleEntry 2 1).Built := ⟨((2, 1) : Nat × Nat), rfl⟩

/-- The catalog before anything is inserted. -/
def sampleCatalog : PartitionedCatalog sampleObjects := ⟨4, .empty, .empty⟩

/-- An entry of another session with the lower key does not show: with and
without it a listing of one entry is the lease's own. -/
theorem visible_does_not_leak_foreign :
    (exec PartitionedCatalog.insert sampleCatalog [sampleEntry 2 1, sampleEntry 1 2]).visible
        sampleGate CurrentSubscribeRegistry.sampleLease .program 1000 1
      = (exec PartitionedCatalog.insert sampleCatalog [sampleEntry 1 2]).visible
        sampleGate CurrentSubscribeRegistry.sampleLease .program 1000 1 := by
  have hboth : Reachable 4
      (exec PartitionedCatalog.insert sampleCatalog [sampleEntry 2 1, sampleEntry 1 2]) := by
    refine ⟨sampleCatalog, _, rfl, fun entry hentry => ?_, rfl⟩
    rcases List.mem_pair.1 hentry with rfl | rfl
    · exact sampleEntry_foreign_built
    · exact sampleEntry_own_built
  have hown : Reachable 4 (exec PartitionedCatalog.insert sampleCatalog [sampleEntry 1 2]) := by
    refine ⟨sampleCatalog, _, rfl, fun entry hentry => ?_, rfl⟩
    obtain rfl := List.mem_singleton.1 hentry
    exact sampleEntry_own_built
  refine visible_does_not_leak.2.2.2 4 _ _ sampleGate CurrentSubscribeRegistry.sampleLease
    .program 1000 1 hboth hown (by decide) fun entry hauthorizes => ?_
  rw [hboth.consistent.stores_iff, hown.consistent.stores_iff]
  show entry ∈ [sampleEntry 2 1, sampleEntry 1 2] ↔ entry ∈ [sampleEntry 1 2]
  rw [List.mem_pair, List.mem_singleton]
  constructor
  · rintro (rfl | rfl)
    · -- the foreign entry is out of the lease's scope
      cases hauthorizes
    · rfl
  · exact Or.inr

end PartitionedCatalog

end AvMesh.Subscribe
