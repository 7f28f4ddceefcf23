/-
  AvMesh.Talkback.Snapshot
  ────────────────────────
  **TALKBACK ROUTING AND REPLAY WINDOWS** (src/talkback_lane.rs).

  A routing snapshot says who may publish into an audience and who listens.
  It is built by `new` alone, which rejects bad identifiers, zero epochs and
  repeated endpoints; so every snapshot files its subscribers under their own
  endpoint, and the structure carries that.

  A `SequenceWindow` remembers the highest sequence of a publisher and which
  of the 127 before it were admitted.  `Refused` is the set of sequences it
  turns away: it only grows, and it takes in every sequence it admits.
-/
import AvMesh.Lib.Machine
import AvMesh.Lib.Table
import Mathlib.Data.List.Sort

namespace AvMesh.Talkback

open AvMesh.Lib

/-! ## §1. Errors and frames. -/

inductive TalkbackLaneErrorCode where
  | invalidConfiguration
  | routeUnavailable
  | authorizationEpoch
  | publisherNotAllowed
  | subscriberNotAllowed
  | frameReplay
  | frameExpired
  | playoutBeyondDelivery
  | staleAcknowledgement
  deriving Repr, DecidableEq

structure TalkbackLaneError where
  code : TalkbackLaneErrorCode
  field : String
  deriving Repr, DecidableEq

structure AudienceKey where
  sessionId : String
  audienceId : String
  deriving Repr, DecidableEq

structure PublisherKey where
  audience : AudienceKey
  participantId : String
  endpointId : String
  deriving Repr, DecidableEq

structure DeliveryKey where
  publisher : PublisherKey
  receiverParticipantId : String
  receiverEndpointId : String
  deriving Repr, DecidableEq

/-- `talkback_media::EphemeralTalkbackFrameV1`, by what the lane reads of it. -/
structure EphemeralTalkbackFrameV1 where
  sessionId : String
  sessionEpoch : Nat
  mediaAuthorizationEpoch : Nat
  subjectGrantEpoch : Nat
  talkbackEpoch : Nat
  policyVersion : Nat
  publisherParticipantId : String
  publisherEndpointId : String
  audienceId : String
  sequence : Nat
  acceptedAtUnixUs : Nat
  deadlineUnixUs : Nat
  payload : Bytes
  deriving Repr, DecidableEq

def EphemeralTalkbackFrameV1.audience (frame : EphemeralTalkbackFrameV1) : AudienceKey :=
  ⟨frame.sessionId, frame.audienceId⟩

def EphemeralTalkbackFrameV1.publisher (frame : EphemeralTalkbackFrameV1) : PublisherKey :=
  ⟨frame.audience, frame.publisherParticipantId, frame.publisherEndpointId⟩

/-! ## §2. Routing snapshots. -/

structure TalkbackPublisherV1 where
  participantId : String
  endpointId : String
  subjectGrantEpoch : Nat
  deriving Repr, DecidableEq

structure TalkbackSubscriberV1 where
  participantId : String
  endpointId : String
  deriving Repr, DecidableEq

structure TalkbackRoutingSnapshotV1Params where
  sessionId : String
  sessionEpoch : Nat
  mediaAuthorizationEpoch : Nat
  talkbackEpoch : Nat
  policyVersion : Nat
  audienceId : String
  publishers : List TalkbackPublisherV1
  subscribers : List TalkbackSubscriberV1
  deriving Repr, DecidableEq

structure TalkbackRoutingSnapshotV1 where
  sessionId : String
  sessionEpoch : Nat
  mediaAuthorizationEpoch : Nat
  talkbackEpoch : Nat
  policyVersion : Nat
  audienceId : String
  publishers : List TalkbackPublisherV1
  subscribers : Table String TalkbackSubscriberV1
  /-- A subscriber is filed under its own endpoint. -/
  endpoint_eq : ∀ endpoint subscriber, subscribers.lookup endpoint = some subscriber →
    subscriber.endpointId = endpoint
  deriving DecidableEq

/-- `u8::is_ascii_graphic`. -/
def isAsciiGraphic (c : Char) : Bool := 33 ≤ c.toNat && c.toNat ≤ 126

def validateIdentifier (field value : String) : Except TalkbackLaneError Unit :=
  if value.isEmpty || value.utf8ByteSize > 128 || !(value.toList.all fun c => c.toNat < 128)
      || value.toList.any fun c => !isAsciiGraphic c then
    .error ⟨.invalidConfiguration, field⟩
  else .ok ()

namespace TalkbackRoutingSnapshotV1

/-- The loop over the publishers of `new`. -/
def collectPublishers : List TalkbackPublisherV1 → List TalkbackPublisherV1 → List String →
    Except TalkbackLaneError (List TalkbackPublisherV1)
  | [], publishers, _ => .ok publishers
  | publisher :: rest, publishers, endpoints => do
      validateIdentifier "publisher_participant_id" publisher.participantId
      validateIdentifier "publisher_endpoint_id" publisher.endpointId
      if publisher.subjectGrantEpoch = 0 ∨ publisher.endpointId ∈ endpoints
          ∨ publisher ∈ publishers then
        .error ⟨.invalidConfiguration, "publisher"⟩
      else
        collectPublishers rest (publishers ++ [publisher]) (endpoints ++ [publisher.endpointId])

/-- The loop over the subscribers of `new`. -/
def collectSubscribers : List TalkbackSubscriberV1 → Table String TalkbackSubscriberV1 →
    Except TalkbackLaneError (Table String TalkbackSubscriberV1)
  | [], subscribers => .ok subscribers
  | subscriber :: rest, subscribers => do
      validateIdentifier "subscriber_participant_id" subscriber.participantId
      validateIdentifier "subscriber_endpoint_id" subscriber.endpointId
      if (subscribers.lookup subscriber.endpointId).isSome then
        .error ⟨.invalidConfiguration, "subscriber_endpoint_id"⟩
      else collectSubscribers rest (subscribers.insert subscriber.endpointId subscriber)

theorem collectSubscribers_endpoint {params : List TalkbackSubscriberV1}
    {before after : Table String TalkbackSubscriberV1}
    (h : collectSubscribers params before = .ok after)
    (hbefore : ∀ endpoint subscriber, before.lookup endpoint = some subscriber →
      subscriber.endpointId = endpoint) :
    ∀ endpoint subscriber, after.lookup endpoint = some subscriber →
      subscriber.endpointId = endpoint := by
  induction params generalizing before with
  | nil =>
      cases h
      exact hbefore
  | cons subscriber rest ih =>
      unfold collectSubscribers at h
      cases hparticipant : validateIdentifier "subscriber_participant_id" subscriber.participantId with
      | error e =>
          rw [hparticipant] at h
          cases h
      | ok _ =>
          cases hendpoint : validateIdentifier "subscriber_endpoint_id" subscriber.endpointId with
          | error e =>
              rw [hparticipant, hendpoint] at h
              cases h
          | ok _ =>
              rw [hparticipant, hendpoint] at h
              simp only [bind, Except.bind] at h
              split at h
              · cases h
              · refine ih h ?_
                intro endpoint found hfound
                rcases AList.lookup_of_insert hfound with ⟨rfl, rfl⟩ | ⟨-, hold⟩
                · rfl
                · exact hbefore endpoint found hold

def new (params : TalkbackRoutingSnapshotV1Params) :
    Except TalkbackLaneError TalkbackRoutingSnapshotV1 := do
  validateIdentifier "session_id" params.sessionId
  validateIdentifier "audience_id" params.audienceId
  if params.sessionEpoch = 0 ∨ params.mediaAuthorizationEpoch = 0 ∨ params.talkbackEpoch = 0
      ∨ params.policyVersion = 0 then
    .error ⟨.invalidConfiguration, "authorization_generation"⟩
  else if params.publishers.isEmpty ∨ params.publishers.length > 64
      ∨ params.subscribers.length > 256 then
    .error ⟨.invalidConfiguration, "membership"⟩
  else
    let publishers ← collectPublishers params.publishers [] []
    match h : collectSubscribers params.subscribers ∅ with
    | .error e => .error e
    | .ok subscribers => .ok {
        sessionId := params.sessionId
        sessionEpoch := params.sessionEpoch
        mediaAuthorizationEpoch := params.mediaAuthorizationEpoch
        talkbackEpoch := params.talkbackEpoch
        policyVersion := params.policyVersion
        audienceId := params.audienceId
        publishers
        subscribers
        endpoint_eq := collectSubscribers_endpoint h nofun }

def audienceKey (route : TalkbackRoutingSnapshotV1) : AudienceKey :=
  ⟨route.sessionId, route.audienceId⟩

def publisherAllowed (route : TalkbackRoutingSnapshotV1) (frame : EphemeralTalkbackFrameV1) :
    Bool :=
  route.publishers.contains
    ⟨frame.publisherParticipantId, frame.publisherEndpointId, frame.subjectGrantEpoch⟩

/-- `subscribers.values()`, in the order of the endpoints. -/
def subscriberValues (route : TalkbackRoutingSnapshotV1) : List TalkbackSubscriberV1 :=
  (route.subscribers.entries.map (·.2)).insertionSort fun a b => a.endpointId ≤ b.endpointId

theorem lookup_of_mem_subscriberValues {route : TalkbackRoutingSnapshotV1}
    {subscriber : TalkbackSubscriberV1} (h : subscriber ∈ route.subscriberValues) :
    route.subscribers.lookup subscriber.endpointId = some subscriber := by
  unfold subscriberValues at h
  rw [(List.perm_insertionSort _ _).mem_iff] at h
  obtain ⟨⟨endpoint, found⟩, hmem, rfl⟩ := List.mem_map.mp h
  have hlookup := AList.lookup_eq_some_iff.mpr hmem
  rw [route.endpoint_eq endpoint found hlookup]
  exact hlookup

theorem nodup_subscriberValues (route : TalkbackRoutingSnapshotV1) :
    (route.subscriberValues.map (·.endpointId)).Nodup := by
  have hkeys : (route.subscribers.entries.map (·.2)).map (·.endpointId) =
      route.subscribers.keys := by
    rw [List.map_map]
    refine List.map_congr_left ?_
    rintro ⟨endpoint, found⟩ hmem
    exact route.endpoint_eq endpoint found (AList.lookup_eq_some_iff.mpr hmem)
  unfold subscriberValues
  rw [((List.perm_insertionSort _ _).map _).nodup_iff, hkeys]
  exact route.subscribers.keys_nodup

end TalkbackRoutingSnapshotV1

/-! ## §3. Replay windows. -/

def sequenceWindowBits : Nat := 128

structure SequenceWindow where
  highest : Nat
  seen : BitVec 128
  deriving Repr, DecidableEq

namespace SequenceWindow

def first (sequence : Nat) : SequenceWindow := ⟨sequence, 1⟩

/-- `SequenceWindow::admit`: whether the sequence is admitted, and the window after it. -/
def tryAdmit (w : SequenceWindow) (sequence : Nat) : Bool × SequenceWindow :=
  if sequence > w.highest then
    let shift := sequence - w.highest
    let seen := if shift ≥ sequenceWindowBits then 1 else (w.seen <<< shift) ||| 1
    (true, ⟨sequence, seen⟩)
  else
    let distance := w.highest - sequence
    if distance ≥ sequenceWindowBits then (false, w)
    else
      let bit := (1 : BitVec 128) <<< distance
      if w.seen &&& bit ≠ 0 then (false, w)
      else (true, { w with seen := w.seen ||| bit })

/-- The sequences the window turns away: too old, or marked. -/
def Refused (w : SequenceWindow) (sequence : Nat) : Prop :=
  sequence ≤ w.highest ∧
    (sequenceWindowBits ≤ w.highest - sequence ∨ w.seen.getLsbD (w.highest - sequence) = true)

theorem refused_first (sequence : Nat) : (first sequence).Refused sequence := by
  refine ⟨Nat.le_refl _, .inr ?_⟩
  show (1 : BitVec 128).getLsbD (sequence - sequence) = true
  rw [Nat.sub_self]
  rfl

theorem getLsbD_bit {distance i : Nat} (h : distance < sequenceWindowBits) :
    ((1 : BitVec 128) <<< distance).getLsbD i = decide (i = distance) := by
  unfold sequenceWindowBits at h
  rw [BitVec.getLsbD_shiftLeft]
  by_cases hi : i = distance
  · simp [hi, h]
  · simp [hi]
    omega

theorem and_bit_ne_zero {seen : BitVec 128} {distance : Nat} (h : distance < sequenceWindowBits) :
    seen &&& ((1 : BitVec 128) <<< distance) ≠ 0 ↔ seen.getLsbD distance = true := by
  constructor
  · intro hne
    by_contra hclear
    rw [Bool.not_eq_true] at hclear
    refine hne (BitVec.eq_of_getLsbD_eq ?_)
    intro i _
    rw [BitVec.getLsbD_and, getLsbD_bit h]
    by_cases hi : i = distance
    · simp [hi, hclear]
    · simp [hi]
  · intro hset hzero
    have hbit := congrArg (fun x => BitVec.getLsbD x distance) hzero
    rw [BitVec.getLsbD_and, getLsbD_bit h, hset] at hbit
    simp at hbit

/-- **The window**: an admitted sequence was not refused and is from then on; what was refused
stays refused. -/
theorem tryAdmit_spec {w w' : SequenceWindow} {sequence : Nat}
    (h : w.tryAdmit sequence = (true, w')) :
    ¬ w.Refused sequence ∧ w'.Refused sequence ∧ ∀ n, w.Refused n → w'.Refused n := by
  unfold tryAdmit at h
  dsimp only at h
  split at h
  · next hnew =>
      cases h
      refine ⟨fun hrefused => ?_, ⟨Nat.le_refl _, .inr ?_⟩, ?_⟩
      · have hle := hrefused.1
        omega
      · dsimp only
        rw [Nat.sub_self]
        split
        · rfl
        · rw [BitVec.getLsbD_or]
          simp
      · rintro n ⟨hle, hold⟩
        refine ⟨by dsimp only; omega, ?_⟩
        dsimp only
        by_cases hfar : sequenceWindowBits ≤ sequence - n
        · exact .inl hfar
        · -- the mark of `n` moves with the window
          refine .inr ?_
          have hmark : w.seen.getLsbD (w.highest - n) = true := by
            rcases hold with hold | hold
            · omega
            · exact hold
          have hshift : sequence - n - (sequence - w.highest) = w.highest - n := by omega
          unfold sequenceWindowBits at hfar ⊢
          rw [if_neg (by omega), BitVec.getLsbD_or, BitVec.getLsbD_shiftLeft, hshift, hmark]
          have hbound : sequence - n < 128 := by omega
          have hpast : ¬ sequence - n < sequence - w.highest := by omega
          simp [hbound, hpast]
  · next hold =>
      split at h
      · cases h
      · next hnear =>
          split at h
          · cases h
          · next hclear =>
              cases h
              have hdistance : w.highest - sequence < sequenceWindowBits := by omega
              rw [and_bit_ne_zero hdistance] at hclear
              refine ⟨?_, ⟨by dsimp only; omega, .inr ?_⟩, ?_⟩
              · rintro ⟨-, hfar | hset⟩
                · omega
                · exact hclear hset
              · rw [BitVec.getLsbD_or, getLsbD_bit hdistance]
                simp
              · rintro n ⟨hle, hmark⟩
                refine ⟨hle, hmark.imp_right ?_⟩
                intro hset
                rw [BitVec.getLsbD_or, hset, Bool.true_or]

end SequenceWindow

end AvMesh.Talkback
