/-
  AvMesh.Talkback.Lane
  ────────────────────
  **THE TALKBACK LANE** (`TalkbackLane`, src/talkback_lane.rs).

  Four maps: routes by audience, replay windows by publisher, queues and
  playout marks by (publisher, receiver).  A frame is admitted against the
  route of its audience and copied into one queue per other participant;
  receivers pull the oldest frame across their queues and acknowledge what
  they played.  Installing or removing a route purges the other three maps
  for that audience.

  `isExpired` stands for `EphemeralTalkbackFrameV1::is_expired` of the media
  crate.  The maps are `BTreeMap`s; where their order shows (the fan-out, and
  ties between queues) it is written out.
-/
import AvMesh.Lib.Machine
import AvMesh.Talkback.Snapshot

namespace AvMesh.Talkback

open AvMesh.Lib

/-! ## §1. The state. -/

def talkbackAckFreshnessUs : Nat := 3000000

structure TalkbackLaneConfig where
  maxFramesPerPublisherReceiver : Nat := 20
  acknowledgementFreshnessUs : Nat := talkbackAckFreshnessUs
  deriving Repr, DecidableEq

structure PlayedHighWater where
  deliveredSequence : Nat
  acknowledgedSequence : Option Nat
  acknowledgedAtUnixUs : Option Nat
  deriving Repr, DecidableEq

/-- The counters of `TalkbackLaneHealthV1` that the lane keeps. -/
structure TalkbackLaneCounters where
  admittedFrames : Nat := 0
  queuedDeliveries : Nat := 0
  mixMinusExclusions : Nat := 0
  queueEvictions : Nat := 0
  expiredRejections : Nat := 0
  replayRejections : Nat := 0
  authorizationRejections : Nat := 0
  pulledFrames : Nat := 0
  acceptedPlayoutAcknowledgements : Nat := 0
  rejectedPlayoutAcknowledgements : Nat := 0
  purgedFrames : Nat := 0
  deriving Repr, DecidableEq

structure TalkbackFanoutV1 where
  queuedReceiverEndpoints : List String
  mixMinusExcludedEndpoints : List String
  deriving Repr, DecidableEq

structure TalkbackPlayoutAckV1 where
  sessionId : String
  receiverParticipantId : String
  receiverEndpointId : String
  publisherParticipantId : String
  publisherEndpointId : String
  audienceId : String
  sequence : Nat
  deriving Repr, DecidableEq

def TalkbackPlayoutAckV1.audience (ack : TalkbackPlayoutAckV1) : AudienceKey :=
  ⟨ack.sessionId, ack.audienceId⟩

/-- The pair of publisher and receiver an acknowledgement is for. -/
def TalkbackPlayoutAckV1.delivery (ack : TalkbackPlayoutAckV1) : DeliveryKey :=
  ⟨⟨ack.audience, ack.publisherParticipantId, ack.publisherEndpointId⟩,
    ack.receiverParticipantId, ack.receiverEndpointId⟩

structure TalkbackLane where
  config : TalkbackLaneConfig
  routes : Table AudienceKey TalkbackRoutingSnapshotV1 := ∅
  sequences : Table PublisherKey SequenceWindow := ∅
  queues : Table DeliveryKey (List EphemeralTalkbackFrameV1) := ∅
  played : Table DeliveryKey PlayedHighWater := ∅
  counters : TalkbackLaneCounters := {}
  deriving DecidableEq

namespace TalkbackLane

def new (config : TalkbackLaneConfig) : Except TalkbackLaneError TalkbackLane :=
  if config.maxFramesPerPublisherReceiver = 0 ∨ config.maxFramesPerPublisherReceiver > 256
      ∨ config.acknowledgementFreshnessUs = 0
      ∨ config.acknowledgementFreshnessUs > talkbackAckFreshnessUs then
    .error ⟨.invalidConfiguration, "lane_config"⟩
  else .ok { config }

/-! ## §2. Routes. -/

/-- `purge_audience`, with the number of frames dropped. -/
def purgeAudience (lane : TalkbackLane) (audience : AudienceKey) : Nat × TalkbackLane :=
  let queued := ((lane.queues.entries.filter fun e => e.1.publisher.audience == audience).map
    fun e => e.2.length).sum
  (queued, { lane with
    sequences := lane.sequences.retain fun publisher _ => publisher.audience != audience
    queues := lane.queues.retain fun delivery _ => delivery.publisher.audience != audience
    played := lane.played.retain fun delivery _ => delivery.publisher.audience != audience })

/-- The purge and its count, as every caller does it. -/
def purge (lane : TalkbackLane) (audience : AudienceKey) : TalkbackLane :=
  let (purged, lane) := lane.purgeAudience audience
  { lane with counters := { lane.counters with
    purgedFrames := satAdd lane.counters.purgedFrames purged } }

def installSnapshot (lane : TalkbackLane) (snapshot : TalkbackRoutingSnapshotV1) : TalkbackLane :=
  let lane := lane.purge snapshot.audienceKey
  { lane with routes := lane.routes.insert snapshot.audienceKey snapshot }

def removeAudience (lane : TalkbackLane) (sessionId audienceId : String) : Bool × TalkbackLane :=
  let key : AudienceKey := ⟨sessionId, audienceId⟩
  let removed := (lane.routes.lookup key).isSome
  (removed, { lane with routes := lane.routes.erase key }.purge key)

def endSession (lane : TalkbackLane) (sessionId : String) : TalkbackLane :=
  let keys := lane.routes.keys.filter fun key => key.sessionId == sessionId
  keys.foldl (fun lane key => { lane with routes := lane.routes.erase key }.purge key) lane

/-! ## §3. Publishing. -/

/-- The queues and the report while a frame is fanned out. -/
structure Fanout where
  queues : Table DeliveryKey (List EphemeralTalkbackFrameV1)
  queueEvictions : Nat
  queued : List String := []
  excluded : List String := []

variable (isExpired : EphemeralTalkbackFrameV1 → Nat → Bool)

/-- One subscriber of the loop of `publish_inner`. -/
def Fanout.offer (config : TalkbackLaneConfig) (frame : EphemeralTalkbackFrameV1)
    (nowUnixUs : Nat) (f : Fanout) (subscriber : TalkbackSubscriberV1) : Fanout :=
  if subscriber.participantId == frame.publisherParticipantId then
    { f with excluded := f.excluded ++ [subscriber.endpointId] }
  else
    let key : DeliveryKey := ⟨frame.publisher, subscriber.participantId, subscriber.endpointId⟩
    let queue := ((f.queues.lookup key).getD []).filter fun queued => !isExpired queued nowUnixUs
    let full := queue.length == config.maxFramesPerPublisherReceiver
    { f with
      queues := f.queues.insert key ((if full then queue.tail else queue) ++ [frame])
      queueEvictions := if full then satAdd f.queueEvictions 1 else f.queueEvictions
      queued := f.queued ++ [subscriber.endpointId] }

/-- The replay check of `publish_inner`; `none` is a replay. -/
def admitSequence (lane : TalkbackLane) (publisher : PublisherKey) (sequence : Nat) :
    Option SequenceWindow :=
  match lane.sequences.lookup publisher with
  | some window =>
      let (admitted, window) := window.tryAdmit sequence
      if admitted then some window else none
  | none => some (.first sequence)

/-- The frame is of the generation of the route. -/
def sameGeneration (route : TalkbackRoutingSnapshotV1) (frame : EphemeralTalkbackFrameV1) : Bool :=
  route.sessionEpoch == frame.sessionEpoch
    && route.mediaAuthorizationEpoch == frame.mediaAuthorizationEpoch
    && route.talkbackEpoch == frame.talkbackEpoch
    && route.policyVersion == frame.policyVersion

def publishInner (lane : TalkbackLane) (frame : EphemeralTalkbackFrameV1) (nowUnixUs : Nat) :
    Except TalkbackLaneError TalkbackFanoutV1 × TalkbackLane :=
  if isExpired frame nowUnixUs then (.error ⟨.frameExpired, "deadline"⟩, lane)
  else
    match lane.routes.lookup frame.audience with
    | none => (.error ⟨.routeUnavailable, "audience"⟩, lane)
    | some route =>
        if !sameGeneration route frame then
          (.error ⟨.authorizationEpoch, "authorization_generation"⟩, lane)
        else if !route.publisherAllowed frame then
          (.error ⟨.publisherNotAllowed, "publisher"⟩, lane)
        else
          match lane.admitSequence frame.publisher frame.sequence with
          | none => (.error ⟨.frameReplay, "sequence"⟩, lane)
          | some window =>
              let fanout := route.subscriberValues.foldl
                (Fanout.offer isExpired lane.config frame nowUnixUs)
                { queues := lane.queues, queueEvictions := lane.counters.queueEvictions }
              (.ok ⟨fanout.queued, fanout.excluded⟩, { lane with
                sequences := lane.sequences.insert frame.publisher window
                queues := fanout.queues
                counters := { lane.counters with queueEvictions := fanout.queueEvictions } })

/-- The counters of `publish`. -/
def countPublish (counters : TalkbackLaneCounters) :
    Except TalkbackLaneError TalkbackFanoutV1 → TalkbackLaneCounters
  | .ok fanout => { counters with
      admittedFrames := satAdd counters.admittedFrames 1
      queuedDeliveries := satAdd counters.queuedDeliveries fanout.queuedReceiverEndpoints.length
      mixMinusExclusions :=
        satAdd counters.mixMinusExclusions fanout.mixMinusExcludedEndpoints.length }
  | .error error =>
      match error.code with
      | .frameExpired => { counters with expiredRejections := satAdd counters.expiredRejections 1 }
      | .frameReplay => { counters with replayRejections := satAdd counters.replayRejections 1 }
      | .routeUnavailable | .authorizationEpoch | .publisherNotAllowed =>
          { counters with authorizationRejections := satAdd counters.authorizationRejections 1 }
      | _ => counters

def publish (lane : TalkbackLane) (frame : EphemeralTalkbackFrameV1) (nowUnixUs : Nat) :
    Except TalkbackLaneError TalkbackFanoutV1 × TalkbackLane :=
  let (result, lane) := lane.publishInner isExpired frame nowUnixUs
  (result, { lane with counters := countPublish lane.counters result })

/-! ## §4. Pulling. -/

/-- The order of the keys of a `BTreeMap<DeliveryKey, _>`. -/
def deliveryOrder (key : DeliveryKey) : List String :=
  [key.publisher.audience.sessionId, key.publisher.audience.audienceId,
    key.publisher.participantId, key.publisher.endpointId, key.receiverParticipantId,
    key.receiverEndpointId]

/-- `a` comes before `b` in `min_by_key` over the queues in the order of their keys. -/
def pullsBefore (a b : DeliveryKey × EphemeralTalkbackFrameV1) : Bool :=
  a.2.acceptedAtUnixUs < b.2.acceptedAtUnixUs
    || (a.2.acceptedAtUnixUs == b.2.acceptedAtUnixUs
      && (a.2.sequence < b.2.sequence
        || (a.2.sequence == b.2.sequence && decide (deliveryOrder a.1 < deliveryOrder b.1))))

/-- The first of the fronts. -/
def oldest : List (DeliveryKey × EphemeralTalkbackFrameV1) →
    Option (DeliveryKey × EphemeralTalkbackFrameV1)
  | [] => none
  | front :: fronts =>
      match oldest fronts with
      | none => some front
      | some best => if pullsBefore best front then some best else some front

/-- The queues of the receiver without their expired fronts. -/
def trimmed (lane : TalkbackLane) (receiverEndpointId : String) (nowUnixUs : Nat) :
    Table DeliveryKey (List EphemeralTalkbackFrameV1) :=
  lane.queues.mapValues fun key queue =>
    if key.receiverEndpointId == receiverEndpointId then
      queue.dropWhile fun frame => isExpired frame nowUnixUs
    else queue

/-- The fronts of the receiver's queues. -/
def fronts (queues : Table DeliveryKey (List EphemeralTalkbackFrameV1))
    (receiverEndpointId : String) : List (DeliveryKey × EphemeralTalkbackFrameV1) :=
  queues.entries.filterMap fun e =>
    if e.1.receiverEndpointId == receiverEndpointId then e.2.head?.map fun frame => (e.1, frame)
    else none

/-- The playout mark after a frame was delivered. -/
def markDelivered (played : Option PlayedHighWater) (sequence : Nat) : PlayedHighWater :=
  match played with
  | some played => { played with deliveredSequence := max played.deliveredSequence sequence }
  | none => ⟨sequence, none, none⟩

def pullNext (lane : TalkbackLane) (receiverEndpointId : String) (nowUnixUs : Nat) :
    Option EphemeralTalkbackFrameV1 × TalkbackLane :=
  let queues := lane.trimmed isExpired receiverEndpointId nowUnixUs
  match oldest (fronts queues receiverEndpointId) with
  | none => (none, { lane with queues })
  | some (key, frame) =>
      (some frame, { lane with
        queues := queues.replace key ((queues.lookup key).getD []).tail
        played := lane.played.insert key (markDelivered (lane.played.lookup key) frame.sequence)
        counters := { lane.counters with pulledFrames := satAdd lane.counters.pulledFrames 1 } })

/-! ## §5. Acknowledging. -/

def acknowledgementKey (lane : TalkbackLane) (ack : TalkbackPlayoutAckV1) :
    Except TalkbackLaneError DeliveryKey :=
  match lane.routes.lookup ack.audience with
  | none => .error ⟨.routeUnavailable, "audience"⟩
  | some route =>
      if (route.subscribers.lookup ack.receiverEndpointId).any fun subscriber =>
          subscriber.participantId == ack.receiverParticipantId then .ok ack.delivery
      else .error ⟨.subscriberNotAllowed, "receiver"⟩

def acknowledgePlayoutInner (lane : TalkbackLane) (ack : TalkbackPlayoutAckV1) (nowUnixUs : Nat) :
    Except TalkbackLaneError Unit × TalkbackLane :=
  match lane.acknowledgementKey ack with
  | .error error => (.error error, lane)
  | .ok key =>
      match lane.played.lookup key with
      | none => (.error ⟨.playoutBeyondDelivery, "played_sequence"⟩, lane)
      | some played =>
          if ack.sequence > played.deliveredSequence then
            (.error ⟨.playoutBeyondDelivery, "played_sequence"⟩, lane)
          else if played.acknowledgedSequence.any fun previous => ack.sequence ≤ previous then
            (.error ⟨.staleAcknowledgement, "played_sequence"⟩, lane)
          else
            let played := { played with
              acknowledgedSequence := some ack.sequence, acknowledgedAtUnixUs := some nowUnixUs }
            (.ok (), { lane with played := lane.played.replace key played })

def acknowledgePlayout (lane : TalkbackLane) (ack : TalkbackPlayoutAckV1) (nowUnixUs : Nat) :
    Except TalkbackLaneError Unit × TalkbackLane :=
  let (result, lane) := lane.acknowledgePlayoutInner ack nowUnixUs
  let c := lane.counters
  match result with
  | .ok _ => (result, { lane with counters := { c with
      acceptedPlayoutAcknowledgements := satAdd c.acceptedPlayoutAcknowledgements 1 } })
  | .error _ => (result, { lane with counters := { c with
      rejectedPlayoutAcknowledgements := satAdd c.rejectedPlayoutAcknowledgements 1 } })

def isReceiving (lane : TalkbackLane) (ack : TalkbackPlayoutAckV1) (nowUnixUs : Nat) : Bool :=
  match lane.acknowledgementKey ack with
  | .error _ => false
  | .ok key => (lane.played.lookup key).any fun played =>
      played.acknowledgedSequence == some ack.sequence
        && played.acknowledgedAtUnixUs.any fun at_ =>
          nowUnixUs - at_ < lane.config.acknowledgementFreshnessUs

/-! ## §6. What one operation does to the maps. -/

section Specs

variable {isExpired} {lane lane' : TalkbackLane}

/-- The audiences in `gone` are dropped from the three maps of live state. -/
structure Purged (gone : AudienceKey → Prop) (lane lane' : TalkbackLane) : Prop where
  sequences : ∀ key window, lane'.sequences.lookup key = some window ↔
    lane.sequences.lookup key = some window ∧ ¬ gone key.audience
  queues : ∀ key queue, lane'.queues.lookup key = some queue ↔
    lane.queues.lookup key = some queue ∧ ¬ gone key.publisher.audience
  played : ∀ key played, lane'.played.lookup key = some played ↔
    lane.played.lookup key = some played ∧ ¬ gone key.publisher.audience

theorem purge_purged (audience : AudienceKey) : Purged (· = audience) lane (lane.purge audience) where
  sequences := fun key window => by
    show (AList.retain _ _).lookup key = some window ↔ _
    rw [AList.lookup_retain_iff, bne_iff_ne]
  queues := fun key queue => by
    show (AList.retain _ _).lookup key = some queue ↔ _
    rw [AList.lookup_retain_iff, bne_iff_ne]
  played := fun key played => by
    show (AList.retain _ _).lookup key = some played ↔ _
    rw [AList.lookup_retain_iff, bne_iff_ne]

theorem lookup_erase_iff {key audience : AudienceKey} {route : TalkbackRoutingSnapshotV1}
    (routes : Table AudienceKey TalkbackRoutingSnapshotV1) :
    (routes.erase audience).lookup key = some route ↔
      routes.lookup key = some route ∧ key ≠ audience := by
  constructor
  · intro h
    obtain ⟨hne, hold⟩ := AList.lookup_of_erase h
    exact ⟨hold, hne⟩
  · rintro ⟨h, hne⟩
    rw [AList.lookup_erase_ne hne]
    exact h

/-- The loop of `end_session`, over any audiences. -/
theorem foldl_purge_spec (keys : List AudienceKey) (lane : TalkbackLane) :
    Purged (· ∈ keys) lane (keys.foldl (fun lane key =>
      { lane with routes := lane.routes.erase key }.purge key) lane) ∧
    ∀ key route, (keys.foldl (fun lane key =>
        { lane with routes := lane.routes.erase key }.purge key) lane).routes.lookup key = some route ↔
      lane.routes.lookup key = some route ∧ key ∉ keys := by
  induction keys generalizing lane with
  | nil => exact ⟨⟨by simp, by simp, by simp⟩, by simp⟩
  | cons first keys ih =>
      rw [List.foldl_cons]
      obtain ⟨hpurged, hroutes⟩ := ih ({ lane with routes := lane.routes.erase first }.purge first)
      have hfirst := @purge_purged { lane with routes := lane.routes.erase first } first
      refine ⟨⟨?_, ?_, ?_⟩, ?_⟩
      · intro key window
        rw [hpurged.sequences, hfirst.sequences, List.mem_cons, not_or, and_assoc]
      · intro key queue
        rw [hpurged.queues, hfirst.queues, List.mem_cons, not_or, and_assoc]
      · intro key played
        rw [hpurged.played, hfirst.played, List.mem_cons, not_or, and_assoc]
      · intro key route
        rw [hroutes]
        show (lane.routes.erase first).lookup key = some route ∧ _ ↔ _
        rw [lookup_erase_iff, List.mem_cons, not_or, and_assoc]

theorem installSnapshot_purged (snapshot : TalkbackRoutingSnapshotV1) :
    Purged (· = snapshot.audienceKey) lane (lane.installSnapshot snapshot) := by
  have hpurged := @purge_purged lane snapshot.audienceKey
  exact ⟨hpurged.sequences, hpurged.queues, hpurged.played⟩

theorem removeAudience_purged (sessionId audienceId : String) :
    Purged (· = ⟨sessionId, audienceId⟩) lane (lane.removeAudience sessionId audienceId).2 := by
  have hpurged := @purge_purged
    { lane with routes := lane.routes.erase ⟨sessionId, audienceId⟩ } ⟨sessionId, audienceId⟩
  exact ⟨hpurged.sequences, hpurged.queues, hpurged.played⟩

/-- The session's audiences are the routed ones that name it. -/
theorem endSession_purged (sessionId : String) :
    Purged (· ∈ lane.routes.keys.filter fun key => key.sessionId == sessionId) lane
      (lane.endSession sessionId) :=
  (foldl_purge_spec _ lane).1

theorem endSession_routes {sessionId : String} {audience : AudienceKey}
    (hother : audience ∉ lane.routes.keys.filter fun key => key.sessionId == sessionId) :
    (lane.endSession sessionId).routes.lookup audience = lane.routes.lookup audience := by
  ext route
  exact ((foldl_purge_spec _ lane).2 audience route).trans (and_iff_left hother)

/-- One subscriber: its own queue gains the frame, or nothing changes. -/
theorem offer_lookup {config : TalkbackLaneConfig} {frame : EphemeralTalkbackFrameV1}
    {nowUnixUs : Nat} {f : Fanout} {subscriber : TalkbackSubscriberV1} {key : DeliveryKey}
    {queue : List EphemeralTalkbackFrameV1}
    (h : (f.offer isExpired config frame nowUnixUs subscriber).queues.lookup key = some queue) :
    f.queues.lookup key = some queue ∨
    (key = ⟨frame.publisher, subscriber.participantId, subscriber.endpointId⟩ ∧
      subscriber.participantId ≠ frame.publisherParticipantId ∧
      ∃ kept, kept.Sublist ((f.queues.lookup key).getD []) ∧ queue = kept ++ [frame]) := by
  unfold Fanout.offer at h
  split at h
  · exact .inl h
  · next hother =>
      rcases AList.lookup_of_insert h with ⟨rfl, rfl⟩ | ⟨-, hold⟩
      · refine .inr ⟨rfl, by simpa using hother, _, ?_, rfl⟩
        split
        · exact (List.tail_sublist _).trans List.filter_sublist
        · exact List.filter_sublist
      · exact .inl hold

/-- The fan-out over subscribers of different endpoints: each queue gains the frame at most
once. -/
theorem foldl_offer_lookup {config : TalkbackLaneConfig} {frame : EphemeralTalkbackFrameV1}
    {nowUnixUs : Nat} {subscribers : List TalkbackSubscriberV1} {f : Fanout} {key : DeliveryKey}
    {queue : List EphemeralTalkbackFrameV1}
    (hnodup : (subscribers.map (·.endpointId)).Nodup)
    (h : (subscribers.foldl (Fanout.offer isExpired config frame nowUnixUs) f).queues.lookup key =
      some queue) :
    f.queues.lookup key = some queue ∨
    ∃ subscriber ∈ subscribers,
      key = ⟨frame.publisher, subscriber.participantId, subscriber.endpointId⟩ ∧
      subscriber.participantId ≠ frame.publisherParticipantId ∧
      ∃ kept, kept.Sublist ((f.queues.lookup key).getD []) ∧ queue = kept ++ [frame] := by
  induction subscribers generalizing f with
  | nil => exact .inl h
  | cons first rest ih =>
      rw [List.map_cons, List.nodup_cons] at hnodup
      rw [List.foldl_cons] at h
      rcases ih hnodup.2 h with hoffered | ⟨subscriber, hmem, hkey, hother, kept, hsub, hqueue⟩
      · rcases offer_lookup hoffered with hold | ⟨hkey, hother, hgain⟩
        · exact .inl hold
        · exact .inr ⟨first, List.mem_cons_self, hkey, hother, hgain⟩
      · refine .inr ⟨subscriber, List.mem_cons_of_mem _ hmem, hkey, hother, kept, ?_, hqueue⟩
        -- the first subscriber has another endpoint, so this queue is as it was
        cases hoffered : (f.offer isExpired config frame nowUnixUs first).queues.lookup key with
        | none =>
            rw [hoffered] at hsub
            exact hsub.trans (List.nil_sublist _)
        | some offered =>
            rw [hoffered] at hsub
            rcases offer_lookup hoffered with hold | ⟨hfirst, -⟩
            · rw [hold]
              exact hsub
            · rw [hkey] at hfirst
              injection hfirst with _ _ hendpoint
              exact absurd (List.mem_map.mpr ⟨subscriber, hmem, hendpoint⟩) hnodup.1

theorem oldest_mem {l : List (DeliveryKey × EphemeralTalkbackFrameV1)}
    {front : DeliveryKey × EphemeralTalkbackFrameV1} (h : oldest l = some front) : front ∈ l := by
  induction l generalizing front with
  | nil => cases h
  | cons first rest ih =>
      unfold oldest at h
      split at h
      · cases h
        exact List.mem_cons_self
      · next best hbest =>
          split at h
          · cases h
            exact List.mem_cons_of_mem _ (ih hbest)
          · cases h
            exact List.mem_cons_self

theorem trimmed_lookup {receiver : String} {nowUnixUs : Nat} {key : DeliveryKey}
    {queue : List EphemeralTalkbackFrameV1}
    (h : (lane.trimmed isExpired receiver nowUnixUs).lookup key = some queue) :
    ∃ before, lane.queues.lookup key = some before ∧ queue.Sublist before ∧
      (key.receiverEndpointId = receiver →
        queue = before.dropWhile fun frame => isExpired frame nowUnixUs) := by
  obtain ⟨before, hbefore, htrim⟩ := AList.lookup_mapValues_iff.mp h
  refine ⟨before, hbefore, ?_, ?_⟩
  · rw [← htrim]
    split
    · exact List.dropWhile_sublist _
    · exact List.Sublist.refl _
  · intro hreceiver
    rw [if_pos (by simpa using hreceiver)] at htrim
    exact htrim.symm

/-- A pulled frame: the first one of one of the receiver's queues that has not expired. -/
structure Pulled (isExpired : EphemeralTalkbackFrameV1 → Nat → Bool) (lane lane' : TalkbackLane)
    (receiver : String) (nowUnixUs : Nat) (frame : EphemeralTalkbackFrameV1) (key : DeliveryKey)
    (rest : List EphemeralTalkbackFrameV1) : Prop where
  receiver : key.receiverEndpointId = receiver
  queued : ∃ before, lane.queues.lookup key = some before ∧ (frame :: rest).Sublist before
  live : isExpired frame nowUnixUs = false
  routes : lane'.routes = lane.routes
  sequences : lane'.sequences = lane.sequences
  queues : ∀ other queue, lane'.queues.lookup other = some queue →
    ∃ before, lane.queues.lookup other = some before ∧ queue.Sublist before ∧
      (other = key → queue = rest)
  played : lane'.played =
    lane.played.insert key (markDelivered (lane.played.lookup key) frame.sequence)

theorem pullNext_pulled {receiver : String} {nowUnixUs : Nat} {frame : EphemeralTalkbackFrameV1}
    (h : (lane.pullNext isExpired receiver nowUnixUs).1 = some frame) :
    ∃ key rest, Pulled isExpired lane (lane.pullNext isExpired receiver nowUnixUs).2 receiver
      nowUnixUs frame key rest := by
  cases holdest : oldest (fronts (lane.trimmed isExpired receiver nowUnixUs) receiver) with
  | none =>
      simp only [pullNext, holdest] at h
      cases h
  | some front =>
      obtain ⟨key, found⟩ := front
      simp only [pullNext, holdest, Option.some.injEq] at h ⊢
      subst h
      obtain ⟨⟨key', queue⟩, hentry, hfront⟩ := List.mem_filterMap.mp (oldest_mem holdest)
      dsimp only at hfront
      split at hfront
      · next hreceiver =>
          obtain ⟨head, hhead, hpair⟩ := Option.map_eq_some_iff.mp hfront
          cases hpair
          obtain ⟨rest, rfl⟩ : ∃ rest, queue = found :: rest := by
            cases queue with
            | nil => cases hhead
            | cons head' rest =>
                cases hhead
                exact ⟨rest, rfl⟩
          have hlookup : (lane.trimmed isExpired receiver nowUnixUs).lookup key =
              some (found :: rest) := AList.lookup_eq_some_iff.mpr hentry
          have hendpoint : key.receiverEndpointId = receiver := by simpa using hreceiver
          obtain ⟨before, hbefore, hsub, hdrop⟩ := trimmed_lookup hlookup
          refine ⟨key, rest, hendpoint, ⟨before, hbefore, hsub⟩, ?_, rfl, rfl, ?_, rfl⟩
          · have hne : (before.dropWhile fun frame => isExpired frame nowUnixUs) ≠ [] := by
              rw [← hdrop hendpoint]
              nofun
            have hhead := List.head_dropWhile_not (fun frame => isExpired frame nowUnixUs) hne
            simpa [← hdrop hendpoint] using hhead
          · intro other after hafter
            rw [hlookup, Option.getD_some, List.tail_cons] at hafter
            rcases AList.lookup_of_replace hlookup hafter with ⟨rfl, rfl⟩ | ⟨hne, hold⟩
            · exact ⟨before, hbefore, (List.sublist_cons_self _ _).trans hsub, fun _ => rfl⟩
            · obtain ⟨before', hbefore', hsub', -⟩ := trimmed_lookup hold
              exact ⟨before', hbefore', hsub', fun h => absurd h hne⟩
      · cases hfront

/-- Without a frame to pull only expired frames go. -/
theorem pullNext_none {receiver : String} {nowUnixUs : Nat}
    (h : (lane.pullNext isExpired receiver nowUnixUs).1 = none) :
    (lane.pullNext isExpired receiver nowUnixUs).2 =
      { lane with queues := lane.trimmed isExpired receiver nowUnixUs } := by
  unfold pullNext at h ⊢
  dsimp only at h ⊢
  split at h
  · rfl
  · cases h

/-- Only the counters differ. -/
structure SameMaps (lane lane' : TalkbackLane) : Prop where
  routes : lane'.routes = lane.routes
  sequences : lane'.sequences = lane.sequences
  queues : lane'.queues = lane.queues
  played : lane'.played = lane.played

/-- An admitted frame: what its route, publisher and sequence were found to be. -/
structure Admitted (isExpired : EphemeralTalkbackFrameV1 → Nat → Bool) (lane lane' : TalkbackLane)
    (frame : EphemeralTalkbackFrameV1) (nowUnixUs : Nat) (route : TalkbackRoutingSnapshotV1)
    (window : SequenceWindow) : Prop where
  routed : lane.routes.lookup frame.audience = some route
  generation : sameGeneration route frame = true
  publisher : route.publisherAllowed frame = true
  fresh : lane.admitSequence frame.publisher frame.sequence = some window
  routes : lane'.routes = lane.routes
  sequences : lane'.sequences = lane.sequences.insert frame.publisher window
  queues : lane'.queues = (route.subscriberValues.foldl
    (Fanout.offer isExpired lane.config frame nowUnixUs)
    { queues := lane.queues, queueEvictions := lane.counters.queueEvictions }).queues
  played : lane'.played = lane.played

theorem publishInner_cases (frame : EphemeralTalkbackFrameV1) (nowUnixUs : Nat) :
    ((∃ error, (lane.publishInner isExpired frame nowUnixUs).1 = .error error) ∧
      SameMaps lane (lane.publishInner isExpired frame nowUnixUs).2) ∨
    (∃ fanout route window, (lane.publishInner isExpired frame nowUnixUs).1 = .ok fanout ∧
      Admitted isExpired lane (lane.publishInner isExpired frame nowUnixUs).2 frame nowUnixUs route
        window) := by
  unfold publishInner
  split
  · exact .inl ⟨⟨_, rfl⟩, rfl, rfl, rfl, rfl⟩
  · split
    · exact .inl ⟨⟨_, rfl⟩, rfl, rfl, rfl, rfl⟩
    · next route hroute =>
        split
        · exact .inl ⟨⟨_, rfl⟩, rfl, rfl, rfl, rfl⟩
        · next hgeneration =>
            split
            · exact .inl ⟨⟨_, rfl⟩, rfl, rfl, rfl, rfl⟩
            · next hallowed =>
                split
                · exact .inl ⟨⟨_, rfl⟩, rfl, rfl, rfl, rfl⟩
                · next window hwindow =>
                    exact .inr ⟨_, route, window, rfl, hroute, by simpa using hgeneration,
                      by simpa using hallowed, hwindow, rfl, rfl, rfl, rfl⟩

theorem publish_cases (frame : EphemeralTalkbackFrameV1) (nowUnixUs : Nat) :
    ((∃ error, (lane.publish isExpired frame nowUnixUs).1 = .error error) ∧
      SameMaps lane (lane.publish isExpired frame nowUnixUs).2) ∨
    (∃ fanout route window, (lane.publish isExpired frame nowUnixUs).1 = .ok fanout ∧
      Admitted isExpired lane (lane.publish isExpired frame nowUnixUs).2 frame nowUnixUs route
        window) := by
  rcases @publishInner_cases isExpired lane frame nowUnixUs with
    ⟨herror, hsame⟩ | ⟨fanout, route, window, hok, hadmitted⟩
  · exact .inl ⟨herror, hsame.routes, hsame.sequences, hsame.queues, hsame.played⟩
  · exact .inr ⟨fanout, route, window, hok, hadmitted.routed, hadmitted.generation,
      hadmitted.publisher, hadmitted.fresh, hadmitted.routes, hadmitted.sequences,
      hadmitted.queues, hadmitted.played⟩

/-- An admitted sequence was not refused by the publisher's window, and is refused from now on. -/
theorem admitSequence_spec {publisher : PublisherKey} {sequence : Nat} {window : SequenceWindow}
    (h : lane.admitSequence publisher sequence = some window) :
    window.Refused sequence ∧
    ∀ before, lane.sequences.lookup publisher = some before →
      ¬ before.Refused sequence ∧ ∀ n, before.Refused n → window.Refused n := by
  unfold admitSequence at h
  split at h
  · next before hbefore =>
      dsimp only at h
      split at h
      · next hadmitted =>
          cases h
          obtain ⟨hfresh, hnow, hkept⟩ := SequenceWindow.tryAdmit_spec (Prod.ext hadmitted rfl)
          refine ⟨hnow, ?_⟩
          intro before' hbefore'
          rw [hbefore] at hbefore'
          cases hbefore'
          exact ⟨hfresh, hkept⟩
      · cases h
  · next hnone =>
      cases h
      refine ⟨SequenceWindow.refused_first sequence, ?_⟩
      intro before hbefore
      rw [hnone] at hbefore
      cases hbefore

/-- An accepted acknowledgement: the mark it was checked against, and the mark it leaves. -/
structure Accepted (lane lane' : TalkbackLane) (ack : TalkbackPlayoutAckV1) (nowUnixUs : Nat)
    (mark : PlayedHighWater) : Prop where
  listed : lane.acknowledgementKey ack = .ok ack.delivery
  marked : lane.played.lookup ack.delivery = some mark
  delivered : ack.sequence ≤ mark.deliveredSequence
  fresh : ∀ previous, mark.acknowledgedSequence = some previous → previous < ack.sequence
  routes : lane'.routes = lane.routes
  sequences : lane'.sequences = lane.sequences
  queues : lane'.queues = lane.queues
  played : lane'.played = lane.played.replace ack.delivery { mark with
    acknowledgedSequence := some ack.sequence, acknowledgedAtUnixUs := some nowUnixUs }

theorem acknowledgementKey_eq_ok {ack : TalkbackPlayoutAckV1} {key : DeliveryKey}
    (h : lane.acknowledgementKey ack = .ok key) : key = ack.delivery := by
  unfold acknowledgementKey at h
  split at h
  · cases h
  · split at h
    · cases h
      rfl
    · cases h

theorem acknowledgePlayout_cases (ack : TalkbackPlayoutAckV1) (nowUnixUs : Nat) :
    ((∃ error, (lane.acknowledgePlayout ack nowUnixUs).1 = .error error) ∧
      SameMaps lane (lane.acknowledgePlayout ack nowUnixUs).2) ∨
    ((lane.acknowledgePlayout ack nowUnixUs).1 = .ok () ∧
      ∃ mark, Accepted lane (lane.acknowledgePlayout ack nowUnixUs).2 ack nowUnixUs mark) := by
  unfold acknowledgePlayout acknowledgePlayoutInner
  cases hkey : lane.acknowledgementKey ack with
  | error error => exact .inl ⟨⟨error, rfl⟩, rfl, rfl, rfl, rfl⟩
  | ok key =>
      cases acknowledgementKey_eq_ok hkey
      dsimp only
      cases hmark : lane.played.lookup ack.delivery with
      | none => exact .inl ⟨⟨_, rfl⟩, rfl, rfl, rfl, rfl⟩
      | some mark =>
          dsimp only
          by_cases hbeyond : ack.sequence > mark.deliveredSequence
          · rw [if_pos hbeyond]
            exact .inl ⟨⟨_, rfl⟩, rfl, rfl, rfl, rfl⟩
          · rw [if_neg hbeyond]
            by_cases hstale : (mark.acknowledgedSequence.any
                fun previous => ack.sequence ≤ previous) = true
            · rw [if_pos hstale]
              exact .inl ⟨⟨_, rfl⟩, rfl, rfl, rfl, rfl⟩
            · rw [if_neg hstale]
              refine .inr ⟨rfl, mark, hkey, hmark, by omega, ?_, rfl, rfl, rfl, rfl⟩
              intro previous hprevious
              rw [hprevious] at hstale
              simpa using hstale

/-- **Acceptance**: the receiver is listed, and the sequence is above the last accepted one and
not above the mark. -/
theorem acknowledgePlayout_ok_iff {ack : TalkbackPlayoutAckV1} {nowUnixUs : Nat} :
    (lane.acknowledgePlayout ack nowUnixUs).1 = .ok () ↔
      lane.acknowledgementKey ack = .ok ack.delivery ∧
      ∃ mark, lane.played.lookup ack.delivery = some mark ∧
        ack.sequence ≤ mark.deliveredSequence ∧
        ∀ previous, mark.acknowledgedSequence = some previous → previous < ack.sequence := by
  constructor
  · intro hok
    rcases @acknowledgePlayout_cases lane ack nowUnixUs with ⟨⟨error, herror⟩, -⟩ | ⟨-, mark, h⟩
    · rw [hok] at herror
      cases herror
    · exact ⟨h.listed, mark, h.marked, h.delivered, h.fresh⟩
  · rintro ⟨hkey, mark, hmark, hdelivered, hfresh⟩
    have hstale : ¬ (mark.acknowledgedSequence.any
        fun previous => ack.sequence ≤ previous) = true := by
      cases hprevious : mark.acknowledgedSequence with
      | none => nofun
      | some previous =>
          have := hfresh previous hprevious
          simpa using this
    unfold acknowledgePlayout acknowledgePlayoutInner
    rw [hkey]
    dsimp only
    rw [hmark]
    dsimp only
    rw [if_neg (by omega), if_neg hstale]

theorem config_acknowledgePlayout (ack : TalkbackPlayoutAckV1) (nowUnixUs : Nat) :
    (lane.acknowledgePlayout ack nowUnixUs).2.config = lane.config := by
  have hinner : (lane.acknowledgePlayoutInner ack nowUnixUs).2.config = lane.config := by
    unfold acknowledgePlayoutInner
    cases lane.acknowledgementKey ack with
    | error error => rfl
    | ok key =>
        dsimp only
        cases lane.played.lookup key with
        | none => rfl
        | some played =>
            dsimp only
            split
            · rfl
            · split <;> rfl
  unfold acknowledgePlayout
  rw [← hinner]
  cases lane.acknowledgePlayoutInner ack nowUnixUs with
  | mk result lane' => cases result <;> rfl

/-- **A receiver is receiving** from an acknowledgement that is accepted until its freshness has
passed. -/
theorem isReceiving_acknowledgePlayout {ack : TalkbackPlayoutAckV1} {ackUnixUs : Nat}
    (hok : (lane.acknowledgePlayout ack ackUnixUs).1 = .ok ()) (nowUnixUs : Nat) :
    (lane.acknowledgePlayout ack ackUnixUs).2.isReceiving ack nowUnixUs = true ↔
      nowUnixUs - ackUnixUs < lane.config.acknowledgementFreshnessUs := by
  rcases @acknowledgePlayout_cases lane ack ackUnixUs with ⟨⟨error, herror⟩, -⟩ | ⟨-, mark, h⟩
  · rw [hok] at herror
    cases herror
  · have hkey : (lane.acknowledgePlayout ack ackUnixUs).2.acknowledgementKey ack
        = .ok ack.delivery := by
      have hlisted := h.listed
      unfold acknowledgementKey at hlisted ⊢
      rw [h.routes]
      exact hlisted
    have hmark : (lane.acknowledgePlayout ack ackUnixUs).2.played.lookup ack.delivery
        = some { mark with
            acknowledgedSequence := some ack.sequence, acknowledgedAtUnixUs := some ackUnixUs } := by
      rw [h.played, AList.lookup_replace_self _ h.marked]
    unfold isReceiving
    rw [hkey]
    dsimp only
    rw [hmark, config_acknowledgePlayout]
    simp

end Specs

end TalkbackLane

end AvMesh.Talkback
