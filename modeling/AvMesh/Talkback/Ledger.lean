/-
  AvMesh.Talkback.Ledger
  ──────────────────────
  **TALKBACK CONFINEMENT.**

  A `Ledger` is the lane together with a record of what it did: the frames it
  admitted, the frames it returned and to whom, the acknowledgements it
  accepted — each since the current snapshot of its audience was installed,
  so the record of an audience is forgotten whenever the lane purges it.

  `Confined` is the invariant of the lane and its record.  Two facts carry
  "never returned twice": a sequence is admitted once per snapshot
  (`SequenceWindow.tryAdmit_spec`), and a snapshot files an endpoint once, so a
  publisher has one queue per receiving endpoint.
-/
import AvMesh.Lib.StepSystem
import AvMesh.Talkback.Lane

namespace AvMesh.Talkback

open AvMesh.Lib

/-! ## §1. Runs. -/

namespace TalkbackLane

inductive Op where
  | installSnapshot (snapshot : TalkbackRoutingSnapshotV1)
  | removeAudience (sessionId audienceId : String)
  | endSession (sessionId : String)
  | publish (frame : EphemeralTalkbackFrameV1) (nowUnixUs : Nat)
  | pullNext (receiverEndpointId : String) (nowUnixUs : Nat)
  | acknowledgePlayout (ack : TalkbackPlayoutAckV1) (nowUnixUs : Nat)

/-- The operation replaces, removes or ends the audience. -/
def Op.resets : Op → AudienceKey → Bool
  | .installSnapshot snapshot, audience => audience == snapshot.audienceKey
  | .removeAudience sessionId audienceId, audience => audience == ⟨sessionId, audienceId⟩
  | .endSession sessionId, audience => audience.sessionId == sessionId
  | _, _ => false

inductive Reply where
  | done
  | removed (present : Bool)
  | published (result : Except TalkbackLaneError TalkbackFanoutV1)
  | pulled (frame : Option EphemeralTalkbackFrameV1)
  | acknowledged (result : Except TalkbackLaneError Unit)

def step (isExpired : EphemeralTalkbackFrameV1 → Nat → Bool) (lane : TalkbackLane) :
    Op → Reply × TalkbackLane
  | .installSnapshot snapshot => (.done, lane.installSnapshot snapshot)
  | .removeAudience sessionId audienceId =>
      let (present, lane) := lane.removeAudience sessionId audienceId
      (.removed present, lane)
  | .endSession sessionId => (.done, lane.endSession sessionId)
  | .publish frame nowUnixUs =>
      let (result, lane) := lane.publish isExpired frame nowUnixUs
      (.published result, lane)
  | .pullNext receiverEndpointId nowUnixUs =>
      let (frame, lane) := lane.pullNext isExpired receiverEndpointId nowUnixUs
      (.pulled frame, lane)
  | .acknowledgePlayout ack nowUnixUs =>
      let (result, lane) := lane.acknowledgePlayout ack nowUnixUs
      (.acknowledged result, lane)

end TalkbackLane

open TalkbackLane (Op Reply)

/-- The lane, and what it did since the current snapshots were installed. -/
structure Ledger where
  lane : TalkbackLane
  admitted : List EphemeralTalkbackFrameV1 := []
  returned : List (String × EphemeralTalkbackFrameV1) := []
  acknowledged : List TalkbackPlayoutAckV1 := []

namespace Ledger

/-- The record without the audiences in `gone`. -/
def forget (L : Ledger) (gone : AudienceKey → Bool) : Ledger :=
  { L with
    admitted := L.admitted.filter fun frame => !gone frame.audience
    returned := L.returned.filter fun entry => !gone entry.2.audience
    acknowledged := L.acknowledged.filter fun ack => !gone ack.audience }

/-- The record of one operation. -/
def note (L : Ledger) : Op → Reply → Ledger
  | .publish frame _, .published (.ok _) => { L with admitted := L.admitted ++ [frame] }
  | .pullNext receiver _, .pulled (some frame) =>
      { L with returned := L.returned ++ [(receiver, frame)] }
  | .acknowledgePlayout ack _, .acknowledged (.ok _) =>
      { L with acknowledged := L.acknowledged ++ [ack] }
  | op, _ => L.forget op.resets

def step (isExpired : EphemeralTalkbackFrameV1 → Nat → Bool) (L : Ledger) (op : Op) :
    Reply × Ledger :=
  let (reply, lane) := L.lane.step isExpired op
  (reply, { L.note op reply with lane })

/-- The record does not disturb the lane. -/
theorem exec_lane (isExpired : EphemeralTalkbackFrameV1 → Nat → Bool) (L : Ledger)
    (ops : List Op) :
    (exec (step isExpired) L ops).lane = exec (TalkbackLane.step isExpired) L.lane ops := by
  induction ops generalizing L with
  | nil => rfl
  | cons op ops ih =>
      rw [exec_cons, exec_cons]
      exact ih _

@[simp] theorem forget_none (L : Ledger) : L.forget (fun _ => false) = L := by
  simp [forget]

theorem resets_publish (frame : EphemeralTalkbackFrameV1) (nowUnixUs : Nat) :
    (Op.publish frame nowUnixUs).resets = fun _ => false := rfl

theorem resets_pullNext (receiver : String) (nowUnixUs : Nat) :
    (Op.pullNext receiver nowUnixUs).resets = fun _ => false := rfl

theorem resets_acknowledgePlayout (ack : TalkbackPlayoutAckV1) (nowUnixUs : Nat) :
    (Op.acknowledgePlayout ack nowUnixUs).resets = fun _ => false := rfl

/-! ## §2. The invariant. -/

/-- The route of the publisher's audience lists the publisher. -/
def PublisherListed (lane : TalkbackLane) (key : PublisherKey) : Prop :=
  ∃ route, lane.routes.lookup key.audience = some route ∧
    ∃ publisher ∈ route.publishers,
      publisher.participantId = key.participantId ∧ publisher.endpointId = key.endpointId

/-- The route lists the publisher, and the receiver as a subscriber of another participant. -/
def DeliveryListed (lane : TalkbackLane) (key : DeliveryKey) : Prop :=
  ∃ route, lane.routes.lookup key.publisher.audience = some route ∧
    (∃ publisher ∈ route.publishers, publisher.participantId = key.publisher.participantId ∧
      publisher.endpointId = key.publisher.endpointId) ∧
    ∃ subscriber, route.subscribers.lookup key.receiverEndpointId = some subscriber ∧
      subscriber.participantId = key.receiverParticipantId ∧
      key.receiverParticipantId ≠ key.publisher.participantId

/-- The route lists the receiver. -/
def ReceiverListed (lane : TalkbackLane) (key : DeliveryKey) : Prop :=
  ∃ route subscriber, lane.routes.lookup key.publisher.audience = some route ∧
    route.subscribers.lookup key.receiverEndpointId = some subscriber ∧
    subscriber.participantId = key.receiverParticipantId

/-- The frame carries the epochs and the policy version of the route of its audience. -/
def CurrentGeneration (lane : TalkbackLane) (frame : EphemeralTalkbackFrameV1) : Prop :=
  ∃ route, lane.routes.lookup frame.audience = some route ∧
    frame.sessionEpoch = route.sessionEpoch ∧
    frame.mediaAuthorizationEpoch = route.mediaAuthorizationEpoch ∧
    frame.talkbackEpoch = route.talkbackEpoch ∧ frame.policyVersion = route.policyVersion

structure Confined (L : Ledger) : Prop where
  sequences : ∀ key window, L.lane.sequences.lookup key = some window → PublisherListed L.lane key
  queues : ∀ key queue, L.lane.queues.lookup key = some queue → DeliveryListed L.lane key
  played : ∀ key played, L.lane.played.lookup key = some played → DeliveryListed L.lane key
  frames : ∀ key queue, L.lane.queues.lookup key = some queue → ∀ frame ∈ queue,
    frame.publisher = key.publisher ∧ frame ∈ L.admitted ∧ CurrentGeneration L.lane frame
  distinct : ∀ key queue, L.lane.queues.lookup key = some queue →
    (queue.map (·.sequence)).Nodup
  admitted : ∀ frame ∈ L.admitted, ∃ window,
    L.lane.sequences.lookup frame.publisher = some window ∧ window.Refused frame.sequence
  returned : ∀ entry ∈ L.returned, entry.2 ∈ L.admitted
  once : ∀ key queue, L.lane.queues.lookup key = some queue → ∀ frame ∈ queue,
    ∀ entry ∈ L.returned, entry.1 = key.receiverEndpointId →
    entry.2.publisher = key.publisher → entry.2.sequence ≠ frame.sequence

theorem start_confined {config : TalkbackLaneConfig} {lane : TalkbackLane}
    (h : TalkbackLane.new config = .ok lane) : Confined { lane } := by
  unfold TalkbackLane.new at h
  split at h
  · cases h
  · cases h
    exact ⟨nofun, nofun, nofun, nofun, nofun, nofun, nofun, nofun⟩

section Preservation

variable {isExpired : EphemeralTalkbackFrameV1 → Nat → Bool} {L : Ledger} {lane' : TalkbackLane}

theorem PublisherListed.congr {lane : TalkbackLane} {key : PublisherKey}
    (hroute : lane'.routes.lookup key.audience = lane.routes.lookup key.audience)
    (h : PublisherListed lane key) : PublisherListed lane' key := by
  unfold PublisherListed
  rw [hroute]
  exact h

theorem DeliveryListed.congr {lane : TalkbackLane} {key : DeliveryKey}
    (hroute : lane'.routes.lookup key.publisher.audience =
      lane.routes.lookup key.publisher.audience)
    (h : DeliveryListed lane key) : DeliveryListed lane' key := by
  unfold DeliveryListed
  rw [hroute]
  exact h

theorem CurrentGeneration.congr {lane : TalkbackLane} {frame : EphemeralTalkbackFrameV1}
    (hroute : lane'.routes.lookup frame.audience = lane.routes.lookup frame.audience)
    (h : CurrentGeneration lane frame) : CurrentGeneration lane' frame := by
  unfold CurrentGeneration
  rw [hroute]
  exact h

theorem audience_of_publisher {frame : EphemeralTalkbackFrameV1} {key : PublisherKey}
    (h : frame.publisher = key) : frame.audience = key.audience :=
  congrArg PublisherKey.audience h

/-- Queues that only lose frames, and marks that only change under their keys. -/
theorem Confined.shrink (h : Confined L) (hroutes : lane'.routes = L.lane.routes)
    (hsequences : lane'.sequences = L.lane.sequences)
    (hqueues : ∀ key queue, lane'.queues.lookup key = some queue →
      ∃ before, L.lane.queues.lookup key = some before ∧ queue.Sublist before)
    (hplayed : ∀ key played, lane'.played.lookup key = some played →
      ∃ before, L.lane.played.lookup key = some before) :
    Confined { L with lane := lane' } := by
  constructor
  case sequences =>
    intro key window hlookup
    change lane'.sequences.lookup key = some window at hlookup
    rw [hsequences] at hlookup
    exact (h.sequences key window hlookup).congr (by rw [hroutes])
  case queues =>
    intro key queue hlookup
    obtain ⟨before, hbefore, -⟩ := hqueues key queue hlookup
    exact (h.queues key before hbefore).congr (by rw [hroutes])
  case played =>
    intro key played hlookup
    obtain ⟨before, hbefore⟩ := hplayed key played hlookup
    exact (h.played key before hbefore).congr (by rw [hroutes])
  case frames =>
    intro key queue hlookup frame hmem
    obtain ⟨before, hbefore, hsub⟩ := hqueues key queue hlookup
    obtain ⟨hpublisher, hadmitted, hgeneration⟩ :=
      h.frames key before hbefore frame (hsub.subset hmem)
    exact ⟨hpublisher, hadmitted, hgeneration.congr (by rw [hroutes])⟩
  case distinct =>
    intro key queue hlookup
    obtain ⟨before, hbefore, hsub⟩ := hqueues key queue hlookup
    exact (h.distinct key before hbefore).sublist (hsub.map _)
  case admitted =>
    intro frame hmem
    show ∃ window, lane'.sequences.lookup frame.publisher = some window ∧ _
    rw [hsequences]
    exact h.admitted frame hmem
  case returned => exact h.returned
  case once =>
    intro key queue hlookup frame hmem entry hentry
    obtain ⟨before, hbefore, hsub⟩ := hqueues key queue hlookup
    exact h.once key before hbefore frame (hsub.subset hmem) entry hentry

/-- Audiences purged from the lane and forgotten by the record. -/
theorem Confined.purge (h : Confined L) {gone : AudienceKey → Prop} {forgotten : AudienceKey → Bool}
    (hpurged : TalkbackLane.Purged gone L.lane lane')
    (hroutes : ∀ audience, ¬ gone audience →
      lane'.routes.lookup audience = L.lane.routes.lookup audience)
    (hgone : ∀ audience, gone audience → forgotten audience = true)
    (hforgotten : ∀ audience route, L.lane.routes.lookup audience = some route →
      forgotten audience = true → gone audience) :
    Confined { L.forget forgotten with lane := lane' } := by
  have hkeep : ∀ frame : EphemeralTalkbackFrameV1, ¬ gone frame.audience →
      CurrentGeneration L.lane frame → forgotten frame.audience = false := by
    rintro frame hlive ⟨route, hroute, -⟩
    rw [Bool.eq_false_iff]
    exact fun hforget => hlive (hforgotten _ route hroute hforget)
  constructor
  case sequences =>
    intro key window hlookup
    obtain ⟨hold, hlive⟩ := (hpurged.sequences key window).mp hlookup
    exact (h.sequences key window hold).congr (hroutes _ hlive)
  case queues =>
    intro key queue hlookup
    obtain ⟨hold, hlive⟩ := (hpurged.queues key queue).mp hlookup
    exact (h.queues key queue hold).congr (hroutes _ hlive)
  case played =>
    intro key played hlookup
    obtain ⟨hold, hlive⟩ := (hpurged.played key played).mp hlookup
    exact (h.played key played hold).congr (hroutes _ hlive)
  case frames =>
    intro key queue hlookup frame hmem
    obtain ⟨hold, hlive⟩ := (hpurged.queues key queue).mp hlookup
    obtain ⟨hpublisher, hadmitted, hgeneration⟩ := h.frames key queue hold frame hmem
    rw [← audience_of_publisher hpublisher] at hlive
    refine ⟨hpublisher, List.mem_filter.mpr ⟨hadmitted, ?_⟩, hgeneration.congr (hroutes _ hlive)⟩
    rw [hkeep frame hlive hgeneration]
    rfl
  case distinct =>
    intro key queue hlookup
    exact h.distinct key queue ((hpurged.queues key queue).mp hlookup).1
  case admitted =>
    intro frame hmem
    obtain ⟨hmem, hremembered⟩ := List.mem_filter.mp hmem
    obtain ⟨window, hwindow, hrefused⟩ := h.admitted frame hmem
    refine ⟨window, (hpurged.sequences frame.publisher window).mpr ⟨hwindow, ?_⟩, hrefused⟩
    intro hdropped
    rw [hgone frame.audience hdropped] at hremembered
    cases hremembered
  case returned =>
    intro entry hentry
    obtain ⟨hentry, hremembered⟩ := List.mem_filter.mp hentry
    exact List.mem_filter.mpr ⟨h.returned entry hentry, hremembered⟩
  case once =>
    intro key queue hlookup frame hmem entry hentry
    exact h.once key queue ((hpurged.queues key queue).mp hlookup).1 frame hmem entry
      (List.mem_filter.mp hentry).1

/-- A frame that is admitted has a sequence no admitted frame of its publisher had. -/
theorem Confined.fresh_sequence (h : Confined L) {frame other : EphemeralTalkbackFrameV1}
    {window : SequenceWindow}
    (hwindow : L.lane.admitSequence frame.publisher frame.sequence = some window)
    (hother : other ∈ L.admitted) (hpublisher : other.publisher = frame.publisher) :
    other.sequence ≠ frame.sequence := by
  obtain ⟨before, hbefore, hrefused⟩ := h.admitted other hother
  rw [hpublisher] at hbefore
  intro hsame
  rw [hsame] at hrefused
  exact ((TalkbackLane.admitSequence_spec hwindow).2 before hbefore).1 hrefused

/-- The queues after an admission: as before, or one of the route's receivers gains the frame. -/
theorem queue_of_admitted {frame : EphemeralTalkbackFrameV1} {nowUnixUs : Nat}
    {route : TalkbackRoutingSnapshotV1} {window : SequenceWindow} {key : DeliveryKey}
    {queue : List EphemeralTalkbackFrameV1}
    (ha : TalkbackLane.Admitted isExpired L.lane lane' frame nowUnixUs route window)
    (hlookup : lane'.queues.lookup key = some queue) :
    L.lane.queues.lookup key = some queue ∨
    (key.publisher = frame.publisher ∧ DeliveryListed lane' key ∧
      ∃ kept, kept.Sublist ((L.lane.queues.lookup key).getD []) ∧ queue = kept ++ [frame]) := by
  rw [ha.queues] at hlookup
  rcases TalkbackLane.foldl_offer_lookup route.nodup_subscriberValues hlookup with
    hold | ⟨subscriber, hmem, rfl, hother, kept, hsub, rfl⟩
  · exact .inl hold
  · refine .inr ⟨rfl, ⟨route, ?_, ?_, subscriber, ?_, rfl, hother⟩, kept, hsub, rfl⟩
    · rw [ha.routes]
      exact ha.routed
    · exact ⟨_, List.contains_iff_mem.mp ha.publisher, rfl, rfl⟩
    · exact TalkbackRoutingSnapshotV1.lookup_of_mem_subscriberValues hmem

theorem currentGeneration_of_admitted {frame : EphemeralTalkbackFrameV1} {nowUnixUs : Nat}
    {route : TalkbackRoutingSnapshotV1} {window : SequenceWindow}
    (ha : TalkbackLane.Admitted isExpired L.lane lane' frame nowUnixUs route window) :
    CurrentGeneration lane' frame := by
  have hgeneration := ha.generation
  simp only [TalkbackLane.sameGeneration, Bool.and_eq_true, beq_iff_eq] at hgeneration
  obtain ⟨⟨⟨hsession, hmedia⟩, htalkback⟩, hpolicy⟩ := hgeneration
  refine ⟨route, ?_, hsession.symm, hmedia.symm, htalkback.symm, hpolicy.symm⟩
  rw [ha.routes]
  exact ha.routed

/-- The frames a queue keeps were in it. -/
theorem exists_before_of_mem_kept {key : DeliveryKey} {kept : List EphemeralTalkbackFrameV1}
    {frame : EphemeralTalkbackFrameV1}
    (hsub : kept.Sublist ((L.lane.queues.lookup key).getD [])) (hmem : frame ∈ kept) :
    ∃ before, L.lane.queues.lookup key = some before ∧ frame ∈ before := by
  have hin := hsub.subset hmem
  cases hbefore : L.lane.queues.lookup key with
  | none =>
      rw [hbefore] at hin
      cases hin
  | some before =>
      rw [hbefore] at hin
      exact ⟨before, rfl, hin⟩

theorem Confined.nodup_kept (h : Confined L) {key : DeliveryKey}
    {kept : List EphemeralTalkbackFrameV1}
    (hsub : kept.Sublist ((L.lane.queues.lookup key).getD [])) :
    (kept.map (·.sequence)).Nodup := by
  cases hbefore : L.lane.queues.lookup key with
  | none =>
      rw [hbefore, Option.getD_none, List.sublist_nil] at hsub
      rw [hsub]
      exact List.nodup_nil
  | some before =>
      rw [hbefore] at hsub
      exact (h.distinct key before hbefore).sublist (hsub.map _)

theorem Confined.publish (h : Confined L) {frame : EphemeralTalkbackFrameV1} {nowUnixUs : Nat}
    {route : TalkbackRoutingSnapshotV1} {window : SequenceWindow}
    (ha : TalkbackLane.Admitted isExpired L.lane lane' frame nowUnixUs route window) :
    Confined { L with lane := lane', admitted := L.admitted ++ [frame] } := by
  have hroutes : ∀ audience, lane'.routes.lookup audience = L.lane.routes.lookup audience :=
    fun _ => by rw [ha.routes]
  obtain ⟨hrefused, hkept⟩ := TalkbackLane.admitSequence_spec ha.fresh
  constructor
  case sequences =>
    intro key found hlookup
    change lane'.sequences.lookup key = some found at hlookup
    rw [ha.sequences] at hlookup
    rcases AList.lookup_of_insert hlookup with ⟨rfl, -⟩ | ⟨-, hold⟩
    · refine ⟨route, (hroutes _).trans ha.routed, _, List.contains_iff_mem.mp ha.publisher, rfl, rfl⟩
    · exact (h.sequences key found hold).congr (hroutes _)
  case queues =>
    intro key queue hlookup
    rcases queue_of_admitted ha hlookup with hold | ⟨-, hlisted, -⟩
    · exact (h.queues key queue hold).congr (hroutes _)
    · exact hlisted
  case played =>
    intro key played hlookup
    change lane'.played.lookup key = some played at hlookup
    rw [ha.played] at hlookup
    exact (h.played key played hlookup).congr (hroutes _)
  case frames =>
    intro key queue hlookup other hmem
    -- a frame that was queued before, or the new one
    have hold : ∀ before, L.lane.queues.lookup key = some before → other ∈ before →
        other.publisher = key.publisher ∧ other ∈ L.admitted ++ [frame] ∧
          CurrentGeneration lane' other := by
      intro before hbefore hmem
      obtain ⟨hpublisher, hadmitted, hgeneration⟩ := h.frames key before hbefore other hmem
      exact ⟨hpublisher, List.mem_append_left _ hadmitted, hgeneration.congr (hroutes _)⟩
    rcases queue_of_admitted ha hlookup with hbefore | ⟨hpublisher, -, kept, hsub, rfl⟩
    · exact hold queue hbefore hmem
    · rcases List.mem_append.mp hmem with hmem | hmem
      · obtain ⟨before, hbefore, hin⟩ := exists_before_of_mem_kept hsub hmem
        exact hold before hbefore hin
      · rw [List.mem_singleton.mp hmem]
        exact ⟨hpublisher.symm, by simp, currentGeneration_of_admitted ha⟩
  case distinct =>
    intro key queue hlookup
    rcases queue_of_admitted ha hlookup with hold | ⟨hpublisher, -, kept, hsub, rfl⟩
    · exact h.distinct key queue hold
    · rw [List.map_append, List.nodup_append]
      refine ⟨h.nodup_kept hsub, List.nodup_singleton _, ?_⟩
      intro n hn m hm
      obtain ⟨other, hother, rfl⟩ := List.mem_map.mp hn
      rw [List.mem_singleton.mp hm]
      obtain ⟨before, hbefore, hin⟩ := exists_before_of_mem_kept hsub hother
      obtain ⟨hsame, hadmitted, -⟩ := h.frames key before hbefore other hin
      exact h.fresh_sequence ha.fresh hadmitted (hsame.trans hpublisher)
  case admitted =>
    intro other hmem
    show ∃ found, lane'.sequences.lookup other.publisher = some found ∧ _
    rw [ha.sequences]
    rcases List.mem_append.mp hmem with hmem | hmem
    · obtain ⟨before, hbefore, hold⟩ := h.admitted other hmem
      by_cases hpublisher : other.publisher = frame.publisher
      · rw [hpublisher] at hbefore ⊢
        exact ⟨window, AList.lookup_insert _, (hkept before hbefore).2 _ hold⟩
      · rw [AList.lookup_insert_ne hpublisher]
        exact ⟨before, hbefore, hold⟩
    · rw [List.mem_singleton.mp hmem]
      exact ⟨window, AList.lookup_insert _, hrefused⟩
  case returned =>
    intro entry hentry
    exact List.mem_append_left _ (h.returned entry hentry)
  case once =>
    intro key queue hlookup other hmem entry hentry hreceiver hpublisher
    have hold : ∀ before, L.lane.queues.lookup key = some before → other ∈ before →
        entry.2.sequence ≠ other.sequence := fun before hbefore hin =>
      h.once key before hbefore other hin entry hentry hreceiver hpublisher
    rcases queue_of_admitted ha hlookup with hbefore | ⟨hsame, -, kept, hsub, rfl⟩
    · exact hold queue hbefore hmem
    · rcases List.mem_append.mp hmem with hmem | hmem
      · obtain ⟨before, hbefore, hin⟩ := exists_before_of_mem_kept hsub hmem
        exact hold before hbefore hin
      · rw [List.mem_singleton.mp hmem]
        exact h.fresh_sequence ha.fresh (h.returned entry hentry) (hpublisher.trans hsame)

theorem DeliveryListed.receiverListed {lane : TalkbackLane} {key : DeliveryKey}
    (h : DeliveryListed lane key) : ReceiverListed lane key := by
  obtain ⟨route, hroute, -, subscriber, hsubscriber, hparticipant, -⟩ := h
  exact ⟨route, subscriber, hroute, hsubscriber, hparticipant⟩

/-- A route lists one participant at an endpoint, so the publisher and the endpoint are the key. -/
theorem ReceiverListed.unique {lane : TalkbackLane} {key key' : DeliveryKey}
    (hkey : ReceiverListed lane key) (hkey' : ReceiverListed lane key')
    (hpublisher : key.publisher = key'.publisher)
    (hreceiver : key.receiverEndpointId = key'.receiverEndpointId) : key = key' := by
  obtain ⟨route, subscriber, hroute, hsubscriber, hparticipant⟩ := hkey
  obtain ⟨route', subscriber', hroute', hsubscriber', hparticipant'⟩ := hkey'
  rw [hpublisher, hroute'] at hroute
  cases hroute
  rw [hreceiver, hsubscriber'] at hsubscriber
  cases hsubscriber
  obtain ⟨publisher, participant, endpoint⟩ := key
  obtain ⟨publisher', participant', endpoint'⟩ := key'
  dsimp only at hpublisher hreceiver hparticipant hparticipant'
  rw [hpublisher, hreceiver, ← hparticipant, ← hparticipant']

theorem Confined.pull (h : Confined L) {receiver : String} {nowUnixUs : Nat}
    {frame : EphemeralTalkbackFrameV1} {key : DeliveryKey} {rest : List EphemeralTalkbackFrameV1}
    (hp : TalkbackLane.Pulled isExpired L.lane lane' receiver nowUnixUs frame key rest) :
    Confined { L with lane := lane', returned := L.returned ++ [(receiver, frame)] } := by
  obtain ⟨before, hbefore, hsub⟩ := hp.queued
  obtain ⟨hpublisher, hadmitted, -⟩ :=
    h.frames key before hbefore frame (hsub.subset List.mem_cons_self)
  -- everything but the record of what was returned is a lane with smaller queues
  have hshrunk : Confined { L with lane := { lane' with played := L.lane.played } } := by
    refine h.shrink hp.routes hp.sequences ?_ (fun _ played hlookup => ⟨played, hlookup⟩)
    intro other queue hlookup
    obtain ⟨queue₀, hqueue₀, hsmaller, -⟩ := hp.queues other queue hlookup
    exact ⟨queue₀, hqueue₀, hsmaller⟩
  constructor
  case sequences => exact hshrunk.sequences
  case queues => exact hshrunk.queues
  case played =>
    intro other played hlookup
    change lane'.played.lookup other = some played at hlookup
    rw [hp.played] at hlookup
    rcases AList.lookup_of_insert hlookup with ⟨rfl, -⟩ | ⟨-, hold⟩
    · exact (h.queues _ before hbefore).congr (by rw [hp.routes])
    · exact (h.played other played hold).congr (by rw [hp.routes])
  case frames => exact hshrunk.frames
  case distinct => exact hshrunk.distinct
  case admitted => exact hshrunk.admitted
  case returned =>
    intro entry hentry
    rcases List.mem_append.mp hentry with hentry | hentry
    · exact h.returned entry hentry
    · rw [List.mem_singleton.mp hentry]
      exact hadmitted
  case once =>
    intro other queue hlookup found hmem entry hentry hreceiver hsame
    rcases List.mem_append.mp hentry with hentry | hentry
    · exact hshrunk.once other queue hlookup found hmem entry hentry hreceiver hsame
    · rw [List.mem_singleton.mp hentry] at hreceiver hsame ⊢
      dsimp only at hreceiver hsame ⊢
      -- the only queue that could hold the frame again is the one it was taken from
      obtain ⟨queue₀, hqueue₀, -, hrest⟩ := hp.queues other queue hlookup
      have hkey : other = key := (h.queues other queue₀ hqueue₀).receiverListed.unique
        (h.queues key before hbefore).receiverListed (hsame.symm.trans hpublisher)
        (hreceiver.symm.trans hp.receiver.symm)
      rw [hrest hkey] at hmem
      have hnodup := (h.distinct key before hbefore).sublist (hsub.map (·.sequence))
      rw [List.map_cons, List.nodup_cons] at hnodup
      intro hsequence
      exact hnodup.1 (List.mem_map.mpr ⟨found, hmem, hsequence.symm⟩)

end Preservation

/-! ## §3. One step, every run. -/

section Steps

variable {isExpired : EphemeralTalkbackFrameV1 → Nat → Bool} {L L' : Ledger}

/-- What one operation can do. -/
inductive Move (isExpired : EphemeralTalkbackFrameV1 → Nat → Bool) (L : Ledger) : Ledger → Prop
  | reset {lane' : TalkbackLane} {gone : AudienceKey → Prop} {forgotten : AudienceKey → Bool}
      (hpurged : TalkbackLane.Purged gone L.lane lane')
      (hroutes : ∀ audience, ¬ gone audience →
        lane'.routes.lookup audience = L.lane.routes.lookup audience)
      (hgone : ∀ audience, gone audience → forgotten audience = true)
      (hforgotten : ∀ audience route, L.lane.routes.lookup audience = some route →
        forgotten audience = true → gone audience) :
      Move isExpired L { L.forget forgotten with lane := lane' }
  | shrink {lane' : TalkbackLane} (hroutes : lane'.routes = L.lane.routes)
      (hsequences : lane'.sequences = L.lane.sequences)
      (hqueues : ∀ key queue, lane'.queues.lookup key = some queue →
        ∃ before, L.lane.queues.lookup key = some before ∧ queue.Sublist before)
      (hplayed : lane'.played = L.lane.played) :
      Move isExpired L { L with lane := lane' }
  | publish {lane' : TalkbackLane} {frame : EphemeralTalkbackFrameV1} {nowUnixUs : Nat}
      {route : TalkbackRoutingSnapshotV1} {window : SequenceWindow}
      (hadmitted : TalkbackLane.Admitted isExpired L.lane lane' frame nowUnixUs route window) :
      Move isExpired L { L with lane := lane', admitted := L.admitted ++ [frame] }
  | pull {lane' : TalkbackLane} {receiver : String} {nowUnixUs : Nat}
      {frame : EphemeralTalkbackFrameV1} {key : DeliveryKey} {rest : List EphemeralTalkbackFrameV1}
      (hpulled : TalkbackLane.Pulled isExpired L.lane lane' receiver nowUnixUs frame key rest) :
      Move isExpired L { L with lane := lane', returned := L.returned ++ [(receiver, frame)] }
  | accept {lane' : TalkbackLane} {ack : TalkbackPlayoutAckV1} {nowUnixUs : Nat}
      {mark : PlayedHighWater}
      (haccepted : TalkbackLane.Accepted L.lane lane' ack nowUnixUs mark) :
      Move isExpired L { L with lane := lane', acknowledged := L.acknowledged ++ [ack] }

theorem Move.same {lane' : TalkbackLane} (hsame : TalkbackLane.SameMaps L.lane lane') :
    Move isExpired L { L with lane := lane' } := by
  refine .shrink hsame.routes hsame.sequences ?_ hsame.played
  intro key queue hlookup
  rw [hsame.queues] at hlookup
  exact ⟨queue, hlookup, List.Sublist.refl _⟩

theorem step_move (isExpired : EphemeralTalkbackFrameV1 → Nat → Bool) (L : Ledger) (op : Op) :
    Move isExpired L (step isExpired L op).2 := by
  cases op with
  | installSnapshot snapshot =>
      refine .reset (TalkbackLane.installSnapshot_purged snapshot) ?_ ?_ ?_
      · intro audience hother
        exact AList.lookup_insert_ne hother
      · intro audience hgone
        exact beq_iff_eq.mpr hgone
      · intro audience _ _ hforgotten
        exact beq_iff_eq.mp hforgotten
  | removeAudience sessionId audienceId =>
      refine .reset (TalkbackLane.removeAudience_purged sessionId audienceId) ?_ ?_ ?_
      · intro audience hother
        exact AList.lookup_erase_ne hother
      · intro audience hgone
        exact beq_iff_eq.mpr hgone
      · intro audience _ _ hforgotten
        exact beq_iff_eq.mp hforgotten
  | endSession sessionId =>
      refine .reset (TalkbackLane.endSession_purged sessionId) ?_ ?_ ?_
      · intro audience hother
        exact TalkbackLane.endSession_routes hother
      · intro audience hgone
        exact (List.mem_filter.mp hgone).2
      · intro audience route hroute hforgotten
        exact List.mem_filter.mpr ⟨AList.mem_keys.mpr (AList.mem_of_lookup hroute), hforgotten⟩
  | publish frame nowUnixUs =>
      rcases @TalkbackLane.publish_cases isExpired L.lane frame nowUnixUs with
        ⟨⟨error, herror⟩, hsame⟩ | ⟨fanout, route, window, hok, hadmitted⟩
      · simp only [step, TalkbackLane.step, note, herror, resets_publish, forget_none]
        exact .same hsame
      · simp only [step, TalkbackLane.step, note, hok]
        exact .publish hadmitted
  | pullNext receiver nowUnixUs =>
      cases hpull : (L.lane.pullNext isExpired receiver nowUnixUs).1 with
      | none =>
          simp only [step, TalkbackLane.step, note, hpull, resets_pullNext, forget_none]
          rw [TalkbackLane.pullNext_none hpull]
          refine .shrink rfl rfl ?_ rfl
          intro key queue hlookup
          obtain ⟨before, hbefore, hsub, -⟩ := TalkbackLane.trimmed_lookup hlookup
          exact ⟨before, hbefore, hsub⟩
      | some frame =>
          obtain ⟨key, rest, hpulled⟩ := TalkbackLane.pullNext_pulled hpull
          simp only [step, TalkbackLane.step, note, hpull]
          exact .pull hpulled
  | acknowledgePlayout ack nowUnixUs =>
      rcases @TalkbackLane.acknowledgePlayout_cases L.lane ack nowUnixUs with
        ⟨⟨error, herror⟩, hsame⟩ | ⟨hok, mark, haccepted⟩
      · simp only [step, TalkbackLane.step, note, herror, resets_acknowledgePlayout, forget_none]
        exact .same hsame
      · simp only [step, TalkbackLane.step, note, hok]
        exact .accept haccepted

theorem Confined.accept (h : Confined L) {lane' : TalkbackLane} {ack : TalkbackPlayoutAckV1}
    {nowUnixUs : Nat} {mark : PlayedHighWater}
    (haccepted : TalkbackLane.Accepted L.lane lane' ack nowUnixUs mark) :
    Confined { L with lane := lane', acknowledged := L.acknowledged ++ [ack] } := by
  have hshrunk : Confined { L with lane := lane' } := by
    refine h.shrink haccepted.routes haccepted.sequences ?_ ?_
    · intro key queue hlookup
      rw [haccepted.queues] at hlookup
      exact ⟨queue, hlookup, List.Sublist.refl _⟩
    · intro key played hlookup
      rw [haccepted.played] at hlookup
      rcases AList.lookup_of_replace haccepted.marked hlookup with ⟨rfl, -⟩ | ⟨-, hold⟩
      · exact ⟨mark, haccepted.marked⟩
      · exact ⟨played, hold⟩
  exact ⟨hshrunk.sequences, hshrunk.queues, hshrunk.played, hshrunk.frames, hshrunk.distinct,
    hshrunk.admitted, hshrunk.returned, hshrunk.once⟩

theorem Confined.move (h : Confined L) (hmove : Move isExpired L L') : Confined L' := by
  cases hmove with
  | reset hpurged hroutes hgone hforgotten => exact h.purge hpurged hroutes hgone hforgotten
  | shrink hroutes hsequences hqueues hplayed =>
      refine h.shrink hroutes hsequences hqueues ?_
      intro key played hlookup
      rw [hplayed] at hlookup
      exact ⟨played, hlookup⟩
  | publish hadmitted => exact h.publish hadmitted
  | pull hpulled => exact h.pull hpulled
  | accept haccepted => exact h.accept haccepted

theorem exec_confined (h : Confined L) (ops : List Op) :
    Confined (exec (step isExpired) L ops) :=
  exec_invariant (step isExpired) Confined (fun L op hL => hL.move (step_move isExpired L op)) ops h

end Steps

/-! ## §4. The record, read off the operations. -/

section History

variable (isExpired : EphemeralTalkbackFrameV1 → Nat → Bool) (lane : TalkbackLane)

/-- The run published the frame and has not reset its audience since. -/
def PublishedSince (ops : List Op) (frame : EphemeralTalkbackFrameV1) : Prop :=
  ∃ before nowUnixUs after fanout, ops = before ++ .publish frame nowUnixUs :: after ∧
    ((exec (TalkbackLane.step isExpired) lane before).publish isExpired frame nowUnixUs).1 =
      .ok fanout ∧
    ∀ op ∈ after, op.resets frame.audience = false

/-- The run returned the frame to the endpoint and has not reset its audience since. -/
def ReturnedSince (ops : List Op) (endpoint : String) (frame : EphemeralTalkbackFrameV1) : Prop :=
  ∃ before nowUnixUs after, ops = before ++ .pullNext endpoint nowUnixUs :: after ∧
    ((exec (TalkbackLane.step isExpired) lane before).pullNext isExpired endpoint nowUnixUs).1 =
      some frame ∧
    ∀ op ∈ after, op.resets frame.audience = false

/-- The run accepted the acknowledgement and has not reset its audience since. -/
def AcknowledgedSince (ops : List Op) (ack : TalkbackPlayoutAckV1) : Prop :=
  ∃ before nowUnixUs after, ops = before ++ .acknowledgePlayout ack nowUnixUs :: after ∧
    ((exec (TalkbackLane.step isExpired) lane before).acknowledgePlayout ack nowUnixUs).1 =
      .ok () ∧
    ∀ op ∈ after, op.resets ack.audience = false

/-- The frames, deliveries and acknowledgements one operation adds to the record. -/
def written (L : Ledger) (op : Op) : List EphemeralTalkbackFrameV1 ×
    List (String × EphemeralTalkbackFrameV1) × List TalkbackPlayoutAckV1 :=
  match op, (L.lane.step isExpired op).1 with
  | .publish frame _, .published (.ok _) => ([frame], [], [])
  | .pullNext receiver _, .pulled (some frame) => ([], [(receiver, frame)], [])
  | .acknowledgePlayout ack _, .acknowledged (.ok _) => ([], [], [ack])
  | _, _ => ([], [], [])

theorem step_written (L : Ledger) (op : Op) :
    (step isExpired L op).2.admitted =
      (L.admitted.filter fun frame => !op.resets frame.audience) ++ (written isExpired L op).1 ∧
    (step isExpired L op).2.returned =
      (L.returned.filter fun entry => !op.resets entry.2.audience) ++
        (written isExpired L op).2.1 ∧
    (step isExpired L op).2.acknowledged =
      (L.acknowledged.filter fun ack => !op.resets ack.audience) ++
        (written isExpired L op).2.2 := by
  unfold step written
  dsimp only
  generalize (L.lane.step isExpired op).1 = reply
  unfold note
  split <;> simp [forget, Op.resets]

variable {isExpired lane} {ops : List Op}

theorem mem_admitted_iff {frame : EphemeralTalkbackFrameV1} :
    frame ∈ (exec (step isExpired) { lane } ops).admitted ↔
      PublishedSince isExpired lane ops frame := by
  rw [mem_log_exec (step isExpired) (·.admitted) (fun L op => (written isExpired L op).1)
    (fun op frame => op.resets frame.audience) (fun L op => (step_written isExpired L op).1) rfl]
  constructor
  · rintro ⟨before, op, after, hops, hwritten, hkept⟩
    unfold written at hwritten
    rw [exec_lane] at hwritten
    split at hwritten
    · next found nowUnixUs fanout hreply =>
        cases List.mem_singleton.mp hwritten
        exact ⟨before, nowUnixUs, after, fanout, hops, Reply.published.inj hreply, hkept⟩
    all_goals cases hwritten
  · rintro ⟨before, nowUnixUs, after, fanout, hops, hok, hkept⟩
    refine ⟨before, _, after, hops, ?_, hkept⟩
    simp [written, exec_lane, TalkbackLane.step, hok]

theorem mem_returned_iff {endpoint : String} {frame : EphemeralTalkbackFrameV1} :
    (endpoint, frame) ∈ (exec (step isExpired) { lane } ops).returned ↔
      ReturnedSince isExpired lane ops endpoint frame := by
  rw [mem_log_exec (step isExpired) (·.returned) (fun L op => (written isExpired L op).2.1)
    (fun op entry => op.resets entry.2.audience) (fun L op => (step_written isExpired L op).2.1) rfl]
  constructor
  · rintro ⟨before, op, after, hops, hwritten, hkept⟩
    unfold written at hwritten
    rw [exec_lane] at hwritten
    split at hwritten
    · cases hwritten
    · next receiver nowUnixUs found hreply =>
        cases List.mem_singleton.mp hwritten
        exact ⟨before, nowUnixUs, after, hops, Reply.pulled.inj hreply, hkept⟩
    all_goals cases hwritten
  · rintro ⟨before, nowUnixUs, after, hops, hpull, hkept⟩
    refine ⟨before, _, after, hops, ?_, hkept⟩
    simp [written, exec_lane, TalkbackLane.step, hpull]

theorem mem_acknowledged_iff {ack : TalkbackPlayoutAckV1} :
    ack ∈ (exec (step isExpired) { lane } ops).acknowledged ↔
      AcknowledgedSince isExpired lane ops ack := by
  rw [mem_log_exec (step isExpired) (·.acknowledged) (fun L op => (written isExpired L op).2.2)
    (fun op ack => op.resets ack.audience) (fun L op => (step_written isExpired L op).2.2) rfl]
  constructor
  · rintro ⟨before, op, after, hops, hwritten, hkept⟩
    unfold written at hwritten
    rw [exec_lane] at hwritten
    split at hwritten
    · cases hwritten
    · cases hwritten
    · next found nowUnixUs _ hreply =>
        cases List.mem_singleton.mp hwritten
        exact ⟨before, nowUnixUs, after, hops, Reply.acknowledged.inj hreply, hkept⟩
    · cases hwritten
  · rintro ⟨before, nowUnixUs, after, hops, hok, hkept⟩
    refine ⟨before, _, after, hops, ?_, hkept⟩
    simp [written, exec_lane, TalkbackLane.step, hok]

/-- What a frame is that `pull_next` returns to the endpoint after the run. -/
structure Deliverable (isExpired : EphemeralTalkbackFrameV1 → Nat → Bool) (lane : TalkbackLane)
    (ops : List Op) (endpoint : String) (nowUnixUs : Nat) (frame : EphemeralTalkbackFrameV1) :
    Prop where
  live : isExpired frame nowUnixUs = false
  published : PublishedSince isExpired lane ops frame
  listed : ∃ route subscriber,
    (exec (TalkbackLane.step isExpired) lane ops).routes.lookup frame.audience = some route ∧
    route.subscribers.lookup endpoint = some subscriber ∧
    subscriber.participantId ≠ frame.publisherParticipantId
  fresh : ∀ other, ReturnedSince isExpired lane ops endpoint other →
    other.publisher = frame.publisher → other.sequence ≠ frame.sequence

theorem Confined.deliverable {endpoint : String} {nowUnixUs : Nat}
    {frame : EphemeralTalkbackFrameV1} (h : Confined (exec (step isExpired) { lane } ops))
    (hpull : ((exec (TalkbackLane.step isExpired) lane ops).pullNext isExpired endpoint
      nowUnixUs).1 = some frame) :
    Deliverable isExpired lane ops endpoint nowUnixUs frame := by
  obtain ⟨key, rest, hpulled⟩ := TalkbackLane.pullNext_pulled hpull
  obtain ⟨queue, hqueue, hsub⟩ := hpulled.queued
  have hlane := exec_lane isExpired { lane } ops
  have hmem : frame ∈ queue := hsub.subset List.mem_cons_self
  rw [← hlane] at hqueue
  obtain ⟨hpublisher, hadmitted, -⟩ := h.frames key queue hqueue frame hmem
  obtain ⟨route, hroute, -, subscriber, hsubscriber, hparticipant, hother⟩ := h.queues key queue hqueue
  refine ⟨hpulled.live, mem_admitted_iff.mp hadmitted, ⟨route, subscriber, ?_, ?_, ?_⟩, ?_⟩
  · rw [← hlane, audience_of_publisher hpublisher]
    exact hroute
  · rw [← hpulled.receiver]
    exact hsubscriber
  · rw [hparticipant, show frame.publisherParticipantId = key.publisher.participantId from
      congrArg PublisherKey.participantId hpublisher]
    exact hother
  · intro other hreturned hsame
    exact h.once key queue hqueue frame hmem (endpoint, other) (mem_returned_iff.mpr hreturned)
      hpulled.receiver.symm (hsame.trans hpublisher)

/-- **TALKBACK CONFINEMENT.**  After every run the live state names only what the routes list,
every queued frame is of the generation of its route, and a frame that is pulled is live, was
published since its route was installed, is for a listed subscriber of another participant,
and was not returned to it before. -/
theorem exec_lane_confined {config : TalkbackLaneConfig}
    (hnew : TalkbackLane.new config = .ok lane) (ops : List Op) :
    (∀ key window, (exec (TalkbackLane.step isExpired) lane ops).sequences.lookup key =
        some window → PublisherListed (exec (TalkbackLane.step isExpired) lane ops) key) ∧
    (∀ key queue, (exec (TalkbackLane.step isExpired) lane ops).queues.lookup key = some queue →
      DeliveryListed (exec (TalkbackLane.step isExpired) lane ops) key ∧
      ∀ frame ∈ queue, frame.publisher = key.publisher ∧
        CurrentGeneration (exec (TalkbackLane.step isExpired) lane ops) frame) ∧
    (∀ key played, (exec (TalkbackLane.step isExpired) lane ops).played.lookup key = some played →
      DeliveryListed (exec (TalkbackLane.step isExpired) lane ops) key) ∧
    ∀ endpoint nowUnixUs frame,
      ((exec (TalkbackLane.step isExpired) lane ops).pullNext isExpired endpoint nowUnixUs).1 =
        some frame → Deliverable isExpired lane ops endpoint nowUnixUs frame := by
  have h : Confined (exec (step isExpired) { lane } ops) := exec_confined (start_confined hnew) ops
  have hlane := exec_lane isExpired { lane } ops
  refine ⟨?_, ?_, ?_, fun _ _ _ hpull => h.deliverable hpull⟩
  · rw [← hlane]
    exact h.sequences
  · rw [← hlane]
    intro key queue hlookup
    refine ⟨h.queues key queue hlookup, fun frame hmem => ?_⟩
    obtain ⟨hpublisher, -, hgeneration⟩ := h.frames key queue hlookup frame hmem
    exact ⟨hpublisher, hgeneration⟩
  · rw [← hlane]
    exact h.played

end History

/-- One publisher, heard by itself and one other participant. -/
def cueSnapshot : TalkbackRoutingSnapshotV1 :=
  (TalkbackRoutingSnapshotV1.new {
    sessionId := "ses_mix"
    sessionEpoch := 9
    mediaAuthorizationEpoch := 14
    talkbackEpoch := 4
    policyVersion := 7
    audienceId := "aud_session_cue"
    publishers := [⟨"par_one", "pub_one", 3⟩]
    subscribers := [⟨"par_one", "recv_one"⟩, ⟨"par_three", "recv_three"⟩] }).toOption.get
      (by decide +kernel)

def cueFrame (sequence : Nat) : EphemeralTalkbackFrameV1 where
  sessionId := "ses_mix"
  sessionEpoch := 9
  mediaAuthorizationEpoch := 14
  subjectGrantEpoch := 3
  talkbackEpoch := 4
  policyVersion := 7
  publisherParticipantId := "par_one"
  publisherEndpointId := "pub_one"
  audienceId := "aud_session_cue"
  sequence
  acceptedAtUnixUs := 1800000000000000
  deadlineUnixUs := 1800000000100000
  payload := [7]

/-- Expiry at the deadline. -/
def pastDeadline (frame : EphemeralTalkbackFrameV1) (nowUnixUs : Nat) : Bool :=
  frame.deadlineUnixUs ≤ nowUnixUs

theorem exec_lane_confined_cue :
    TalkbackLane.new {} = .ok { config := {} } ∧
    Deliverable pastDeadline { config := {} }
      [.installSnapshot cueSnapshot, .publish (cueFrame 1) 1800000000000000] "recv_three"
      1800000000000000 (cueFrame 1) := by
  have hnew : TalkbackLane.new {} = .ok { config := {} } := rfl
  exact ⟨hnew, (exec_lane_confined hnew _).2.2.2 _ _ _ (by decide +kernel)⟩

end Ledger

end AvMesh.Talkback
