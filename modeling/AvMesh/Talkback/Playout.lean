/-
  AvMesh.Talkback.Playout
  ───────────────────────
  **PLAYOUT ACKNOWLEDGEMENTS** (`TalkbackLane::acknowledge_playout`).

  The lane keeps one mark for each publisher and receiver: the highest
  sequence it delivered and the last one it accepted an acknowledgement of.
  `Marked` says what the marks are of the record: the highest returned and the
  highest acknowledged sequence since the snapshot.

  An acknowledgement is accepted for every sequence between the two.  So it is
  one of a pulled frame exactly when the pulled sequences have no gap there.
-/
import AvMesh.Talkback.Ledger

namespace AvMesh.Talkback

open AvMesh.Lib
open TalkbackLane (Op)

/-- The acknowledgement of one sequence of the pair. -/
def DeliveryKey.acknowledgement (delivery : DeliveryKey) (sequence : Nat) :
    TalkbackPlayoutAckV1 where
  sessionId := delivery.publisher.audience.sessionId
  receiverParticipantId := delivery.receiverParticipantId
  receiverEndpointId := delivery.receiverEndpointId
  publisherParticipantId := delivery.publisher.participantId
  publisherEndpointId := delivery.publisher.endpointId
  audienceId := delivery.publisher.audience.audienceId
  sequence

namespace Ledger

/-! ## §1. The marks and the record. -/

structure Marked (L : Ledger) : Prop where
  returned : ∀ entry ∈ L.returned, ∃ key mark, L.lane.played.lookup key = some mark ∧
    key.publisher = entry.2.publisher ∧ key.receiverEndpointId = entry.1 ∧
    entry.2.sequence ≤ mark.deliveredSequence
  delivered : ∀ key mark, L.lane.played.lookup key = some mark → ∃ entry ∈ L.returned,
    entry.1 = key.receiverEndpointId ∧ entry.2.publisher = key.publisher ∧
    entry.2.sequence = mark.deliveredSequence
  acknowledged : ∀ ack ∈ L.acknowledged, ∃ mark previous,
    L.lane.played.lookup ack.delivery = some mark ∧
    mark.acknowledgedSequence = some previous ∧ ack.sequence ≤ previous
  last : ∀ key mark previous, L.lane.played.lookup key = some mark →
    mark.acknowledgedSequence = some previous →
    ∃ ack ∈ L.acknowledged, ack.delivery = key ∧ ack.sequence = previous

theorem start_marked {config : TalkbackLaneConfig} {lane : TalkbackLane}
    (h : TalkbackLane.new config = .ok lane) : Marked { lane } := by
  unfold TalkbackLane.new at h
  split at h
  · cases h
  · cases h
    exact ⟨nofun, nofun, nofun, nofun⟩

section Preservation

variable {isExpired : EphemeralTalkbackFrameV1 → Nat → Bool} {L L' : Ledger} {lane' : TalkbackLane}

theorem Marked.reset (h : Marked L) (hconfined : Confined L) {gone : AudienceKey → Prop}
    {forgotten : AudienceKey → Bool} (hpurged : TalkbackLane.Purged gone L.lane lane')
    (hgone : ∀ audience, gone audience → forgotten audience = true)
    (hforgotten : ∀ audience route, L.lane.routes.lookup audience = some route →
      forgotten audience = true → gone audience) :
    Marked { L.forget forgotten with lane := lane' } := by
  -- a mark that stays is of an audience the record keeps, and the other way round
  have hkept : ∀ key mark, lane'.played.lookup key = some mark →
      L.lane.played.lookup key = some mark ∧ forgotten key.publisher.audience = false := by
    intro key mark hlookup
    obtain ⟨hold, hlive⟩ := (hpurged.played key mark).mp hlookup
    refine ⟨hold, Bool.eq_false_iff.mpr fun hforget => hlive ?_⟩
    obtain ⟨route, hroute, -⟩ := hconfined.played key mark hold
    exact hforgotten _ route hroute hforget
  have hstays : ∀ key mark, L.lane.played.lookup key = some mark →
      (!forgotten key.publisher.audience) = true → lane'.played.lookup key = some mark := by
    intro key mark hlookup hremembered
    refine (hpurged.played key mark).mpr ⟨hlookup, fun hdropped => ?_⟩
    rw [hgone _ hdropped] at hremembered
    cases hremembered
  constructor
  case returned =>
    intro entry hentry
    obtain ⟨hentry, hremembered⟩ := List.mem_filter.mp hentry
    obtain ⟨key, mark, hlookup, hpublisher, hreceiver, hle⟩ := h.returned entry hentry
    refine ⟨key, mark, hstays key mark hlookup ?_, hpublisher, hreceiver, hle⟩
    rw [hpublisher]
    exact hremembered
  case delivered =>
    intro key mark hlookup
    obtain ⟨hold, hremembered⟩ := hkept key mark hlookup
    obtain ⟨entry, hentry, hreceiver, hpublisher, hsequence⟩ := h.delivered key mark hold
    refine ⟨entry, List.mem_filter.mpr ⟨hentry, ?_⟩, hreceiver, hpublisher, hsequence⟩
    rw [audience_of_publisher hpublisher, hremembered]
    rfl
  case acknowledged =>
    intro ack hack
    obtain ⟨hack, hremembered⟩ := List.mem_filter.mp hack
    obtain ⟨mark, previous, hlookup, hprevious, hle⟩ := h.acknowledged ack hack
    exact ⟨mark, previous, hstays ack.delivery mark hlookup hremembered, hprevious, hle⟩
  case last =>
    intro key mark previous hlookup hprevious
    obtain ⟨hold, hremembered⟩ := hkept key mark hlookup
    obtain ⟨ack, hack, rfl, hsequence⟩ := h.last key mark previous hold hprevious
    refine ⟨ack, List.mem_filter.mpr ⟨hack, ?_⟩, rfl, hsequence⟩
    have haudience : forgotten ack.audience = false := hremembered
    rw [haudience]
    rfl

/-- A step that leaves the marks and what they speak about. -/
theorem Marked.same (h : Marked L) (hplayed : L'.lane.played = L.lane.played)
    (hreturned : L'.returned = L.returned) (hacknowledged : L'.acknowledged = L.acknowledged) :
    Marked L' := by
  constructor
  case returned =>
    rw [hplayed, hreturned]
    exact h.returned
  case delivered =>
    rw [hplayed, hreturned]
    exact h.delivered
  case acknowledged =>
    rw [hplayed, hacknowledged]
    exact h.acknowledged
  case last =>
    rw [hplayed, hacknowledged]
    exact h.last

/-- The delivered sequence goes up to the frame's, and nothing else of the mark changes. -/
theorem markDelivered_spec (before : Option PlayedHighWater) (sequence : Nat) :
    sequence ≤ (TalkbackLane.markDelivered before sequence).deliveredSequence ∧
    (∀ mark, before = some mark →
      mark.deliveredSequence ≤ (TalkbackLane.markDelivered before sequence).deliveredSequence) ∧
    ((TalkbackLane.markDelivered before sequence).deliveredSequence = sequence ∨
      ∃ mark, before = some mark ∧
        (TalkbackLane.markDelivered before sequence).deliveredSequence = mark.deliveredSequence) ∧
    (TalkbackLane.markDelivered before sequence).acknowledgedSequence =
      before.bind (·.acknowledgedSequence) := by
  cases before with
  | none => exact ⟨Nat.le_refl _, nofun, .inl rfl, rfl⟩
  | some mark =>
      refine ⟨Nat.le_max_right _ _, ?_, ?_, rfl⟩
      · rintro _ ⟨⟩
        exact Nat.le_max_left _ _
      · rcases Nat.le_total mark.deliveredSequence sequence with hle | hle
        · exact .inl (Nat.max_eq_right hle)
        · exact .inr ⟨mark, rfl, Nat.max_eq_left hle⟩

theorem Marked.pull (h : Marked L) (hconfined : Confined L) {receiver : String} {nowUnixUs : Nat}
    {frame : EphemeralTalkbackFrameV1} {key : DeliveryKey} {rest : List EphemeralTalkbackFrameV1}
    (hp : TalkbackLane.Pulled isExpired L.lane lane' receiver nowUnixUs frame key rest) :
    Marked { L with lane := lane', returned := L.returned ++ [(receiver, frame)] } := by
  obtain ⟨queue, hqueue, hsub⟩ := hp.queued
  obtain ⟨hpublisher, -, -⟩ :=
    hconfined.frames key queue hqueue frame (hsub.subset List.mem_cons_self)
  obtain ⟨hnew, hold, hattained, hkept⟩ := markDelivered_spec (L.lane.played.lookup key) frame.sequence
  have hplayed := hp.played
  generalize TalkbackLane.markDelivered (L.lane.played.lookup key) frame.sequence = marked at *
  have hself : lane'.played.lookup key = some marked := by
    rw [hplayed]
    exact AList.lookup_insert _
  have hother : ∀ other, other ≠ key → lane'.played.lookup other = L.lane.played.lookup other := by
    intro other hne
    rw [hplayed]
    exact AList.lookup_insert_ne hne
  constructor
  case returned =>
    intro entry hentry
    rcases List.mem_append.mp hentry with hentry | hentry
    · obtain ⟨other, mark, hlookup, hsame, hreceiver, hle⟩ := h.returned entry hentry
      by_cases hkey : other = key
      · subst hkey
        exact ⟨other, marked, hself, hsame, hreceiver, hle.trans (hold mark hlookup)⟩
      · exact ⟨other, mark, (hother other hkey).trans hlookup, hsame, hreceiver, hle⟩
    · rw [List.mem_singleton.mp hentry]
      exact ⟨key, marked, hself, hpublisher.symm, hp.receiver, hnew⟩
  case delivered =>
    intro other mark hlookup
    -- the returned frame a mark shows was there before, or is the one just pulled
    have hbefore : ∀ before, L.lane.played.lookup other = some before →
        before.deliveredSequence = mark.deliveredSequence →
        ∃ entry ∈ L.returned ++ [(receiver, frame)], entry.1 = other.receiverEndpointId ∧
          entry.2.publisher = other.publisher ∧ entry.2.sequence = mark.deliveredSequence := by
      intro before hlookup hsame
      obtain ⟨entry, hentry, hreceiver, hsource, hsequence⟩ := h.delivered other before hlookup
      exact ⟨entry, List.mem_append_left _ hentry, hreceiver, hsource, hsequence.trans hsame⟩
    by_cases hkey : other = key
    · subst hkey
      cases hself.symm.trans hlookup
      rcases hattained with hattained | ⟨before, hlookup, hattained⟩
      · exact ⟨(receiver, frame), by simp, hp.receiver.symm, hpublisher, hattained.symm⟩
      · exact hbefore before hlookup hattained.symm
    · exact hbefore mark ((hother other hkey).symm.trans hlookup) rfl
  case acknowledged =>
    intro ack hack
    obtain ⟨mark, previous, hlookup, hprevious, hle⟩ := h.acknowledged ack hack
    by_cases hkey : ack.delivery = key
    · refine ⟨marked, previous, hkey ▸ hself, ?_, hle⟩
      rw [hkept, ← hkey, hlookup]
      exact hprevious
    · exact ⟨mark, previous, (hother _ hkey).trans hlookup, hprevious, hle⟩
  case last =>
    intro other mark previous hlookup hprevious
    by_cases hkey : other = key
    · subst hkey
      cases hself.symm.trans hlookup
      rw [hkept] at hprevious
      obtain ⟨before, hlookup, hprevious⟩ := Option.bind_eq_some_iff.mp hprevious
      exact h.last other before previous hlookup hprevious
    · exact h.last other mark previous ((hother other hkey).symm.trans hlookup) hprevious

theorem Marked.accept (h : Marked L) {ack : TalkbackPlayoutAckV1} {nowUnixUs : Nat}
    {mark : PlayedHighWater} (ha : TalkbackLane.Accepted L.lane lane' ack nowUnixUs mark) :
    Marked { L with lane := lane', acknowledged := L.acknowledged ++ [ack] } := by
  have hself : lane'.played.lookup ack.delivery = some { mark with
      acknowledgedSequence := some ack.sequence, acknowledgedAtUnixUs := some nowUnixUs } := by
    rw [ha.played]
    exact AList.lookup_replace_self _ ha.marked
  have hother : ∀ key, key ≠ ack.delivery → lane'.played.lookup key = L.lane.played.lookup key := by
    intro key hne
    rw [ha.played]
    exact AList.lookup_replace_ne _ _ hne
  constructor
  case returned =>
    intro entry hentry
    obtain ⟨key, found, hlookup, hpublisher, hreceiver, hle⟩ := h.returned entry hentry
    by_cases hkey : key = ack.delivery
    · subst hkey
      cases ha.marked.symm.trans hlookup
      exact ⟨_, _, hself, hpublisher, hreceiver, hle⟩
    · exact ⟨key, found, (hother key hkey).trans hlookup, hpublisher, hreceiver, hle⟩
  case delivered =>
    intro key found hlookup
    by_cases hkey : key = ack.delivery
    · subst hkey
      cases hself.symm.trans hlookup
      exact h.delivered _ mark ha.marked
    · exact h.delivered key found ((hother key hkey).symm.trans hlookup)
  case acknowledged =>
    intro earlier hearlier
    rcases List.mem_append.mp hearlier with hearlier | hearlier
    · obtain ⟨found, previous, hlookup, hprevious, hle⟩ := h.acknowledged earlier hearlier
      by_cases hkey : earlier.delivery = ack.delivery
      · rw [hkey] at hlookup ⊢
        cases ha.marked.symm.trans hlookup
        exact ⟨_, ack.sequence, hself, rfl, hle.trans (ha.fresh previous hprevious).le⟩
      · exact ⟨found, previous, (hother _ hkey).trans hlookup, hprevious, hle⟩
    · rw [List.mem_singleton.mp hearlier]
      exact ⟨_, ack.sequence, hself, rfl, Nat.le_refl _⟩
  case last =>
    intro key found previous hlookup hprevious
    by_cases hkey : key = ack.delivery
    · subst hkey
      cases hself.symm.trans hlookup
      cases hprevious
      exact ⟨ack, by simp, rfl, rfl⟩
    · obtain ⟨earlier, hearlier, hsame, hsequence⟩ :=
        h.last key found previous ((hother key hkey).symm.trans hlookup) hprevious
      exact ⟨earlier, List.mem_append_left _ hearlier, hsame, hsequence⟩

theorem Marked.move (h : Marked L) (hconfined : Confined L) (hmove : Move isExpired L L') :
    Marked L' := by
  cases hmove with
  | reset hpurged hroutes hgone hforgotten => exact h.reset hconfined hpurged hgone hforgotten
  | shrink hroutes hsequences hqueues hplayed => exact h.same hplayed rfl rfl
  | publish hadmitted => exact h.same hadmitted.played rfl rfl
  | pull hpulled => exact h.pull hconfined hpulled
  | accept haccepted => exact h.accept haccepted

theorem exec_marked (hconfined : Confined L) (h : Marked L) (ops : List Op) :
    Confined (exec (step isExpired) L ops) ∧ Marked (exec (step isExpired) L ops) := by
  refine exec_invariant (step isExpired) (fun L => Confined L ∧ Marked L) ?_ ops ⟨hconfined, h⟩
  rintro L op ⟨hconfined, h⟩
  have hmove := step_move isExpired L op
  exact ⟨hconfined.move hmove, h.move hconfined hmove⟩

end Preservation

/-! ## §2. Which acknowledgements are accepted. -/

theorem acknowledgementKey_ok_iff {lane : TalkbackLane} {ack : TalkbackPlayoutAckV1} :
    lane.acknowledgementKey ack = .ok ack.delivery ↔ ReceiverListed lane ack.delivery := by
  show _ ↔ ∃ route subscriber, lane.routes.lookup ack.audience = some route ∧
    route.subscribers.lookup ack.receiverEndpointId = some subscriber ∧
    subscriber.participantId = ack.receiverParticipantId
  unfold TalkbackLane.acknowledgementKey
  cases hroute : lane.routes.lookup ack.audience with
  | none => simp
  | some route =>
      cases hsubscriber : route.subscribers.lookup ack.receiverEndpointId <;>
        simp [hsubscriber]

/-- The marks read off the record: a listed receiver may acknowledge what is above every
accepted sequence and not above every pulled one. -/
theorem Marked.accepted_iff {L : Ledger} (h : Marked L) (hconfined : Confined L)
    {ack : TalkbackPlayoutAckV1} {nowUnixUs : Nat} :
    (L.lane.acknowledgePlayout ack nowUnixUs).1 = .ok () ↔
      ReceiverListed L.lane ack.delivery ∧
      (∃ entry ∈ L.returned, entry.1 = ack.receiverEndpointId ∧
        entry.2.publisher = ack.delivery.publisher ∧ ack.sequence ≤ entry.2.sequence) ∧
      ∀ earlier ∈ L.acknowledged, earlier.delivery = ack.delivery →
        earlier.sequence < ack.sequence := by
  rw [TalkbackLane.acknowledgePlayout_ok_iff, acknowledgementKey_ok_iff]
  refine and_congr_right fun hlisted => ?_
  constructor
  · rintro ⟨mark, hmark, hdelivered, hfresh⟩
    refine ⟨?_, ?_⟩
    · obtain ⟨entry, hentry, hreceiver, hpublisher, hsequence⟩ := h.delivered _ mark hmark
      exact ⟨entry, hentry, hreceiver, hpublisher, hsequence ▸ hdelivered⟩
    · intro earlier hearlier hsame
      obtain ⟨found, previous, hlookup, hprevious, hle⟩ := h.acknowledged earlier hearlier
      rw [hsame, hmark] at hlookup
      cases hlookup
      exact hle.trans_lt (hfresh previous hprevious)
  · rintro ⟨⟨entry, hentry, hreceiver, hpublisher, hle⟩, hlast⟩
    obtain ⟨key, mark, hmark, hsource, hendpoint, hbound⟩ := h.returned entry hentry
    -- the mark of the pulled frame is the mark of this acknowledgement
    have hkey : key = ack.delivery := (hconfined.played key mark hmark).receiverListed.unique
      hlisted (hsource.trans hpublisher) (hendpoint.trans hreceiver)
    subst hkey
    refine ⟨mark, hmark, hle.trans hbound, ?_⟩
    intro previous hprevious
    obtain ⟨earlier, hearlier, hsame, rfl⟩ := h.last _ mark previous hmark hprevious
    exact hlast earlier hearlier hsame

/-! ## §3. Backed acknowledgements. -/

section Backing

variable (isExpired : EphemeralTalkbackFrameV1 → Nat → Bool) (lane : TalkbackLane)

/-- The run pulled the publisher's frame of this sequence for the receiver, since the snapshot
of the audience was installed. -/
def PulledSince (ops : List Op) (delivery : DeliveryKey) (sequence : Nat) : Prop :=
  ∃ frame, ReturnedSince isExpired lane ops delivery.receiverEndpointId frame ∧
    frame.publisher = delivery.publisher ∧ frame.sequence = sequence

/-- After the run the acknowledgement is accepted. -/
def Accepts (ops : List Op) (ack : TalkbackPlayoutAckV1) (nowUnixUs : Nat) : Prop :=
  ((exec (TalkbackLane.step isExpired) lane ops).acknowledgePlayout ack nowUnixUs).1 = .ok ()

/-- Above what the receiver acknowledged, the sequences it pulled have no gap. -/
def Gapless (ops : List Op) (delivery : DeliveryKey) : Prop :=
  ReceiverListed (exec (TalkbackLane.step isExpired) lane ops) delivery →
  ∀ n highest, PulledSince isExpired lane ops delivery highest → n < highest →
    (∀ ack, AcknowledgedSince isExpired lane ops ack → ack.delivery = delivery →
      ack.sequence < n) →
    PulledSince isExpired lane ops delivery n

variable {isExpired lane}

theorem accepts_iff {config : TalkbackLaneConfig} (hnew : TalkbackLane.new config = .ok lane)
    {ops : List Op} {ack : TalkbackPlayoutAckV1} {nowUnixUs : Nat} :
    Accepts isExpired lane ops ack nowUnixUs ↔
      ReceiverListed (exec (TalkbackLane.step isExpired) lane ops) ack.delivery ∧
      (∃ highest, PulledSince isExpired lane ops ack.delivery highest ∧ ack.sequence ≤ highest) ∧
      ∀ earlier, AcknowledgedSince isExpired lane ops earlier → earlier.delivery = ack.delivery →
        earlier.sequence < ack.sequence := by
  obtain ⟨hconfined, hmarked⟩ :=
    @exec_marked isExpired { lane } (start_confined hnew) (start_marked hnew) ops
  unfold Accepts
  rw [← exec_lane isExpired { lane } ops, hmarked.accepted_iff hconfined]
  refine and_congr_right fun _ => and_congr ?_ ?_
  · constructor
    · rintro ⟨⟨receiver, frame⟩, hentry, rfl, hpublisher, hle⟩
      exact ⟨_, ⟨frame, mem_returned_iff.mp hentry, hpublisher, rfl⟩, hle⟩
    · rintro ⟨_, ⟨frame, hreturned, hpublisher, rfl⟩, hle⟩
      exact ⟨(_, frame), mem_returned_iff.mpr hreturned, rfl, hpublisher, hle⟩
  · exact forall_congr' fun earlier => by rw [mem_acknowledged_iff]

/-- After a run, what a receiver may acknowledge was pulled exactly when there is no gap. -/
theorem backed_iff_gapless {config : TalkbackLaneConfig}
    (hnew : TalkbackLane.new config = .ok lane) (ops : List Op) (delivery : DeliveryKey) :
    (∀ ack nowUnixUs, ack.delivery = delivery → Accepts isExpired lane ops ack nowUnixUs →
        PulledSince isExpired lane ops delivery ack.sequence) ↔
      Gapless isExpired lane ops delivery := by
  constructor
  · intro hbacked hlisted n highest hpulled hlt hlast
    have haccepts : Accepts isExpired lane ops (delivery.acknowledgement n) 0 :=
      (accepts_iff hnew).mpr ⟨hlisted, ⟨highest, hpulled, hlt.le⟩, hlast⟩
    exact hbacked _ 0 rfl haccepts
  · rintro hgapless ack nowUnixUs rfl haccepts
    obtain ⟨hlisted, ⟨highest, hpulled, hle⟩, hlast⟩ := (accepts_iff hnew).mp haccepts
    rcases Nat.eq_or_lt_of_le hle with heq | hlt
    · rw [heq]
      exact hpulled
    · exact hgapless hlisted ack.sequence highest hpulled hlt hlast

/-- **BACKED ACKNOWLEDGEMENTS.**  An accepted acknowledgement is of a pulled frame in every run
whose acknowledgements come when the pulled sequences have no gap, and in no other state; and
accepted sequences strictly increase. -/
theorem exec_acknowledgements_backed {config : TalkbackLaneConfig}
    (hnew : TalkbackLane.new config = .ok lane) (ops : List Op) :
    ((∀ before ack nowUnixUs after, ops = before ++ .acknowledgePlayout ack nowUnixUs :: after →
        Gapless isExpired lane before ack.delivery) →
      ∀ before ack nowUnixUs after, ops = before ++ .acknowledgePlayout ack nowUnixUs :: after →
        Accepts isExpired lane before ack nowUnixUs →
        PulledSince isExpired lane before ack.delivery ack.sequence) ∧
    (∀ delivery, (∀ ack nowUnixUs, ack.delivery = delivery →
        Accepts isExpired lane ops ack nowUnixUs →
        PulledSince isExpired lane ops delivery ack.sequence) ↔
      Gapless isExpired lane ops delivery) ∧
    (∀ before ack nowUnixUs after, ops = before ++ .acknowledgePlayout ack nowUnixUs :: after →
      Accepts isExpired lane before ack nowUnixUs →
      ∀ earlier, AcknowledgedSince isExpired lane before earlier →
        earlier.delivery = ack.delivery → earlier.sequence < ack.sequence) := by
  refine ⟨?_, backed_iff_gapless hnew ops, ?_⟩
  · intro hgapless before ack nowUnixUs after hops haccepts
    exact (backed_iff_gapless hnew before ack.delivery).mpr
      (hgapless before ack nowUnixUs after hops) ack nowUnixUs rfl haccepts
  · intro before ack nowUnixUs after _ haccepts
    exact ((accepts_iff hnew).mp haccepts).2.2

end Backing

/-- The listener of `cueSnapshot` on its publisher. -/
def cueDelivery : DeliveryKey :=
  ⟨(cueFrame 0).publisher, "par_three", "recv_three"⟩

/-- The two frames are published and pulled. -/
def cueRun (first second : Nat) : List Op :=
  [.installSnapshot cueSnapshot, .publish (cueFrame first) 1800000000000000,
    .publish (cueFrame second) 1800000000000000, .pullNext "recv_three" 1800000000000000,
    .pullNext "recv_three" 1800000000000000]

theorem cueRun_returned {first second : Nat}
    (h : (exec (step pastDeadline) { lane := { config := {} } } (cueRun first second)).returned =
      [("recv_three", cueFrame first), ("recv_three", cueFrame second)]) (n : Nat) :
    PulledSince pastDeadline { config := {} } (cueRun first second) cueDelivery n ↔
      n = first ∨ n = second := by
  unfold PulledSince
  simp only [← mem_returned_iff, h]
  constructor
  · rintro ⟨frame, hmem, -, rfl⟩
    simp only [List.mem_cons, Prod.mk.injEq, List.not_mem_nil, or_false] at hmem
    rcases hmem with ⟨-, rfl⟩ | ⟨-, rfl⟩
    · exact .inl rfl
    · exact .inr rfl
  · rintro (rfl | rfl)
    · exact ⟨cueFrame n, by simp [cueDelivery], rfl, rfl⟩
    · exact ⟨cueFrame n, by simp [cueDelivery], rfl, rfl⟩

theorem exec_acknowledgements_backed_cue :
    TalkbackLane.new {} = .ok { config := {} } ∧
    Accepts pastDeadline { config := {} } (cueRun 0 1) (cueDelivery.acknowledgement 0)
      1800000000000000 ∧
    PulledSince pastDeadline { config := {} } (cueRun 0 1) cueDelivery 0 := by
  have hnew : TalkbackLane.new {} = .ok { config := {} } := rfl
  have haccepts : Accepts pastDeadline { config := {} } (cueRun 0 1)
      (cueDelivery.acknowledgement 0) 1800000000000000 := by
    unfold Accepts
    decide +kernel
  have hpulled := @cueRun_returned 0 1 (by decide +kernel)
  have hgapless : Gapless pastDeadline { config := {} } (cueRun 0 1) cueDelivery := by
    intro _ n highest hhighest hlt _
    rw [hpulled] at hhighest ⊢
    omega
  exact ⟨hnew, haccepts, ((exec_acknowledgements_backed hnew (cueRun 0 1)).2.1 cueDelivery).mpr
    hgapless _ _ rfl haccepts⟩

/-- Sequence 2 was never published; its acknowledgement is accepted. -/
theorem skipped_sequence_acknowledged :
    Accepts pastDeadline { config := {} } (cueRun 1 3) (cueDelivery.acknowledgement 2)
      1800000000000000 ∧
    ¬ PulledSince pastDeadline { config := {} } (cueRun 1 3) cueDelivery 2 := by
  refine ⟨?_, ?_⟩
  · unfold Accepts
    decide +kernel
  · rw [cueRun_returned (by decide +kernel)]
    omega

end Ledger

end AvMesh.Talkback
