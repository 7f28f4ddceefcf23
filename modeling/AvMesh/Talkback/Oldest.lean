/-
  AvMesh.Talkback.Oldest
  ──────────────────────
  **`pull_next` TAKES THE OLDEST LIVE FRAME.**

  A receiver has one queue for each publisher it hears.  `pull_next` looks at
  the fronts alone, so that its choice is the oldest of ALL queued frames
  needs the queues to be in order.

    • `lookup_pullNext`    — what a pull leaves in every queue,
    • `QueuesPublished`    — a queue lists published frames of its publisher,
                             in the order they were published,
    • `queuesPublished_run`— every operation keeps that: routes, evictions,
                             retains and pulls only take frames out,
    • `pullNext_oldest`    — so with publishers that publish in order the front
                             that is chosen is older than every live frame.

  Nothing is assumed of `isExpired`: deadlines are arbitrary, and a frame
  behind a live front may have expired long ago.
-/
import AvMesh.Lib.StepSystem
import AvMesh.Talkback.Ledger
import Mathlib.Data.List.TakeWhile

namespace AvMesh.Talkback

open AvMesh.Lib

namespace TalkbackLane

variable {isExpired : EphemeralTalkbackFrameV1 → Nat → Bool} {lane : TalkbackLane}

/-! ## §1. The choice among the fronts. -/

theorem pullsBefore_le {a b : DeliveryKey × EphemeralTalkbackFrameV1} (h : pullsBefore a b = true) :
    a.2.acceptedAtUnixUs ≤ b.2.acceptedAtUnixUs := by
  unfold pullsBefore at h
  simp only [Bool.or_eq_true, Bool.and_eq_true, decide_eq_true_eq, beq_iff_eq] at h
  omega

theorem le_of_not_pullsBefore {a b : DeliveryKey × EphemeralTalkbackFrameV1}
    (h : pullsBefore a b = false) : b.2.acceptedAtUnixUs ≤ a.2.acceptedAtUnixUs := by
  unfold pullsBefore at h
  simp only [Bool.or_eq_false_iff, decide_eq_false_iff_not] at h
  omega

/-- The chosen front is the oldest of the fronts. -/
theorem oldest_le {l : List (DeliveryKey × EphemeralTalkbackFrameV1)}
    {best : DeliveryKey × EphemeralTalkbackFrameV1} (h : oldest l = some best) :
    ∀ front ∈ l, best.2.acceptedAtUnixUs ≤ front.2.acceptedAtUnixUs := by
  induction l generalizing best with
  | nil => cases h
  | cons first rest ih =>
      intro front hfront
      unfold oldest at h
      cases hrest : oldest rest with
      | none =>
          rw [hrest] at h
          cases h
          cases rest with
          | nil =>
              rw [List.mem_singleton.mp hfront]
          | cons second rest =>
              unfold oldest at hrest
              split at hrest
              · cases hrest
              · split at hrest <;> cases hrest
      | some other =>
          rw [hrest] at h
          dsimp only at h
          have hother := ih hrest
          split at h
          · next hbefore =>
              cases h
              rcases List.mem_cons.mp hfront with rfl | hfront
              · exact pullsBefore_le hbefore
              · exact hother front hfront
          · next hafter =>
              cases h
              rcases List.mem_cons.mp hfront with rfl | hfront
              · exact Nat.le_refl _
              · -- the front chosen from the rest is not before the first one
                have hle := le_of_not_pullsBefore (Bool.eq_false_iff.mpr hafter)
                exact Nat.le_trans hle (hother front hfront)

theorem oldest_eq_none {l : List (DeliveryKey × EphemeralTalkbackFrameV1)} :
    oldest l = none ↔ l = [] := by
  cases l with
  | nil => exact ⟨fun _ => rfl, fun _ => rfl⟩
  | cons first rest =>
      unfold oldest
      constructor
      · intro h
        split at h
        · cases h
        · split at h <;> cases h
      · nofun

/-- A front is the head of one of the receiver's queues. -/
theorem mem_fronts {queues : Table DeliveryKey (List EphemeralTalkbackFrameV1)}
    {receiver : String} {key : DeliveryKey} {frame : EphemeralTalkbackFrameV1} :
    (key, frame) ∈ fronts queues receiver ↔
      key.receiverEndpointId = receiver ∧ ∃ rest, queues.lookup key = some (frame :: rest) := by
  unfold fronts
  rw [List.mem_filterMap]
  constructor
  · rintro ⟨⟨key', queue⟩, hentry, hfront⟩
    dsimp only at hfront
    split at hfront
    · next hreceiver =>
        obtain ⟨head, hhead, hpair⟩ := Option.map_eq_some_iff.mp hfront
        cases hpair
        refine ⟨beq_iff_eq.mp hreceiver, queue.tail, ?_⟩
        rw [← List.eq_cons_of_mem_head? hhead]
        exact AList.lookup_eq_some_iff.mpr hentry
    · cases hfront
  · rintro ⟨hreceiver, rest, hlookup⟩
    refine ⟨⟨key, frame :: rest⟩, AList.lookup_eq_some_iff.mp hlookup, ?_⟩
    rw [if_pos (beq_iff_eq.mpr hreceiver)]
    rfl

/-! ## §2. What a pull does to the queues. -/

/-- The queue without its expired front. -/
def liveTail (isExpired : EphemeralTalkbackFrameV1 → Nat → Bool) (nowUnixUs : Nat)
    (queue : List EphemeralTalkbackFrameV1) : List EphemeralTalkbackFrameV1 :=
  queue.dropWhile fun frame => isExpired frame nowUnixUs

/-- The front a pull chooses, with the key of its queue. -/
def chosen (isExpired : EphemeralTalkbackFrameV1 → Nat → Bool) (lane : TalkbackLane)
    (receiver : String) (nowUnixUs : Nat) : Option (DeliveryKey × EphemeralTalkbackFrameV1) :=
  oldest (fronts (lane.trimmed isExpired receiver nowUnixUs) receiver)

theorem pullNext_fst (receiver : String) (nowUnixUs : Nat) :
    (lane.pullNext isExpired receiver nowUnixUs).1 =
      (chosen isExpired lane receiver nowUnixUs).map Prod.snd := by
  unfold pullNext chosen
  dsimp only
  split
  · next hnone => rw [hnone, Option.map_none]
  · next key frame hsome => rw [hsome, Option.map_some]

theorem lookup_trimmed (receiver : String) (nowUnixUs : Nat) (key : DeliveryKey) :
    (lane.trimmed isExpired receiver nowUnixUs).lookup key =
      (lane.queues.lookup key).map fun queue =>
        if key.receiverEndpointId = receiver then liveTail isExpired nowUnixUs queue else queue := by
  unfold trimmed liveTail
  rw [AList.lookup_mapValues]
  simp only [beq_iff_eq]

/-- The chosen front: the first live frame of a queue of the receiver. -/
theorem chosen_eq_some {receiver : String} {nowUnixUs : Nat} {key : DeliveryKey}
    {frame : EphemeralTalkbackFrameV1}
    (h : chosen isExpired lane receiver nowUnixUs = some (key, frame)) :
    key.receiverEndpointId = receiver ∧ ∃ before rest, lane.queues.lookup key = some before ∧
      liveTail isExpired nowUnixUs before = frame :: rest := by
  obtain ⟨hreceiver, rest, hlookup⟩ := mem_fronts.mp (oldest_mem h)
  rw [lookup_trimmed, Option.map_eq_some_iff] at hlookup
  obtain ⟨before, hbefore, htail⟩ := hlookup
  rw [if_pos hreceiver] at htail
  exact ⟨hreceiver, before, rest, hbefore, htail⟩

/-- **The queues after a pull**: the receiver's lose their expired fronts and the chosen frame,
the others are as they were. -/
theorem lookup_pullNext (receiver : String) (nowUnixUs : Nat) (key : DeliveryKey) :
    (lane.pullNext isExpired receiver nowUnixUs).2.queues.lookup key =
      (lane.queues.lookup key).map fun queue =>
        if key.receiverEndpointId = receiver then
          if (chosen isExpired lane receiver nowUnixUs).map Prod.fst = some key then
            (liveTail isExpired nowUnixUs queue).tail
          else liveTail isExpired nowUnixUs queue
        else queue := by
  cases hchosen : chosen isExpired lane receiver nowUnixUs with
  | none =>
      have hqueues : (lane.pullNext isExpired receiver nowUnixUs).2.queues =
          lane.trimmed isExpired receiver nowUnixUs := by
        rw [pullNext_none (by rw [pullNext_fst, hchosen, Option.map_none])]
      rw [hqueues, lookup_trimmed]
      simp only [Option.map_none, reduceCtorEq, if_false]
  | some front =>
      obtain ⟨from_, frame⟩ := front
      obtain ⟨hreceiver, before, rest, hbefore, htail⟩ := chosen_eq_some hchosen
      -- the second pass pops the queue that the first one has trimmed
      have hold : (lane.trimmed isExpired receiver nowUnixUs).lookup from_ =
          some (frame :: rest) := by
        rw [lookup_trimmed, hbefore, Option.map_some, if_pos hreceiver, htail]
      have hqueues : (lane.pullNext isExpired receiver nowUnixUs).2.queues =
          (lane.trimmed isExpired receiver nowUnixUs).replace from_ rest := by
        unfold chosen at hchosen
        simp only [pullNext, hchosen, hold, Option.getD_some, List.tail_cons]
      rw [hqueues]
      by_cases hkey : key = from_
      · rw [hkey, AList.lookup_replace_self rest hold, hbefore, Option.map_some, Option.map_some,
          if_pos hreceiver, if_pos rfl, htail, List.tail_cons]
      · -- a queue the frame was not taken from
        have hother : ¬ some from_ = some key := by
          intro h
          cases h
          exact hkey rfl
        rw [AList.lookup_replace_ne rest _ hkey, lookup_trimmed]
        simp only [Option.map_some, if_neg hother]

/-- Nothing is chosen exactly when every frame queued for the receiver has expired. -/
theorem chosen_eq_none {receiver : String} {nowUnixUs : Nat} :
    chosen isExpired lane receiver nowUnixUs = none ↔
      ∀ key queue, lane.queues.lookup key = some queue → key.receiverEndpointId = receiver →
        ∀ frame ∈ queue, isExpired frame nowUnixUs = true := by
  unfold chosen
  rw [oldest_eq_none]
  constructor
  · intro hnil key queue hlookup hreceiver
    -- a live frame would be the front of its trimmed queue
    have hempty : liveTail isExpired nowUnixUs queue = [] := by
      cases htail : liveTail isExpired nowUnixUs queue with
      | nil => rfl
      | cons frame rest =>
          have hfront : (key, frame) ∈ fronts (lane.trimmed isExpired receiver nowUnixUs) receiver := by
            refine mem_fronts.mpr ⟨hreceiver, rest, ?_⟩
            rw [lookup_trimmed, hlookup, Option.map_some, if_pos hreceiver, htail]
          rw [hnil] at hfront
          cases hfront
    unfold liveTail at hempty
    rw [List.dropWhile_eq_nil_iff] at hempty
    exact hempty
  · intro hexpired
    rw [List.eq_nil_iff_forall_not_mem]
    rintro ⟨key, frame⟩ hfront
    obtain ⟨hreceiver, rest, hlookup⟩ := mem_fronts.mp hfront
    rw [lookup_trimmed, Option.map_eq_some_iff] at hlookup
    obtain ⟨queue, hqueue, htail⟩ := hlookup
    rw [if_pos hreceiver] at htail
    unfold liveTail at htail
    have hnil := List.dropWhile_eq_nil_iff.mpr (hexpired key queue hqueue hreceiver)
    rw [hnil] at htail
    cases htail

/-! ## §3. The queues list published frames. -/

/-- The frame an operation publishes. -/
def publishedFrame (isExpired : EphemeralTalkbackFrameV1 → Nat → Bool) (lane : TalkbackLane) :
    Op → Option EphemeralTalkbackFrameV1
  | .publish frame nowUnixUs =>
      match (lane.publish isExpired frame nowUnixUs).1 with
      | .ok _ => some frame
      | .error _ => none
  | _ => none

/-- The frames a run publishes, in order. -/
def published (isExpired : EphemeralTalkbackFrameV1 → Nat → Bool) (lane : TalkbackLane)
    (ops : List Op) : List EphemeralTalkbackFrameV1 :=
  (trace (step isExpired) lane ops).filterMap fun e => publishedFrame isExpired e.1 e.2

/-- The published frames of one publisher. -/
def ofPublisher (frames : List EphemeralTalkbackFrameV1) (publisher : PublisherKey) :
    List EphemeralTalkbackFrameV1 :=
  frames.filter fun frame => frame.publisher == publisher

/-- A queue is what is left of the frames its publisher published. -/
def QueuesPublished (lane : TalkbackLane) (frames : List EphemeralTalkbackFrameV1) : Prop :=
  ∀ key queue, lane.queues.lookup key = some queue →
    queue.Sublist (ofPublisher frames key.publisher)

theorem liveTail_sublist (nowUnixUs : Nat) (queue : List EphemeralTalkbackFrameV1) :
    (liveTail isExpired nowUnixUs queue).Sublist queue :=
  List.dropWhile_sublist _

/-- Queues that only lose frames. -/
theorem QueuesPublished.shrink {lane' : TalkbackLane} {frames : List EphemeralTalkbackFrameV1}
    (h : QueuesPublished lane frames)
    (hqueues : ∀ key queue, lane'.queues.lookup key = some queue →
      ∃ before, lane.queues.lookup key = some before ∧ queue.Sublist before) :
    QueuesPublished lane' frames := by
  intro key queue hlookup
  obtain ⟨before, hbefore, hsub⟩ := hqueues key queue hlookup
  exact hsub.trans (h key before hbefore)

theorem QueuesPublished.purge {lane' : TalkbackLane} {frames : List EphemeralTalkbackFrameV1}
    {gone : AudienceKey → Prop} (h : QueuesPublished lane frames) (hpurged : Purged gone lane lane') :
    QueuesPublished lane' frames := by
  refine h.shrink ?_
  intro key queue hlookup
  exact ⟨queue, ((hpurged.queues key queue).mp hlookup).1, List.Sublist.refl _⟩

/-- A published frame joins the end of its receivers' queues. -/
theorem QueuesPublished.publish {lane' : TalkbackLane} {frames : List EphemeralTalkbackFrameV1}
    {frame : EphemeralTalkbackFrameV1} {nowUnixUs : Nat} {route : TalkbackRoutingSnapshotV1}
    {window : SequenceWindow} (h : QueuesPublished lane frames)
    (ha : Admitted isExpired lane lane' frame nowUnixUs route window) :
    QueuesPublished lane' (frames ++ [frame]) := by
  have hgrown : ∀ publisher,
      (ofPublisher frames publisher).Sublist (ofPublisher (frames ++ [frame]) publisher) := by
    intro publisher
    unfold ofPublisher
    rw [List.filter_append]
    exact List.sublist_append_left _ _
  intro key queue hlookup
  rw [ha.queues] at hlookup
  rcases foldl_offer_lookup route.nodup_subscriberValues hlookup with
    hold | ⟨subscriber, -, rfl, -, kept, hsub, rfl⟩
  · exact (h key queue hold).trans (hgrown _)
  · -- the queue of one of the receivers: what it kept, then the frame
    have hkept : kept.Sublist (ofPublisher frames frame.publisher) := by
      cases hbefore : lane.queues.lookup
          ⟨frame.publisher, subscriber.participantId, subscriber.endpointId⟩ with
      | none =>
          rw [hbefore, Option.getD_none] at hsub
          exact hsub.trans (List.nil_sublist _)
      | some before =>
          rw [hbefore, Option.getD_some] at hsub
          exact hsub.trans (h _ before hbefore)
    show (kept ++ [frame]).Sublist (ofPublisher (frames ++ [frame]) frame.publisher)
    unfold ofPublisher at hkept ⊢
    have hown : [frame].filter (fun other => other.publisher == frame.publisher) = [frame] := by
      rw [List.filter_cons, beq_self_eq_true, if_pos rfl, List.filter_nil]
    rw [List.filter_append, hown]
    exact hkept.append (List.Sublist.refl _)

/-- **One operation**: its published frame, if any, is the only one that enters a queue. -/
theorem QueuesPublished.step {frames : List EphemeralTalkbackFrameV1}
    (h : QueuesPublished lane frames) (op : Op) :
    QueuesPublished (step isExpired lane op).2
      (frames ++ (publishedFrame isExpired lane op).toList) := by
  cases op with
  | installSnapshot snapshot =>
      show QueuesPublished _ (frames ++ [])
      rw [List.append_nil]
      exact h.purge (installSnapshot_purged snapshot)
  | removeAudience sessionId audienceId =>
      show QueuesPublished _ (frames ++ [])
      rw [List.append_nil]
      exact h.purge (removeAudience_purged sessionId audienceId)
  | endSession sessionId =>
      show QueuesPublished _ (frames ++ [])
      rw [List.append_nil]
      exact h.purge (endSession_purged sessionId)
  | publish frame nowUnixUs =>
      show QueuesPublished (lane.publish isExpired frame nowUnixUs).2 _
      rcases @publish_cases isExpired lane frame nowUnixUs with
        ⟨⟨error, herror⟩, hsame⟩ | ⟨fanout, route, window, hok, hadmitted⟩
      · simp only [publishedFrame, herror, Option.toList_none, List.append_nil]
        refine h.shrink ?_
        intro key queue hlookup
        rw [hsame.queues] at hlookup
        exact ⟨queue, hlookup, List.Sublist.refl _⟩
      · simp only [publishedFrame, hok, Option.toList_some]
        exact h.publish hadmitted
  | pullNext receiver nowUnixUs =>
      show QueuesPublished (lane.pullNext isExpired receiver nowUnixUs).2 (frames ++ [])
      rw [List.append_nil]
      refine h.shrink ?_
      intro key queue hlookup
      rw [lookup_pullNext, Option.map_eq_some_iff] at hlookup
      obtain ⟨before, hbefore, rfl⟩ := hlookup
      refine ⟨before, hbefore, ?_⟩
      -- expired fronts go, and from the chosen queue the frame that is returned
      split
      · split
        · exact (List.tail_sublist _).trans (liveTail_sublist nowUnixUs before)
        · exact liveTail_sublist nowUnixUs before
      · exact List.Sublist.refl _
  | acknowledgePlayout ack nowUnixUs =>
      show QueuesPublished (lane.acknowledgePlayout ack nowUnixUs).2 (frames ++ [])
      rw [List.append_nil]
      have hqueues : (lane.acknowledgePlayout ack nowUnixUs).2.queues = lane.queues := by
        rcases @acknowledgePlayout_cases lane ack nowUnixUs with ⟨-, hsame⟩ | ⟨-, mark, haccepted⟩
        · exact hsame.queues
        · exact haccepted.queues
      refine h.shrink ?_
      intro key queue hlookup
      rw [hqueues] at hlookup
      exact ⟨queue, hlookup, List.Sublist.refl _⟩

theorem queuesPublished_run {config : TalkbackLaneConfig} (hnew : new config = .ok lane)
    (ops : List Op) :
    QueuesPublished (exec (TalkbackLane.step isExpired) lane ops) (published isExpired lane ops) := by
  refine exec_history (TalkbackLane.step isExpired)
    (fun ops after => QueuesPublished after (published isExpired lane ops)) lane ?_ ?_ ops
  · unfold new at hnew
    split at hnew
    · cases hnew
    · cases hnew
      nofun
  · intro ops op ih
    have hstep := @QueuesPublished.step isExpired _ _ ih op
    unfold published at hstep ⊢
    rw [filterMap_trace_append_singleton]
    exact hstep

/-! ## §4. The oldest of all live frames. -/

/-- Every publisher published its frames in the order they were accepted. -/
def PublishedInOrder (frames : List EphemeralTalkbackFrameV1) : Prop :=
  frames.Pairwise fun a b => a.publisher = b.publisher → a.acceptedAtUnixUs ≤ b.acceptedAtUnixUs

instance (frames : List EphemeralTalkbackFrameV1) : Decidable (PublishedInOrder frames) :=
  inferInstanceAs (Decidable (frames.Pairwise _))

/-- Queues of publishers that publish in order are in order. -/
theorem QueuesPublished.ordered {frames : List EphemeralTalkbackFrameV1}
    (h : QueuesPublished lane frames) (hordered : PublishedInOrder frames) {key : DeliveryKey}
    {queue : List EphemeralTalkbackFrameV1} (hlookup : lane.queues.lookup key = some queue) :
    queue.Pairwise fun a b => a.acceptedAtUnixUs ≤ b.acceptedAtUnixUs := by
  refine List.Pairwise.sublist (h key queue hlookup) ?_
  have hown : ∀ frame ∈ ofPublisher frames key.publisher, frame.publisher = key.publisher := by
    intro frame hmem
    exact beq_iff_eq.mp (List.mem_filter.mp hmem).2
  have hfiltered : (ofPublisher frames key.publisher).Pairwise
      fun a b => a.publisher = b.publisher → a.acceptedAtUnixUs ≤ b.acceptedAtUnixUs :=
    List.Pairwise.sublist List.filter_sublist hordered
  refine hfiltered.imp_of_mem ?_
  intro a b ha hb hle
  exact hle ((hown a ha).trans (hown b hb).symm)

/-- In a queue in order the first live frame is the oldest live frame. -/
theorem le_of_liveTail {nowUnixUs : Nat} {queue rest : List EphemeralTalkbackFrameV1}
    {front frame : EphemeralTalkbackFrameV1}
    (hordered : queue.Pairwise fun a b => a.acceptedAtUnixUs ≤ b.acceptedAtUnixUs)
    (htail : liveTail isExpired nowUnixUs queue = front :: rest) (hmem : frame ∈ queue)
    (hlive : isExpired frame nowUnixUs = false) :
    front.acceptedAtUnixUs ≤ frame.acceptedAtUnixUs := by
  unfold liveTail at htail
  rw [← List.takeWhile_append_dropWhile (p := fun frame => isExpired frame nowUnixUs) (l := queue),
    htail] at hmem hordered
  rcases List.mem_append.mp hmem with hmem | hmem
  · -- what is dropped before the front has expired
    have hexpired := List.mem_takeWhile_imp (p := fun frame => isExpired frame nowUnixUs) hmem
    rw [hlive] at hexpired
    cases hexpired
  · rcases List.mem_cons.mp hmem with rfl | hmem
    · exact Nat.le_refl _
    · exact (List.pairwise_cons.mp (List.pairwise_append.mp hordered).2.1).1 frame hmem

/-- The frame waits in one of the receiver's queues. -/
def QueuedFor (lane : TalkbackLane) (receiver : String) (frame : EphemeralTalkbackFrameV1) : Prop :=
  ∃ key queue, lane.queues.lookup key = some queue ∧ key.receiverEndpointId = receiver ∧
    frame ∈ queue

/-- What was dropped from the front of the queue has expired. -/
def DropsExpired (isExpired : EphemeralTalkbackFrameV1 → Nat → Bool) (nowUnixUs : Nat)
    (before after : List EphemeralTalkbackFrameV1) : Prop :=
  ∃ dropped, before = dropped ++ after ∧ ∀ frame ∈ dropped, isExpired frame nowUnixUs = true

theorem liveTail_dropsExpired (nowUnixUs : Nat) (queue : List EphemeralTalkbackFrameV1) :
    DropsExpired isExpired nowUnixUs queue (liveTail isExpired nowUnixUs queue) := by
  refine ⟨queue.takeWhile fun frame => isExpired frame nowUnixUs, ?_, ?_⟩
  · exact List.takeWhile_append_dropWhile.symm
  · intro frame hmem
    exact List.mem_takeWhile_imp (p := fun frame => isExpired frame nowUnixUs) hmem

/-- A queue of the receiver that the frame is not taken from loses expired frames only. -/
theorem dropsExpired_of_not_chosen {receiver : String} {nowUnixUs : Nat} {key : DeliveryKey}
    {before : List EphemeralTalkbackFrameV1} (hreceiver : key.receiverEndpointId = receiver)
    (hother : (chosen isExpired lane receiver nowUnixUs).map Prod.fst ≠ some key)
    (hlookup : lane.queues.lookup key = some before) :
    ∃ after, (lane.pullNext isExpired receiver nowUnixUs).2.queues.lookup key = some after ∧
      DropsExpired isExpired nowUnixUs before after := by
  refine ⟨liveTail isExpired nowUnixUs before, ?_, liveTail_dropsExpired nowUnixUs before⟩
  rw [lookup_pullNext, hlookup, Option.map_some, if_pos hreceiver, if_neg hother]

/-- The chosen front in queues in order: live, and the oldest of the live frames. -/
theorem chosen_oldest {frames : List EphemeralTalkbackFrameV1} (h : QueuesPublished lane frames)
    (hordered : PublishedInOrder frames) {receiver : String} {nowUnixUs : Nat} {key : DeliveryKey}
    {frame : EphemeralTalkbackFrameV1}
    (hchosen : chosen isExpired lane receiver nowUnixUs = some (key, frame)) :
    isExpired frame nowUnixUs = false ∧
    ∀ other, lane.QueuedFor receiver other → isExpired other nowUnixUs = false →
      frame.acceptedAtUnixUs ≤ other.acceptedAtUnixUs := by
  refine ⟨?_, ?_⟩
  · obtain ⟨-, before, rest, -, htail⟩ := chosen_eq_some hchosen
    unfold liveTail at htail
    have hne : (before.dropWhile fun frame => isExpired frame nowUnixUs) ≠ [] := by
      rw [htail]
      nofun
    have hhead := List.head_dropWhile_not (fun frame => isExpired frame nowUnixUs) hne
    simpa [htail] using hhead
  · rintro other ⟨source, queue, hlookup, hreceiver, hmem⟩ hlive
    -- the queue of `other` has a live front, and the choice is among the fronts
    cases htail : liveTail isExpired nowUnixUs queue with
    | nil =>
        unfold liveTail at htail
        have hexpired := List.dropWhile_eq_nil_iff.mp htail other hmem
        rw [hlive] at hexpired
        cases hexpired
    | cons front rest =>
        have hfront : (source, front) ∈ fronts (lane.trimmed isExpired receiver nowUnixUs) receiver := by
          refine mem_fronts.mpr ⟨hreceiver, rest, ?_⟩
          rw [lookup_trimmed, hlookup, Option.map_some, if_pos hreceiver, htail]
        have hbest := oldest_le hchosen (source, front) hfront
        have hsorted := le_of_liveTail (h.ordered hordered hlookup) htail hmem hlive
        exact Nat.le_trans hbest hsorted

/-- **`pull_next` yields the oldest live frame**, over every run in which publishers publish in
order: nothing when every frame queued for the endpoint has expired; else a live frame no live
frame of the endpoint is older than.  The endpoint's queues lose it and expired frames, the other
queues lose nothing. -/
theorem pullNext_oldest {config : TalkbackLaneConfig} {start : TalkbackLane}
    (hnew : new config = .ok start) (ops : List Op)
    (hordered : PublishedInOrder (published isExpired start ops)) (receiver : String)
    (nowUnixUs : Nat) :
    let lane := exec (step isExpired) start ops
    let result := (lane.pullNext isExpired receiver nowUnixUs).1
    let lane' := (lane.pullNext isExpired receiver nowUnixUs).2
    (result = none ↔
      ∀ frame, lane.QueuedFor receiver frame → isExpired frame nowUnixUs = true) ∧
    (∀ frame, result = some frame →
      isExpired frame nowUnixUs = false ∧
      (∀ other, lane.QueuedFor receiver other → isExpired other nowUnixUs = false →
        frame.acceptedAtUnixUs ≤ other.acceptedAtUnixUs) ∧
      ∃ source, source.receiverEndpointId = receiver ∧
        (∃ before after, lane.queues.lookup source = some before ∧
          lane'.queues.lookup source = some after ∧
          DropsExpired isExpired nowUnixUs before (frame :: after)) ∧
        ∀ key before, key ≠ source → key.receiverEndpointId = receiver →
          lane.queues.lookup key = some before →
          ∃ after, lane'.queues.lookup key = some after ∧
            DropsExpired isExpired nowUnixUs before after) ∧
    (result = none → ∀ key before, key.receiverEndpointId = receiver →
      lane.queues.lookup key = some before →
      ∃ after, lane'.queues.lookup key = some after ∧
        DropsExpired isExpired nowUnixUs before after) ∧
    (∀ key, lane.queues.lookup key = none → lane'.queues.lookup key = none) ∧
    ∀ key, key.receiverEndpointId ≠ receiver →
      lane'.queues.lookup key = lane.queues.lookup key := by
  intro lane result lane'
  have hpublished : QueuesPublished lane (published isExpired start ops) :=
    queuesPublished_run hnew ops
  have hresult : result = (chosen isExpired lane receiver nowUnixUs).map Prod.snd :=
    pullNext_fst receiver nowUnixUs
  refine ⟨?_, ?_, ?_, ?_, ?_⟩
  · rw [hresult, Option.map_eq_none_iff, chosen_eq_none]
    constructor
    · rintro hexpired frame ⟨key, queue, hlookup, hreceiver, hmem⟩
      exact hexpired key queue hlookup hreceiver frame hmem
    · intro hexpired key queue hlookup hreceiver frame hmem
      exact hexpired frame ⟨key, queue, hlookup, hreceiver, hmem⟩
  · intro frame hframe
    rw [hresult, Option.map_eq_some_iff] at hframe
    obtain ⟨⟨source, found⟩, hchosen, rfl⟩ := hframe
    obtain ⟨hlive, hminimal⟩ := chosen_oldest hpublished hordered hchosen
    obtain ⟨hreceiver, before, rest, hbefore, htail⟩ := chosen_eq_some hchosen
    refine ⟨hlive, hminimal, source, hreceiver, ⟨before, rest, hbefore, ?_, ?_⟩, ?_⟩
    · show (lane.pullNext isExpired receiver nowUnixUs).2.queues.lookup source = some rest
      rw [lookup_pullNext, hbefore, hchosen, Option.map_some, Option.map_some, if_pos hreceiver,
        if_pos rfl, htail, List.tail_cons]
    · have hdrops := @liveTail_dropsExpired isExpired nowUnixUs before
      rw [htail] at hdrops
      exact hdrops
    · intro key queue hne hkey hlookup
      refine dropsExpired_of_not_chosen hkey ?_ hlookup
      rw [hchosen]
      intro hsame
      cases hsame
      exact hne rfl
  · intro hnone key before hkey hlookup
    rw [hresult, Option.map_eq_none_iff] at hnone
    refine dropsExpired_of_not_chosen hkey ?_ hlookup
    rw [hnone]
    nofun
  · intro key hlookup
    show (lane.pullNext isExpired receiver nowUnixUs).2.queues.lookup key = none
    rw [lookup_pullNext, hlookup, Option.map_none]
  · intro key hother
    show (lane.pullNext isExpired receiver nowUnixUs).2.queues.lookup key = _
    rw [lookup_pullNext]
    simp only [if_neg hother, Option.map_id']

/-- Two frames of one publisher, accepted one after the other. -/
def cueOps : List Op :=
  [.installSnapshot Ledger.cueSnapshot,
    .publish (Ledger.cueFrame 1) 1800000000000000,
    .publish { Ledger.cueFrame 2 with acceptedAtUnixUs := 1800000000000010 } 1800000000000020]

theorem pullNext_oldest_cue :
    ((exec (step Ledger.pastDeadline) { config := {} } cueOps).pullNext Ledger.pastDeadline
      "recv_three" 1800000000000030).1 = some (Ledger.cueFrame 1) ∧
    ∀ other, (exec (step Ledger.pastDeadline) { config := {} } cueOps).QueuedFor "recv_three" other →
      Ledger.pastDeadline other 1800000000000030 = false →
      1800000000000000 ≤ other.acceptedAtUnixUs := by
  have hnew : new {} = .ok { config := {} } := rfl
  have hpull : ((exec (step Ledger.pastDeadline) { config := {} } cueOps).pullNext
      Ledger.pastDeadline "recv_three" 1800000000000030).1 = some (Ledger.cueFrame 1) := by
    decide +kernel
  refine ⟨hpull, ?_⟩
  exact ((pullNext_oldest hnew cueOps (by decide +kernel) "recv_three"
    1800000000000030).2.1 _ hpull).2.1

end TalkbackLane

end AvMesh.Talkback
