/-
  AvMesh.Telemetry.Rounds
  ───────────────────────
  **WHAT THE TELEMETRY SENDER SENDS, AND WHAT ITS COUNTERS SAY.**

  `Move` lists what a step of the publisher or of the sender does, each with
  what it depends on; the invariants are derived from it.

    • `outbound_rounds`      — every block that is over was sent to every target,
                               datagram by datagram, in order: all of it, or all
                               its source datagrams and repairs up to the moment
                               when a newer envelope waited,
    • `outbound_accounting`  — the counters account for every snapshot and every
                               datagram, modulo 2^64,
    • `outbound_wakes`       — the sender never sleeps on a queue that holds
                               something.
-/
import AvMesh.Lib.Wrapping
import AvMesh.Telemetry.Outbound
import AvMesh.Telemetry.Replay

namespace AvMesh.Telemetry

open AvMesh.Lib
open TelemetryFecMonitor

/-- Every datagram to every target, datagram by datagram. -/
def grid (targets : List SocketAddr) (datagrams : List Bytes) : List Attempt :=
  datagrams.flatMap fun datagram => targets.map fun target => ⟨target, datagram⟩

namespace SenderPoint

/-- The block the sender is at. -/
def work : SenderPoint → Option EncodedEnvelope
  | .pop => none
  | .waiting => none
  | .datagram work _ => some work
  | .target work _ _ => some work

/-- What the sender has tried of that block. -/
def tried (targets : List SocketAddr) : SenderPoint → List Attempt
  | .pop => []
  | .waiting => []
  | .datagram work index => grid targets (work.block.datagrams.take index)
  | .target work index sent =>
      grid targets (work.block.datagrams.take index)
        ++ grid (targets.take sent) work.block.datagrams[index]?.toList

/-- The sender is within the block. -/
def Within (targets : List SocketAddr) : SenderPoint → Prop
  | .pop => True
  | .waiting => True
  | .datagram work index => index ≤ work.block.datagrams.length
  | .target work index sent => index < work.block.datagrams.length ∧ sent ≤ targets.length

end SenderPoint

/-- All of the block was sent; or all its source datagrams were, and a newer envelope waited. -/
def Round.Ended (r : Round) : Prop :=
  r.stop = r.work.block.datagrams.length ∨
    (r.work.block.sourceDatagrams ≤ r.stop ∧ r.stop < r.work.block.datagrams.length ∧ r.newer ≠ [])

/-- What was tried of a block that is over. -/
def Round.tried (targets : List SocketAddr) (r : Round) : List Attempt :=
  grid targets (r.work.block.datagrams.take r.stop)

namespace TelemetryFecOutbound

variable {W : TelemetryFecWire} {S : SnapshotWire} {maxInstant : Nat}
variable {s s' : TelemetryFecOutbound W S}

/-! ## §1. The moves. -/

/-- **What a step does**, with what it depends on. -/
inductive Move (s : TelemetryFecOutbound W S) : TelemetryFecOutbound W S → Prop where
  | unserialized :
      Move s { s.record recordEncodeError with unserialized := s.unserialized + 1 }
  | oversized :
      Move s { s.record recordOversizedSnapshot with
        publisher.nextSequence := s.publisher.nextSequence + 1 }
  | queued {snapshot : MeshSnapshot S.Content} {payload encoded : Bytes} {periodMs : Nat}
      {outcome : QueuePushOutcome} {queue : QueueState} (hidle : s.pushed = none)
      (hpayload : S.encodeMeshTelemetryBinary snapshot = some payload)
      (hencode : TelemetryEnvelope.encode W.hash (s.publisher.envelope snapshot payload periodMs)
        = .ok encoded)
      (hpush : LatestTelemetryQueue.push s.queue encoded = (.ok outcome, queue)) :
      Move s { s with
        publisher.nextSequence := s.publisher.nextSequence + 1
        queue := queue
        pushed := some outcome
        submissions := s.submissions
          ++ [⟨snapshot, s.publisher.envelope snapshot payload periodMs⟩] }
  | notified {outcome : QueuePushOutcome} (hpushed : s.pushed = some outcome) :
      Move s { s.record (recordSubmission outcome) with pushed := none, permit := true }
  | waits (hpoint : s.point = .pop) (hempty : s.queue.blocks = []) :
      Move s { s with point := .waiting }
  | unencoded {envelope : Bytes} {queue : QueueState} {encoder : TelemetryFecEncoder W}
      {error : TelemetryPushError W.toTelemetryFecCrates} (hpoint : s.point = .pop)
      (hpop : LatestTelemetryQueue.tryPop s.queue = (some envelope, queue))
      (hencode : s.encoder.encode envelope = (.error error, encoder)) :
      Move s { s.record recordEncodeError with queue := queue, encoder := encoder }
  | encoded {envelope : Bytes} {queue : QueueState} {encoder : TelemetryFecEncoder W}
      {block : EncodedTelemetryBlock} (hpoint : s.point = .pop)
      (hpop : LatestTelemetryQueue.tryPop s.queue = (some envelope, queue))
      (hencode : s.encoder.encode envelope = (.ok block, encoder)) :
      Move s { s.record (recordEncodedBlock envelope.length block.sourceDatagrams
          (block.datagrams.length - block.sourceDatagrams)) with
        queue := queue
        encoder := encoder
        encoded := s.encoded ++ [⟨envelope, block⟩]
        point := .datagram ⟨envelope, block⟩ 0 }
  | wakes (hpoint : s.point = .waiting) (hpermit : s.permit = true) :
      Move s { s with permit := false, point := .pop }
  | stops (pacer : TelemetryWirePacer) : Move s { s with pacer := pacer, stopped := true }
  | finished {work : EncodedEnvelope} {index : Nat} (hpoint : s.point = .datagram work index)
      (hend : work.block.datagrams.length ≤ index) : Move s (s.finish work index)
  | skipped {work : EncodedEnvelope} {index : Nat} (hpoint : s.point = .datagram work index)
      (hlt : index < work.block.datagrams.length) (hrepair : work.block.sourceDatagrams ≤ index)
      (hnewer : s.queue.blocks ≠ []) :
      Move s ((s.record (recordSkippedRepairs (work.block.datagrams.length - index)
        s.targets.length)).finish work index)
  | begins {work : EncodedEnvelope} {index : Nat} (hpoint : s.point = .datagram work index)
      (hlt : index < work.block.datagrams.length) :
      Move s { s with point := .target work index 0 }
  | tried {work : EncodedEnvelope} {index target : Nat} {address : SocketAddr} {datagram : Bytes}
      {recorded : Recorded} (pacer : TelemetryWirePacer)
      (hpoint : s.point = .target work index target)
      (haddress : s.targets[target]? = some address)
      (hdatagram : work.block.datagrams[index]? = some datagram)
      (hrecorded : (∃ repair bytes, recorded = recordSentDatagram repair bytes)
        ∨ recorded = recordSendDrop) :
      Move s { s.record recorded with
        pacer := pacer
        attempts := s.attempts ++ [⟨address, datagram⟩]
        point := .target work index (target + 1) }
  | passed {work : EncodedEnvelope} {index target : Nat}
      (hpoint : s.point = .target work index target)
      (hend : s.targets[target]? = none ∨ work.block.datagrams[index]? = none) :
      Move s { s with point := .datagram work (index + 1) }

theorem publish_move (hidle : s.pushed = none) (snapshot : MeshSnapshot S.Content)
    (periodMs : Nat) : Move s (s.publish snapshot periodMs) := by
  unfold publish
  split
  · exact .unserialized
  next payload hpayload =>
    dsimp only
    split
    · exact .oversized
    next encoded hencode =>
      split
      · exact .oversized
      next outcome queue hpush => exact .queued hidle hpayload hencode hpush

theorem popEnvelope_move (hpoint : s.point = .pop) : Move s s.popEnvelope := by
  unfold popEnvelope
  split
  next queue hpop =>
    refine .waits hpoint ?_
    unfold LatestTelemetryQueue.tryPop at hpop
    split at hpop
    next hempty => exact hempty
    · cases hpop
  next envelope queue hpop =>
    dsimp only
    split
    next error encoder hencode => exact .unencoded hpoint hpop hencode
    next block encoder hencode => exact .encoded hpoint hpop hencode

theorem nextDatagram_move {work : EncodedEnvelope} {index : Nat}
    (hpoint : s.point = .datagram work index) : Move s (s.nextDatagram work index) := by
  unfold nextDatagram
  split
  next hend => exact .finished hpoint hend
  next hlt =>
    split
    next hskip => exact .skipped hpoint (Nat.not_le.mp hlt) hskip.1 hskip.2
    next => exact .begins hpoint (Nat.not_le.mp hlt)

theorem nextTarget_move {work : EncodedEnvelope} {index target : Nat}
    (hpoint : s.point = .target work index target) (env : SendEnv) :
    Move s (nextTarget maxInstant s work index target env) := by
  unfold nextTarget
  split
  next address datagram haddress hdatagram =>
    split
    next => exact .stops s.pacer
    next pacer _ => exact .stops pacer
    next pacer _ =>
      refine .tried pacer hpoint haddress hdatagram ?_
      split
      · exact .inl ⟨_, _, rfl⟩
      · exact .inr rfl
  next hnone =>
    refine .passed hpoint ?_
    cases haddress : s.targets[target]? with
    | none => exact .inl rfl
    | some address =>
        cases hdatagram : work.block.datagrams[index]? with
        | none => exact .inr rfl
        | some datagram => exact (hnone address datagram haddress hdatagram).elim

/-- **A step is a move, or does nothing.** -/
theorem step_move (s : TelemetryFecOutbound W S) (op : Op S) :
    (step maxInstant s op).2 = s ∨ Move s (step maxInstant s op).2 := by
  cases op with
  | publish snapshot periodMs =>
      show (if s.pushed.isSome then s else s.publish snapshot periodMs) = s
        ∨ Move s (if s.pushed.isSome then s else s.publish snapshot periodMs)
      split
      · exact .inl rfl
      next hidle =>
        exact .inr (publish_move (Option.not_isSome_iff_eq_none.mp hidle) snapshot periodMs)
  | notify =>
      show s.notify = s ∨ Move s s.notify
      unfold notify
      split
      · exact .inl rfl
      next outcome hpushed => exact .inr (.notified hpushed)
  | send env =>
      show s.send maxInstant env = s ∨ Move s (s.send maxInstant env)
      unfold send
      split
      · exact .inl rfl
      · split
        next hpoint => exact .inr (popEnvelope_move hpoint)
        next hpoint =>
          split
          · exact .inr (.stops s.pacer)
          · split
            next hpermit => exact .inr (.wakes hpoint hpermit)
            next => exact .inl rfl
        next work index hpoint => exact .inr (nextDatagram_move hpoint)
        next work index target hpoint => exact .inr (nextTarget_move hpoint env)

/-- **The rule for invariants of the two tasks.** -/
theorem exec_of_move (I : TelemetryFecOutbound W S → Prop) (hmove : ∀ s s', Move s s' → I s → I s')
    (ops : List (Op S)) (hs : I s) : I (exec (step maxInstant) s ops) := by
  refine exec_invariant (step maxInstant) I ?_ ops hs
  intro s op h
  rcases step_move s op with hstep | hstep
  · rw [hstep]
    exact h
  · exact hmove _ _ hstep h

/-! ## §2. Rounds. -/

theorem grid_append (targets : List SocketAddr) (datagrams datagrams' : List Bytes) :
    grid targets (datagrams ++ datagrams') = grid targets datagrams ++ grid targets datagrams' :=
  List.flatMap_append

section Tried

variable {targets : List SocketAddr} {work : EncodedEnvelope} {index sent : Nat}

theorem SenderPoint.tried_target_zero :
    (SenderPoint.target work index 0).tried targets
      = (SenderPoint.datagram work index).tried targets := by
  show _ ++ grid (targets.take 0) work.block.datagrams[index]?.toList = _
  have hnone : grid [] work.block.datagrams[index]?.toList = [] := by
    unfold grid
    simp
  rw [List.take_zero, hnone]
  exact List.append_nil _

/-- One more target. -/
theorem SenderPoint.tried_target_succ {address : SocketAddr} {datagram : Bytes}
    (haddress : targets[sent]? = some address)
    (hdatagram : work.block.datagrams[index]? = some datagram) :
    (SenderPoint.target work index (sent + 1)).tried targets
      = (SenderPoint.target work index sent).tried targets ++ [⟨address, datagram⟩] := by
  show _ ++ grid (targets.take (sent + 1)) work.block.datagrams[index]?.toList
    = (_ ++ grid (targets.take sent) work.block.datagrams[index]?.toList) ++ [⟨address, datagram⟩]
  rw [List.take_add_one, haddress, hdatagram, List.append_assoc]
  simp [grid]

/-- All the targets of a datagram. -/
theorem SenderPoint.tried_datagram_succ (hall : targets.take sent = targets) :
    (SenderPoint.datagram work (index + 1)).tried targets
      = (SenderPoint.target work index sent).tried targets := by
  show grid targets (work.block.datagrams.take (index + 1))
    = _ ++ grid (targets.take sent) work.block.datagrams[index]?.toList
  rw [List.take_add_one, grid_append, hall]

end Tried

/-- The rounds of the sender: what was tried of each block, and the block it is at. -/
structure Rounded (s : TelemetryFecOutbound W S) : Prop where
  within : s.point.Within s.targets
  attempts : s.attempts = (s.rounds.flatMap fun r => r.tried s.targets) ++ s.point.tried s.targets
  works : s.encoded = s.rounds.map Round.work ++ s.point.work.toList
  ended : ∀ r ∈ s.rounds, r.Ended

/-- A move that leaves the rounds and the sender alone. -/
theorem Rounded.of_same (h : Rounded s) (hpoint : s'.point = s.point)
    (htargets : s'.targets = s.targets) (hattempts : s'.attempts = s.attempts)
    (hrounds : s'.rounds = s.rounds) (hencoded : s'.encoded = s.encoded) : Rounded s' := by
  obtain ⟨hwithin, htried, hworks, hended⟩ := h
  constructor
  · rw [hpoint, htargets]
    exact hwithin
  · rw [hattempts, hrounds, hpoint, htargets]
    exact htried
  · rw [hencoded, hrounds, hpoint]
    exact hworks
  · rw [hrounds]
    exact hended

/-- The sender goes between `pop` and `waiting`. -/
theorem Rounded.of_idle (h : Rounded s) (hwork : s.point.work = none) (hidle : s'.point.work = none)
    (htargets : s'.targets = s.targets) (hattempts : s'.attempts = s.attempts)
    (hrounds : s'.rounds = s.rounds) (hencoded : s'.encoded = s.encoded) : Rounded s' := by
  have hnone : ∀ {point : SenderPoint}, point.work = none →
      point.Within s.targets ∧ point.tried s.targets = [] := by
    intro point hpoint
    cases point with
    | pop => exact ⟨trivial, rfl⟩
    | waiting => exact ⟨trivial, rfl⟩
    | datagram work index => cases hpoint
    | target work index target => cases hpoint
  constructor
  · rw [htargets]
    exact (hnone hidle).1
  · rw [hattempts, hrounds, htargets, (hnone hidle).2, h.attempts, (hnone hwork).2]
  · rw [hencoded, hrounds, hidle, h.works, hwork]
  · rw [hrounds]
    exact h.ended

/-- The sender is through with a block. -/
theorem Rounded.finish {work : EncodedEnvelope} {index : Nat} (h : Rounded s)
    (hpoint : s.point = .datagram work index)
    (hended : index = work.block.datagrams.length ∨
      (work.block.sourceDatagrams ≤ index ∧ index < work.block.datagrams.length ∧
        s.queue.blocks ≠ [])) : Rounded (s.finish work index) where
  within := trivial
  attempts := by
    let round : Round := ⟨work, index, s.queue.blocks⟩
    show s.attempts = (s.rounds ++ [round]).flatMap _ ++ []
    rw [h.attempts, hpoint, List.flatMap_append, List.append_nil]
    congr 1
    exact (List.append_nil _).symm
  works := by
    let round : Round := ⟨work, index, s.queue.blocks⟩
    show s.encoded = (s.rounds ++ [round]).map Round.work ++ []
    rw [h.works, hpoint, List.map_append, List.append_nil]
    rfl
  ended := by
    intro r hr
    rcases List.mem_append.mp hr with hr | hr
    · exact h.ended r hr
    · rw [List.mem_singleton.mp hr]
      exact hended

theorem Rounded.move (h : Rounded s) (hmove : Move s s') : Rounded s' := by
  have hwithin := h.within
  have hattempts := h.attempts
  have hworks := h.works
  cases hmove with
  | unserialized => exact h.of_same rfl rfl rfl rfl rfl
  | oversized => exact h.of_same rfl rfl rfl rfl rfl
  | queued => exact h.of_same rfl rfl rfl rfl rfl
  | notified => exact h.of_same rfl rfl rfl rfl rfl
  | unencoded => exact h.of_same rfl rfl rfl rfl rfl
  | stops => exact h.of_same rfl rfl rfl rfl rfl
  | waits hpoint => exact h.of_idle (by rw [hpoint]; rfl) rfl rfl rfl rfl rfl
  | wakes hpoint => exact h.of_idle (by rw [hpoint]; rfl) rfl rfl rfl rfl rfl
  | @encoded envelope queue encoder block hpoint =>
      rw [hpoint] at hattempts hworks
      constructor
      · exact Nat.zero_le _
      · show s.attempts = _ ++ grid s.targets (block.datagrams.take 0)
        rw [hattempts, List.take_zero]
        rfl
      · show s.encoded ++ [⟨envelope, block⟩] = _ ++ [⟨envelope, block⟩]
        rw [hworks]
        exact congrArg (· ++ _) (List.append_nil _)
      · exact h.ended
  | @finished work index hpoint hend =>
      rw [hpoint] at hwithin
      exact h.finish hpoint (.inl (Nat.le_antisymm hwithin hend))
  | @skipped work index hpoint hlt hrepair hnewer =>
      have hrecorded : Rounded (s.record (recordSkippedRepairs
          (work.block.datagrams.length - index) s.targets.length)) :=
        h.of_same rfl rfl rfl rfl rfl
      exact hrecorded.finish hpoint (.inr ⟨hrepair, hlt, hnewer⟩)
  | @begins work index hpoint hlt =>
      rw [hpoint] at hattempts hworks
      constructor
      · exact ⟨hlt, Nat.zero_le _⟩
      · show s.attempts = _ ++ (SenderPoint.target work index 0).tried s.targets
        rw [SenderPoint.tried_target_zero, hattempts]
      · exact hworks
      · exact h.ended
  | @tried work index target address datagram recorded pacer hpoint haddress hdatagram =>
      rw [hpoint] at hwithin hattempts hworks
      have hlt := (List.getElem?_eq_some_iff.mp haddress).1
      constructor
      · exact ⟨hwithin.1, hlt⟩
      · show s.attempts ++ [⟨address, datagram⟩]
          = _ ++ (SenderPoint.target work index (target + 1)).tried s.targets
        rw [SenderPoint.tried_target_succ haddress hdatagram, hattempts, List.append_assoc]
        rfl
      · exact hworks
      · exact h.ended
  | @passed work index target hpoint hend =>
      rw [hpoint] at hwithin hattempts hworks
      obtain ⟨hindex, htarget⟩ := hwithin
      have hall : s.targets.take target = s.targets := by
        rcases hend with hend | hend
        · exact List.take_of_length_le (List.getElem?_eq_none_iff.mp hend)
        · exact absurd hindex (Nat.not_lt.mpr (List.getElem?_eq_none_iff.mp hend))
      constructor
      · exact hindex
      · show s.attempts = _ ++ (SenderPoint.datagram work (index + 1)).tried s.targets
        rw [SenderPoint.tried_datagram_succ hall, hattempts]
      · exact hworks
      · exact h.ended

theorem rounded_new (bootId : UInt64) (repairPercent : UInt8) (rateBps : UInt64) (now : Nat)
    (targets : List SocketAddr) : Rounded (new W S bootId repairPercent rateBps now targets) :=
  ⟨trivial, rfl, rfl, nofun⟩

/-! ## §3. The order of the envelopes. -/

/-- The envelopes that were queued, as they are on the wire. -/
def wires (s : TelemetryFecOutbound W S) : List Bytes :=
  s.submissions.map fun submission => TelemetryEnvelope.wireBytes W.hash submission.envelope

/-- Envelopes are popped in the order in which they were queued, and what waits in the queue is
newer than what was popped. -/
structure Ordered (s : TelemetryFecOutbound W S) : Prop where
  queue : LatestTelemetryQueue.Bounded s.queue
  order : List.Sublist (s.encoded.map EncodedEnvelope.envelope ++ s.queue.blocks) s.wires
  newer : ∀ r ∈ s.rounds, List.Sublist (r.work.envelope :: r.newer) s.wires

theorem tryPop_some {queue queue' : QueueState} {envelope : Bytes}
    (h : LatestTelemetryQueue.tryPop queue = (some envelope, queue')) :
    queue.blocks = envelope :: queue'.blocks := by
  unfold LatestTelemetryQueue.tryPop at h
  split at h
  · cases h
  next first rest hblocks =>
    cases h
    exact hblocks

/-- What a push of an encoded envelope does to the queue. -/
theorem push_encoded {queue queue' : QueueState} {e : TelemetryEnvelope} {encoded : Bytes}
    {outcome : QueuePushOutcome} (hqueue : LatestTelemetryQueue.Bounded queue)
    (hencode : TelemetryEnvelope.encode W.hash e = .ok encoded)
    (hpush : LatestTelemetryQueue.push queue encoded = (.ok outcome, queue')) :
    encoded = TelemetryEnvelope.wireBytes W.hash e ∧ LatestTelemetryQueue.Bounded queue' ∧
    ∃ k, k ≤ queue.blocks.length ∧ queue'.blocks = queue.blocks.drop k ++ [encoded] ∧
      outcome = if k = 0 then .queued else .replaced k := by
  have hencodable := TelemetryEnvelope.encodable_of_encode hencode
  have hwire : encoded = TelemetryEnvelope.wireBytes W.hash e :=
    Except.ok.inj (hencode.symm.trans (TelemetryEnvelope.encode_of_encodable hencodable))
  have hlength : encoded.length ≤ maxTelemetryEnvelopeBytes := by
    rw [hwire, TelemetryEnvelope.length_wireBytes]
    exact hencodable.total_le
  obtain ⟨k, haccepted, hk, hbounded⟩ := LatestTelemetryQueue.push_accepted hqueue hlength
  rw [hpush] at haccepted hbounded
  obtain ⟨houtcome, hstate⟩ := Prod.mk.inj haccepted
  exact ⟨hwire, hbounded, k, hk, by rw [hstate], Except.ok.inj houtcome⟩

/-- A move that leaves the queue and the envelopes alone. -/
theorem Ordered.of_same (h : Ordered s) (hqueue : s'.queue = s.queue)
    (hencoded : s'.encoded = s.encoded) (hrounds : s'.rounds = s.rounds)
    (hsubmissions : s'.submissions = s.submissions) : Ordered s' := by
  obtain ⟨hbounded, horder, hnewer⟩ := h
  have hwires : s'.wires = s.wires := by
    unfold wires
    rw [hsubmissions]
  constructor
  · rw [hqueue]
    exact hbounded
  · rw [hqueue, hencoded, hwires]
    exact horder
  · rw [hrounds, hwires]
    exact hnewer

theorem Ordered.finish {work : EncodedEnvelope} {index : Nat} (h : Ordered s)
    (hrounded : Rounded s) (hpoint : s.point = .datagram work index) :
    Ordered (s.finish work index) where
  queue := h.queue
  order := h.order
  newer := by
    intro r hr
    rcases List.mem_append.mp hr with hr | hr
    · exact h.newer r hr
    · rw [List.mem_singleton.mp hr]
      -- the block at hand is the last one that was encoded
      have hlast : List.Sublist (work.envelope :: s.queue.blocks)
          (s.encoded.map EncodedEnvelope.envelope ++ s.queue.blocks) := by
        rw [hrounded.works, hpoint, List.map_append, List.append_assoc]
        exact List.sublist_append_right _ _
      exact hlast.trans h.order

theorem Ordered.move (h : Ordered s) (hrounded : Rounded s) (hmove : Move s s') : Ordered s' := by
  cases hmove with
  | unserialized => exact h.of_same rfl rfl rfl rfl
  | oversized => exact h.of_same rfl rfl rfl rfl
  | notified => exact h.of_same rfl rfl rfl rfl
  | waits => exact h.of_same rfl rfl rfl rfl
  | wakes => exact h.of_same rfl rfl rfl rfl
  | stops => exact h.of_same rfl rfl rfl rfl
  | begins => exact h.of_same rfl rfl rfl rfl
  | tried => exact h.of_same rfl rfl rfl rfl
  | passed => exact h.of_same rfl rfl rfl rfl
  | finished hpoint => exact h.finish hrounded hpoint
  | @skipped work index hpoint =>
      have hsame : Ordered (s.record (recordSkippedRepairs
          (work.block.datagrams.length - index) s.targets.length)) := h.of_same rfl rfl rfl rfl
      have hsameRounds : Rounded (s.record (recordSkippedRepairs
          (work.block.datagrams.length - index) s.targets.length)) :=
        hrounded.of_same rfl rfl rfl rfl rfl
      exact hsame.finish hsameRounds hpoint
  | @queued snapshot payload encoded periodMs outcome queue hidle hpayload hencode hpush =>
      obtain ⟨hwire, hbounded, k, hk, hblocks, -⟩ := push_encoded h.queue hencode hpush
      have hwires : ∀ {rest : List Bytes}, List.Sublist rest s.wires →
          List.Sublist rest (wires { s with
            publisher.nextSequence := s.publisher.nextSequence + 1
            queue := queue
            pushed := some outcome
            submissions := s.submissions
              ++ [⟨snapshot, s.publisher.envelope snapshot payload periodMs⟩] }) := by
        intro rest hrest
        unfold wires
        rw [List.map_append]
        exact hrest.trans (List.sublist_append_left _ _)
      constructor
      · exact hbounded
      · show List.Sublist (s.encoded.map _ ++ queue.blocks) (List.map _ (s.submissions ++ [_]))
        rw [List.map_append, List.map_singleton, hblocks, ← List.append_assoc, ← hwire]
        have hkept : List.Sublist (s.encoded.map EncodedEnvelope.envelope ++ s.queue.blocks.drop k)
            s.wires :=
          ((List.Sublist.refl _).append (List.drop_sublist _ _)).trans h.order
        exact hkept.append (List.Sublist.refl _)
      · exact fun r hr => hwires (h.newer r hr)
  | @unencoded envelope queue encoder error hpoint hpop =>
      have hblocks := tryPop_some hpop
      have horder := h.order
      rw [hblocks] at horder
      constructor
      · have hbounded := LatestTelemetryQueue.bounded_tryPop h.queue
        rw [hpop] at hbounded
        exact hbounded
      · have hdropped : List.Sublist (s.encoded.map EncodedEnvelope.envelope ++ queue.blocks)
            (s.encoded.map EncodedEnvelope.envelope ++ envelope :: queue.blocks) :=
          (List.Sublist.refl _).append (List.sublist_cons_self _ _)
        exact hdropped.trans horder
      · exact h.newer
  | @encoded envelope queue encoder block hpoint hpop =>
      have hblocks := tryPop_some hpop
      have horder := h.order
      rw [hblocks] at horder
      constructor
      · have hbounded := LatestTelemetryQueue.bounded_tryPop h.queue
        rw [hpop] at hbounded
        exact hbounded
      · show List.Sublist (List.map _ (s.encoded ++ [⟨envelope, block⟩]) ++ queue.blocks) s.wires
        rw [List.map_append, List.append_assoc]
        exact horder
      · exact h.newer

theorem ordered_new (bootId : UInt64) (repairPercent : UInt8) (rateBps : UInt64) (now : Nat)
    (targets : List SocketAddr) : Ordered (new W S bootId repairPercent rateBps now targets) :=
  ⟨LatestTelemetryQueue.bounded_default, List.Sublist.refl _, nofun⟩

/-- The rounds and the order hold together over a run. -/
theorem exec_ordered (hrounded : Rounded s) (hordered : Ordered s) (ops : List (Op S)) :
    Rounded (exec (step maxInstant) s ops) ∧ Ordered (exec (step maxInstant) s ops) :=
  exec_of_move (fun s => Rounded s ∧ Ordered s)
    (fun _ _ hmove h => ⟨h.1.move hmove, h.2.move h.1 hmove⟩) ops ⟨hrounded, hordered⟩

theorem targets_exec (ops : List (Op S)) :
    (exec (step maxInstant) s ops).targets = s.targets := by
  refine exec_of_move (fun s' => s'.targets = s.targets) ?_ ops rfl
  intro a b hmove h
  cases hmove <;> exact h

/-- **What the sender sends.**  In every run of the publisher and the sender: of each block that is
over every target was tried with every datagram, in order, up to the end of the block, or up to a
repair datagram at which a newer envelope waited in the queue; and nothing else was tried but what
the sender has done of the block it is at. -/
theorem outbound_rounds (maxInstant : Nat) (bootId : UInt64) (repairPercent : UInt8)
    (rateBps : UInt64) (now : Nat) (targets : List SocketAddr) (ops : List (Op S)) :
    let s := exec (step maxInstant) (new W S bootId repairPercent rateBps now targets) ops
    s.encoded = s.rounds.map Round.work ++ s.point.work.toList ∧
    s.attempts = (s.rounds.flatMap fun r => r.tried targets) ++ s.point.tried targets ∧
    ∀ r ∈ s.rounds, r.Ended ∧ List.Sublist (r.work.envelope :: r.newer) s.wires := by
  intro s
  obtain ⟨hrounded, hordered⟩ := @exec_ordered W S maxInstant _
    (rounded_new bootId repairPercent rateBps now targets)
    (ordered_new bootId repairPercent rateBps now targets) ops
  have htargets : s.targets = targets := targets_exec ops
  refine ⟨hrounded.works, ?_, fun r hr => ⟨hrounded.ended r hr, hordered.newer r hr⟩⟩
  rw [← htargets]
  exact hrounded.attempts

/-! ## §4. Notifications. -/

/-- A sender that waits beside a queue that is not empty has a permit, or the publisher is about to
leave one. -/
def Wakeful (s : TelemetryFecOutbound W S) : Prop :=
  s.point = .waiting → s.queue.blocks ≠ [] → s.permit = true ∨ s.pushed.isSome = true

theorem Wakeful.move (h : Wakeful s) (hmove : Move s s') : Wakeful s' := by
  cases hmove with
  | unserialized => exact h
  | oversized => exact h
  | stops => exact h
  | queued => exact fun _ _ => .inr rfl
  | notified => exact fun _ _ => .inl rfl
  | waits hpoint hempty => exact fun _ hnewer => absurd hempty hnewer
  | unencoded hpoint =>
      intro hwaiting
      change s.point = .waiting at hwaiting
      rw [hpoint] at hwaiting
      cases hwaiting
  | encoded => exact nofun
  | wakes => exact nofun
  | finished => exact nofun
  | skipped => exact nofun
  | begins => exact nofun
  | tried => exact nofun
  | passed => exact nofun

/-- **No wakeup is lost.**  Whenever the sender waits and the queue holds an envelope, its next step
after the publisher's notification takes it back to the queue; and if the publisher has notified,
its next step does so at once. -/
theorem outbound_wakes (maxInstant : Nat) (bootId : UInt64) (repairPercent : UInt8)
    (rateBps : UInt64) (now : Nat) (targets : List SocketAddr) (ops : List (Op S)) (env : SendEnv)
    (hrunning : env.shutdown = false) :
    let s := exec (step maxInstant) (new W S bootId repairPercent rateBps now targets) ops
    s.point = .waiting → s.stopped = false → s.queue.blocks ≠ [] →
      (s.notify.send maxInstant env).point = .pop ∧
        (s.pushed = none → (s.send maxInstant env).point = .pop) := by
  intro s hwaiting hstopped hnewer
  have hwakeful : Wakeful s :=
    exec_of_move Wakeful (fun _ _ hmove h => h.move hmove) ops (fun _ h => absurd rfl h)
  have hnow : ∀ {s' : TelemetryFecOutbound W S}, s'.point = .waiting → s'.stopped = false →
      s'.permit = true → (s'.send maxInstant env).point = .pop := by
    intro s' hpoint hlive hpermit
    unfold send
    rw [hpoint, hlive, hrunning, hpermit]
    rfl
  rcases hwakeful hwaiting hnewer with hpermit | hpushed
  · refine ⟨hnow ?_ ?_ ?_, fun _ => hnow hwaiting hstopped hpermit⟩
    · unfold notify
      split <;> exact hwaiting
    · unfold notify
      split <;> exact hstopped
    · unfold notify
      split
      · exact hpermit
      · rfl
  · obtain ⟨outcome, houtcome⟩ := Option.isSome_iff_exists.mp hpushed
    refine ⟨?_, fun hnone => by rw [hnone] at houtcome; cases houtcome⟩
    unfold notify
    rw [houtcome]
    exact hnow hwaiting hstopped rfl

/-! ## §5. The counters of the snapshots. -/

/-- A counter, modulo 2^64. -/
def count (s : TelemetryFecOutbound W S) (k : TelemetryFecCounter) : Wrapping :=
  (s.counters k : Nat)

/-- What a record adds to a counter. -/
def amount (k : TelemetryFecCounter) (recorded : Recorded) : Nat :=
  (recorded.map fun entry => if entry.1 = k then entry.2 else 0).sum

theorem count_record (s : TelemetryFecOutbound W S) (recorded : Recorded)
    (k : TelemetryFecCounter) :
    (s.record recorded).count k = s.count k + (amount k recorded : Nat) := by
  have hadds : ∀ u ∈ recorded.map fun entry => Update.add entry.1 entry.2, u.IsAdd := by
    intro u hu
    obtain ⟨entry, -, rfl⟩ := List.mem_map.mp hu
    exact trivial
  have hfold := Update.foldl_wrapping _ hadds k s.counters
  rw [List.map_map] at hfold
  exact hfold

/-- A counter that a record leaves alone. -/
theorem count_record_zero (s : TelemetryFecOutbound W S) {recorded : Recorded}
    {k : TelemetryFecCounter} (hzero : amount k recorded = 0) :
    (s.record recorded).count k = s.count k := by
  rw [count_record, hzero, Nat.cast_zero, add_zero]

theorem amount_recordSent (repair : Bool) (bytes : Nat) {k : TelemetryFecCounter}
    (hk : k ≠ .repairDatagramsSent ∧ k ≠ .sourceDatagramsSent ∧ k ≠ .sentBytes) :
    amount k (recordSentDatagram repair bytes) = 0 := by
  unfold amount recordSentDatagram
  cases repair <;> simp [Ne.symm hk.1, Ne.symm hk.2.1, Ne.symm hk.2.2]

/-- The blocks an outcome reports as replaced. -/
def replacedBlocks : QueuePushOutcome → Nat
  | .queued => 0
  | .replaced blocks => blocks

theorem amount_recordSubmission (outcome : QueuePushOutcome) :
    amount .snapshotsSubmitted (recordSubmission outcome) = 1 ∧
    amount .snapshotsReplaced (recordSubmission outcome) = replacedBlocks outcome ∧
    amount .blocksEncoded (recordSubmission outcome) = 0 ∧
    amount .encodeErrors (recordSubmission outcome) = 0 := by
  cases outcome with
  | queued => exact ⟨rfl, rfl, rfl, rfl⟩
  | replaced blocks =>
      refine ⟨rfl, ?_, rfl, rfl⟩
      show 0 + (blocks + 0) = blocks
      omega

theorem amount_recordEncodedBlock (bytes source repair : Nat) :
    amount .snapshotsSubmitted (recordEncodedBlock bytes source repair) = 0 ∧
    amount .snapshotsReplaced (recordEncodedBlock bytes source repair) = 0 ∧
    amount .blocksEncoded (recordEncodedBlock bytes source repair) = 1 ∧
    amount .encodeErrors (recordEncodedBlock bytes source repair) = 0 := by
  unfold amount recordEncodedBlock
  simp

/-- The blocks that a push which is not recorded yet has replaced. -/
def unrecorded (s : TelemetryFecOutbound W S) : Nat := s.pushed.elim 0 replacedBlocks

/-- Every snapshot is accounted for. -/
structure SnapshotsAccounted (s : TelemetryFecOutbound W S) : Prop where
  queue : LatestTelemetryQueue.Bounded s.queue
  submitted : s.count .snapshotsSubmitted + s.pushed.toList.length = s.submissions.length
  encoded : s.count .blocksEncoded = s.encoded.length
  all : (s.submissions.length + s.unserialized : Wrapping)
    = s.count .snapshotsReplaced + s.unrecorded + s.encoded.length + s.count .encodeErrors
      + s.queue.blocks.length

/-- A move that records nothing of the snapshots. -/
theorem SnapshotsAccounted.of_same (h : SnapshotsAccounted s) (hqueue : s'.queue = s.queue)
    (hpushed : s'.pushed = s.pushed) (hsubmissions : s'.submissions = s.submissions)
    (hencoded : s'.encoded = s.encoded) (hunserialized : s'.unserialized = s.unserialized)
    (hcounters : ∀ k ∈ [TelemetryFecCounter.snapshotsSubmitted, .snapshotsReplaced, .blocksEncoded,
      .encodeErrors], s'.count k = s.count k) : SnapshotsAccounted s' := by
  obtain ⟨hbounded, hsubmitted, hblocks, hall⟩ := h
  constructor
  · rw [hqueue]
    exact hbounded
  · rw [hcounters _ (by simp), hpushed, hsubmissions]
    exact hsubmitted
  · rw [hcounters _ (by simp), hencoded]
    exact hblocks
  · unfold unrecorded at hall ⊢
    rw [hsubmissions, hunserialized, hcounters .snapshotsReplaced (by simp), hpushed, hencoded,
      hcounters .encodeErrors (by simp), hqueue]
    exact hall

theorem SnapshotsAccounted.move (h : SnapshotsAccounted s) (hmove : Move s s') :
    SnapshotsAccounted s' := by
  have hall := h.all
  cases hmove with
  | waits => exact h.of_same rfl rfl rfl rfl rfl fun _ _ => rfl
  | wakes => exact h.of_same rfl rfl rfl rfl rfl fun _ _ => rfl
  | stops => exact h.of_same rfl rfl rfl rfl rfl fun _ _ => rfl
  | finished => exact h.of_same rfl rfl rfl rfl rfl fun _ _ => rfl
  | begins => exact h.of_same rfl rfl rfl rfl rfl fun _ _ => rfl
  | passed => exact h.of_same rfl rfl rfl rfl rfl fun _ _ => rfl
  | oversized =>
      refine h.of_same rfl rfl rfl rfl rfl fun k hk => s.count_record_zero ?_
      simp only [List.mem_cons, List.not_mem_nil, or_false] at hk
      rcases hk with rfl | rfl | rfl | rfl <;> rfl
  | @skipped work index =>
      refine h.of_same rfl rfl rfl rfl rfl fun k hk => s.count_record_zero ?_
      simp only [List.mem_cons, List.not_mem_nil, or_false] at hk
      rcases hk with rfl | rfl | rfl | rfl <;> rfl
  | @tried work index target address datagram recorded pacer hpoint haddress hdatagram hrecorded =>
      refine h.of_same rfl rfl rfl rfl rfl fun k hk => s.count_record_zero ?_
      simp only [List.mem_cons, List.not_mem_nil, or_false] at hk
      rcases hrecorded with ⟨repair, bytes, rfl⟩ | rfl
      · refine amount_recordSent repair bytes ?_
        rcases hk with rfl | rfl | rfl | rfl <;> decide
      · rcases hk with rfl | rfl | rfl | rfl <;> rfl
  | unserialized =>
      constructor
      · exact h.queue
      · show (s.record recordEncodeError).count .snapshotsSubmitted + _ = _
        rw [s.count_record_zero rfl]
        exact h.submitted
      · show (s.record recordEncodeError).count .blocksEncoded = _
        rw [s.count_record_zero rfl]
        exact h.encoded
      · show (s.submissions.length + (s.unserialized + 1 : Nat) : Wrapping)
          = (s.record recordEncodeError).count .snapshotsReplaced + s.unrecorded + s.encoded.length
            + (s.record recordEncodeError).count .encodeErrors + s.queue.blocks.length
        rw [s.count_record_zero rfl, count_record]
        show _ = _ + _ + _ + (_ + ((1 : Nat) : Wrapping)) + _
        rw [Nat.cast_add, ← add_assoc, hall]
        ring
  | @queued snapshot payload encoded periodMs outcome queue hidle hpayload hencode hpush =>
      obtain ⟨-, hbounded, k, hk, hblocks, houtcome⟩ := push_encoded h.queue hencode hpush
      have hsubmitted := h.submitted
      unfold unrecorded at hall
      rw [hidle] at hsubmitted hall
      have hreplaced : replacedBlocks outcome = k := by
        rw [houtcome]
        split
        next hzero => exact hzero.symm
        next => rfl
      constructor
      · exact hbounded
      · show s.count .snapshotsSubmitted + ((1 : Nat) : Wrapping)
          = ((s.submissions ++ [_]).length : Nat)
        rw [List.length_append, Nat.cast_add, ← hsubmitted]
        simp
      · exact h.encoded
      · show (((s.submissions ++ [_]).length : Nat) + s.unserialized : Wrapping)
          = s.count .snapshotsReplaced + (replacedBlocks outcome : Nat) + s.encoded.length
            + s.count .encodeErrors + queue.blocks.length
        -- the blocks that were replaced have left the queue
        have hlength : k + queue.blocks.length = s.queue.blocks.length + 1 := by
          rw [hblocks, List.length_append, List.length_drop, List.length_singleton]
          omega
        have hcast : (k : Wrapping) + queue.blocks.length = s.queue.blocks.length + 1 := by
          exact_mod_cast congrArg (Nat.cast : Nat → Wrapping) hlength
        rw [hreplaced, List.length_append, List.length_singleton, Nat.cast_add, Nat.cast_one]
        calc (s.submissions.length + 1 + s.unserialized : Wrapping)
            = s.submissions.length + s.unserialized + 1 := by ring
          _ = s.count .snapshotsReplaced + s.encoded.length + s.count .encodeErrors
              + (s.queue.blocks.length + 1) := by
                rw [hall]
                simp only [Option.elim_none, Nat.cast_zero, add_zero]
                ring
          _ = _ := by
                rw [← hcast]
                ring
  | @notified outcome hpushed =>
      obtain ⟨hsubmitted, hreplaced, hblocks, herrors⟩ := amount_recordSubmission outcome
      have hlength := h.submitted
      unfold unrecorded at hall
      rw [hpushed] at hlength hall
      constructor
      · exact h.queue
      · show (s.record (recordSubmission outcome)).count _ + ((0 : Nat) : Wrapping) = _
        rw [count_record, hsubmitted, Nat.cast_zero, add_zero]
        exact hlength
      · show (s.record (recordSubmission outcome)).count _ = _
        rw [s.count_record_zero hblocks]
        exact h.encoded
      · show _ = (s.record (recordSubmission outcome)).count .snapshotsReplaced
            + ((0 : Nat) : Wrapping) + s.encoded.length
            + (s.record (recordSubmission outcome)).count .encodeErrors + s.queue.blocks.length
        rw [s.count_record_zero herrors, count_record, hreplaced, Nat.cast_zero, add_zero]
        exact hall
  | @unencoded envelope queue encoder error hpoint hpop =>
      have hblocks := tryPop_some hpop
      constructor
      · have hbounded := LatestTelemetryQueue.bounded_tryPop h.queue
        rw [hpop] at hbounded
        exact hbounded
      · show (s.record recordEncodeError).count .snapshotsSubmitted + _ = _
        rw [s.count_record_zero rfl]
        exact h.submitted
      · show (s.record recordEncodeError).count .blocksEncoded = _
        rw [s.count_record_zero rfl]
        exact h.encoded
      · show (s.submissions.length + s.unserialized : Wrapping)
          = (s.record recordEncodeError).count .snapshotsReplaced + s.unrecorded + s.encoded.length
            + (s.record recordEncodeError).count .encodeErrors + queue.blocks.length
        rw [s.count_record_zero rfl, count_record, hall, hblocks, List.length_cons]
        show _ = _ + _ + _ + (_ + ((1 : Nat) : Wrapping)) + _
        push_cast
        ring
  | @encoded envelope queue encoder block hpoint hpop =>
      have hblocks := tryPop_some hpop
      obtain ⟨hsubmitted, hreplaced, hencoded, herrors⟩ := amount_recordEncodedBlock
        envelope.length block.sourceDatagrams (block.datagrams.length - block.sourceDatagrams)
      let s₁ := s.record (recordEncodedBlock envelope.length block.sourceDatagrams
        (block.datagrams.length - block.sourceDatagrams))
      let work : EncodedEnvelope := ⟨envelope, block⟩
      constructor
      · have hbounded := LatestTelemetryQueue.bounded_tryPop h.queue
        rw [hpop] at hbounded
        exact hbounded
      · show s₁.count .snapshotsSubmitted + _ = _
        rw [s.count_record_zero hsubmitted]
        exact h.submitted
      · show s₁.count .blocksEncoded = ((s.encoded ++ [work]).length : Nat)
        rw [count_record, hencoded, List.length_append, Nat.cast_add, h.encoded]
        rfl
      · show (s.submissions.length + s.unserialized : Wrapping)
          = s₁.count .snapshotsReplaced + s.unrecorded + ((s.encoded ++ [work]).length : Nat)
            + s₁.count .encodeErrors + queue.blocks.length
        rw [s.count_record_zero hreplaced, s.count_record_zero herrors, hall, hblocks,
          List.length_append, List.length_cons, List.length_singleton]
        push_cast
        ring

/-! ## §6. The counters of the datagrams. -/

/-- `MAX_TELEMETRY_FEC_TARGETS`, to which a configuration is held. -/
def maxTelemetryFecTargets : Nat := 16

/-- The encoder gives the source symbols that were set and the repair symbols it was asked for. -/
def Complete (W : TelemetryFecWire) : Prop :=
  ∀ (encoder : W.DatagramFecEncoder) (source : UInt16) (envelope : Bytes) (repair : UInt32)
    (datagrams : List Bytes),
    (W.encodeObjectWithRepairSymbols (W.setSourceSymbols encoder source) envelope repair).1
        = .ok datagrams → datagrams.length = source.toNat + repair.toNat

/-- The datagrams of a block: the source datagrams and no more than the machine can count. -/
def Sized (block : EncodedTelemetryBlock) : Prop :=
  block.sourceDatagrams ≤ block.datagrams.length ∧ block.datagrams.length ≤ 300000

theorem repairDatagrams_le (source : UInt16) (percent : UInt8) :
    TelemetryFecEncoder.repairDatagrams source.toNat percent ≤ 170000 := by
  have hsource := source.toNat_lt
  have hpercent := percent.toNat_lt
  have hproduct : source.toNat * percent.toNat ≤ 65535 * 255 :=
    Nat.mul_le_mul (by omega) (by omega)
  have hsat : satMul source.toNat percent.toNat ≤ source.toNat * percent.toNat :=
    Nat.min_le_left _ _
  unfold TelemetryFecEncoder.repairDatagrams
  omega

theorem sized_of_encode (hcomplete : Complete W) {e e' : TelemetryFecEncoder W} {envelope : Bytes}
    {block : EncodedTelemetryBlock} (h : e.encode envelope = (.ok block, e')) : Sized block := by
  unfold TelemetryFecEncoder.encode at h
  split at h
  · cases h
  split at h
  · cases h
  dsimp only at h
  split at h
  · cases h
  next datagrams hgiven =>
    cases h
    have hlength := hcomplete _ _ _ _ _ hgiven
    have hrepair := repairDatagrams_le (W.sourceSymbolCount envelope.length telemetrySymbolSize)
      e.repairPercent
    have hsource := (W.sourceSymbolCount envelope.length telemetrySymbolSize).toNat_lt
    have hcast : (UInt32.ofNat (TelemetryFecEncoder.repairDatagrams
        (W.sourceSymbolCount envelope.length telemetrySymbolSize).toNat e.repairPercent)).toNat
          ≤ 170000 := by
      rw [UInt32.toNat_ofNat']
      exact (Nat.mod_le _ _).trans hrepair
    constructor
    · show (W.sourceSymbolCount envelope.length telemetrySymbolSize).toNat ≤ datagrams.length
      omega
    · show datagrams.length ≤ 300000
      omega

/-- The datagrams of the block at hand, times the targets, that the sender is through with. -/
def handled (targets : Nat) : SenderPoint → Nat
  | .pop => 0
  | .waiting => 0
  | .datagram _ index => index * targets
  | .target _ index sent => index * targets + sent

/-- The counters of what became of the datagrams. -/
def outcomes (s : TelemetryFecOutbound W S) : Wrapping :=
  s.count .sourceDatagramsSent + s.count .repairDatagramsSent + s.count .skippedRepairDatagrams
    + s.count .sendDrops

/-- What a record adds to those counters. -/
def outcomeAmount (recorded : Recorded) : Nat :=
  amount .sourceDatagramsSent recorded + amount .repairDatagramsSent recorded
    + amount .skippedRepairDatagrams recorded + amount .sendDrops recorded

theorem outcomes_record (s : TelemetryFecOutbound W S) (recorded : Recorded) :
    (s.record recorded).outcomes = s.outcomes + (outcomeAmount recorded : Nat) := by
  unfold outcomes outcomeAmount
  rw [count_record, count_record, count_record, count_record]
  push_cast
  ring

def encodedDatagrams (s : TelemetryFecOutbound W S) : Wrapping :=
  s.count .sourceDatagramsEncoded + s.count .repairDatagramsEncoded

def encodedAmount (recorded : Recorded) : Nat :=
  amount .sourceDatagramsEncoded recorded + amount .repairDatagramsEncoded recorded

theorem encodedDatagrams_record (s : TelemetryFecOutbound W S) (recorded : Recorded) :
    (s.record recorded).encodedDatagrams = s.encodedDatagrams + (encodedAmount recorded : Nat) := by
  unfold encodedDatagrams encodedAmount
  rw [count_record, count_record]
  push_cast
  ring

theorem amount_of_sent (repair : Bool) (bytes : Nat) :
    outcomeAmount (recordSentDatagram repair bytes) = 1 ∧
      encodedAmount (recordSentDatagram repair bytes) = 0 := by
  unfold outcomeAmount encodedAmount amount recordSentDatagram
  cases repair <;> simp

theorem amount_of_encoded (bytes source repair : Nat) :
    outcomeAmount (recordEncodedBlock bytes source repair) = 0 ∧
      encodedAmount (recordEncodedBlock bytes source repair) = source + repair := by
  unfold outcomeAmount encodedAmount amount recordEncodedBlock
  simp

theorem amount_of_skipped (datagrams targets : Nat) :
    outcomeAmount (recordSkippedRepairs datagrams targets) = satMul datagrams targets ∧
      encodedAmount (recordSkippedRepairs datagrams targets) = 0 := by
  unfold outcomeAmount encodedAmount amount recordSkippedRepairs
  simp

theorem amount_of_submission (outcome : QueuePushOutcome) :
    outcomeAmount (recordSubmission outcome) = 0 ∧ encodedAmount (recordSubmission outcome) = 0 := by
  cases outcome <;> exact ⟨rfl, rfl⟩

/-- Every datagram is accounted for. -/
structure DatagramsAccounted (s : TelemetryFecOutbound W S) : Prop where
  sized : ∀ work ∈ s.encoded, Sized work.block
  encoded : s.encodedDatagrams = ((s.encoded.map fun work => work.block.datagrams.length).sum : Nat)
  sent : s.outcomes = ((s.rounds.map fun r => r.work.block.datagrams.length * s.targets.length).sum
    + handled s.targets.length s.point : Nat)

/-- A move that leaves the rounds alone and records nothing of the datagrams. -/
theorem DatagramsAccounted.of_same (h : DatagramsAccounted s)
    (hencoded : s'.encoded = s.encoded) (hrounds : s'.rounds = s.rounds)
    (htargets : s'.targets = s.targets)
    (hhandled : handled s.targets.length s'.point = handled s.targets.length s.point)
    (houtcomes : s'.outcomes = s.outcomes)
    (hdatagrams : s'.encodedDatagrams = s.encodedDatagrams) : DatagramsAccounted s' where
  sized := hencoded ▸ h.sized
  encoded := by
    rw [hdatagrams, hencoded]
    exact h.encoded
  sent := by
    rw [houtcomes, hrounds, htargets, hhandled]
    exact h.sent

/-- A record that adds nothing to the counters of the datagrams. -/
theorem DatagramsAccounted.record (h : DatagramsAccounted s) {recorded : Recorded}
    (houtcomes : outcomeAmount recorded = 0) (hdatagrams : encodedAmount recorded = 0) :
    DatagramsAccounted (s.record recorded) := by
  refine h.of_same rfl rfl rfl rfl ?_ ?_
  · rw [outcomes_record, houtcomes, Nat.cast_zero, add_zero]
  · rw [encodedDatagrams_record, hdatagrams, Nat.cast_zero, add_zero]

theorem DatagramsAccounted.move (hcomplete : Complete W)
    (htargets : s.targets.length ≤ maxTelemetryFecTargets) (hrounded : Rounded s)
    (h : DatagramsAccounted s) (hmove : Move s s') : DatagramsAccounted s' := by
  have hwithin := hrounded.within
  have hsent := h.sent
  cases hmove with
  | unserialized => exact (h.record rfl rfl).of_same rfl rfl rfl rfl rfl rfl
  | oversized => exact (h.record rfl rfl).of_same rfl rfl rfl rfl rfl rfl
  | queued => exact h.of_same rfl rfl rfl rfl rfl rfl
  | @notified outcome =>
      obtain ⟨houtcomes, hdatagrams⟩ := amount_of_submission outcome
      exact (h.record houtcomes hdatagrams).of_same rfl rfl rfl rfl rfl rfl
  | unencoded => exact (h.record rfl rfl).of_same rfl rfl rfl rfl rfl rfl
  | stops => exact h.of_same rfl rfl rfl rfl rfl rfl
  | waits hpoint =>
      refine h.of_same rfl rfl rfl ?_ rfl rfl
      rw [hpoint]
      rfl
  | wakes hpoint =>
      refine h.of_same rfl rfl rfl ?_ rfl rfl
      rw [hpoint]
      rfl
  | begins hpoint =>
      refine h.of_same rfl rfl rfl ?_ rfl rfl
      rw [hpoint]
      rfl
  | @encoded envelope queue encoder block hpoint hpop hencode =>
      have hsized := sized_of_encode hcomplete hencode
      obtain ⟨houtcomes, hdatagrams⟩ := amount_of_encoded envelope.length block.sourceDatagrams
        (block.datagrams.length - block.sourceDatagrams)
      let s₁ := s.record (recordEncodedBlock envelope.length block.sourceDatagrams
        (block.datagrams.length - block.sourceDatagrams))
      let work : EncodedEnvelope := ⟨envelope, block⟩
      constructor
      · intro other hother
        rcases List.mem_append.mp hother with hother | hother
        · exact h.sized other hother
        · rw [List.mem_singleton.mp hother]
          exact hsized
      · show s₁.encodedDatagrams = (((s.encoded ++ [work]).map _).sum : Nat)
        rw [encodedDatagrams_record, hdatagrams, h.encoded, List.map_append, List.sum_append,
          Nat.add_sub_cancel' hsized.1, Nat.cast_add]
        rfl
      · show s₁.outcomes = (_ + 0 * s.targets.length : Nat)
        rw [outcomes_record, houtcomes, Nat.cast_zero, add_zero, hsent, hpoint, Nat.zero_mul]
        rfl
  | @finished work index hpoint hend =>
      rw [hpoint] at hwithin hsent
      have hindex : index = work.block.datagrams.length := Nat.le_antisymm hwithin hend
      let round : Round := ⟨work, index, s.queue.blocks⟩
      constructor
      · exact h.sized
      · exact h.encoded
      · show s.outcomes = (((s.rounds ++ [round]).map _).sum + 0 : Nat)
        rw [hsent, List.map_append, List.sum_append, hindex]
        rfl
  | @skipped work index hpoint hlt hrepair hnewer =>
      rw [hpoint] at hwithin hsent
      have hwork : work ∈ s.encoded := by
        rw [hrounded.works, hpoint]
        exact List.mem_append_right _ List.mem_cons_self
      have hmax := (h.sized work hwork).2
      -- the product is far below the bound of `saturating_mul`
      have hproduct : (work.block.datagrams.length - index) * s.targets.length ≤ 300000 * 16 :=
        Nat.mul_le_mul (by omega) htargets
      have hsat : satMul (work.block.datagrams.length - index) s.targets.length
          = (work.block.datagrams.length - index) * s.targets.length := by
        unfold satMul u64Max
        omega
      have hsplit : index * s.targets.length
          + (work.block.datagrams.length - index) * s.targets.length
            = work.block.datagrams.length * s.targets.length := by
        rw [← Nat.add_mul, Nat.add_sub_cancel' (Nat.le_of_lt hlt)]
      obtain ⟨houtcomes, hdatagrams⟩ := amount_of_skipped (work.block.datagrams.length - index)
        s.targets.length
      let s₁ := s.record (recordSkippedRepairs (work.block.datagrams.length - index)
        s.targets.length)
      let round : Round := ⟨work, index, s.queue.blocks⟩
      constructor
      · exact h.sized
      · show s₁.encodedDatagrams = _
        rw [encodedDatagrams_record, hdatagrams, Nat.cast_zero, add_zero]
        exact h.encoded
      · show s₁.outcomes = (((s.rounds ++ [round]).map _).sum + 0 : Nat)
        rw [outcomes_record, houtcomes, hsent, hsat, ← Nat.cast_add, List.map_append,
          List.sum_append, List.map_singleton, List.sum_singleton, Nat.add_assoc, Nat.add_zero]
        exact congrArg (fun n : Nat => ((_ + n : Nat) : Wrapping)) hsplit
  | @tried work index target address datagram recorded pacer hpoint haddress hdatagram hrecorded =>
      rw [hpoint] at hsent
      have hamounts : outcomeAmount recorded = 1 ∧ encodedAmount recorded = 0 := by
        rcases hrecorded with ⟨repair, bytes, rfl⟩ | rfl
        · exact amount_of_sent repair bytes
        · exact ⟨rfl, rfl⟩
      constructor
      · exact h.sized
      · show (s.record recorded).encodedDatagrams = _
        rw [encodedDatagrams_record, hamounts.2, Nat.cast_zero, add_zero]
        exact h.encoded
      · show (s.record recorded).outcomes = (_ + (index * s.targets.length + (target + 1)) : Nat)
        rw [outcomes_record, hamounts.1, hsent, ← Nat.cast_add]
        rfl
  | @passed work index target hpoint hend =>
      rw [hpoint] at hwithin hsent
      obtain ⟨hindex, htarget⟩ := hwithin
      have hall : target = s.targets.length := by
        rcases hend with hend | hend
        · exact Nat.le_antisymm htarget (List.getElem?_eq_none_iff.mp hend)
        · exact absurd hindex (Nat.not_lt.mpr (List.getElem?_eq_none_iff.mp hend))
      refine h.of_same rfl rfl rfl ?_ rfl rfl
      rw [hpoint]
      show (index + 1) * s.targets.length = index * s.targets.length + target
      rw [hall, Nat.succ_mul]

/-- The sender is between two blocks, and the publisher between two ticks. -/
def Resting (s : TelemetryFecOutbound W S) : Prop := s.point.work = none ∧ s.pushed = none

/-- **The counters of a sender at rest**, modulo 2^64: a snapshot that was submitted, or that the
serializer refused, was replaced, encoded, counted as an encode error, or waits in the queue; and a
datagram that was encoded was sent, skipped or dropped once for every target. -/
theorem outbound_accounting (hcomplete : Complete W) (maxInstant : Nat) (bootId : UInt64)
    (repairPercent : UInt8) (rateBps : UInt64) (now : Nat) (targets : List SocketAddr)
    (htargets : targets.length ≤ maxTelemetryFecTargets) (ops : List (Op S)) :
    let s := exec (step maxInstant) (new W S bootId repairPercent rateBps now targets) ops
    Resting s →
      (s.counters .snapshotsSubmitted + s.unserialized) % 2 ^ 64
        = (s.counters .snapshotsReplaced + s.counters .blocksEncoded + s.counters .encodeErrors
            + s.queue.blocks.length) % 2 ^ 64 ∧
      (s.counters .sourceDatagramsSent + s.counters .repairDatagramsSent
          + s.counters .skippedRepairDatagrams + s.counters .sendDrops) % 2 ^ 64
        = ((s.counters .sourceDatagramsEncoded + s.counters .repairDatagramsEncoded)
            * targets.length) % 2 ^ 64 := by
  intro s hresting
  obtain ⟨hwork, hpushed⟩ := hresting
  have hsnapshots : SnapshotsAccounted s :=
    exec_of_move SnapshotsAccounted (fun _ _ hmove h => h.move hmove) ops
      ⟨LatestTelemetryQueue.bounded_default, by simp [new, count], by simp [new, count],
        by simp [new, count, unrecorded, LatestTelemetryQueue.default]⟩
  have hall : Rounded s ∧ s.targets = targets ∧ DatagramsAccounted s := by
    refine exec_of_move (fun s => Rounded s ∧ s.targets = targets ∧ DatagramsAccounted s) ?_ ops
      ⟨rounded_new bootId repairPercent rateBps now targets, rfl,
        ⟨fun _ hwork => absurd hwork List.not_mem_nil, by simp [new, encodedDatagrams, count],
          by simp [new, outcomes, count, handled]⟩⟩
    intro a b hmove h
    obtain ⟨hrounded, hsame, hdatagrams⟩ := h
    refine ⟨hrounded.move hmove, ?_, hdatagrams.move hcomplete (hsame ▸ htargets) hrounded hmove⟩
    cases hmove <;> exact hsame
  obtain ⟨hrounded, hsame, hdatagrams⟩ := hall
  constructor
  · -- the pushes are all recorded, and the blocks are those that were encoded
    have hbooks := hsnapshots.all
    have hsubmitted := hsnapshots.submitted
    unfold unrecorded at hbooks
    rw [hpushed] at hbooks hsubmitted
    rw [← hsubmitted, ← hsnapshots.encoded] at hbooks
    refine mod_eq_of_wrapping ?_
    simpa [count, add_assoc] using hbooks
  · have hrounds : s.encoded = s.rounds.map Round.work := by
      rw [hrounded.works, hwork]
      exact List.append_nil _
    have hhandled : handled s.targets.length s.point = 0 := by
      cases hpoint : s.point with
      | pop => rfl
      | waiting => rfl
      | datagram work index =>
          rw [hpoint] at hwork
          cases hwork
      | target work index target =>
          rw [hpoint] at hwork
          cases hwork
    have hsent := hdatagrams.sent
    have hencoded := hdatagrams.encoded
    rw [hhandled, Nat.add_zero, hsame, List.sum_map_mul_right] at hsent
    rw [hrounds, List.map_map] at hencoded
    refine mod_eq_of_wrapping ?_
    have hproduct : s.outcomes = s.encodedDatagrams * (targets.length : Nat) := by
      rw [hsent, hencoded, Nat.cast_mul]
      rfl
    unfold outcomes encodedDatagrams count at hproduct
    exact_mod_cast hproduct

/-! ## §7. A run. -/

section Samples

/-- Blocks of one source symbol, at the encoder: every symbol is the block id and the object, which
has to fit it. -/
def oneSymbolWire : TelemetryFecWire where
  toTelemetryFecCrates := TelemetryFecDecoder.oneSymbolCrates
  DatagramFecEncoder := UInt16 × UInt32
  newEncoder := (0, 1)
  withSymbolSize encoder _ := encoder
  setSourceSymbols encoder source := (source, encoder.2)
  sourceSymbolCount _ _ := 1
  encodeObjectWithRepairSymbols encoder envelope repair :=
    (if envelope.length ≤ 1152 then
        .ok (List.replicate (encoder.1.toNat + repair.toNat)
          (toBeBytes 4 encoder.2.toNat ++ envelope))
      else .error "object of several symbols",
      (encoder.1, encoder.2 + 1))

theorem complete_oneSymbolWire : Complete oneSymbolWire := by
  intro encoder source envelope repair datagrams h
  dsimp only [oneSymbolWire] at h
  split at h
  · cases h
    exact List.length_replicate
  · cases h

/-- Snapshots of one node, a byte each. -/
def byteSnapshots : SnapshotWire where
  Content := Unit
  decodeJson _ := none
  toVecNamed snapshot :=
    if snapshot.nodeId = "node-a" ∧ snapshot.region = "uk" ∧ snapshot.updatedUnixMs < 256 then
      some [.ofNat snapshot.updatedUnixMs]
    else none
  deserialize payload :=
    match payload with
    | [updated] => some (⟨"node-a", "uk", updated.toNat, ()⟩, 1)
    | _ => none

/-- A snapshot, and its two datagrams to one target. -/
def sampleSends : List (Op byteSnapshots) :=
  [.publish ⟨"node-a", "uk", 9, ()⟩ 5000, .notify]
    ++ List.replicate 8 (.send ⟨0, false, some 59⟩)

def sampleTargets : List SocketAddr := [⟨"10.0.0.9", 7300⟩]

theorem outbound_accounting_sample :
    let s := exec (step (10 ^ 18)) (new oneSymbolWire byteSnapshots 7 20 32000 0 sampleTargets)
      sampleSends
    s.attempts.length = 2 ∧
      (s.counters .sourceDatagramsSent + s.counters .repairDatagramsSent
          + s.counters .skippedRepairDatagrams + s.counters .sendDrops) % 2 ^ 64
        = ((s.counters .sourceDatagramsEncoded + s.counters .repairDatagramsEncoded)
            * sampleTargets.length) % 2 ^ 64 :=
  ⟨by decide +kernel, (outbound_accounting complete_oneSymbolWire (10 ^ 18) 7 20 32000 0
    sampleTargets (by decide) sampleSends ⟨by decide +kernel, by decide +kernel⟩).2⟩

theorem outbound_wakes_sample :
    let s := exec (step (10 ^ 18)) (new oneSymbolWire byteSnapshots 7 20 32000 0 sampleTargets)
      [.send ⟨0, false, none⟩, .publish ⟨"node-a", "uk", 9, ()⟩ 5000]
    s.point = .waiting ∧ (s.notify.send (10 ^ 18) ⟨0, false, none⟩).point = .pop :=
  ⟨by decide +kernel, (@outbound_wakes oneSymbolWire byteSnapshots (10 ^ 18) 7 20 32000 0 sampleTargets
    [.send ⟨0, false, none⟩, .publish ⟨"node-a", "uk", 9, ()⟩ 5000] ⟨0, false, none⟩ rfl
    (by decide +kernel) (by decide +kernel) (by decide +kernel)).1⟩

end Samples

end TelemetryFecOutbound

end AvMesh.Telemetry
