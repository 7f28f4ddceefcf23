/-
  AvMesh.Telemetry.LatestQueue
  ────────────────────────────
  **THE QUEUE OF THE LATEST TELEMETRY ENVELOPES.**

  `LatestTelemetryQueue` (src/telemetry_fec.rs) sits between the producers of
  telemetry and the sender.  It holds at most two envelopes of at most 64 KiB
  in total: a `push` that does not fit discards the oldest ones first and
  reports how many.  The state is behind a mutex, so a run of producers and
  sender is a list of operations.

    • `discardOldest_eq` — the eviction loop drops a number of blocks from the
                           front, and stops where the new one fits,
    • `Bounded`          — `bytes` is the length of what is queued, and both
                           limits hold: an invariant of every run,
    • `Exact`            — no saturating operation of `push` clamps,
    • `removed_append_blocks` — what was popped or replaced, followed by the
                           queue, is what was accepted.

  The limits are chosen so that one envelope always fits: that is why a push
  is refused for its own size only.
-/
import AvMesh.Lib.Machine
import AvMesh.Lib.Queue
import AvMesh.Telemetry.Envelope
import Mathlib.Algebra.BigOperators.Group.List.Basic

namespace AvMesh.Telemetry

open AvMesh.Lib

/-! ## §1. The queue. -/

def maxTelemetryQueueBlocks : Nat := 2
def maxTelemetryQueueBytes : Nat := 64 * 1024

inductive QueuePushOutcome where
  | queued
  | replaced (blocks : Nat)
  deriving Repr, DecidableEq

structure QueueState where
  blocks : List Bytes
  bytes : Nat
  deriving Repr, DecidableEq

namespace LatestTelemetryQueue

/-- `LatestTelemetryQueue::default()`. -/
def default : QueueState := { blocks := [], bytes := 0 }

/-- The condition of the loop in `push`, for an envelope of `len` bytes. -/
def overLimits (len : Nat) (blocks : List Bytes) (bytes : Nat) : Prop :=
  blocks.length ≥ maxTelemetryQueueBlocks ∨ satAdd bytes len > maxTelemetryQueueBytes

instance (len : Nat) (blocks : List Bytes) (bytes : Nat) :
    Decidable (overLimits len blocks bytes) :=
  inferInstanceAs (Decidable
    (blocks.length ≥ maxTelemetryQueueBlocks ∨ satAdd bytes len > maxTelemetryQueueBytes))

/-- The loop of `push`: the blocks it leaves, their byte count, and how many it has discarded. -/
def discardOldest (len : Nat) : List Bytes → Nat → Nat → List Bytes × Nat × Nat
  -- `pop_front` of an empty queue ends the loop, whatever its condition says
  | [], bytes, replaced => ([], bytes, replaced)
  | discarded :: blocks, bytes, replaced =>
      if overLimits len (discarded :: blocks) bytes then
        discardOldest len blocks (bytes - discarded.length) (replaced + 1)
      else (discarded :: blocks, bytes, replaced)

def push (state : QueueState) (envelope : Bytes) :
    Except TelemetryFecError QueuePushOutcome × QueueState :=
  if envelope.length > maxTelemetryEnvelopeBytes then
    (.error (.envelopeTooLarge envelope.length), state)
  else
    let (blocks, bytes, replaced) := discardOldest envelope.length state.blocks state.bytes 0
    (.ok (if replaced = 0 then .queued else .replaced replaced),
      { blocks := blocks ++ [envelope], bytes := satAdd bytes envelope.length })

def tryPop (state : QueueState) : Option Bytes × QueueState :=
  match state.blocks with
  | [] => (none, state)
  | envelope :: blocks => (some envelope, { blocks, bytes := state.bytes - envelope.length })

/-! ## §2. What one call does. -/

/-- The bytes of a list of blocks. -/
def totalLen (blocks : List Bytes) : Nat := (blocks.map List.length).sum

@[simp] theorem totalLen_nil : totalLen [] = 0 := rfl

@[simp] theorem totalLen_cons (block : Bytes) (blocks : List Bytes) :
    totalLen (block :: blocks) = block.length + totalLen blocks := by
  simp [totalLen]

@[simp] theorem totalLen_append (blocks blocks' : List Bytes) :
    totalLen (blocks ++ blocks') = totalLen blocks + totalLen blocks' := by
  simp [totalLen]

/-- What holds of the queue between calls. -/
structure Bounded (state : QueueState) : Prop where
  bytes_eq : state.bytes = totalLen state.blocks
  blocks_le : state.blocks.length ≤ maxTelemetryQueueBlocks
  bytes_le : state.bytes ≤ maxTelemetryQueueBytes

theorem bounded_default : Bounded default := by
  constructor
  · rfl
  · simp [default]
  · simp [default]

/-- The loop of `push` for `len` more bytes, from `blocks` counted as `bytes`, and the addition
after it, stay within the machine's range: no `saturating_add` or `saturating_sub` clamps. -/
def ExactLoop (len : Nat) : List Bytes → Nat → Prop
  | [], bytes => bytes + len ≤ u64Max
  | discarded :: blocks, bytes =>
      bytes + len ≤ u64Max ∧
        (overLimits len (discarded :: blocks) bytes →
          discarded.length ≤ bytes ∧ ExactLoop len blocks (bytes - discarded.length))

theorem exactLoop_of_le {len : Nat} {blocks : List Bytes} (h : totalLen blocks + len ≤ u64Max) :
    ExactLoop len blocks (totalLen blocks) := by
  induction blocks with
  | nil => exact h
  | cons discarded blocks ih =>
      simp only [totalLen_cons] at h
      show _ ∧ _
      refine ⟨by simp only [totalLen_cons]; omega, fun _ => ⟨by simp, ?_⟩⟩
      -- the count that is left is that of the blocks that are left
      have hleft : totalLen (discarded :: blocks) - discarded.length = totalLen blocks := by
        simp
      rw [hleft]
      exact ih (by omega)

/-- **The eviction loop** drops some number of blocks from the front, and stops where the new
envelope fits. -/
theorem discardOldest_eq (len : Nat) (blocks : List Bytes) (replaced : Nat) :
    ∃ k, discardOldest len blocks (totalLen blocks) replaced
        = (blocks.drop k, totalLen (blocks.drop k), replaced + k) ∧ k ≤ blocks.length ∧
      (blocks.drop k = [] ∨ ¬ overLimits len (blocks.drop k) (totalLen (blocks.drop k))) := by
  induction blocks generalizing replaced with
  | nil => exact ⟨0, rfl, Nat.le_refl _, .inl rfl⟩
  | cons discarded blocks ih =>
      unfold discardOldest
      by_cases hover : overLimits len (discarded :: blocks) (totalLen (discarded :: blocks))
      · rw [if_pos hover]
        have hleft : totalLen (discarded :: blocks) - discarded.length = totalLen blocks := by
          simp
        rw [hleft]
        obtain ⟨k, hloop, hk, hfits⟩ := ih (replaced + 1)
        refine ⟨k + 1, ?_, by simpa using hk, hfits⟩
        rw [hloop, List.drop_succ_cons]
        congr 2
        omega
      · rw [if_neg hover]
        exact ⟨0, rfl, Nat.zero_le _, .inr hover⟩

theorem push_refused (state : QueueState) {envelope : Bytes}
    (h : envelope.length > maxTelemetryEnvelopeBytes) :
    push state envelope = (.error (.envelopeTooLarge envelope.length), state) :=
  if_pos h

/-- **What an accepted push does**: it discards the oldest `k` blocks, says so, and appends. -/
theorem push_accepted {state : QueueState} {envelope : Bytes} (hstate : Bounded state)
    (h : envelope.length ≤ maxTelemetryEnvelopeBytes) :
    ∃ k, push state envelope
        = (.ok (if k = 0 then .queued else .replaced k),
            { blocks := state.blocks.drop k ++ [envelope]
              bytes := totalLen (state.blocks.drop k ++ [envelope]) }) ∧
      k ≤ state.blocks.length ∧ Bounded (push state envelope).2 := by
  obtain ⟨k, hloop, hk, hfits⟩ := discardOldest_eq envelope.length state.blocks 0
  have hlimits : (state.blocks.drop k).length + 1 ≤ maxTelemetryQueueBlocks ∧
      totalLen (state.blocks.drop k) + envelope.length ≤ maxTelemetryQueueBytes := by
    unfold maxTelemetryEnvelopeBytes at h
    rcases hfits with hempty | hfits
    · -- an envelope alone is within both limits
      rw [hempty]
      unfold maxTelemetryQueueBlocks maxTelemetryQueueBytes
      simp only [List.length_nil, totalLen_nil]
      omega
    · unfold overLimits satAdd u64Max at hfits
      unfold maxTelemetryQueueBlocks maxTelemetryQueueBytes at hfits ⊢
      omega
  -- within the limit of the queue the addition does not clamp
  have hsum : satAdd (totalLen (state.blocks.drop k)) envelope.length
      = totalLen (state.blocks.drop k ++ [envelope]) := by
    rw [satAdd_of_le]
    · simp
    · have hbytes := hlimits.2
      unfold maxTelemetryQueueBytes at hbytes
      unfold u64Max
      omega
  have hpush : push state envelope
      = (.ok (if k = 0 then .queued else .replaced k),
          { blocks := state.blocks.drop k ++ [envelope]
            bytes := totalLen (state.blocks.drop k ++ [envelope]) }) := by
    unfold push
    rw [if_neg (Nat.not_lt.mpr h), hstate.bytes_eq, hloop]
    dsimp only
    rw [hsum, Nat.zero_add]
  refine ⟨k, hpush, hk, ?_⟩
  rw [hpush]
  constructor
  · rfl
  · simpa using hlimits.1
  · simpa using hlimits.2

theorem bounded_tryPop {state : QueueState} (hstate : Bounded state) :
    Bounded (tryPop state).2 := by
  have hbytes := hstate.bytes_eq
  have hlength := hstate.blocks_le
  have hle := hstate.bytes_le
  unfold tryPop
  cases hblocks : state.blocks with
  | nil => exact hstate
  | cons envelope blocks =>
      rw [hblocks] at hbytes hlength
      simp only [totalLen_cons, List.length_cons] at hbytes hlength
      constructor
      · show state.bytes - envelope.length = totalLen blocks
        omega
      · show blocks.length ≤ _
        omega
      · show state.bytes - envelope.length ≤ _
        omega

/-! ## §3. Runs of producers and the sender. -/

inductive Op where
  | push (envelope : Bytes)
  | tryPop
  deriving Repr, DecidableEq

inductive Reply where
  | pushed (result : Except TelemetryFecError QueuePushOutcome)
  | popped (envelope : Option Bytes)

def step (state : QueueState) : Op → Reply × QueueState
  | .push envelope => (.pushed (push state envelope).1, (push state envelope).2)
  | .tryPop => (.popped (tryPop state).1, (tryPop state).2)

/-- The state after a run. -/
abbrev after (ops : List Op) : QueueState := exec step default ops

/-- The envelope a call added: that of a `push` which did not fail. -/
def accepts (state : QueueState) : Op → List Bytes
  | .push envelope =>
      match (push state envelope).1 with
      | .ok _ => [envelope]
      | .error _ => []
  | .tryPop => []

/-- The envelope a call returned. -/
def returns (state : QueueState) : Op → List Bytes
  | .push _ => []
  | .tryPop => (tryPop state).1.toList

/-- The number of blocks a call reported as replaced. -/
def replaces (state : QueueState) : Op → Nat
  | .push envelope =>
      match (push state envelope).1 with
      | .ok (.replaced blocks) => blocks
      | _ => 0
  | .tryPop => 0

/-- The envelopes of a run's successful pushes, in push order. -/
def acceptedIn (ops : List Op) : List Bytes := accepted step accepts default ops

/-- The envelopes a run's pops returned, in order. -/
def poppedIn (ops : List Op) : List Bytes := delivered step returns default ops

/-- The blocks a run's pushes reported as replaced. -/
def replacedIn (ops : List Op) : Nat :=
  ((trace step default ops).map fun e => replaces e.1 e.2).sum

/-- What a call took from the front, popped or discarded. -/
def removes (state : QueueState) : Op → List Bytes
  | .push envelope => state.blocks.take (replaces state (.push envelope))
  | .tryPop => (tryPop state).1.toList

theorem replaces_of_push {state : QueueState} {envelope : Bytes} {k : Nat}
    (h : (push state envelope).1 = .ok (if k = 0 then .queued else .replaced k)) :
    replaces state (.push envelope) = k := by
  simp only [replaces, h]
  by_cases hk : k = 0
  · simp [hk]
  · simp [hk]

theorem bounded_step {state : QueueState} (op : Op) (h : Bounded state) :
    Bounded (step state op).2 := by
  cases op with
  | push envelope =>
      show Bounded (push state envelope).2
      by_cases hlen : envelope.length ≤ maxTelemetryEnvelopeBytes
      · obtain ⟨_, _, _, hbounded⟩ := push_accepted h hlen
        exact hbounded
      · rw [push_refused state (Nat.not_le.mp hlen)]
        exact h
  | tryPop => exact bounded_tryPop h

theorem bounded_after (ops : List Op) : Bounded (after ops) :=
  exec_invariant step Bounded (fun _ op h => bounded_step op h) ops bounded_default

/-- A call moves no block but from the front to its caller or away, and to the back. -/
theorem conserves_step {state : QueueState} (op : Op) (h : Bounded state) :
    Conserves step QueueState.blocks accepts removes state op := by
  unfold Conserves
  cases op with
  | push envelope =>
      by_cases hlen : envelope.length ≤ maxTelemetryEnvelopeBytes
      · obtain ⟨k, hpush, _, _⟩ := push_accepted h hlen
        have hreplaces : replaces state (.push envelope) = k :=
          replaces_of_push (by rw [hpush])
        have haccepts : accepts state (.push envelope) = [envelope] := by
          simp only [accepts, hpush]
        rw [haccepts]
        -- the blocks that are reported are the first `k`, the others stay in front
        show state.blocks.take (replaces state (.push envelope))
          ++ (push state envelope).2.blocks = _
        rw [hreplaces, hpush]
        show state.blocks.take k ++ (state.blocks.drop k ++ [envelope]) = _
        rw [← List.append_assoc, List.take_append_drop]
      · have hrefused := push_refused state (Nat.not_le.mp hlen)
        simp [step, removes, replaces, accepts, hrefused]
  | tryPop =>
      show (tryPop state).1.toList ++ (tryPop state).2.blocks = state.blocks ++ []
      unfold tryPop
      cases hblocks : state.blocks with
      | nil => simp [hblocks]
      | cons envelope blocks => simp

/-- A call returns or reports every block it takes out. -/
theorem length_removes {state : QueueState} (op : Op) (h : Bounded state) :
    (removes state op).length = (returns state op).length + replaces state op := by
  cases op with
  | push envelope =>
      show (state.blocks.take _).length = 0 + _
      by_cases hlen : envelope.length ≤ maxTelemetryEnvelopeBytes
      · obtain ⟨k, hpush, hk, _⟩ := push_accepted h hlen
        have hreplaces : replaces state (.push envelope) = k :=
          replaces_of_push (by rw [hpush])
        rw [hreplaces, List.length_take]
        omega
      · have hrefused := push_refused state (Nat.not_le.mp hlen)
        simp [replaces, hrefused]
  | tryPop => rfl

/-- What a run popped or replaced, followed by the queue, is what it accepted. -/
theorem removed_append_blocks (ops : List Op) :
    delivered step removes default ops ++ (after ops).blocks = acceptedIn ops := by
  have hconserves : ∀ e ∈ trace step default ops,
      Conserves step QueueState.blocks accepts removes e.1 e.2 := by
    intro e he
    obtain ⟨before, _, _, hstate⟩ := exists_exec_of_mem_trace step he
    exact conserves_step e.2 (hstate ▸ bounded_after before)
  exact delivered_append_queue ops default hconserves

/-- The blocks taken out of a run are those its pops returned and those it reported. -/
theorem length_removed (ops : List Op) :
    (delivered step removes default ops).length = (poppedIn ops).length + replacedIn ops := by
  show ((trace step default ops).flatMap _).length
    = ((trace step default ops).flatMap _).length + ((trace step default ops).map _).sum
  rw [List.length_flatMap, List.length_flatMap, ← List.sum_map_add]
  congr 1
  refine List.map_congr_left fun e he => ?_
  obtain ⟨before, _, _, hstate⟩ := exists_exec_of_mem_trace step he
  exact length_removes e.2 (hstate ▸ bounded_after before)

theorem acceptedIn_append (ops : List Op) (op : Op) :
    acceptedIn (ops ++ [op]) = acceptedIn ops ++ accepts (after ops) op := by
  show (trace step default (ops ++ [op])).flatMap _ = (trace step default ops).flatMap _ ++ _
  rw [trace_append, List.flatMap_append]
  simp

theorem after_append (ops : List Op) (op : Op) :
    after (ops ++ [op]) = (step (after ops) op).2 :=
  exec_append step default ops [op]

/-- In the run `ops` a pop returned the envelope that was accepted last. -/
def NewestPopped (ops : List Op) : Prop :=
  ∃ before later newest, ops = before ++ Op.tryPop :: later ∧
    (acceptedIn before).getLast? = some newest ∧ (after before).blocks = [newest] ∧
    acceptedIn before = acceptedIn ops

/-- The last block of the queue is the newest envelope. -/
theorem getLast?_blocks {ops : List Op} (h : (after ops).blocks ≠ []) :
    (after ops).blocks.getLast? = (acceptedIn ops).getLast? := by
  rw [← removed_append_blocks ops, List.getLast?_append_of_ne_nil _ h]

/-- A queue is empty only before the first envelope and after the newest one was popped. -/
theorem newestPopped_of_empty (ops : List Op) :
    (after ops).blocks = [] → acceptedIn ops ≠ [] → NewestPopped ops := by
  -- from the end of the run: the last call emptied the queue, or an earlier one had
  induction ops using List.reverseRecOn with
  | nil =>
      intro _ haccepted
      exact absurd rfl haccepted
  | append_singleton ops op ih =>
      intro hempty haccepted
      rw [after_append] at hempty
      rw [acceptedIn_append] at haccepted
      -- a call that changes nothing leaves what was said of the run before it
      have hsame : (after ops).blocks = [] → accepts (after ops) op = [] →
          NewestPopped (ops ++ [op]) := by
        intro hblocks hnone
        rw [hnone, List.append_nil] at haccepted
        obtain ⟨before, later, newest, hops, hlast, hone, hsince⟩ := ih hblocks haccepted
        refine ⟨before, later ++ [op], newest, by rw [hops]; simp, hlast, hone, ?_⟩
        rw [acceptedIn_append, hnone, List.append_nil]
        exact hsince
      cases op with
      | push envelope =>
          by_cases hlen : envelope.length ≤ maxTelemetryEnvelopeBytes
          · obtain ⟨k, hpush, _, _⟩ := push_accepted (bounded_after ops) hlen
            have hblocks : (push (after ops) envelope).2.blocks = [] := hempty
            rw [hpush] at hblocks
            simp at hblocks
          · have hrefused := push_refused (after ops) (Nat.not_le.mp hlen)
            have hblocks : (push (after ops) envelope).2.blocks = [] := hempty
            rw [hrefused] at hblocks
            exact hsame hblocks (by simp only [accepts, hrefused])
      | tryPop =>
          cases hblocks : (after ops).blocks with
          | nil => exact hsame hblocks rfl
          | cons newest blocks =>
              have hrest : (tryPop (after ops)).2.blocks = [] := hempty
              simp only [tryPop, hblocks] at hrest
              subst hrest
              have hne : (after ops).blocks ≠ [] := by
                rw [hblocks]
                simp
              have hlast := getLast?_blocks hne
              rw [hblocks] at hlast
              refine ⟨ops, [], newest, rfl, hlast.symm, hblocks, ?_⟩
              rw [acceptedIn_append]
              exact (List.append_nil _).symm

/-- No operation of a call on `state` clamps. -/
def Exact (state : QueueState) : Prop :=
  (∀ envelope : Bytes, envelope.length ≤ maxTelemetryEnvelopeBytes →
    ExactLoop envelope.length state.blocks state.bytes) ∧
  ∀ envelope, state.blocks.head? = some envelope → envelope.length ≤ state.bytes

theorem exact_of_bounded {state : QueueState} (h : Bounded state) : Exact state := by
  have hbytes := h.bytes_eq
  have hle := h.bytes_le
  unfold maxTelemetryQueueBytes at hle
  constructor
  · intro envelope hlen
    unfold maxTelemetryEnvelopeBytes at hlen
    rw [hbytes]
    apply exactLoop_of_le
    unfold u64Max
    omega
  · intro envelope hhead
    cases hblocks : state.blocks with
    | nil =>
        rw [hblocks] at hhead
        cases hhead
    | cons first blocks =>
        rw [hblocks] at hhead hbytes
        cases hhead
        rw [hbytes]
        simp

/-- **The latest-telemetry queue.**  After every run: the byte count is that of the blocks and
both limits hold, and no operation of the next call clamps; a push fails exactly when its
envelope is too large, and changes nothing then; a successful one leaves its envelope last.
The queue is the end of the sequence of accepted envelopes, with the newest one unless that
was popped, and what was accepted was popped, reported as replaced, or is queued. -/
theorem latest_queue_accounts (ops : List Op) :
    (after ops).bytes = totalLen (after ops).blocks ∧
    (after ops).blocks.length ≤ maxTelemetryQueueBlocks ∧
    (after ops).bytes ≤ maxTelemetryQueueBytes ∧
    Exact (after ops) ∧
    (∀ envelope, ((∃ error, (push (after ops) envelope).1 = .error error) ↔
      envelope.length > maxTelemetryEnvelopeBytes) ∧
      (envelope.length > maxTelemetryEnvelopeBytes →
        push (after ops) envelope = (.error (.envelopeTooLarge envelope.length), after ops)) ∧
      (envelope.length ≤ maxTelemetryEnvelopeBytes →
        (push (after ops) envelope).2.blocks.getLast? = some envelope)) ∧
    (∃ removed, acceptedIn ops = removed ++ (after ops).blocks) ∧
    (acceptedIn ops ≠ [] →
      ((after ops).blocks ≠ [] ∧ (after ops).blocks.getLast? = (acceptedIn ops).getLast?) ∨
        ((after ops).blocks = [] ∧ NewestPopped ops)) ∧
    (acceptedIn ops).length
      = (poppedIn ops).length + replacedIn ops + (after ops).blocks.length := by
  have hbounded := bounded_after ops
  have hlaw := removed_append_blocks ops
  refine ⟨hbounded.bytes_eq, hbounded.blocks_le, hbounded.bytes_le, exact_of_bounded hbounded,
    ?_, ⟨_, hlaw.symm⟩, ?_, ?_⟩
  · intro envelope
    by_cases hlen : envelope.length ≤ maxTelemetryEnvelopeBytes
    · obtain ⟨k, hpush, _, _⟩ := push_accepted hbounded hlen
      have hnot : ¬ envelope.length > maxTelemetryEnvelopeBytes := Nat.not_lt.mpr hlen
      refine ⟨?_, fun h => absurd h hnot, fun _ => ?_⟩
      · rw [hpush]
        exact ⟨nofun, fun h => absurd h hnot⟩
      · rw [hpush]
        simp
    · have hlarge := Nat.not_le.mp hlen
      have hrefused := push_refused (after ops) hlarge
      refine ⟨?_, fun _ => hrefused, fun h => absurd h hlen⟩
      rw [hrefused]
      exact ⟨fun _ => hlarge, fun _ => ⟨_, rfl⟩⟩
  · -- the newest block is the last one, so only a pop takes it out
    intro haccepted
    by_cases hempty : (after ops).blocks = []
    · exact .inr ⟨hempty, newestPopped_of_empty ops hempty haccepted⟩
    · exact .inl ⟨hempty, getLast?_blocks hempty⟩
  · rw [← hlaw, List.length_append, length_removed]

example :
    after [.push [1], .push [2, 2], .push [3], .tryPop] = { blocks := [[3]], bytes := 1 } := by
  decide

end LatestTelemetryQueue

end AvMesh.Telemetry
