/-
  AvMesh.Replication.Demand
  ─────────────────────────
  **ONE REPLICA REQUEST A SECOND FOR EACH STREAM.**

  `DemandTracker::should_request_replica` (src/main.rs) is called by every
  request handler that misses a stream.  The time of the last request is an
  atomic in a concurrent map.  A call takes these atomic steps:

      entry     insert `now_ms` if the stream has no entry, and return true
      load      read the time of the last request
      retry     return false within the interval, else compare and exchange;
                a failure, which may be spurious, reads the time again

  A run is any sequence of such steps of any calls.  Holding the map's shard
  over a whole call, as the map does, allows only some of these runs.

    • `advance_cases`  — a step grants its call and stores its time, or it
                         leaves the map alone and grants nothing,
    • `Spaced`         — the calls granted so far lie an interval apart and
                         below the stored time: the invariant,
    • `Alike`          — two trackers that one stream cannot tell apart.

  Clocks are arbitrary: `now_ms` may step back from call to call.
-/
import AvMesh.Lib.StepSystem
import AvMesh.Lib.Table

namespace AvMesh.Replication

open AvMesh.Lib

/-! ## §1. The tracker. -/

def replicaRequestMinIntervalMs : Nat := 1000

/-- The arguments of a call of `should_request_replica`. -/
structure DemandCall where
  streamId : UInt64
  nowMs : Nat
  deriving Repr, DecidableEq

/-- Where a call of `should_request_replica` is. -/
inductive DemandPoint where
  | entry
  | load
  | retry (lastMs : Nat)
  | returned (request : Bool)
  deriving Repr, DecidableEq

/-- One atomic step of `call`; `spurious` makes a compare-and-exchange fail. -/
structure DemandStep (ι : Type*) where
  call : ι
  spurious : Bool
  deriving Repr, DecidableEq

/-- The map of the last requests, and where each call is. -/
structure DemandTracker (ι : Type*) where
  lastReplicaRequestUnixMs : Table UInt64 Nat := ∅
  point : ι → DemandPoint := fun _ => .entry

namespace DemandTracker

/-- The next step of a call, from the point where it is. -/
def advance (call : DemandCall) (spurious : Bool) (times : Table UInt64 Nat) :
    DemandPoint → DemandPoint × Table UInt64 Nat
  | .entry =>
      match times.lookup call.streamId with
      | none => (.returned true, times.insert call.streamId call.nowMs)
      | some _ => (.load, times)
  | .load =>
      match times.lookup call.streamId with
      -- the call holds the entry it found, and no entry is ever removed
      | none => (.load, times)
      | some lastMs => (.retry lastMs, times)
  | .retry lastMs =>
      if call.nowMs - lastMs < replicaRequestMinIntervalMs then (.returned false, times)
      else
        match times.lookup call.streamId with
        | none => (.retry lastMs, times)
        | some observed =>
            if observed = lastMs ∧ spurious = false then
              (.returned true, times.insert call.streamId call.nowMs)
            else (.retry observed, times)
  | .returned request => (.returned request, times)

variable {ι : Type*} [DecidableEq ι] (calls : ι → DemandCall)

def step (s : DemandTracker ι) (op : DemandStep ι) : Unit × DemandTracker ι :=
  let (point, times) :=
    advance (calls op.call) op.spurious s.lastReplicaRequestUnixMs (s.point op.call)
  ((), { lastReplicaRequestUnixMs := times, point := Function.update s.point op.call point })

/-- The tracker after a run. -/
abbrev after (ops : List (DemandStep ι)) : DemandTracker ι := exec (step calls) {} ops

/-! ## §2. One step. -/

/-- A call that has returned does nothing more. -/
@[simp] theorem advance_returned (call : DemandCall) (spurious : Bool) (times : Table UInt64 Nat)
    (request : Bool) :
    advance call spurious times (.returned request) = (.returned request, times) := rfl

/-- **What a step does**: it leaves the times alone and grants nothing, or it grants its call,
an interval after the time that is stored, and stores the time of the call. -/
theorem advance_cases (call : DemandCall) (spurious : Bool) (times : Table UInt64 Nat)
    (point : DemandPoint) :
    ((advance call spurious times point).2 = times ∧
      ((advance call spurious times point).1 = .returned true → point = .returned true)) ∨
    (advance call spurious times point
        = (.returned true, times.insert call.streamId call.nowMs) ∧
      ∀ lastMs, times.lookup call.streamId = some lastMs →
        lastMs + replicaRequestMinIntervalMs ≤ call.nowMs) := by
  cases point with
  | entry =>
      simp only [advance]
      cases hlookup : times.lookup call.streamId with
      -- the first call of a stream is granted
      | none => exact .inr ⟨rfl, nofun⟩
      | some lastMs => exact .inl ⟨rfl, nofun⟩
  | load =>
      simp only [advance]
      cases times.lookup call.streamId with
      | none => exact .inl ⟨rfl, nofun⟩
      | some lastMs => exact .inl ⟨rfl, nofun⟩
  | retry lastMs =>
      simp only [advance]
      by_cases hsoon : call.nowMs - lastMs < replicaRequestMinIntervalMs
      · rw [if_pos hsoon]
        exact .inl ⟨rfl, nofun⟩
      · rw [if_neg hsoon]
        cases hlookup : times.lookup call.streamId with
        | none => exact .inl ⟨rfl, nofun⟩
        | some observed =>
            dsimp only
            by_cases hexchange : observed = lastMs ∧ spurious = false
            · -- the time that was compared is the one that is stored
              rw [if_pos hexchange]
              refine .inr ⟨rfl, fun stored hstored => ?_⟩
              cases hstored
              rw [hexchange.1]
              unfold replicaRequestMinIntervalMs at hsoon ⊢
              omega
            · rw [if_neg hexchange]
              exact .inl ⟨rfl, nofun⟩
  | returned request => exact .inl ⟨rfl, id⟩

theorem step_cases (s : DemandTracker ι) (op : DemandStep ι) :
    ((step calls s op).2.lastReplicaRequestUnixMs = s.lastReplicaRequestUnixMs ∧
      ∀ c, (step calls s op).2.point c = .returned true → s.point c = .returned true) ∨
    ((step calls s op).2 =
        { lastReplicaRequestUnixMs := s.lastReplicaRequestUnixMs.insert
            (calls op.call).streamId (calls op.call).nowMs
          point := Function.update s.point op.call (.returned true) } ∧
      ∀ lastMs, s.lastReplicaRequestUnixMs.lookup (calls op.call).streamId = some lastMs →
        lastMs + replicaRequestMinIntervalMs ≤ (calls op.call).nowMs) := by
  rcases advance_cases (calls op.call) op.spurious s.lastReplicaRequestUnixMs (s.point op.call)
    with ⟨htimes, hpoint⟩ | ⟨hgrant, hlast⟩
  · refine .inl ⟨htimes, fun c hc => ?_⟩
    by_cases hcall : c = op.call
    · subst hcall
      have hsame : (advance (calls op.call) op.spurious s.lastReplicaRequestUnixMs
          (s.point op.call)).1 = .returned true := by
        simpa [step] using hc
      exact hpoint hsame
    · simpa [step, hcall] using hc
  · refine .inr ⟨?_, hlast⟩
    unfold step
    rw [hgrant]

/-- An answer stands. -/
theorem point_exec {s : DemandTracker ι} {c : ι} {request : Bool}
    (h : s.point c = .returned request) (ops : List (DemandStep ι)) :
    (exec (step calls) s ops).point c = .returned request := by
  refine exec_invariant (step calls) (fun s => s.point c = .returned request) ?_ ops h
  intro s op hpoint
  by_cases hcall : c = op.call
  · subst hcall
    simp [step, hpoint]
  · simpa [step, hcall] using hpoint

/-! ## §3. Granted calls lie an interval apart. -/

structure Spaced (s : DemandTracker ι) : Prop where
  stored : ∀ c, s.point c = .returned true →
    ∃ lastMs, s.lastReplicaRequestUnixMs.lookup (calls c).streamId = some lastMs ∧
      (calls c).nowMs ≤ lastMs
  apart : ∀ c d, c ≠ d → (calls c).streamId = (calls d).streamId →
    s.point c = .returned true → s.point d = .returned true →
    (calls c).nowMs + replicaRequestMinIntervalMs ≤ (calls d).nowMs ∨
      (calls d).nowMs + replicaRequestMinIntervalMs ≤ (calls c).nowMs

variable {calls}

theorem spaced_step {s : DemandTracker ι} (op : DemandStep ι) (h : Spaced calls s) :
    Spaced calls (step calls s op).2 := by
  rcases step_cases calls s op with ⟨htimes, hgranted⟩ | ⟨hstep, hlast⟩
  · constructor
    · intro c hc
      rw [htimes]
      exact h.stored c (hgranted c hc)
    · intro c d hne hstream hc hd
      exact h.apart c d hne hstream (hgranted c hc) (hgranted d hd)
  · rw [hstep]
    -- a call of the same stream that was granted earlier is an interval before this one
    have hbefore : ∀ c, (calls c).streamId = (calls op.call).streamId →
        s.point c = .returned true →
        (calls c).nowMs + replicaRequestMinIntervalMs ≤ (calls op.call).nowMs := by
      intro c hstream hc
      obtain ⟨lastMs, hlookup, hle⟩ := h.stored c hc
      rw [hstream] at hlookup
      have hinterval := hlast lastMs hlookup
      omega
    constructor
    · intro c hc
      dsimp only at hc ⊢
      by_cases hstream : (calls c).streamId = (calls op.call).streamId
      · rw [hstream, AList.lookup_insert]
        refine ⟨_, rfl, ?_⟩
        by_cases hcall : c = op.call
        · rw [hcall]
        · rw [Function.update_of_ne hcall] at hc
          have hle := hbefore c hstream hc
          omega
      · have hcall : c ≠ op.call := fun heq => hstream (by rw [heq])
        rw [Function.update_of_ne hcall] at hc
        rw [AList.lookup_insert_ne hstream]
        exact h.stored c hc
    · intro c d hne hstream hc hd
      dsimp only at hc hd
      by_cases hcall : c = op.call
      · have hother : d ≠ op.call := fun heq => hne (hcall.trans heq.symm)
        rw [Function.update_of_ne hother] at hd
        rw [hcall] at hstream ⊢
        exact .inr (hbefore d hstream.symm hd)
      · rw [Function.update_of_ne hcall] at hc
        by_cases hother : d = op.call
        · rw [hother] at hstream ⊢
          exact .inl (hbefore c hstream hc)
        · rw [Function.update_of_ne hother] at hd
          exact h.apart c d hne hstream hc hd

theorem spaced_after (ops : List (DemandStep ι)) : Spaced calls (after calls ops) := by
  refine exec_invariant (step calls) (Spaced calls) (fun s op h => spaced_step op h) ops ?_
  exact ⟨nofun, nofun⟩

/-- The stored time of a stream does not fall. -/
theorem lookup_le_exec (streamId : UInt64) {lastMs : Nat} (ops : List (DemandStep ι))
    {s : DemandTracker ι} (h : s.lastReplicaRequestUnixMs.lookup streamId = some lastMs) :
    ∃ laterMs, (exec (step calls) s ops).lastReplicaRequestUnixMs.lookup streamId = some laterMs ∧
      lastMs ≤ laterMs := by
  refine exec_invariant (step calls) (fun s => ∃ laterMs,
    s.lastReplicaRequestUnixMs.lookup streamId = some laterMs ∧ lastMs ≤ laterMs) ?_ ops
    ⟨lastMs, h, Nat.le_refl _⟩
  intro s op hstored
  obtain ⟨laterMs, hlookup, hle⟩ := hstored
  rcases step_cases calls s op with ⟨htimes, _⟩ | ⟨hstep, hlast⟩
  · rw [htimes]
    exact ⟨laterMs, hlookup, hle⟩
  · rw [hstep]
    dsimp only
    by_cases hstream : streamId = (calls op.call).streamId
    · subst hstream
      have hinterval := hlast laterMs hlookup
      rw [AList.lookup_insert]
      exact ⟨_, rfl, by omega⟩
    · rw [AList.lookup_insert_ne hstream]
      exact ⟨laterMs, hlookup, hle⟩

/-! ## §4. One stream alone. -/

/-- Two trackers that calls for `streamId` cannot tell apart. -/
structure Alike (calls : ι → DemandCall) (streamId : UInt64) (s s' : DemandTracker ι) : Prop where
  stored : s.lastReplicaRequestUnixMs.lookup streamId
    = s'.lastReplicaRequestUnixMs.lookup streamId
  point : ∀ c, (calls c).streamId = streamId → s.point c = s'.point c

/-- A step reads and writes the time of its own stream only. -/
theorem advance_congr (call : DemandCall) (spurious : Bool) {times times' : Table UInt64 Nat}
    (point : DemandPoint) (h : times.lookup call.streamId = times'.lookup call.streamId) :
    (advance call spurious times point).1 = (advance call spurious times' point).1 ∧
      (advance call spurious times point).2.lookup call.streamId
        = (advance call spurious times' point).2.lookup call.streamId := by
  cases point with
  | entry =>
      simp only [advance, ← h]
      cases hlookup : times.lookup call.streamId with
      | none => exact ⟨rfl, by rw [AList.lookup_insert, AList.lookup_insert]⟩
      | some lastMs => exact ⟨rfl, h⟩
  | load =>
      simp only [advance, ← h]
      cases hlookup : times.lookup call.streamId with
      | none => exact ⟨rfl, h⟩
      | some lastMs => exact ⟨rfl, h⟩
  | retry lastMs =>
      simp only [advance, ← h]
      by_cases hsoon : call.nowMs - lastMs < replicaRequestMinIntervalMs
      · rw [if_pos hsoon, if_pos hsoon]
        exact ⟨rfl, h⟩
      · rw [if_neg hsoon, if_neg hsoon]
        cases hlookup : times.lookup call.streamId with
        | none => exact ⟨rfl, h⟩
        | some observed =>
            dsimp only
            by_cases hexchange : observed = lastMs ∧ spurious = false
            · rw [if_pos hexchange, if_pos hexchange]
              exact ⟨rfl, by rw [AList.lookup_insert, AList.lookup_insert]⟩
            · rw [if_neg hexchange, if_neg hexchange]
              exact ⟨rfl, h⟩
  | returned request => exact ⟨rfl, h⟩

theorem alike_step_both {streamId : UInt64} {s s' : DemandTracker ι} (op : DemandStep ι)
    (hop : (calls op.call).streamId = streamId) (h : Alike calls streamId s s') :
    Alike calls streamId (step calls s op).2 (step calls s' op).2 := by
  subst hop
  have hcongr := advance_congr (calls op.call) op.spurious (s.point op.call) h.stored
  rw [h.point op.call rfl] at hcongr
  constructor
  · show (advance _ _ _ (s.point op.call)).2.lookup _ = _
    rw [h.point op.call rfl]
    exact hcongr.2
  · intro c hstream
    show Function.update s.point op.call (advance _ _ _ (s.point op.call)).1 c
      = Function.update s'.point op.call (advance _ _ _ (s'.point op.call)).1 c
    by_cases hcall : c = op.call
    · subst hcall
      rw [Function.update_self, Function.update_self, h.point op.call rfl]
      exact hcongr.1
    · rw [Function.update_of_ne hcall, Function.update_of_ne hcall]
      exact h.point c hstream

theorem alike_step_other {streamId : UInt64} {s s' : DemandTracker ι} (op : DemandStep ι)
    (hop : (calls op.call).streamId ≠ streamId) (h : Alike calls streamId s s') :
    Alike calls streamId (step calls s op).2 s' := by
  constructor
  · rcases step_cases calls s op with ⟨htimes, _⟩ | ⟨hstep, _⟩
    · rw [htimes]
      exact h.stored
    · rw [hstep]
      show (AList.insert _ _ _).lookup streamId = _
      rw [AList.lookup_insert_ne hop.symm]
      exact h.stored
  · intro c hstream
    have hcall : c ≠ op.call := fun heq => hop (by rw [← heq]; exact hstream)
    show Function.update s.point op.call _ c = _
    rw [Function.update_of_ne hcall]
    exact h.point c hstream

/-- The steps of a run that calls for `streamId` take. -/
def ofStream (calls : ι → DemandCall) (streamId : UInt64) (ops : List (DemandStep ι)) :
    List (DemandStep ι) :=
  ops.filter fun op => (calls op.call).streamId == streamId

/-- Calls for a stream fare as if there were no other streams. -/
theorem alike_after (streamId : UInt64) (ops : List (DemandStep ι)) :
    Alike calls streamId (after calls ops) (after calls (ofStream calls streamId ops)) := by
  refine exec_filter (step calls) (Alike calls streamId) _ ?_ ?_ ops {} {} ⟨rfl, fun _ _ => rfl⟩
  · intro s s' op hop h
    exact alike_step_both op (beq_iff_eq.mp hop) h
  · intro s s' op hop h
    exact alike_step_other op (beq_eq_false_iff_ne.mp hop) h

/-- **The throttle.**  In every interleaving of any calls: two granted calls of one stream lie
an interval apart, a stored time does not fall, the call that is first to step for its stream
is granted, and a stream's calls are where they would be without the other streams. -/
theorem replica_request_throttle (calls : ι → DemandCall) (ops : List (DemandStep ι)) :
    (∀ c d, c ≠ d → (calls c).streamId = (calls d).streamId →
      (after calls ops).point c = .returned true → (after calls ops).point d = .returned true →
      (calls c).nowMs + replicaRequestMinIntervalMs ≤ (calls d).nowMs ∨
        (calls d).nowMs + replicaRequestMinIntervalMs ≤ (calls c).nowMs) ∧
    (∀ more streamId lastMs,
      (after calls ops).lastReplicaRequestUnixMs.lookup streamId = some lastMs →
      ∃ laterMs, (after calls (ops ++ more)).lastReplicaRequestUnixMs.lookup streamId
          = some laterMs ∧ lastMs ≤ laterMs) ∧
    (∀ before op later, ops = before ++ op :: later →
      (∀ earlier ∈ before, (calls earlier.call).streamId ≠ (calls op.call).streamId) →
      (after calls ops).point op.call = .returned true) ∧
    (∀ c, (after calls ops).point c
      = (after calls (ofStream calls (calls c).streamId ops)).point c) := by
  refine ⟨(spaced_after ops).apart, ?_, ?_, ?_⟩
  · intro more streamId lastMs hlookup
    have hrun : after calls (ops ++ more) = exec (step calls) (after calls ops) more :=
      exec_append (step calls) {} ops more
    rw [hrun]
    exact lookup_le_exec streamId more hlookup
  · intro before op later hops hfirst
    -- to this stream the tracker is as at the start
    have halike : Alike calls (calls op.call).streamId (after calls before) _ :=
      alike_after (calls op.call).streamId before
    have hnone : ofStream calls (calls op.call).streamId before = [] := by
      refine List.filter_eq_nil_iff.mpr fun earlier hearlier => ?_
      simpa using hfirst earlier hearlier
    rw [hnone] at halike
    have hpoint : (after calls before).point op.call = .entry := halike.point op.call rfl
    have hlookup : (after calls before).lastReplicaRequestUnixMs.lookup (calls op.call).streamId
        = none := halike.stored
    have hrun : after calls ops
        = exec (step calls) (step calls (after calls before) op).2 later := by
      rw [hops]
      exact exec_append (step calls) {} before (op :: later)
    rw [hrun]
    apply point_exec
    unfold step
    rw [hpoint]
    simp [advance, hlookup]
  · intro c
    exact (alike_after (calls c).streamId ops).point c rfl

/-- Two calls for one stream a second apart, and one for another stream. -/
def twoStreams : Nat → DemandCall
  | 0 => { streamId := 77, nowMs := 0 }
  | 1 => { streamId := 77, nowMs := 1000 }
  | _ => { streamId := 78, nowMs := 5 }

/-- All three are granted, the second one after a spurious failure. -/
theorem replica_request_throttle_two :
    ((twoStreams 0).nowMs + replicaRequestMinIntervalMs ≤ (twoStreams 1).nowMs ∨
      (twoStreams 1).nowMs + replicaRequestMinIntervalMs ≤ (twoStreams 0).nowMs) ∧
    (after twoStreams [⟨0, false⟩, ⟨1, false⟩, ⟨1, false⟩, ⟨1, true⟩, ⟨1, false⟩,
      ⟨2, false⟩]).point 2 = .returned true ∧
    ∃ laterMs, (after twoStreams ([⟨0, false⟩, ⟨1, false⟩, ⟨1, false⟩, ⟨1, true⟩, ⟨1, false⟩,
      ⟨2, false⟩] ++ [⟨3, false⟩])).lastReplicaRequestUnixMs.lookup 77 = some laterMs ∧
      1000 ≤ laterMs := by
  have h := replica_request_throttle twoStreams
    [⟨0, false⟩, ⟨1, false⟩, ⟨1, false⟩, ⟨1, true⟩, ⟨1, false⟩, ⟨2, false⟩]
  refine ⟨h.1 0 1 (by decide) rfl (by decide) (by decide), ?_, ?_⟩
  · exact h.2.2.1 [⟨0, false⟩, ⟨1, false⟩, ⟨1, false⟩, ⟨1, true⟩, ⟨1, false⟩] ⟨2, false⟩ [] rfl
      (by simp [twoStreams])
  · exact h.2.1 [⟨3, false⟩] 77 1000 (by decide)

end DemandTracker

end AvMesh.Replication
