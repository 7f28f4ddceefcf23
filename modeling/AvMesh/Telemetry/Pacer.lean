/-
  AvMesh.Telemetry.Pacer
  ──────────────────────
  **TELEMETRY DATAGRAMS LEAVE AT THE CONFIGURED RATE.**

  `TelemetryWirePacer` (src/main.rs) keeps the instant before which the next
  datagram must not leave.  `wait_for` sends at that instant, or now if it has
  passed, and moves it on by the time the datagram takes on the wire at the
  configured rate, rounded up to whole nanoseconds.

    • `waitFor_ok`      — what one call does to the pacer and when it sends,
    • `paced_sends`     — the sends of every run are paced,
    • `telemetry_pacing`— the time between two sends, and what fits a window.

  The time on the wire is a `u64` of nanoseconds and is capped there.  A
  datagram that large is sent in less time than the rate allows it, so the
  bound on a window is about datagrams below the cap; up to 2.3 GB they are,
  at every rate.

  Instants are nanoseconds.  `maxInstant` is the last one `Instant` can hold;
  adding a duration past it panics.
-/
import AvMesh.Lib.Machine
import AvMesh.Lib.Pacing
import Mathlib.Algebra.BigOperators.Ring.List
import Mathlib.Algebra.Order.BigOperators.Group.List
import Mathlib.Algebra.Order.Floor.Div

namespace AvMesh.Telemetry

open AvMesh.Lib

/-! ## §1. The pacer. -/

structure TelemetryWirePacer where
  rateBps : UInt64
  nextSend : Nat
  deriving Repr, DecidableEq

/-- One call of `wait_for`: when it is made, for how many bytes, and whether the shutdown signal
comes while it sleeps. -/
structure PacerCall where
  now : Nat
  bytes : UInt64
  shutdown : Bool
  deriving Repr, DecidableEq

/-- A datagram that was sent. -/
structure PacedSend where
  sentAt : Nat
  bytes : UInt64
  deriving Repr, DecidableEq

/-- The nanoseconds `bytes` take on the wire, in `u128` arithmetic, where the product of a `u64`
and `8 * 1_000_000_000` always fits. -/
def wireNanos (rateBps bytes : UInt64) : Nat :=
  (8 * 1000000000 * bytes.toNat) ⌈/⌉ rateBps.toNat

/-- `Duration::from_nanos(u64::try_from(wire_nanos).unwrap_or(u64::MAX))`. -/
def wireDuration (rateBps bytes : UInt64) : Nat :=
  (tryFrom 64 (wireNanos rateBps bytes)).getD u64Max

namespace TelemetryWirePacer

def new (rateBps : UInt64) (now : Nat) : TelemetryWirePacer :=
  { rateBps := max rateBps 1, nextSend := now }

variable (maxInstant : Nat)

/-- `Instant + Duration`. -/
def addInstant (instant duration : Nat) : Outcome Empty Nat :=
  if instant + duration ≤ maxInstant then .ok (instant + duration)
  else .error (.panic "overflow when adding duration to instant")

/-- `wait_for`: the datagram to send now, if any, and the pacer after the call. -/
def waitFor (pacer : TelemetryWirePacer) (call : PacerCall) :
    Outcome Empty (Option PacedSend × TelemetryWirePacer) := do
  let waitUntil := max pacer.nextSend call.now
  let nextSend ← addInstant maxInstant waitUntil (wireDuration pacer.rateBps call.bytes)
  let pacer := { pacer with nextSend }
  if waitUntil ≤ call.now then return (some { sentAt := waitUntil, bytes := call.bytes }, pacer)
  -- the `select` ends with the shutdown signal or with the sleep until `wait_until`
  if call.shutdown then return (none, pacer)
  return (some { sentAt := waitUntil, bytes := call.bytes }, pacer)

/-- The datagrams a run of calls sends.  A panic ends the run. -/
def sends : TelemetryWirePacer → List PacerCall → List PacedSend
  | _, [] => []
  | pacer, call :: calls =>
      match waitFor maxInstant pacer call with
      | .error _ => []
      | .ok (sent, pacer) => sent.toList ++ sends pacer calls

/-! ## §2. One call. -/

/-- What one call does: it reserves the wire from the instant it may send at. -/
theorem waitFor_ok {pacer pacer' : TelemetryWirePacer} {call : PacerCall}
    {sent : Option PacedSend} (h : waitFor maxInstant pacer call = .ok (sent, pacer')) :
    pacer'.rateBps = pacer.rateBps ∧
    pacer'.nextSend = max pacer.nextSend call.now + wireDuration pacer.rateBps call.bytes ∧
    ∀ send, sent = some send →
      send = { sentAt := max pacer.nextSend call.now, bytes := call.bytes } := by
  unfold waitFor at h
  obtain ⟨nextSend, hadd, h⟩ := except_bind_eq_ok.mp h
  have hnext : nextSend = max pacer.nextSend call.now + wireDuration pacer.rateBps call.bytes := by
    unfold addInstant at hadd
    split at hadd
    · exact (Except.ok.inj hadd).symm
    · cases hadd
  -- the three ways out differ in what is sent, not in the pacer they leave
  have hpair : pacer' = { pacer with nextSend } ∧
      ∀ send, sent = some send →
        send = { sentAt := max pacer.nextSend call.now, bytes := call.bytes } := by
    dsimp only at h
    by_cases hpast : max pacer.nextSend call.now ≤ call.now
    · rw [if_pos hpast] at h
      cases h
      exact ⟨rfl, fun send hsend => (Option.some.inj hsend).symm⟩
    · rw [if_neg hpast] at h
      by_cases hshutdown : call.shutdown = true
      · rw [if_pos hshutdown] at h
        cases h
        exact ⟨rfl, nofun⟩
      · rw [if_neg hshutdown] at h
        cases h
        exact ⟨rfl, fun send hsend => (Option.some.inj hsend).symm⟩
  rw [hpair.1]
  exact ⟨rfl, hnext, hpair.2⟩

/-! ## §3. Runs. -/

theorem sends_cons (pacer : TelemetryWirePacer) (call : PacerCall) (calls : List PacerCall) :
    sends maxInstant pacer (call :: calls)
      = match waitFor maxInstant pacer call with
        | .error _ => []
        | .ok (sent, pacer') => sent.toList ++ sends maxInstant pacer' calls := rfl

/-- Nothing is sent before the reserved instant, and each datagram has the wire to itself. -/
theorem paced_sends (calls : List PacerCall) (pacer : TelemetryWirePacer) :
    (∀ send ∈ sends maxInstant pacer calls, pacer.nextSend ≤ send.sentAt) ∧
    Paced PacedSend.sentAt (fun send => wireDuration pacer.rateBps send.bytes)
      (sends maxInstant pacer calls) := by
  induction calls generalizing pacer with
  | nil => exact ⟨nofun, List.Pairwise.nil⟩
  | cons call calls ih =>
      rw [sends_cons]
      cases hcall : waitFor maxInstant pacer call with
      | error _ => exact ⟨nofun, List.Pairwise.nil⟩
      | ok result =>
          obtain ⟨sent, pacer'⟩ := result
          obtain ⟨hrate, hnext, hsent⟩ := waitFor_ok maxInstant hcall
          obtain ⟨hlater, hpaced⟩ := ih pacer'
          rw [hrate] at hpaced
          dsimp only
          cases sent with
          | none =>
              -- a call that ended with the shutdown sent nothing, and has reserved its time too
              refine ⟨fun send hsend => ?_, hpaced⟩
              have hle := hlater send hsend
              omega
          | some first =>
              have hfirst := hsent first rfl
              subst hfirst
              constructor
              · intro send hsend
                rcases List.mem_cons.mp hsend with rfl | hsend
                · exact Nat.le_max_left _ _
                · have hle := hlater send hsend
                  omega
              · -- the others wait for the instant this one has reserved up to
                refine List.pairwise_cons.mpr ⟨fun send hsend => ?_, hpaced⟩
                have hle := hlater send hsend
                show max pacer.nextSend call.now + wireDuration pacer.rateBps call.bytes ≤ _
                omega

theorem toNat_max_one (rateBps : UInt64) : (max rateBps 1).toNat = max rateBps.toNat 1 :=
  u64_toNat_max rateBps 1

/-- The time a datagram takes on the wire, capped at what a `u64` holds. -/
def cappedWireTime (rateBps bytes : UInt64) : Nat :=
  min ((8 * 1000000000 * bytes.toNat) ⌈/⌉ max rateBps.toNat 1) u64Max

/-- A datagram whose time on the wire is below the cap. -/
def Uncapped (rateBps bytes : UInt64) : Prop :=
  (8 * 1000000000 * bytes.toNat) ⌈/⌉ max rateBps.toNat 1 ≤ u64Max

theorem wireDuration_new (rateBps bytes : UInt64) :
    wireDuration (max rateBps 1) bytes = cappedWireTime rateBps bytes := by
  unfold wireDuration cappedWireTime wireNanos tryFrom
  rw [toNat_max_one]
  unfold u64Max
  split
  · rw [Option.getD_some]
    omega
  · rw [Option.getD_none]
    omega

theorem uncapped_of_le (rateBps : UInt64) {bytes : UInt64} (h : bytes.toNat ≤ 2305843009) :
    Uncapped rateBps bytes := by
  unfold Uncapped
  rw [ceilDiv_le_iff_le_mul (by omega)]
  have hrate : 1 * u64Max ≤ max rateBps.toNat 1 * u64Max :=
    Nat.mul_le_mul_right _ (Nat.le_max_right _ _)
  unfold u64Max at hrate ⊢
  omega

/-- Below the cap, a datagram has the time its bits take at the rate. -/
theorem bits_le_of_uncapped {rateBps bytes : UInt64} (h : Uncapped rateBps bytes) :
    8 * 1000000000 * bytes.toNat ≤ max rateBps.toNat 1 * cappedWireTime rateBps bytes := by
  unfold cappedWireTime
  rw [Nat.min_eq_left h]
  exact (ceilDiv_le_iff_le_mul (by omega)).mp (Nat.le_refl _)

/-- The bytes of `others` are at most what the rate carries in `width` nanoseconds. -/
def WithinRate (rateBps : UInt64) (width : Nat) (others : List PacedSend) : Prop :=
  8 * 1000000000 * (others.map fun send => send.bytes.toNat).sum ≤ max rateBps.toNat 1 * width

/-- Datagrams below the cap that fit into a time one after the other are within the rate. -/
theorem withinRate_of_sum_le {rateBps : UInt64} {width : Nat} {others : List PacedSend}
    (hbelow : ∀ send ∈ others, Uncapped rateBps send.bytes)
    (hsum : (others.map fun send => cappedWireTime rateBps send.bytes).sum ≤ width) :
    WithinRate rateBps width others := by
  have hbits : 8 * 1000000000 * (others.map fun send => send.bytes.toNat).sum
      ≤ max rateBps.toNat 1 * (others.map fun send => cappedWireTime rateBps send.bytes).sum := by
    rw [← List.sum_map_mul_left, ← List.sum_map_mul_left]
    exact List.sum_le_sum fun send hsend => bits_le_of_uncapped (hbelow send hsend)
  exact Nat.le_trans hbits (Nat.mul_le_mul_left _ hsum)

/-- The sends of a pacer that was made for `rateBps`. -/
theorem paced_new (rateBps : UInt64) (started : Nat) (calls : List PacerCall) :
    Paced PacedSend.sentAt (fun send => cappedWireTime rateBps send.bytes)
      (sends maxInstant (new rateBps started) calls) := by
  have hpaced := (paced_sends maxInstant calls (new rateBps started)).2
  have htime : (fun send : PacedSend => wireDuration (new rateBps started).rateBps send.bytes)
      = fun send => cappedWireTime rateBps send.bytes :=
    funext fun send => wireDuration_new rateBps send.bytes
  rw [htime] at hpaced
  exact hpaced

/-- **The pacing bound.**  Between two sends lies the time of everything sent from the first one
up to the second, each datagram with its capped time on the wire.  What is sent in a window of
any position and length, its last datagram apart, is within the rate if it is below the cap;
and below the cap is every datagram up to 2305843009 bytes. -/
theorem telemetry_pacing (rateBps : UInt64) (started : Nat) (calls : List PacerCall) :
    (∀ i j, ∀ (_ : i ≤ j) (_ : j < (sends maxInstant (new rateBps started) calls).length),
      (sends maxInstant (new rateBps started) calls)[i].sentAt
          + ((((sends maxInstant (new rateBps started) calls).take j).drop i).map fun send =>
              cappedWireTime rateBps send.bytes).sum
        ≤ (sends maxInstant (new rateBps started) calls)[j].sentAt) ∧
    (∀ opens width others last,
      startingIn PacedSend.sentAt opens width (sends maxInstant (new rateBps started) calls)
          = others ++ [last] →
      (∀ send ∈ others, Uncapped rateBps send.bytes) → WithinRate rateBps width others) ∧
    (∀ bytes : UInt64, bytes.toNat ≤ 2305843009 → Uncapped rateBps bytes) := by
  have hpaced := paced_new maxInstant rateBps started calls
  refine ⟨fun i j hij hj => hpaced.getElem_add_sum_le hij hj, ?_, ?_⟩
  · intro opens width others last hwindow hbelow
    exact withinRate_of_sum_le hbelow (hpaced.sum_le_window hwindow)
  · intro bytes hbytes
    exact uncapped_of_le rateBps hbytes

/-- Two datagrams of 4 GiB at one bit per second: the first has the wire for 584 years instead
of 1089. -/
theorem pacing_capped :
    sends (2 ^ 96) (new 1 0) [⟨0, 4294967296, false⟩, ⟨0, 4294967296, false⟩]
        = [⟨0, 4294967296⟩, ⟨u64Max, 4294967296⟩] ∧
    ¬ ∀ opens width others last,
      startingIn PacedSend.sentAt opens width
          (sends (2 ^ 96) (new 1 0) [⟨0, 4294967296, false⟩, ⟨0, 4294967296, false⟩])
        = others ++ [last] → WithinRate 1 width others := by
  have hsends : sends (2 ^ 96) (new 1 0) [⟨0, 4294967296, false⟩, ⟨0, 4294967296, false⟩]
      = [⟨0, 4294967296⟩, ⟨u64Max, 4294967296⟩] := by
    decide
  refine ⟨hsends, fun h => ?_⟩
  rw [hsends] at h
  have hbound := h 0 u64Max [⟨0, 4294967296⟩] ⟨u64Max, 4294967296⟩ (by decide)
  exact absurd hbound (by unfold WithinRate; decide)

/-- Three datagrams of 1000 bytes at 80 kbit/s, 100 ms each: two at once, and one when the wire
is free again. -/
theorem telemetry_pacing_three :
    0 + (100000000 + (100000000 + 0)) ≤ 200000000 ∧
    WithinRate 80000 200000000 [⟨0, 1000⟩, ⟨100000000, 1000⟩] ∧ Uncapped 80000 1000 := by
  have h := telemetry_pacing (2 ^ 96) 80000 0
    [⟨0, 1000, false⟩, ⟨0, 1000, false⟩, ⟨200000000, 1000, false⟩]
  have hbelow : Uncapped 80000 1000 := h.2.2 1000 (by decide)
  refine ⟨h.1 0 2 (by decide) (by decide), ?_, hbelow⟩
  refine h.2.1 0 200000000 [⟨0, 1000⟩, ⟨100000000, 1000⟩] ⟨200000000, 1000⟩ (by decide) ?_
  intro send hsend
  simp only [List.mem_cons, List.not_mem_nil, or_false] at hsend
  rcases hsend with rfl | rfl
  · exact hbelow
  · exact hbelow

end TelemetryWirePacer

end AvMesh.Telemetry
