/-
  AvMesh.Failover.Controller
  ──────────────────────────
  **THE FAILOVER CONTROLLER** (`RelayFailoverController`, src/main.rs).

  An edge watches two parents: source symbols of the primary and repair
  symbols of the warm secondary.  `observe` notes when each was last seen;
  `tick` moves a six-state machine and sends the secondary one command with
  the mode it wants:

      Arming ─► Healthy ─► Promoted ⇄ Recovering ─► Healthy
          └──► SecondaryUnavailable ─► Healthy / Promoted

  `Turn` lists everything a tick can do to the machine, `SameMachine` what an
  observation leaves alone; every invariant of a run is derived from these
  two.  Instants and durations are in nanoseconds.
-/
import AvMesh.Lib.Machine
import AvMesh.Lib.StepSystem
import AvMesh.Relay.Types

namespace AvMesh.Failover

open AvMesh.Lib
open AvMesh.Relay (MediaDatagramRole)

/-! ## §1. Commands. -/

/-- `relay_session::FailoverForwardMode`. -/
inductive FailoverForwardMode where
  | repairOnly
  | sourceAndRepair
  deriving Repr, DecidableEq

/-- The fields of `relay_session::FailoverLeaseCommand`. -/
structure FailoverLeaseCommand where
  generation : Nat
  subscriptionId : Nat
  transitionId : Nat
  issuedAtUs : Nat
  leaseDurationUs : Nat
  mode : FailoverForwardMode
  deriving Repr, DecidableEq

/-- The relay-session crate: which commands it builds, and how it reads them. -/
structure CommandCrate where
  new : FailoverLeaseCommand → Option FailoverLeaseCommand
  decode : Bytes → Option FailoverLeaseCommand
  wireLen : Nat

/-! ## §2. The state. -/

inductive RelayFailoverControllerState where
  | disabled
  | arming
  | healthy
  | promoted
  | recovering
  | secondaryUnavailable
  deriving Repr, DecidableEq

structure RelayFailoverControllerSnapshot where
  state : RelayFailoverControllerState := .disabled
  enabled : Nat := 0
  commandsSent : Nat := 0
  commandSendErrors : Nat := 0
  promotions : Nat := 0
  demotions : Nat := 0
  secondaryUnavailableEvents : Nat := 0
  primarySourceAgeMs : Nat := 0
  secondaryRepairAgeMs : Nat := 0
  lastDetectionUs : Nat := 0
  lastPromotionToSourceUs : Nat := 0
  lastMediaGapUs : Nat := 0
  maxMediaGapUs : Nat := 0
  lastTransitionUnixMs : Nat := 0
  deriving Repr, DecidableEq

inductive RelayIngressParentPath where
  | primary
  | secondary
  deriving Repr, DecidableEq

structure RelayDatagramObservation where
  role : MediaDatagramRole
  decoded : Bool
  deriving Repr, DecidableEq

/-- The arguments a controller is built from. -/
structure FailoverArgs where
  relayTopologyGeneration : Nat
  relaySubscriptionId : Nat
  relayPrimarySilenceMs : Nat
  relayPrimaryRecoveryMs : Nat
  relaySecondaryWarmMs : Nat
  relayFailoverLeaseMs : Nat
  deriving Repr, DecidableEq

structure RelayFailoverController where
  generation : Nat
  subscriptionId : Nat
  silence : Nat
  recovery : Nat
  secondaryWarm : Nat
  leaseDurationUs : Nat
  state : RelayFailoverControllerState
  desiredMode : FailoverForwardMode
  transitionId : Nat
  lastPrimarySource : Option Nat
  lastSecondaryRepair : Option Nat
  recoveredSince : Option Nat
  lastDecoded : Option Nat
  promotionGapBase : Option Nat
  promotionSentAt : Option Nat
  awaitingSecondarySource : Bool
  awaitingPostPromotionObject : Bool
  snapshot : RelayFailoverControllerSnapshot
  deriving Repr, DecidableEq

/-- What a tick reads from outside: the instant, the wall clock, and whether `send_to` took the
whole command. -/
structure TickClock where
  now : Nat
  unixUs : UInt64
  unixMs : UInt64
  issuedUs : UInt64
  sendOk : Bool
  deriving Repr, DecidableEq

/-- `duration_us` and `duration_ms` of a duration in nanoseconds. -/
def durationUs (duration : Nat) : Nat := min (duration / 1000) u64Max

def durationMs (duration : Nat) : Nat := min (duration / 1000000) u64Max

namespace RelayFailoverController

def bind (args : FailoverArgs) (unixUs unixMs : UInt64) : RelayFailoverController where
  generation := args.relayTopologyGeneration
  subscriptionId := args.relaySubscriptionId
  silence := args.relayPrimarySilenceMs * 1000000
  recovery := args.relayPrimaryRecoveryMs * 1000000
  secondaryWarm := args.relaySecondaryWarmMs * 1000000
  leaseDurationUs := min (args.relayFailoverLeaseMs * 1000) u64Max
  state := .arming
  desiredMode := .repairOnly
  transitionId := max unixUs.toNat 1
  lastPrimarySource := none
  lastSecondaryRepair := none
  recoveredSince := none
  lastDecoded := none
  promotionGapBase := none
  promotionSentAt := none
  awaitingSecondarySource := false
  awaitingPostPromotionObject := false
  snapshot := { state := .arming, enabled := 1, lastTransitionUnixMs := unixMs.toNat }

/-! ## §3. Observations. -/

/-- The first half of `observe`: which parent sent what. -/
def observePath (c : RelayFailoverController) (path : RelayIngressParentPath)
    (role : MediaDatagramRole) (now : Nat) : RelayFailoverController :=
  match path, role with
  | .primary, .source => { c with lastPrimarySource := some now }
  | .secondary, .repair => { c with lastSecondaryRepair := some now }
  | .secondary, .source =>
      if c.awaitingSecondarySource then
        let snapshot := match c.promotionSentAt with
          | some sentAt => { c.snapshot with lastPromotionToSourceUs := durationUs (now - sentAt) }
          | none => c.snapshot
        { c with awaitingSecondarySource := false, snapshot }
      else c
  | .primary, .repair => c

/-- The second half of `observe`: a decoded object ends the media gap of a promotion. -/
def observeDecoded (c : RelayFailoverController) (now : Nat) : RelayFailoverController :=
  let snapshot := match c.awaitingPostPromotionObject, c.promotionGapBase with
    | true, some base =>
        let gapUs := durationUs (now - base)
        { c.snapshot with
          lastMediaGapUs := gapUs, maxMediaGapUs := max c.snapshot.maxMediaGapUs gapUs }
    | _, _ => c.snapshot
  { c with awaitingPostPromotionObject := false, lastDecoded := some now, snapshot }

def observe (c : RelayFailoverController) (path : RelayIngressParentPath)
    (observation : RelayDatagramObservation) (now : Nat) : RelayFailoverController :=
  let c := c.observePath path observation.role now
  if observation.decoded then c.observeDecoded now else c

/-! ## §4. Ticks. -/

def setState (c : RelayFailoverController) (state : RelayFailoverControllerState)
    (clock : TickClock) : RelayFailoverController :=
  if c.state ≠ state then
    { c with state, snapshot := { c.snapshot with
      state, lastTransitionUnixMs := clock.unixMs.toNat } }
  else c

def advanceTransition (c : RelayFailoverController) (clock : TickClock) : RelayFailoverController :=
  { c with transitionId := max clock.unixUs.toNat (satAdd c.transitionId 1) }

def promote (c : RelayFailoverController) (clock : TickClock) : RelayFailoverController :=
  let c := { c with desiredMode := .sourceAndRepair }
  let c := c.advanceTransition clock
  let snapshot := { c.snapshot with
    promotions := satAdd c.snapshot.promotions 1
    lastDetectionUs := match c.lastPrimarySource with
      | some seen => durationUs (clock.now - seen)
      | none => 0 }
  { c with
    snapshot
    promotionSentAt := some clock.now
    promotionGapBase := c.lastDecoded
    awaitingSecondarySource := true
    awaitingPostPromotionObject := true
    recoveredSince := none }.setState .promoted clock

def demote (c : RelayFailoverController) (clock : TickClock) : RelayFailoverController :=
  let c := { c with desiredMode := .repairOnly }
  let c := c.advanceTransition clock
  { c with
    snapshot := { c.snapshot with demotions := satAdd c.snapshot.demotions 1 }
    recoveredSince := none
    awaitingSecondarySource := false }.setState .healthy clock

/-- `secondary_unavailable`. -/
def markSecondaryUnavailable (c : RelayFailoverController) (clock : TickClock) :
    RelayFailoverController :=
  let c := if c.state ≠ .secondaryUnavailable then
      { c with snapshot := { c.snapshot with
        secondaryUnavailableEvents := satAdd c.snapshot.secondaryUnavailableEvents 1 } }
    else c
  c.setState .secondaryUnavailable clock

/-- A primary source symbol has been seen within `silence`. -/
def primaryRecent (c : RelayFailoverController) (now : Nat) : Bool :=
  c.lastPrimarySource.any fun seen => now - seen < c.silence

/-- A secondary repair symbol has been seen within `secondary_warm`. -/
def secondaryRecent (c : RelayFailoverController) (now : Nat) : Bool :=
  c.lastSecondaryRepair.any fun seen => now - seen < c.secondaryWarm

/-- Promotion when the secondary is warm, otherwise the note that it is not. -/
def promoteOrNote (c : RelayFailoverController) (clock : TickClock) : RelayFailoverController :=
  if c.secondaryRecent clock.now then c.promote clock else c.markSecondaryUnavailable clock

/-- The state machine of a tick. -/
def advance (c : RelayFailoverController) (clock : TickClock) : RelayFailoverController :=
  match c.state with
  | .disabled => c
  | .arming =>
      if c.primaryRecent clock.now && c.secondaryRecent clock.now then c.setState .healthy clock
      else if c.lastPrimarySource.isSome && !c.primaryRecent clock.now then c.promoteOrNote clock
      else c
  | .healthy => if !c.primaryRecent clock.now then c.promoteOrNote clock else c
  | .secondaryUnavailable =>
      if c.primaryRecent clock.now then c.setState .healthy clock
      else if c.secondaryRecent clock.now && c.lastPrimarySource.isSome then c.promote clock
      else c
  | .promoted | .recovering =>
      if c.primaryRecent clock.now then
        let recoveredSince := c.recoveredSince.getD clock.now
        let c := { c with recoveredSince := some recoveredSince }.setState .recovering clock
        if clock.now - recoveredSince ≥ c.recovery then c.demote clock else c
      else { c with recoveredSince := none }.setState .promoted clock

def refreshAges (c : RelayFailoverController) (now : Nat) : RelayFailoverController :=
  let age := fun (seen : Option Nat) => match seen with
    | some seen => durationMs (now - seen)
    | none => 0
  { c with snapshot := { c.snapshot with
    primarySourceAgeMs := age c.lastPrimarySource
    secondaryRepairAgeMs := age c.lastSecondaryRepair } }

/-- The command `send_desired` builds. -/
def desiredCommand (c : RelayFailoverController) (K : CommandCrate) (clock : TickClock) :
    Option FailoverLeaseCommand :=
  K.new {
    generation := c.generation
    subscriptionId := c.subscriptionId
    transitionId := c.transitionId
    issuedAtUs := max clock.issuedUs.toNat 1
    leaseDurationUs := c.leaseDurationUs
    mode := c.desiredMode }

/-- `send_desired`: the counters; the command itself is the reply of the tick. -/
def sendDesired (c : RelayFailoverController) (K : CommandCrate) (clock : TickClock) :
    RelayFailoverController :=
  if (c.desiredCommand K clock).isSome && clock.sendOk then
    { c with snapshot := { c.snapshot with commandsSent := satAdd c.snapshot.commandsSent 1 } }
  else
    { c with snapshot := { c.snapshot with
      commandSendErrors := satAdd c.snapshot.commandSendErrors 1 } }

/-- A tick, with the command it hands to the socket. -/
def tick (c : RelayFailoverController) (K : CommandCrate) (clock : TickClock) :
    Option FailoverLeaseCommand × RelayFailoverController :=
  let c := (c.advance clock).refreshAges clock.now
  (c.desiredCommand K clock, c.sendDesired K clock)

/-! ## §5. Runs. -/

inductive Op where
  | observe (path : RelayIngressParentPath) (observation : RelayDatagramObservation) (now : Nat)
  | tick (clock : TickClock)
  deriving Repr, DecidableEq

/-- The instant of an operation. -/
def Op.now : Op → Nat
  | .observe _ _ now => now
  | .tick clock => clock.now

def step (K : CommandCrate) (c : RelayFailoverController) :
    Op → Option FailoverLeaseCommand × RelayFailoverController
  | .observe path observation now => (none, c.observe path observation now)
  | .tick clock => c.tick K clock

/-! ## §6. What one operation can do. -/

/-- The controller wants the secondary to send sources. -/
def Active (c : RelayFailoverController) : Prop := c.state = .promoted ∨ c.state = .recovering

/-- The parts a tick only reads: the windows and the last observations. -/
structure SameInputs (c c' : RelayFailoverController) : Prop where
  silence : c'.silence = c.silence
  recovery : c'.recovery = c.recovery
  secondaryWarm : c'.secondaryWarm = c.secondaryWarm
  lastPrimarySource : c'.lastPrimarySource = c.lastPrimarySource
  lastSecondaryRepair : c'.lastSecondaryRepair = c.lastSecondaryRepair

/-- No transition: the mode, its id and the two counters stay. -/
structure SameTransition (c c' : RelayFailoverController) : Prop where
  desiredMode : c'.desiredMode = c.desiredMode
  transitionId : c'.transitionId = c.transitionId
  promotions : c'.snapshot.promotions = c.snapshot.promotions
  demotions : c'.snapshot.demotions = c.snapshot.demotions

/-- What a tick can do to the state machine. -/
inductive Turn (clock : TickClock) (c c' : RelayFailoverController) : Prop where
  /-- Nothing moves. -/
  | rest (hstate : c'.state = c.state) (hsince : c'.recoveredSince = c.recoveredSince)
      (hinactive : ¬ Active c) (hkeep : SameTransition c c')
  /-- The primary has been seen: armed, or the secondary noted as unavailable. -/
  | settle (hstate : c'.state = .healthy ∨ c'.state = .secondaryUnavailable)
      (hsince : c'.recoveredSince = c.recoveredSince) (hinactive : ¬ Active c)
      (hseen : c.state = .healthy ∨ c.lastPrimarySource.isSome) (hkeep : SameTransition c c')
  /-- The primary is back while promoted. -/
  | recover (hstate : c'.state = .recovering)
      (hsince : c'.recoveredSince = some (c.recoveredSince.getD clock.now)) (hactive : Active c)
      (hrecent : c.primaryRecent clock.now = true) (hkeep : SameTransition c c')
  /-- The primary is silent while promoted. -/
  | relapse (hstate : c'.state = .promoted) (hsince : c'.recoveredSince = none)
      (hactive : Active c) (hkeep : SameTransition c c')
  | promote (hstate : c'.state = .promoted) (hsince : c'.recoveredSince = none)
      (hinactive : ¬ Active c) (hseen : c.state = .healthy ∨ c.lastPrimarySource.isSome)
      (hsilent : c.primaryRecent clock.now = false) (hwarm : c.secondaryRecent clock.now = true)
      (hmode : c'.desiredMode = .sourceAndRepair)
      (hid : c'.transitionId = max clock.unixUs.toNat (satAdd c.transitionId 1))
      (hpromotions : c'.snapshot.promotions = satAdd c.snapshot.promotions 1)
      (hdemotions : c'.snapshot.demotions = c.snapshot.demotions)
  | demote (hstate : c'.state = .healthy) (hsince : c'.recoveredSince = none) (hactive : Active c)
      (hrecent : c.primaryRecent clock.now = true)
      (hwindow : clock.now - c.recoveredSince.getD clock.now ≥ c.recovery)
      (hmode : c'.desiredMode = .repairOnly)
      (hid : c'.transitionId = max clock.unixUs.toNat (satAdd c.transitionId 1))
      (hpromotions : c'.snapshot.promotions = c.snapshot.promotions)
      (hdemotions : c'.snapshot.demotions = satAdd c.snapshot.demotions 1)

section Turns

variable {c : RelayFailoverController} {clock : TickClock} {K : CommandCrate}

@[simp] theorem setState_state (state : RelayFailoverControllerState) :
    (c.setState state clock).state = state := by
  unfold setState
  split
  · rfl
  · next h => exact not_not.mp h

@[simp] theorem setState_recoveredSince (state : RelayFailoverControllerState) :
    (c.setState state clock).recoveredSince = c.recoveredSince := by
  unfold setState
  split <;> rfl

@[simp] theorem setState_desiredMode (state : RelayFailoverControllerState) :
    (c.setState state clock).desiredMode = c.desiredMode := by
  unfold setState
  split <;> rfl

@[simp] theorem setState_transitionId (state : RelayFailoverControllerState) :
    (c.setState state clock).transitionId = c.transitionId := by
  unfold setState
  split <;> rfl

@[simp] theorem setState_promotions (state : RelayFailoverControllerState) :
    (c.setState state clock).snapshot.promotions = c.snapshot.promotions := by
  unfold setState
  split <;> rfl

@[simp] theorem setState_demotions (state : RelayFailoverControllerState) :
    (c.setState state clock).snapshot.demotions = c.snapshot.demotions := by
  unfold setState
  split <;> rfl

@[simp] theorem setState_silence (state : RelayFailoverControllerState) :
    (c.setState state clock).silence = c.silence := by
  unfold setState
  split <;> rfl

@[simp] theorem setState_recovery (state : RelayFailoverControllerState) :
    (c.setState state clock).recovery = c.recovery := by
  unfold setState
  split <;> rfl

@[simp] theorem setState_secondaryWarm (state : RelayFailoverControllerState) :
    (c.setState state clock).secondaryWarm = c.secondaryWarm := by
  unfold setState
  split <;> rfl

@[simp] theorem setState_lastPrimarySource (state : RelayFailoverControllerState) :
    (c.setState state clock).lastPrimarySource = c.lastPrimarySource := by
  unfold setState
  split <;> rfl

@[simp] theorem setState_lastSecondaryRepair (state : RelayFailoverControllerState) :
    (c.setState state clock).lastSecondaryRepair = c.lastSecondaryRepair := by
  unfold setState
  split <;> rfl

theorem sameInputs_setState (state : RelayFailoverControllerState) :
    SameInputs c (c.setState state clock) :=
  ⟨by simp, by simp, by simp, by simp, by simp⟩

theorem sameTransition_setState (state : RelayFailoverControllerState) :
    SameTransition c (c.setState state clock) :=
  ⟨by simp, by simp, by simp, by simp⟩

theorem SameInputs.trans {c₁ c₂ c₃ : RelayFailoverController} (h : SameInputs c₁ c₂)
    (h' : SameInputs c₂ c₃) : SameInputs c₁ c₃ :=
  ⟨h'.silence.trans h.silence, h'.recovery.trans h.recovery,
    h'.secondaryWarm.trans h.secondaryWarm, h'.lastPrimarySource.trans h.lastPrimarySource,
    h'.lastSecondaryRepair.trans h.lastSecondaryRepair⟩

theorem SameTransition.trans {c₁ c₂ c₃ : RelayFailoverController} (h : SameTransition c₁ c₂)
    (h' : SameTransition c₂ c₃) : SameTransition c₁ c₃ :=
  ⟨h'.desiredMode.trans h.desiredMode, h'.transitionId.trans h.transitionId,
    h'.promotions.trans h.promotions, h'.demotions.trans h.demotions⟩

theorem promote_turn (hinactive : ¬ Active c)
    (hseen : c.state = .healthy ∨ c.lastPrimarySource.isSome)
    (hsilent : c.primaryRecent clock.now = false) (hwarm : c.secondaryRecent clock.now = true) :
    Turn clock c (c.promote clock) ∧ SameInputs c (c.promote clock) := by
  constructor
  · exact .promote (by simp [promote]) (by simp [promote]) hinactive hseen hsilent hwarm
      (by simp [promote, advanceTransition]) (by simp [promote, advanceTransition])
      (by simp [promote, advanceTransition]) (by simp [promote, advanceTransition])
  · constructor <;> simp [promote, advanceTransition]

theorem markSecondaryUnavailable_turn (hinactive : ¬ Active c)
    (hseen : c.state = .healthy ∨ c.lastPrimarySource.isSome) :
    Turn clock c (c.markSecondaryUnavailable clock) ∧
      SameInputs c (c.markSecondaryUnavailable clock) := by
  unfold markSecondaryUnavailable
  dsimp only
  split
  · refine ⟨.settle (.inr (by simp)) (by simp) hinactive hseen ?_, ?_⟩
    · constructor <;> simp
    · constructor <;> simp
  · exact ⟨.settle (.inr (by simp)) (by simp) hinactive hseen (sameTransition_setState _),
      sameInputs_setState _⟩

theorem promoteOrNote_turn (hinactive : ¬ Active c)
    (hseen : c.state = .healthy ∨ c.lastPrimarySource.isSome)
    (hsilent : c.primaryRecent clock.now = false) :
    Turn clock c (c.promoteOrNote clock) ∧ SameInputs c (c.promoteOrNote clock) := by
  unfold promoteOrNote
  split
  · next hwarm => exact promote_turn hinactive hseen hsilent hwarm
  · exact markSecondaryUnavailable_turn hinactive hseen

theorem settle_turn (hinactive : ¬ Active c)
    (hseen : c.state = .healthy ∨ c.lastPrimarySource.isSome) :
    Turn clock c (c.setState .healthy clock) ∧ SameInputs c (c.setState .healthy clock) :=
  ⟨.settle (.inl (by simp)) (by simp) hinactive hseen (sameTransition_setState _),
    sameInputs_setState _⟩

theorem isSome_of_primaryRecent {now : Nat} (h : c.primaryRecent now = true) :
    c.lastPrimarySource.isSome := by
  unfold primaryRecent at h
  cases hseen : c.lastPrimarySource with
  | none => simp [hseen] at h
  | some seen => rfl

theorem rest_turn (hinactive : ¬ Active c) : Turn clock c c ∧ SameInputs c c :=
  ⟨.rest rfl rfl hinactive ⟨rfl, rfl, rfl, rfl⟩, ⟨rfl, rfl, rfl, rfl, rfl⟩⟩

/-- The promoted states of a tick. -/
theorem active_turn (hactive : Active c) :
    let c' := if c.primaryRecent clock.now then
        let recoveredSince := c.recoveredSince.getD clock.now
        let c := { c with recoveredSince := some recoveredSince }.setState .recovering clock
        if clock.now - recoveredSince ≥ c.recovery then c.demote clock else c
      else { c with recoveredSince := none }.setState .promoted clock
    Turn clock c c' ∧ SameInputs c c' := by
  dsimp only
  split
  · next hrecent =>
      split
      · next hwindow =>
          -- demotion writes over the recovering state that the same tick has set
          refine ⟨.demote (by simp [demote]) (by simp [demote]) hactive hrecent ?_
            (by simp [demote, advanceTransition]) (by simp [demote, advanceTransition])
            (by simp [demote, advanceTransition]) (by simp [demote, advanceTransition]), ?_⟩
          · simpa using hwindow
          · constructor <;> simp [demote, advanceTransition]
      · refine ⟨.recover (by simp) (by simp) hactive hrecent ?_, ?_⟩
        · constructor <;> simp
        · constructor <;> simp
  · refine ⟨.relapse (by simp) (by simp) hactive ?_, ?_⟩
    · constructor <;> simp
    · constructor <;> simp

theorem advance_turn : Turn clock c (c.advance clock) ∧ SameInputs c (c.advance clock) := by
  unfold advance
  split
  · next hstate => exact rest_turn (by simp [Active, hstate])
  · next hstate =>
      have hinactive : ¬ Active c := by simp [Active, hstate]
      split
      · next hboth =>
          simp only [Bool.and_eq_true] at hboth
          exact settle_turn hinactive (.inr (isSome_of_primaryRecent hboth.1))
      · split
        · next hsilent =>
            simp only [Bool.and_eq_true, Bool.not_eq_eq_eq_not, Bool.not_true] at hsilent
            exact promoteOrNote_turn hinactive (.inr hsilent.1) hsilent.2
        · exact rest_turn hinactive
  · next hstate =>
      have hinactive : ¬ Active c := by simp [Active, hstate]
      split
      · next hsilent => exact promoteOrNote_turn hinactive (.inl hstate) (by simpa using hsilent)
      · exact rest_turn hinactive
  · next hstate =>
      have hinactive : ¬ Active c := by simp [Active, hstate]
      split
      · next hrecent => exact settle_turn hinactive (.inr (isSome_of_primaryRecent hrecent))
      · next hsilent =>
          split
          · next hwarm =>
              simp only [Bool.and_eq_true] at hwarm
              exact promote_turn hinactive (.inr hwarm.2) (by simpa using hsilent) hwarm.1
          · exact rest_turn hinactive
  · next hstate => exact active_turn (.inl hstate)
  · next hstate => exact active_turn (.inr hstate)

/-- What follows the state machine in a tick, ages and counters, does not touch it. -/
theorem Turn.congr {c' c'' : RelayFailoverController} (h : Turn clock c c')
    (hstate' : c''.state = c'.state) (hsince' : c''.recoveredSince = c'.recoveredSince)
    (hkeep' : SameTransition c' c'') : Turn clock c c'' := by
  cases h with
  | rest hstate hsince hinactive hkeep =>
      exact .rest (hstate'.trans hstate) (hsince'.trans hsince) hinactive (hkeep.trans hkeep')
  | settle hstate hsince hinactive hseen hkeep =>
      rw [← hstate'] at hstate
      exact .settle hstate (hsince'.trans hsince) hinactive hseen (hkeep.trans hkeep')
  | recover hstate hsince hactive hrecent hkeep =>
      exact .recover (hstate'.trans hstate) (hsince'.trans hsince) hactive hrecent
        (hkeep.trans hkeep')
  | relapse hstate hsince hactive hkeep =>
      exact .relapse (hstate'.trans hstate) (hsince'.trans hsince) hactive (hkeep.trans hkeep')
  | promote hstate hsince hinactive hseen hsilent hwarm hmode hid hpromotions hdemotions =>
      exact .promote (hstate'.trans hstate) (hsince'.trans hsince) hinactive hseen hsilent hwarm
        (hkeep'.desiredMode.trans hmode) (hkeep'.transitionId.trans hid)
        (hkeep'.promotions.trans hpromotions) (hkeep'.demotions.trans hdemotions)
  | demote hstate hsince hactive hrecent hwindow hmode hid hpromotions hdemotions =>
      exact .demote (hstate'.trans hstate) (hsince'.trans hsince) hactive hrecent hwindow
        (hkeep'.desiredMode.trans hmode) (hkeep'.transitionId.trans hid)
        (hkeep'.promotions.trans hpromotions) (hkeep'.demotions.trans hdemotions)

theorem tick_turn : Turn clock c (c.tick K clock).2 ∧ SameInputs c (c.tick K clock).2 := by
  obtain ⟨hturn, hinputs⟩ := @advance_turn c clock
  have hsend : (c.tick K clock).2.state = (c.advance clock).state ∧
      (c.tick K clock).2.recoveredSince = (c.advance clock).recoveredSince ∧
      SameTransition (c.advance clock) (c.tick K clock).2 ∧
      SameInputs (c.advance clock) (c.tick K clock).2 := by
    unfold tick sendDesired
    dsimp only
    split
    · exact ⟨rfl, rfl, ⟨rfl, rfl, rfl, rfl⟩, ⟨rfl, rfl, rfl, rfl, rfl⟩⟩
    · exact ⟨rfl, rfl, ⟨rfl, rfl, rfl, rfl⟩, ⟨rfl, rfl, rfl, rfl, rfl⟩⟩
  obtain ⟨hstate, hsince, hkeep, hinputs'⟩ := hsend
  exact ⟨hturn.congr hstate hsince hkeep, hinputs.trans hinputs'⟩

/-- The instant remembered for the primary after an observation. -/
def primarySeen (c : RelayFailoverController) : Op → Option Nat
  | .observe .primary ⟨.source, _⟩ now => some now
  | _ => c.lastPrimarySource

/-- The instant remembered for the secondary after an observation. -/
def secondarySeen (c : RelayFailoverController) : Op → Option Nat
  | .observe .secondary ⟨.repair, _⟩ now => some now
  | _ => c.lastSecondaryRepair

/-- The parts an observation leaves alone. -/
structure SameMachine (c c' : RelayFailoverController) : Prop where
  state : c'.state = c.state
  recoveredSince : c'.recoveredSince = c.recoveredSince
  keep : SameTransition c c'
  silence : c'.silence = c.silence
  recovery : c'.recovery = c.recovery
  secondaryWarm : c'.secondaryWarm = c.secondaryWarm

theorem SameMachine.trans {c₁ c₂ c₃ : RelayFailoverController} (h : SameMachine c₁ c₂)
    (h' : SameMachine c₂ c₃) : SameMachine c₁ c₃ :=
  ⟨h'.state.trans h.state, h'.recoveredSince.trans h.recoveredSince, h.keep.trans h'.keep,
    h'.silence.trans h.silence, h'.recovery.trans h.recovery,
    h'.secondaryWarm.trans h.secondaryWarm⟩

theorem observePath_spec (path : RelayIngressParentPath) (role : MediaDatagramRole)
    (decoded : Bool) (now : Nat) :
    SameMachine c (c.observePath path role now) ∧
    (c.observePath path role now).lastPrimarySource =
      c.primarySeen (.observe path ⟨role, decoded⟩ now) ∧
    (c.observePath path role now).lastSecondaryRepair =
      c.secondarySeen (.observe path ⟨role, decoded⟩ now) := by
  cases path with
  | primary =>
      cases role with
      | source => exact ⟨⟨rfl, rfl, ⟨rfl, rfl, rfl, rfl⟩, rfl, rfl, rfl⟩, rfl, rfl⟩
      | repair => exact ⟨⟨rfl, rfl, ⟨rfl, rfl, rfl, rfl⟩, rfl, rfl, rfl⟩, rfl, rfl⟩
  | secondary =>
      cases role with
      | repair => exact ⟨⟨rfl, rfl, ⟨rfl, rfl, rfl, rfl⟩, rfl, rfl, rfl⟩, rfl, rfl⟩
      | source =>
          unfold observePath
          dsimp only
          split
          · cases c.promotionSentAt with
            | none => exact ⟨⟨rfl, rfl, ⟨rfl, rfl, rfl, rfl⟩, rfl, rfl, rfl⟩, rfl, rfl⟩
            | some _ => exact ⟨⟨rfl, rfl, ⟨rfl, rfl, rfl, rfl⟩, rfl, rfl, rfl⟩, rfl, rfl⟩
          · exact ⟨⟨rfl, rfl, ⟨rfl, rfl, rfl, rfl⟩, rfl, rfl, rfl⟩, rfl, rfl⟩

theorem observeDecoded_spec (now : Nat) :
    SameMachine c (c.observeDecoded now) ∧
    (c.observeDecoded now).lastPrimarySource = c.lastPrimarySource ∧
    (c.observeDecoded now).lastSecondaryRepair = c.lastSecondaryRepair := by
  unfold observeDecoded
  dsimp only
  split
  · exact ⟨⟨rfl, rfl, ⟨rfl, rfl, rfl, rfl⟩, rfl, rfl, rfl⟩, rfl, rfl⟩
  · exact ⟨⟨rfl, rfl, ⟨rfl, rfl, rfl, rfl⟩, rfl, rfl, rfl⟩, rfl, rfl⟩

/-- An observation moves nothing but the remembered instants. -/
theorem observe_spec (path : RelayIngressParentPath) (observation : RelayDatagramObservation)
    (now : Nat) :
    SameMachine c (c.observe path observation now) ∧
    (c.observe path observation now).lastPrimarySource =
      c.primarySeen (.observe path observation now) ∧
    (c.observe path observation now).lastSecondaryRepair =
      c.secondarySeen (.observe path observation now) := by
  obtain ⟨role, decoded⟩ := observation
  obtain ⟨hsame, hprimary, hsecondary⟩ := @observePath_spec c path role decoded now
  unfold observe
  dsimp only
  split
  · obtain ⟨hsame', hprimary', hsecondary'⟩ :=
      @observeDecoded_spec (c.observePath path role now) now
    exact ⟨hsame.trans hsame', hprimary'.trans hprimary, hsecondary'.trans hsecondary⟩
  · exact ⟨hsame, hprimary, hsecondary⟩

/-! ## §7. What no operation changes, and what a tick sends. -/

/-- The part of the controller that names it in its commands. -/
def identity (c : RelayFailoverController) : Nat × Nat × Nat :=
  (c.generation, c.subscriptionId, c.leaseDurationUs)

@[simp] theorem setState_identity (state : RelayFailoverControllerState) :
    (c.setState state clock).identity = c.identity := by
  unfold setState
  split <;> rfl

@[simp] theorem promote_identity : (c.promote clock).identity = c.identity := by
  unfold promote
  exact setState_identity _

@[simp] theorem demote_identity : (c.demote clock).identity = c.identity := by
  unfold demote
  exact setState_identity _

@[simp] theorem markSecondaryUnavailable_identity :
    (c.markSecondaryUnavailable clock).identity = c.identity := by
  unfold markSecondaryUnavailable
  dsimp only
  split
  · rw [setState_identity]
    rfl
  · rw [setState_identity]

theorem advance_identity : (c.advance clock).identity = c.identity := by
  unfold advance promoteOrNote
  split
  · rfl
  · split
    · simp
    · split
      · split <;> simp
      · rfl
  · split
    · split <;> simp
    · rfl
  · split
    · simp
    · split
      · simp
      · rfl
  -- promoted and recovering
  all_goals
    dsimp only
    split
    · split
      · rw [demote_identity, setState_identity]
        rfl
      · rw [setState_identity]
        rfl
    · rw [setState_identity]
      rfl

theorem observe_identity (path : RelayIngressParentPath) (observation : RelayDatagramObservation)
    (now : Nat) : (c.observe path observation now).identity = c.identity := by
  have hpath : (c.observePath path observation.role now).identity = c.identity := by
    unfold observePath
    split
    · rfl
    · rfl
    · split <;> rfl
    · rfl
  unfold observe
  dsimp only
  split
  · exact hpath
  · exact hpath

theorem step_identity (op : Op) : (step K c op).2.identity = c.identity := by
  cases op with
  | observe path observation now => exact observe_identity path observation now
  | tick clock =>
      have hsend : (c.tick K clock).2.identity = (c.advance clock).identity := by
        unfold tick sendDesired
        dsimp only
        split <;> rfl
      exact hsend.trans advance_identity

/-- A tick sends its outcome: the id and the mode it leaves behind. -/
theorem tick_command : (c.tick K clock).1 = K.new {
    generation := (c.tick K clock).2.generation
    subscriptionId := (c.tick K clock).2.subscriptionId
    transitionId := (c.tick K clock).2.transitionId
    issuedAtUs := max clock.issuedUs.toNat 1
    leaseDurationUs := (c.tick K clock).2.leaseDurationUs
    mode := (c.tick K clock).2.desiredMode } := by
  unfold tick sendDesired desiredCommand
  dsimp only
  split <;> rfl

end Turns

end RelayFailoverController

end AvMesh.Failover
