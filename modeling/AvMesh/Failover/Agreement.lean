/-
  AvMesh.Failover.Agreement
  ─────────────────────────
  **CONTROLLER AND LISTENER OVER A LOSSY CHANNEL.**

  The controller hands one command to the channel at every tick; the channel
  may delay, lose, duplicate and reorder, so a delivery is any datagram that
  reads as SOME command sent so far:

      controller op        — observe or tick, the tick sends
      deliver datagram     — one of the sent commands arrives
      leaseTick            — the listener's 25 ms timer

  The newest command always carries the controller's own transition id and
  mode (`Latest`), and the listener is never ahead of it.  Whether it is
  obeyed turns on one thing: the listener drops a command of the transition
  it is on when the modes differ, and the lease timer rewrites its mode
  WITHOUT a new transition.  `newest_command_agrees` says exactly when that
  bites.
-/
import AvMesh.Failover.ControllerRuns
import AvMesh.Failover.Listener

namespace AvMesh.Failover

open AvMesh.Lib

/-! ## §1. The system. -/

/-- A controller and a listener configured for each other, with the checked arguments. -/
structure Deployment where
  crate : CommandCrate
  args : FailoverArgs
  endpoint : RelayFailoverListenerEndpoint
  forwards : List (SocketAddr × RelayForwardRole)
  /-- `FailoverLeaseCommand::new` takes positive ids and leases of at most a minute. -/
  new_eq_some : ∀ command : FailoverLeaseCommand, 0 < command.generation →
    0 < command.subscriptionId → 0 < command.transitionId → 0 < command.issuedAtUs →
    0 < command.leaseDurationUs → command.leaseDurationUs ≤ 60000000 →
    crate.new command = some command
  generation_pos : 0 < args.relayTopologyGeneration
  subscriptionId_pos : 0 < args.relaySubscriptionId
  leaseMs_pos : 0 < args.relayFailoverLeaseMs
  leaseMs_le : args.relayFailoverLeaseMs ≤ 60000
  generation_eq : endpoint.generation = args.relayTopologyGeneration
  subscriptionId_eq : endpoint.subscriptionId = args.relaySubscriptionId
  controlled : (RelayDownstreamForwarder.bind forwards).Controlled endpoint.forwardTarget

structure AgreementState where
  controller : RelayFailoverController
  listener : RelayFailoverListener
  /-- Every command handed to the channel, the newest last. -/
  sent : List FailoverLeaseCommand
  deriving Repr, DecidableEq

inductive AgreementOp where
  | controller (op : RelayFailoverController.Op)
  | deliver (datagram : Bytes) (now : Nat) (unixMs : UInt64)
  | leaseTick (now : Nat) (unixMs : UInt64)
  deriving Repr, DecidableEq

namespace AgreementState

def start (D : Deployment) (unixUs unixMs : UInt64) : AgreementState where
  controller := .bind D.args unixUs unixMs
  listener := .start D.forwards
  sent := []

/-- The datagram reaches the listener from the controller's address. -/
def receive (D : Deployment) (s : AgreementState) (datagram : Bytes) (now : Nat)
    (unixMs : UInt64) : AgreementState :=
  { s with listener :=
      (s.listener.step D.crate D.endpoint (.recv D.endpoint.peer datagram now unixMs)).2 }

def step (D : Deployment) (s : AgreementState) : AgreementOp → Unit × AgreementState
  | .controller op =>
      let (command, controller) := s.controller.step D.crate op
      ((), { s with controller, sent := s.sent ++ command.toList })
  | .deliver datagram now unixMs =>
      match D.crate.decode (datagram.take (D.crate.wireLen + 1)) with
      | some command => if command ∈ s.sent then ((), s.receive D datagram now unixMs) else ((), s)
      | none => ((), s)
  | .leaseTick now unixMs =>
      ((), { s with listener :=
        (s.listener.step D.crate D.endpoint (.leaseTick now unixMs)).2 })

/-- The flag of the path is what the controller wants. -/
def Agrees (D : Deployment) (s : AgreementState) : Prop :=
  s.listener.promoted D.endpoint = (s.controller.desiredMode == .sourceAndRepair)

/-- The listener is on the controller's transition with another mode. -/
def Split (s : AgreementState) : Prop :=
  s.listener.transitionId = s.controller.transitionId ∧
    s.listener.transitionMode ≠ s.controller.desiredMode

/-- No lease of the controller's current transition expires, and no mode changes once the
transition id has reached `u64::MAX`. -/
def Undisturbed (D : Deployment) (s : AgreementState) : AgreementOp → Prop
  | .controller op =>
      s.controller.transitionId < u64Max ∨
        (s.controller.step D.crate op).2.desiredMode = s.controller.desiredMode
  | .deliver _ _ _ => True
  | .leaseTick now _ =>
      s.listener.transitionId = s.controller.transitionId →
        ∀ deadline ∈ s.listener.leaseDeadline, now < deadline

instance (D : Deployment) (s : AgreementState) : Decidable (Agrees D s) :=
  inferInstanceAs (Decidable (_ = _))

instance (D : Deployment) (s : AgreementState) : (op : AgreementOp) → Decidable (Undisturbed D s op)
  | .controller _ => inferInstanceAs (Decidable (_ ∨ _))
  | .deliver _ _ _ => inferInstanceAs (Decidable True)
  | .leaseTick _ _ => inferInstanceAs (Decidable (_ → _))

section Runs

variable {D : Deployment} {s : AgreementState}

/-! ## §2. What holds in every run. -/

/-- The newest command is the controller's own state. -/
structure Latest (s : AgreementState) (command : FailoverLeaseCommand) : Prop where
  generation : command.generation = s.controller.generation
  subscriptionId : command.subscriptionId = s.controller.subscriptionId
  transitionId : command.transitionId = s.controller.transitionId
  mode : command.mode = s.controller.desiredMode

structure Linked (D : Deployment) (s : AgreementState) : Prop where
  sound : s.controller.Sound
  identity : s.controller.identity = (RelayFailoverController.bind D.args 0 0).identity
  id_pos : 0 < s.controller.transitionId
  coherent : s.listener.Coherent D.endpoint
  behind : s.listener.transitionId ≤ s.controller.transitionId
  sent_le : ∀ command ∈ s.sent, command.transitionId ≤ s.controller.transitionId
  latest : ∀ command, s.sent.getLast? = some command → Latest s command

theorem start_linked (unixUs unixMs : UInt64) : Linked D (start D unixUs unixMs) where
  sound := RelayFailoverController.bind_sound D.args unixUs unixMs
  identity := rfl
  id_pos := by
    show 0 < max unixUs.toNat 1
    omega
  coherent := RelayFailoverListener.start_coherent D.forwards D.controlled
  behind := Nat.zero_le _
  sent_le := nofun
  latest := nofun

theorem transitionId_le_step (hs : s.controller.Sound) (op : RelayFailoverController.Op) :
    s.controller.transitionId ≤ (s.controller.step D.crate op).2.transitionId := by
  have hle := hs.id_le
  rcases @RelayFailoverController.step_transition D.crate _ hs op with hkeep |
    ⟨clock, -, -, -, hid, -⟩ | ⟨clock, -, -, -, hid, -⟩
  · rw [hkeep.transitionId]
  · rw [hid, satAdd]
    omega
  · rw [hid, satAdd]
    omega

/-- A tick of a deployed controller sends a command, and it is the newest. -/
theorem tick_sends (h : Linked D s) (clock : TickClock) :
    ∃ command, (s.controller.tick D.crate clock).1 = some command ∧
      command.generation = (s.controller.tick D.crate clock).2.generation ∧
      command.subscriptionId = (s.controller.tick D.crate clock).2.subscriptionId ∧
      command.transitionId = (s.controller.tick D.crate clock).2.transitionId ∧
      command.mode = (s.controller.tick D.crate clock).2.desiredMode := by
  have hidentity : (s.controller.tick D.crate clock).2.identity =
      (RelayFailoverController.bind D.args 0 0).identity :=
    (RelayFailoverController.step_identity (.tick clock)).trans h.identity
  simp only [RelayFailoverController.identity, Prod.mk.injEq] at hidentity
  obtain ⟨hgeneration, hsubscription, hlease⟩ := hidentity
  have hid : s.controller.transitionId ≤ (s.controller.tick D.crate clock).2.transitionId :=
    transitionId_le_step h.sound (.tick clock)
  have hpos := h.id_pos
  have hleaseUs : (RelayFailoverController.bind D.args 0 0).leaseDurationUs =
      D.args.relayFailoverLeaseMs * 1000 := by
    have hle := D.leaseMs_le
    show min (D.args.relayFailoverLeaseMs * 1000) u64Max = _
    unfold u64Max
    omega
  have hleasePos := D.leaseMs_pos
  have hleaseLe := D.leaseMs_le
  rw [RelayFailoverController.tick_command, D.new_eq_some]
  · exact ⟨_, rfl, rfl, rfl, rfl, rfl⟩
  · rw [hgeneration]
    exact D.generation_pos
  · rw [hsubscription]
    exact D.subscriptionId_pos
  · exact Nat.lt_of_lt_of_le hpos hid
  · show 0 < max clock.issuedUs.toNat 1
    omega
  · rw [hlease, hleaseUs]
    show 0 < D.args.relayFailoverLeaseMs * 1000
    omega
  · rw [hlease, hleaseUs]
    show D.args.relayFailoverLeaseMs * 1000 ≤ 60000000
    omega

/-- A controller's operation sends nothing, or a newest command. -/
theorem controller_sends (h : Linked D s) (op : RelayFailoverController.Op) :
    ((s.controller.step D.crate op).1 = none ∧
      RelayFailoverController.SameTransition s.controller (s.controller.step D.crate op).2) ∨
    ∃ command, (s.controller.step D.crate op).1 = some command ∧
      Latest (step D s (.controller op)).2 command := by
  cases op with
  | observe path observation now =>
      exact .inl ⟨rfl, (RelayFailoverController.observe_spec path observation now).1.keep⟩
  | tick clock =>
      obtain ⟨command, hsent, hgeneration, hsubscription, hid, hmode⟩ := tick_sends h clock
      exact .inr ⟨command, hsent, hgeneration, hsubscription, hid, hmode⟩

theorem mem_sent_step {command : FailoverLeaseCommand} (h : Linked D s)
    (op : RelayFailoverController.Op) (hmem : command ∈ (step D s (.controller op)).2.sent) :
    command ∈ s.sent ∨ Latest (step D s (.controller op)).2 command := by
  have hsent : (step D s (.controller op)).2.sent =
      s.sent ++ (s.controller.step D.crate op).1.toList := rfl
  rw [hsent] at hmem
  rcases List.mem_append.mp hmem with hmem | hmem
  · exact .inl hmem
  · rcases controller_sends h op with ⟨hnone, -⟩ | ⟨newest, hnewest, hlatest⟩
    · rw [hnone] at hmem
      cases hmem
    · rw [hnewest, Option.toList_some, List.mem_singleton] at hmem
      exact .inr (hmem ▸ hlatest)

theorem controller_linked (h : Linked D s) (op : RelayFailoverController.Op) :
    Linked D (step D s (.controller op)).2 := by
  have hle : s.controller.transitionId ≤ (step D s (.controller op)).2.controller.transitionId :=
    transitionId_le_step h.sound op
  refine ⟨RelayFailoverController.step_sound op h.sound,
    (RelayFailoverController.step_identity op).trans h.identity, Nat.lt_of_lt_of_le h.id_pos hle,
    h.coherent, Nat.le_trans h.behind hle, ?_, ?_⟩
  · intro command hmem
    rcases mem_sent_step h op hmem with hmem | hlatest
    · exact Nat.le_trans (h.sent_le command hmem) hle
    · rw [hlatest.transitionId]
  · intro command hlast
    have hsent : (step D s (.controller op)).2.sent =
        s.sent ++ (s.controller.step D.crate op).1.toList := rfl
    rcases controller_sends h op with ⟨hnone, hkeep⟩ | ⟨newest, hnewest, hlatest⟩
    · rw [hsent, hnone, Option.toList_none, List.append_nil] at hlast
      have hlatest := h.latest command hlast
      have hidentity := @RelayFailoverController.step_identity s.controller D.crate op
      simp only [RelayFailoverController.identity, Prod.mk.injEq] at hidentity
      exact ⟨hlatest.generation.trans hidentity.1.symm,
        hlatest.subscriptionId.trans hidentity.2.1.symm,
        hlatest.transitionId.trans hkeep.transitionId.symm, hlatest.mode.trans hkeep.desiredMode.symm⟩
    · rw [hsent, hnewest, Option.toList_some, List.getLast?_concat] at hlast
      cases hlast
      exact hlatest

/-- An event at the listener that accepts only sent commands. -/
theorem listener_linked (h : Linked D s) (event : ListenerEvent)
    (hsent : ∀ command, s.listener.acceptedCommand D.crate D.endpoint event = some command →
      command ∈ s.sent) :
    Linked D { s with listener := (s.listener.step D.crate D.endpoint event).2 } := by
  have hmove := @RelayFailoverListener.step_move D.crate D.endpoint s.listener event
  refine ⟨h.sound, h.identity, h.id_pos, hmove.coherent h.coherent, ?_, h.sent_le, ?_⟩
  · show (s.listener.step D.crate D.endpoint event).2.transitionId ≤ s.controller.transitionId
    cases haccepted : s.listener.acceptedCommand D.crate D.endpoint event with
    | none =>
        rw [haccepted] at hmove
        rw [hmove.transitionId_of_none]
        exact h.behind
    | some command =>
        obtain ⟨_, _, _, _, -, -, -, haccept⟩ :=
          RelayFailoverListener.of_acceptedCommand haccepted
        rw [haccept, RelayFailoverListener.accept_transitionId]
        exact h.sent_le command (hsent command haccepted)
  · intro command hlast
    obtain ⟨hgeneration, hsubscription, hid, hmode⟩ := h.latest command hlast
    exact ⟨hgeneration, hsubscription, hid, hmode⟩

/-- A delivered datagram is accepted only as the command it reads as. -/
theorem accepted_of_decode {datagram : Bytes} {now : Nat} {unixMs : UInt64}
    {command accepted : FailoverLeaseCommand}
    (hdecode : D.crate.decode (datagram.take (D.crate.wireLen + 1)) = some command)
    (haccepted : s.listener.acceptedCommand D.crate D.endpoint
      (.recv D.endpoint.peer datagram now unixMs) = some accepted) : accepted = command := by
  obtain ⟨_, _, _, _, hevent, hfrom, -, -⟩ := RelayFailoverListener.of_acceptedCommand haccepted
  cases hevent
  have hread := (RelayFailoverListener.decodeFrom_eq_some hfrom).2
  rw [hdecode] at hread
  exact (Option.some.inj hread).symm

theorem step_linked (op : AgreementOp) (h : Linked D s) : Linked D (step D s op).2 := by
  cases op with
  | controller op => exact controller_linked h op
  | deliver datagram now unixMs =>
      simp only [step]
      split
      · next command hdecode =>
          split
          · next hmem =>
              refine listener_linked h _ ?_
              intro accepted haccepted
              rw [accepted_of_decode hdecode haccepted]
              exact hmem
          · exact h
      · exact h
  | leaseTick now unixMs =>
      refine listener_linked h (.leaseTick now unixMs) ?_
      intro command haccepted
      obtain ⟨_, _, _, _, hevent, -⟩ := RelayFailoverListener.of_acceptedCommand haccepted
      cases hevent

theorem exec_linked (unixUs unixMs : UInt64) (ops : List AgreementOp) :
    Linked D (exec (step D) (start D unixUs unixMs) ops) :=
  exec_invariant (step D) (Linked D) (fun _ op => step_linked op) ops (start_linked unixUs unixMs)

/-! ## §3. The newest command. -/

theorem mode_eq_of_beq {m m' : FailoverForwardMode}
    (h : (m == .sourceAndRepair) = (m' == .sourceAndRepair)) : m = m' := by
  cases m with
  | repairOnly => cases m' with
    | repairOnly => rfl
    | sourceAndRepair => cases h
  | sourceAndRepair => cases m' with
    | repairOnly => cases h
    | sourceAndRepair => rfl

/-- The newest command is obeyed unless the listener is on its transition with another mode. -/
theorem receive_agrees_iff (h : Linked D s) {command : FailoverLeaseCommand} {datagram : Bytes}
    (now : Nat) (unixMs : UInt64) (hlast : s.sent.getLast? = some command)
    (hdecode : D.crate.decode (datagram.take (D.crate.wireLen + 1)) = some command) :
    Agrees D (s.receive D datagram now unixMs) ↔ ¬ Split s := by
  obtain ⟨hgeneration, hsubscription, hid, hmode⟩ := h.latest command hlast
  have hidentity := h.identity
  simp only [RelayFailoverController.identity, Prod.mk.injEq] at hidentity
  have hfrom : RelayFailoverListener.decodeFrom D.crate D.endpoint D.endpoint.peer datagram =
      some command := by
    simp [RelayFailoverListener.decodeFrom, hdecode]
  cases hstale : s.listener.stale D.endpoint command with
  | true =>
      have hreject : s.receive D datagram now unixMs = { s with listener := s.listener.reject } := by
        unfold receive
        rw [RelayFailoverListener.step_of_stale now unixMs hdecode hstale]
      -- of the four reasons to drop a command only the last is left for the newest one
      have hsplit : Split s := by
        have hbehind := h.behind
        have hgeneration' : command.generation = D.endpoint.generation :=
          (hgeneration.trans hidentity.1).trans D.generation_eq.symm
        have hsubscription' : command.subscriptionId = D.endpoint.subscriptionId :=
          (hsubscription.trans hidentity.2.1).trans D.subscriptionId_eq.symm
        simp only [RelayFailoverListener.stale, hgeneration', hsubscription', bne_self_eq_false,
          Bool.false_or, Bool.or_eq_true, decide_eq_true_eq, Bool.and_eq_true, beq_iff_eq,
          bne_iff_ne] at hstale
        rcases hstale with hstale | ⟨hsame, hother⟩
        · omega
        · exact ⟨hsame.symm.trans hid, fun hmodes => hother (hmode.trans hmodes.symm)⟩
      refine iff_of_false ?_ (not_not_intro hsplit)
      rw [hreject]
      intro hagrees
      exact hsplit.2 (mode_eq_of_beq (h.coherent.promoted.symm.trans hagrees))
  | false =>
      have haccept : (s.receive D datagram now unixMs).listener =
          (s.listener.accept D.endpoint command now unixMs).2 := by
        simp [receive, RelayFailoverListener.step, RelayFailoverListener.receive, hfrom, hstale]
      have hagrees : Agrees D (s.receive D datagram now unixMs) := by
        unfold Agrees
        rw [haccept, (RelayFailoverListener.accept_of_controlled command now unixMs
          h.coherent.controlled).1.promoted, RelayFailoverListener.accept_transitionMode, hmode]
        rfl
      refine iff_of_true hagrees ?_
      rintro ⟨hsame, hother⟩
      exact hother (((RelayFailoverListener.stale_eq_false hstale).2.2.2
        (hid.trans hsame.symm)).symm.trans hmode)

/-! ## §4. Undisturbed runs. -/

/-- The listener and every command of the controller's transition have the controller's mode. -/
structure Current (s : AgreementState) : Prop where
  listener : s.listener.transitionId = s.controller.transitionId →
    s.listener.transitionMode = s.controller.desiredMode
  sent : ∀ command ∈ s.sent, command.transitionId = s.controller.transitionId →
    command.mode = s.controller.desiredMode

/-- Without a change of mode the transition stays, with one it is new. -/
theorem controller_transition (h : Linked D s) (op : RelayFailoverController.Op)
    (hundisturbed : Undisturbed D s (.controller op)) :
    ((s.controller.step D.crate op).2.transitionId = s.controller.transitionId ∧
      (s.controller.step D.crate op).2.desiredMode = s.controller.desiredMode) ∨
    s.controller.transitionId < (s.controller.step D.crate op).2.transitionId := by
  obtain ⟨hmoved, hstill⟩ := @RelayFailoverController.step_transitionId D.crate _ h.sound op
  by_cases hmode : (s.controller.step D.crate op).2.desiredMode = s.controller.desiredMode
  · exact .inl ⟨hstill hmode, hmode⟩
  · rcases hundisturbed with hlt | hsame
    · exact .inr (hmoved hmode hlt)
    · exact absurd hsame hmode

theorem controller_current (h : Linked D s) (hc : Current s) (op : RelayFailoverController.Op)
    (hundisturbed : Undisturbed D s (.controller op)) :
    Current (step D s (.controller op)).2 := by
  have htransition := controller_transition h op hundisturbed
  constructor
  · show s.listener.transitionId = (s.controller.step D.crate op).2.transitionId →
      s.listener.transitionMode = (s.controller.step D.crate op).2.desiredMode
    intro hsame
    rcases htransition with ⟨hid, hmode⟩ | hlt
    · rw [hmode]
      exact hc.listener (hsame.trans hid)
    · have hbehind := h.behind
      omega
  · intro command hmem hsame
    rcases mem_sent_step h op hmem with hmem | hlatest
    · have hle := h.sent_le command hmem
      change command.transitionId = (s.controller.step D.crate op).2.transitionId at hsame
      show command.mode = (s.controller.step D.crate op).2.desiredMode
      rcases htransition with ⟨hid, hmode⟩ | hlt
      · rw [hmode]
        exact hc.sent command hmem (hsame.trans hid)
      · omega
    · exact hlatest.mode

theorem listener_current (hc : Current s) (event : ListenerEvent)
    (hsent : ∀ command, s.listener.acceptedCommand D.crate D.endpoint event = some command →
      command ∈ s.sent)
    (hrunning : ∀ now unixMs, event = .leaseTick now unixMs →
      Undisturbed D s (.leaseTick now unixMs)) :
    Current { s with listener := (s.listener.step D.crate D.endpoint event).2 } := by
  refine ⟨?_, hc.sent⟩
  show (s.listener.step D.crate D.endpoint event).2.transitionId = s.controller.transitionId →
    (s.listener.step D.crate D.endpoint event).2.transitionMode = s.controller.desiredMode
  intro hsame
  have hmove := @RelayFailoverListener.step_move D.crate D.endpoint s.listener event
  cases haccepted : s.listener.acceptedCommand D.crate D.endpoint event with
  | none =>
      rw [haccepted] at hmove
      have hid := hmove.transitionId_of_none
      rcases hmove.mode_of_none with hmode | ⟨now, unixMs, deadline, rfl, hdeadline, hpassed⟩
      · rw [hmode]
        exact hc.listener (hid.symm.trans hsame)
      · have hlt := hrunning now unixMs rfl (hid.symm.trans hsame) deadline hdeadline
        omega
  | some command =>
      obtain ⟨_, _, _, _, -, -, -, haccept⟩ := RelayFailoverListener.of_acceptedCommand haccepted
      rw [haccept, RelayFailoverListener.accept_transitionId] at hsame
      rw [haccept, RelayFailoverListener.accept_transitionMode]
      exact hc.sent command (hsent command haccepted) hsame

theorem step_current (op : AgreementOp) (hundisturbed : Undisturbed D s op)
    (h : Linked D s ∧ Current s) : Linked D (step D s op).2 ∧ Current (step D s op).2 := by
  obtain ⟨h, hc⟩ := h
  refine ⟨step_linked op h, ?_⟩
  cases op with
  | controller op => exact controller_current h hc op hundisturbed
  | deliver datagram now unixMs =>
      simp only [step]
      split
      · next command hdecode =>
          split
          · next hmem =>
              refine listener_current hc _ ?_ nofun
              intro accepted haccepted
              rw [accepted_of_decode hdecode haccepted]
              exact hmem
          · exact hc
      · exact hc
  | leaseTick now unixMs =>
      refine listener_current hc (.leaseTick now unixMs) ?_ ?_
      · intro command haccepted
        obtain ⟨_, _, _, _, hevent, -⟩ := RelayFailoverListener.of_acceptedCommand haccepted
        cases hevent
      · intro now' unixMs' hevent
        cases hevent
        exact hundisturbed

theorem exec_current (unixUs unixMs : UInt64) (ops : List AgreementOp)
    (hundisturbed : ∀ e ∈ trace (step D) (start D unixUs unixMs) ops, Undisturbed D e.1 e.2) :
    Current (exec (step D) (start D unixUs unixMs) ops) := by
  refine (exec_invariant_along (step D) (fun s => Linked D s ∧ Current s) (Undisturbed D)
    (fun _ op => step_current op) ops _ hundisturbed ⟨start_linked unixUs unixMs, ?_, nofun⟩).2
  -- the listener starts on transition 0, the controller on a positive one
  intro hsame
  have hpos := (@start_linked D unixUs unixMs).id_pos
  rw [← hsame] at hpos
  exact absurd hpos (Nat.lt_irrefl 0)

/-- **AGREEMENT ON THE NEWEST COMMAND.**  After every run, the listener that receives the newest
command follows it exactly when it is not on that command's transition with another mode; and it
never is in a run where no lease of the current transition expires and no mode changes at
`u64::MAX`. -/
theorem newest_command_agrees (D : Deployment) (unixUs unixMs : UInt64) (ops : List AgreementOp)
    (command : FailoverLeaseCommand) (datagram : Bytes) (now : Nat) (nowMs : UInt64) :
    let s := exec (step D) (start D unixUs unixMs) ops
    s.sent.getLast? = some command →
    D.crate.decode (datagram.take (D.crate.wireLen + 1)) = some command →
    ((∀ e ∈ trace (step D) (start D unixUs unixMs) ops, Undisturbed D e.1 e.2) →
      Agrees D (step D s (.deliver datagram now nowMs)).2) ∧
    (Agrees D (step D s (.deliver datagram now nowMs)).2 ↔ ¬ Split s) := by
  intro s hlast hdecode
  have hdelivered : (step D s (.deliver datagram now nowMs)).2 = s.receive D datagram now nowMs := by
    simp [step, hdecode, List.mem_of_getLast? hlast]
  have hiff := receive_agrees_iff (exec_linked unixUs unixMs ops) now nowMs hlast hdecode
  rw [hdelivered]
  refine ⟨fun hundisturbed => hiff.mpr ?_, hiff⟩
  rintro ⟨hsame, hother⟩
  exact hother ((exec_current unixUs unixMs ops hundisturbed).listener hsame)

end Runs

open RelayFailoverController (sampleArgs sampleOutage sampleTick)
open RelayFailoverListener (sampleFormat sampleEndpoint sampleChild)

def sampleDeployment : Deployment where
  crate := sampleFormat
  args := sampleArgs
  endpoint := sampleEndpoint
  forwards := [(sampleChild, .repair)]
  new_eq_some := fun _ _ _ _ _ _ _ => rfl
  generation_pos := by decide
  subscriptionId_pos := by decide
  leaseMs_pos := by decide
  leaseMs_le := by decide
  generation_eq := rfl
  subscriptionId_eq := rfl
  controlled := ⟨⟨sampleChild, .repair, false⟩, rfl, rfl⟩

/-- The primary falls silent, the controller promotes with transition 6, the child hears it. -/
def samplePromotion : List AgreementOp :=
  sampleOutage.map .controller ++
    [.controller (sampleTick 250000000), .deliver [6, 1] 250000000 0, .leaseTick 275000000 0]

theorem newest_command_agrees_promotion :
    Agrees sampleDeployment (step sampleDeployment
      (exec (step sampleDeployment) (start sampleDeployment 5 0) samplePromotion)
      (.deliver [6, 1] 300000000 0)).2 :=
  (newest_command_agrees sampleDeployment 5 0 samplePromotion ⟨1, 1, 6, 5, 1000000, .sourceAndRepair⟩
    [6, 1] 300000000 0 (by decide +kernel) rfl).1 (by decide +kernel)

/-- The heartbeats of one second are lost, the lease expires, and the next heartbeat, still of
transition 6, leaves the path demoted. -/
theorem expired_lease_outlasts_newest :
    let s := exec (step sampleDeployment) (start sampleDeployment 5 0)
      (samplePromotion ++ [.leaseTick 1250000000 0, .controller (sampleTick 1300000000)])
    s.sent.getLast? = some ⟨1, 1, 6, 5, 1000000, .sourceAndRepair⟩ ∧
    sampleDeployment.crate.decode ([6, 1].take (sampleDeployment.crate.wireLen + 1)) =
      some ⟨1, 1, 6, 5, 1000000, .sourceAndRepair⟩ ∧
    ¬ Agrees sampleDeployment (step sampleDeployment s (.deliver [6, 1] 1300000000 0)).2 := by
  refine ⟨by decide +kernel, rfl, by decide +kernel⟩

end AgreementState

end AvMesh.Failover
