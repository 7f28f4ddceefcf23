/-
  AvMesh.Failover.Listener
  ────────────────────────
  **THE FAILOVER LISTENER** (`run_relay_failover_listener`, src/main.rs).

  The warm secondary listens for the commands of one controller.  A command
  that is not stale moves four variables: the transition id, the mode it
  carried, the `promoted` flag of the forwarding path and the deadline of the
  lease.  Between commands a timer takes a promotion back once its lease has
  run out.

      recv  (peer, bytes, now)  — reject, or accept a decoded command
      leaseTick now             — expire the lease, or nothing

  `Coherent` ties flag and deadline to the remembered mode, `LastGrant` ties
  the deadline to the command that set it.  Instants are in nanoseconds.
-/
import AvMesh.Failover.Controller

namespace AvMesh.Failover

open AvMesh.Lib

/-! ## §1. The forwarder. -/

inductive RelayForwardRole where
  | all
  | source
  | repair
  deriving Repr, DecidableEq

structure RelayForwardPath where
  target : SocketAddr
  role : RelayForwardRole
  promoted : Bool
  deriving Repr, DecidableEq

/-- `RelayDownstreamForwarder`: its paths and its failover counters. -/
structure RelayDownstreamForwarder where
  paths : List RelayForwardPath
  failoverCommandsReceived : UInt64 := 0
  failoverCommandsRejected : UInt64 := 0
  failoverLeaseExpirations : UInt64 := 0
  failoverPromotionsApplied : UInt64 := 0
  failoverDemotionsApplied : UInt64 := 0
  failoverLastTransitionUnixMs : UInt64 := 0
  deriving Repr, DecidableEq

namespace RelayDownstreamForwarder

def bind (endpoints : List (SocketAddr × RelayForwardRole)) : RelayDownstreamForwarder where
  paths := endpoints.map fun endpoint => ⟨endpoint.1, endpoint.2, false⟩

def findPath (paths : List RelayForwardPath) (target : SocketAddr) : Option RelayForwardPath :=
  paths.find? fun path => path.target == target

/-- `path.promoted.swap(promoted)` on the first path to `target`. -/
def swapPromoted (target : SocketAddr) (promoted : Bool) :
    List RelayForwardPath → List RelayForwardPath
  | [] => []
  | path :: paths =>
      if path.target == target then { path with promoted } :: paths
      else path :: swapPromoted target promoted paths

def recordFailoverCommandRejected (f : RelayDownstreamForwarder) : RelayDownstreamForwarder :=
  { f with failoverCommandsRejected := f.failoverCommandsRejected + 1 }

/-- The counters of a change of the flag. -/
def recordChange (f : RelayDownstreamForwarder) (promoted leaseExpired : Bool)
    (unixMs : UInt64) : RelayDownstreamForwarder :=
  let f := if promoted then
      { f with failoverPromotionsApplied := f.failoverPromotionsApplied + 1 }
    else { f with failoverDemotionsApplied := f.failoverDemotionsApplied + 1 }
  let f := if leaseExpired then
      { f with failoverLeaseExpirations := f.failoverLeaseExpirations + 1 }
    else f
  { f with failoverLastTransitionUnixMs := unixMs }

def applyFailoverMode (f : RelayDownstreamForwarder) (target : SocketAddr)
    (mode : FailoverForwardMode) (leaseExpired : Bool) (unixMs : UInt64) :
    Option Bool × RelayDownstreamForwarder :=
  match findPath f.paths target with
  | none => (none, f.recordFailoverCommandRejected)
  | some path =>
      if path.role ≠ .repair then (none, f.recordFailoverCommandRejected)
      else
        let f := if !leaseExpired then
            { f with failoverCommandsReceived := f.failoverCommandsReceived + 1 }
          else f
        let promoted := mode == .sourceAndRepair
        let previous := path.promoted
        let f := { f with paths := swapPromoted target promoted f.paths }
        let f := if previous != promoted then f.recordChange promoted leaseExpired unixMs else f
        (some (!previous && promoted), f)

/-- The path to `target` is one a failover command may promote. -/
def Controlled (f : RelayDownstreamForwarder) (target : SocketAddr) : Prop :=
  ∃ path, findPath f.paths target = some path ∧ path.role = .repair

/-- The flag of the path to `target`. -/
def promotedAt (f : RelayDownstreamForwarder) (target : SocketAddr) : Bool :=
  (findPath f.paths target).any (·.promoted)

section Apply

variable {f : RelayDownstreamForwarder} {target : SocketAddr} {mode : FailoverForwardMode}
  {leaseExpired : Bool} {unixMs : UInt64}

theorem findPath_swapPromoted (promoted : Bool) (paths : List RelayForwardPath) :
    findPath (swapPromoted target promoted paths) target =
      (findPath paths target).map fun path => { path with promoted } := by
  induction paths with
  | nil => rfl
  | cons path paths ih =>
      unfold swapPromoted
      by_cases h : path.target = target
      · simp [findPath, h]
      · rw [if_neg (by simpa using h)]
        simp only [findPath, List.find?_cons, beq_false_of_ne h]
        exact ih

@[simp] theorem recordChange_paths (promoted : Bool) :
    (f.recordChange promoted leaseExpired unixMs).paths = f.paths := by
  unfold recordChange
  cases promoted <;> cases leaseExpired <;> rfl

theorem applyFailoverMode_of_not_controlled (h : ¬ f.Controlled target) :
    f.applyFailoverMode target mode leaseExpired unixMs =
      (none, f.recordFailoverCommandRejected) := by
  unfold applyFailoverMode
  split
  · rfl
  · next path hpath =>
      rw [if_pos]
      intro hrole
      exact h ⟨path, hpath, hrole⟩

/-- On a controlled path the flag becomes what the mode says. -/
theorem applyFailoverMode_of_controlled (h : f.Controlled target) :
    (f.applyFailoverMode target mode leaseExpired unixMs).1 =
      some (!f.promotedAt target && mode == .sourceAndRepair) ∧
    (f.applyFailoverMode target mode leaseExpired unixMs).2.promotedAt target =
      (mode == .sourceAndRepair) ∧
    (f.applyFailoverMode target mode leaseExpired unixMs).2.Controlled target := by
  obtain ⟨path, hpath, hrole⟩ := h
  have hpaths : (f.applyFailoverMode target mode leaseExpired unixMs).2.paths =
      swapPromoted target (mode == .sourceAndRepair) f.paths := by
    unfold applyFailoverMode
    simp only [hpath, hrole, ne_eq, not_true_eq_false, if_false]
    cases leaseExpired <;> split <;> simp
  refine ⟨?_, ?_, ?_⟩
  · unfold applyFailoverMode
    simp [hpath, hrole, promotedAt]
  · unfold promotedAt
    rw [hpaths, findPath_swapPromoted, hpath]
    rfl
  · refine ⟨{ path with promoted := mode == .sourceAndRepair }, ?_, hrole⟩
    rw [hpaths, findPath_swapPromoted, hpath]
    rfl

theorem bind_promotedAt (endpoints : List (SocketAddr × RelayForwardRole)) (target : SocketAddr) :
    (bind endpoints).promotedAt target = false := by
  unfold promotedAt
  cases hpath : findPath (bind endpoints).paths target with
  | none => rfl
  | some path =>
      obtain ⟨endpoint, -, rfl⟩ := List.mem_map.mp (List.mem_of_find?_eq_some hpath)
      rfl

end Apply

end RelayDownstreamForwarder

/-! ## §2. The listener. -/

/-- What a listener is started with: the controller it obeys and the path it controls. -/
structure RelayFailoverListenerEndpoint where
  peer : SocketAddr
  forwardTarget : SocketAddr
  generation : Nat
  subscriptionId : Nat
  deriving Repr, DecidableEq

/-- The variables of `run_relay_failover_listener`. -/
structure RelayFailoverListener where
  forwarder : RelayDownstreamForwarder
  transitionId : Nat := 0
  transitionMode : FailoverForwardMode := .repairOnly
  leaseDeadline : Option Nat := none
  deriving Repr, DecidableEq

/-- A branch of the `select!`. -/
inductive ListenerEvent where
  | recvError
  | recv (peer : SocketAddr) (datagram : Bytes) (now : Nat) (unixMs : UInt64)
  | leaseTick (now : Nat) (unixMs : UInt64)
  deriving Repr, DecidableEq

/-- The instant read in an event. -/
def ListenerEvent.instant : ListenerEvent → Option Nat
  | .recvError => none
  | .recv _ _ now _ => some now
  | .leaseTick now _ => some now

/-- The accepted command of an event, and whether the warm sources are replayed. -/
structure Accepted where
  command : FailoverLeaseCommand
  replay : Bool
  deriving Repr, DecidableEq

namespace RelayFailoverListener

def reject (l : RelayFailoverListener) : RelayFailoverListener :=
  { l with forwarder := l.forwarder.recordFailoverCommandRejected }

/-- The decoded command of a datagram; the buffer holds one byte more than a command. -/
def decodeFrom (K : CommandCrate) (endpoint : RelayFailoverListenerEndpoint) (peer : SocketAddr)
    (datagram : Bytes) : Option FailoverLeaseCommand :=
  if peer == endpoint.peer then K.decode (datagram.take (K.wireLen + 1)) else none

def stale (endpoint : RelayFailoverListenerEndpoint) (l : RelayFailoverListener)
    (command : FailoverLeaseCommand) : Bool :=
  command.generation != endpoint.generation
    || command.subscriptionId != endpoint.subscriptionId
    || decide (command.transitionId < l.transitionId)
    || (command.transitionId == l.transitionId && command.mode != l.transitionMode)

/-- A command that is not stale. -/
def accept (endpoint : RelayFailoverListenerEndpoint) (l : RelayFailoverListener)
    (command : FailoverLeaseCommand) (now : Nat) (unixMs : UInt64) :
    Accepted × RelayFailoverListener :=
  let l := { l with transitionId := command.transitionId, transitionMode := command.mode }
  let (promotedNow, forwarder) :=
    l.forwarder.applyFailoverMode endpoint.forwardTarget command.mode false unixMs
  match promotedNow with
  | some promotedNow =>
      let leaseDeadline := if command.mode == .sourceAndRepair then
          some (now + command.leaseDurationUs * 1000) else none
      (⟨command, promotedNow⟩, { l with forwarder, leaseDeadline })
  | none => (⟨command, false⟩, { l with forwarder })

def receive (K : CommandCrate) (endpoint : RelayFailoverListenerEndpoint)
    (l : RelayFailoverListener) (peer : SocketAddr) (datagram : Bytes) (now : Nat)
    (unixMs : UInt64) : Option Accepted × RelayFailoverListener :=
  match decodeFrom K endpoint peer datagram with
  | none => (none, l.reject)
  | some command =>
      if l.stale endpoint command then (none, l.reject)
      else
        let (accepted, l) := l.accept endpoint command now unixMs
        (some accepted, l)

def leaseTick (endpoint : RelayFailoverListenerEndpoint) (l : RelayFailoverListener) (now : Nat)
    (unixMs : UInt64) : RelayFailoverListener :=
  if l.leaseDeadline.any fun deadline => now ≥ deadline then
    { forwarder :=
        (l.forwarder.applyFailoverMode endpoint.forwardTarget .repairOnly true unixMs).2
      transitionId := l.transitionId
      transitionMode := .repairOnly
      leaseDeadline := none }
  else l

def step (K : CommandCrate) (endpoint : RelayFailoverListenerEndpoint)
    (l : RelayFailoverListener) : ListenerEvent → Option Accepted × RelayFailoverListener
  | .recvError => (none, l.reject)
  | .recv peer datagram now unixMs => l.receive K endpoint peer datagram now unixMs
  | .leaseTick now unixMs => (none, l.leaseTick endpoint now unixMs)

/-- The state a listener starts in. -/
def start (endpoints : List (SocketAddr × RelayForwardRole)) : RelayFailoverListener :=
  { forwarder := .bind endpoints }

/-- The command an event brings in, when it is accepted. -/
def acceptedCommand (K : CommandCrate) (endpoint : RelayFailoverListenerEndpoint)
    (l : RelayFailoverListener) (event : ListenerEvent) : Option FailoverLeaseCommand :=
  (step K endpoint l event).1.map (·.command)

def promoted (endpoint : RelayFailoverListenerEndpoint) (l : RelayFailoverListener) : Bool :=
  l.forwarder.promotedAt endpoint.forwardTarget

/-! ## §3. What one event can do. -/

section Moves

variable {K : CommandCrate} {endpoint : RelayFailoverListenerEndpoint}
  {l l' : RelayFailoverListener} {event : ListenerEvent} {reply : Option FailoverLeaseCommand}

theorem stale_eq_false {command : FailoverLeaseCommand} (h : l.stale endpoint command = false) :
    command.generation = endpoint.generation ∧
    command.subscriptionId = endpoint.subscriptionId ∧
    l.transitionId ≤ command.transitionId ∧
    (command.transitionId = l.transitionId → command.mode = l.transitionMode) := by
  simp only [stale, Bool.or_eq_false_iff, bne_eq_false_iff_eq, decide_eq_false_iff_not,
    Nat.not_lt, Bool.and_eq_false_imp, beq_iff_eq] at h
  obtain ⟨⟨⟨hgeneration, hsubscription⟩, hid⟩, hmode⟩ := h
  exact ⟨hgeneration, hsubscription, hid, hmode⟩

/-- What an event can do to the listener. -/
inductive Move (K : CommandCrate) (endpoint : RelayFailoverListenerEndpoint)
    (l : RelayFailoverListener) :
    ListenerEvent → Option FailoverLeaseCommand → RelayFailoverListener → Prop where
  /-- Only the rejection counter moves. -/
  | rejected {event : ListenerEvent} (hevent : ∀ now unixMs, event ≠ .leaseTick now unixMs) :
      Move K endpoint l event none l.reject
  | accepted {peer : SocketAddr} {datagram : Bytes} {now : Nat} {unixMs : UInt64}
      {command : FailoverLeaseCommand} (hdecode : decodeFrom K endpoint peer datagram = some command)
      (hfresh : l.stale endpoint command = false) :
      Move K endpoint l (.recv peer datagram now unixMs) (some command)
        (l.accept endpoint command now unixMs).2
  /-- The lease has run out. -/
  | expired {now : Nat} {unixMs : UInt64} {deadline : Nat}
      (hdeadline : l.leaseDeadline = some deadline) (hpassed : deadline ≤ now) :
      Move K endpoint l (.leaseTick now unixMs) none
        { forwarder :=
            (l.forwarder.applyFailoverMode endpoint.forwardTarget .repairOnly true unixMs).2
          transitionId := l.transitionId
          transitionMode := .repairOnly
          leaseDeadline := none }
  /-- No lease, or one that still runs. -/
  | idle {now : Nat} {unixMs : UInt64}
      (hrunning : ∀ deadline, l.leaseDeadline = some deadline → now < deadline) :
      Move K endpoint l (.leaseTick now unixMs) none l

theorem accept_command (command : FailoverLeaseCommand) (now : Nat) (unixMs : UInt64) :
    (l.accept endpoint command now unixMs).1.command = command := by
  unfold accept
  dsimp only
  split <;> rfl

theorem step_move (event : ListenerEvent) :
    Move K endpoint l event (l.acceptedCommand K endpoint event) (step K endpoint l event).2 := by
  cases event with
  | recvError => exact .rejected nofun
  | recv peer datagram now unixMs =>
      unfold acceptedCommand
      simp only [step, receive]
      split
      · exact .rejected nofun
      · next command hdecode =>
          split
          · exact .rejected nofun
          -- authentic and not stale: remembered whatever `apply_failover_mode` answers
          · next hstale =>
              simp only [Option.map_some, accept_command]
              exact .accepted hdecode (by simpa using hstale)
  | leaseTick now unixMs =>
      show Move K endpoint l _ none (l.leaseTick endpoint now unixMs)
      unfold leaseTick
      split
      · next h =>
          obtain ⟨deadline, hdeadline, hpassed⟩ := Option.any_eq_true _ _ |>.mp h
          exact .expired hdeadline (of_decide_eq_true hpassed)
      · next h =>
          refine .idle ?_
          intro deadline hdeadline
          rw [hdeadline] at h
          simpa using h

@[simp] theorem accept_transitionId (command : FailoverLeaseCommand) (now : Nat)
    (unixMs : UInt64) :
    (l.accept endpoint command now unixMs).2.transitionId = command.transitionId := by
  unfold accept
  dsimp only
  split <;> rfl

@[simp] theorem accept_transitionMode (command : FailoverLeaseCommand) (now : Nat)
    (unixMs : UInt64) :
    (l.accept endpoint command now unixMs).2.transitionMode = command.mode := by
  unfold accept
  dsimp only
  split <;> rfl

/-! ## §4. The flag, the deadline and the remembered mode. -/

/-- On a path it controls, the flag and the deadline are those of the remembered mode. -/
structure Coherent (endpoint : RelayFailoverListenerEndpoint) (l : RelayFailoverListener) :
    Prop where
  controlled : l.forwarder.Controlled endpoint.forwardTarget
  promoted : l.promoted endpoint = (l.transitionMode == .sourceAndRepair)
  deadline : l.leaseDeadline.isSome = (l.transitionMode == .sourceAndRepair)

/-- On a path it does not control, nothing is ever promoted. -/
structure Inert (endpoint : RelayFailoverListenerEndpoint) (l : RelayFailoverListener) :
    Prop where
  uncontrolled : ¬ l.forwarder.Controlled endpoint.forwardTarget
  promoted : l.promoted endpoint = false
  deadline : l.leaseDeadline = none

theorem accept_of_controlled (command : FailoverLeaseCommand) (now : Nat) (unixMs : UInt64)
    (h : l.forwarder.Controlled endpoint.forwardTarget) :
    Coherent endpoint (l.accept endpoint command now unixMs).2 ∧
    (l.accept endpoint command now unixMs).2.leaseDeadline =
      if command.mode = .sourceAndRepair then some (now + command.leaseDurationUs * 1000)
      else none := by
  obtain ⟨hreply, hpromoted, hcontrolled⟩ :=
    @RelayDownstreamForwarder.applyFailoverMode_of_controlled l.forwarder endpoint.forwardTarget
      command.mode false unixMs h
  have hdeadline : (l.accept endpoint command now unixMs).2.leaseDeadline =
      if command.mode = .sourceAndRepair then some (now + command.leaseDurationUs * 1000)
      else none := by
    unfold accept
    simp [hreply]
  have hforwarder : (l.accept endpoint command now unixMs).2.forwarder =
      (l.forwarder.applyFailoverMode endpoint.forwardTarget command.mode false unixMs).2 := by
    unfold accept
    simp [hreply]
  refine ⟨⟨by rw [hforwarder]; exact hcontrolled, ?_, ?_⟩, hdeadline⟩
  · unfold RelayFailoverListener.promoted
    rw [hforwarder, hpromoted, accept_transitionMode]
  · rw [hdeadline, accept_transitionMode]
    cases command.mode <;> rfl

theorem accept_of_inert (command : FailoverLeaseCommand) (now : Nat) (unixMs : UInt64)
    (h : Inert endpoint l) : Inert endpoint (l.accept endpoint command now unixMs).2 := by
  have hreply := @RelayDownstreamForwarder.applyFailoverMode_of_not_controlled l.forwarder
    endpoint.forwardTarget command.mode false unixMs h.uncontrolled
  have haccept : (l.accept endpoint command now unixMs).2 =
      { l.reject with transitionId := command.transitionId, transitionMode := command.mode } := by
    unfold accept
    simp [hreply, reject]
  rw [haccept]
  exact ⟨h.uncontrolled, h.promoted, h.deadline⟩

theorem Move.coherent (hmove : Move K endpoint l event reply l') (h : Coherent endpoint l) :
    Coherent endpoint l' := by
  cases hmove with
  | rejected hevent => exact ⟨h.controlled, h.promoted, h.deadline⟩
  | accepted hdecode hfresh => exact (accept_of_controlled _ _ _ h.controlled).1
  | @expired now unixMs deadline hdeadline hpassed =>
      obtain ⟨-, hpromoted, hcontrolled⟩ :=
        @RelayDownstreamForwarder.applyFailoverMode_of_controlled l.forwarder
          endpoint.forwardTarget .repairOnly true unixMs h.controlled
      exact ⟨hcontrolled, hpromoted, rfl⟩
  | idle hrunning => exact h

theorem Move.inert (hmove : Move K endpoint l event reply l') (h : Inert endpoint l) :
    Inert endpoint l' := by
  cases hmove with
  | rejected hevent => exact ⟨h.uncontrolled, h.promoted, h.deadline⟩
  | accepted hdecode hfresh => exact accept_of_inert _ _ _ h
  | expired hdeadline hpassed =>
      rw [h.deadline] at hdeadline
      cases hdeadline
  | idle hrunning => exact h

theorem start_coherent (endpoints : List (SocketAddr × RelayForwardRole))
    (h : (RelayDownstreamForwarder.bind endpoints).Controlled endpoint.forwardTarget) :
    Coherent endpoint (start endpoints) :=
  ⟨h, RelayDownstreamForwarder.bind_promotedAt endpoints endpoint.forwardTarget, rfl⟩

theorem exec_coherent_or_inert (endpoints : List (SocketAddr × RelayForwardRole))
    (events : List ListenerEvent) :
    Coherent endpoint (exec (step K endpoint) (start endpoints) events) ∨
    Inert endpoint (exec (step K endpoint) (start endpoints) events) := by
  by_cases h : (RelayDownstreamForwarder.bind endpoints).Controlled endpoint.forwardTarget
  · exact .inl (exec_invariant (step K endpoint) (Coherent endpoint)
      (fun _ event h => (step_move event).coherent h) events (start_coherent endpoints h))
  · refine .inr (exec_invariant (step K endpoint) (Inert endpoint)
      (fun _ event h => (step_move event).inert h) events ⟨h, ?_, rfl⟩)
    exact RelayDownstreamForwarder.bind_promotedAt endpoints endpoint.forwardTarget

theorem Move.of_command {command : FailoverLeaseCommand}
    (hmove : Move K endpoint l event (some command) l') :
    ∃ peer datagram now unixMs, event = .recv peer datagram now unixMs ∧
      decodeFrom K endpoint peer datagram = some command ∧ l.stale endpoint command = false ∧
      l' = (l.accept endpoint command now unixMs).2 := by
  cases hmove with
  | accepted hdecode hfresh => exact ⟨_, _, _, _, rfl, hdecode, hfresh, rfl⟩

theorem of_acceptedCommand {command : FailoverLeaseCommand}
    (h : l.acceptedCommand K endpoint event = some command) :
    ∃ peer datagram now unixMs, event = .recv peer datagram now unixMs ∧
      decodeFrom K endpoint peer datagram = some command ∧ l.stale endpoint command = false ∧
      (step K endpoint l event).2 = (l.accept endpoint command now unixMs).2 := by
  have hmove := @step_move K endpoint l event
  rw [h] at hmove
  exact hmove.of_command

theorem decodeFrom_eq_some {peer : SocketAddr} {datagram : Bytes} {command : FailoverLeaseCommand}
    (h : decodeFrom K endpoint peer datagram = some command) :
    peer = endpoint.peer ∧ K.decode (datagram.take (K.wireLen + 1)) = some command := by
  unfold decodeFrom at h
  split at h
  · next hpeer => exact ⟨eq_of_beq hpeer, h⟩
  · cases h

/-! ## §5. Transition ids. -/

theorem Move.transitionId_le (hmove : Move K endpoint l event reply l') :
    l.transitionId ≤ l'.transitionId := by
  cases hmove with
  | rejected hevent => exact Nat.le_refl _
  | accepted hdecode hfresh =>
      rw [accept_transitionId]
      exact (stale_eq_false hfresh).2.2.1
  | expired hdeadline hpassed => exact Nat.le_refl _
  | idle hrunning => exact Nat.le_refl _

theorem Move.transitionId_of_none (hmove : Move K endpoint l event none l') :
    l'.transitionId = l.transitionId := by
  cases hmove with
  | rejected hevent => rfl
  | expired hdeadline hpassed => rfl
  | idle hrunning => rfl

/-- Without a command the remembered mode changes only when a lease runs out. -/
theorem Move.mode_of_none (hmove : Move K endpoint l event none l') :
    l'.transitionMode = l.transitionMode ∨ ∃ now unixMs deadline,
      event = .leaseTick now unixMs ∧ l.leaseDeadline = some deadline ∧ deadline ≤ now := by
  cases hmove with
  | rejected hevent => exact .inl rfl
  | @expired now unixMs deadline hdeadline hpassed =>
      exact .inr ⟨now, unixMs, deadline, rfl, hdeadline, hpassed⟩
  | idle hrunning => exact .inl rfl

theorem transitionId_le_exec (l : RelayFailoverListener) (events : List ListenerEvent) :
    l.transitionId ≤ (exec (step K endpoint) l events).transitionId :=
  exec_invariant (step K endpoint) (fun l' => l.transitionId ≤ l'.transitionId)
    (fun _ event h => Nat.le_trans h (step_move event).transitionId_le) events (Nat.le_refl _)

/-- Past a `RepairOnly` command of transition `id`: a later id, or the same one still taken
back. -/
def Fenced (id : Nat) (l : RelayFailoverListener) : Prop :=
  id < l.transitionId ∨ (l.transitionId = id ∧ l.transitionMode = .repairOnly)

theorem Move.fenced {id : Nat} (hmove : Move K endpoint l event reply l') (h : Fenced id l) :
    Fenced id l' := by
  cases hmove with
  | rejected hevent => exact h
  | accepted hdecode hfresh =>
      obtain ⟨-, -, hid, hmode⟩ := stale_eq_false hfresh
      unfold Fenced at h ⊢
      rw [accept_transitionId, accept_transitionMode]
      -- a command of the same id keeps the mode, so only a later id promotes again
      rcases h with h | ⟨h, hrepair⟩
      · exact .inl (by omega)
      · rcases Nat.eq_or_lt_of_le hid with hsame | hlater
        · exact .inr ⟨by omega, (hmode hsame.symm).trans hrepair⟩
        · exact .inl (by omega)
  | expired hdeadline hpassed => exact h.imp_right fun h => ⟨h.1, rfl⟩
  | idle hrunning => exact h

theorem stale_of_fenced {id : Nat} {command : FailoverLeaseCommand} (h : Fenced id l)
    (hold : command.transitionId < id ∨
      (command.transitionId = id ∧ command.mode = .sourceAndRepair)) :
    l.stale endpoint command = true := by
  cases hstale : l.stale endpoint command with
  | true => rfl
  | false =>
      obtain ⟨-, -, hid, hmode⟩ := stale_eq_false hstale
      rcases h with h | ⟨h, hrepair⟩
      · omega
      · rcases hold with hold | ⟨hsame, hsource⟩
        · omega
        · have hmodes := hmode (hsame.trans h.symm)
          rw [hsource, hrepair] at hmodes
          cases hmodes

/-- A datagram whose command, if the configured peer sent it, is stale. -/
theorem step_of_stale {peer : SocketAddr} {datagram : Bytes} {command : FailoverLeaseCommand}
    (now : Nat) (unixMs : UInt64)
    (hdecode : K.decode (datagram.take (K.wireLen + 1)) = some command)
    (hstale : l.stale endpoint command = true) :
    step K endpoint l (.recv peer datagram now unixMs) = (none, l.reject) := by
  simp only [step, receive, decodeFrom]
  split
  · rfl
  · next heq =>
      split at heq
      · rw [hdecode] at heq
        cases heq
        rw [if_pos hstale]
      · cases heq

/-! ## §6. The lease. -/

/-- After `before`, `event` accepted `command`; since then there was no other such command and
no lease tick from its deadline on. -/
structure LastGrant (K : CommandCrate) (endpoint : RelayFailoverListenerEndpoint)
    (l₀ : RelayFailoverListener) (before : List ListenerEvent) (event : ListenerEvent)
    (after : List ListenerEvent) (command : FailoverLeaseCommand) (now : Nat) : Prop where
  accepted : (exec (step K endpoint) l₀ before).acceptedCommand K endpoint event = some command
  instant : event.instant = some now
  mode : command.mode = .sourceAndRepair
  last : ∀ e ∈ trace (step K endpoint) (exec (step K endpoint) l₀ (before ++ [event])) after,
    ∀ later, e.1.acceptedCommand K endpoint e.2 = some later → later.mode = .repairOnly
  running : ∀ t unixMs, .leaseTick t unixMs ∈ after → t < now + command.leaseDurationUs * 1000

/-- The deadline is that of the last grant. -/
def LeaseHistory (K : CommandCrate) (endpoint : RelayFailoverListenerEndpoint)
    (l₀ : RelayFailoverListener) (events : List ListenerEvent) (l : RelayFailoverListener) :
    Prop :=
  ∀ deadline, l.leaseDeadline = some deadline → ∃ before event after command now,
    events = before ++ event :: after ∧ deadline = now + command.leaseDurationUs * 1000 ∧
    LastGrant K endpoint l₀ before event after command now

variable {l₀ : RelayFailoverListener} {events : List ListenerEvent}

theorem exec_split (before after : List ListenerEvent) (event : ListenerEvent) :
    exec (step K endpoint) l₀ (before ++ event :: after) =
      exec (step K endpoint) (exec (step K endpoint) l₀ (before ++ [event])) after := by
  rw [← exec_append, List.append_assoc]
  rfl

/-- An event that accepts nothing and does not reach the deadline. -/
theorem LeaseHistory.snoc {l : RelayFailoverListener} {next : ListenerEvent}
    (h : LeaseHistory K endpoint l₀ events (exec (step K endpoint) l₀ events))
    (hdeadline : l.leaseDeadline = (exec (step K endpoint) l₀ events).leaseDeadline)
    (hnone : (exec (step K endpoint) l₀ events).acceptedCommand K endpoint next = none)
    (hrunning : ∀ t unixMs, next = .leaseTick t unixMs → ∀ deadline,
      (exec (step K endpoint) l₀ events).leaseDeadline = some deadline → t < deadline) :
    LeaseHistory K endpoint l₀ (events ++ [next]) l := by
  intro deadline hset
  rw [hdeadline] at hset
  obtain ⟨before, event, after, command, now, hevents, hlease, hgrant⟩ := h deadline hset
  refine ⟨before, event, after ++ [next], command, now, by rw [hevents]; simp, hlease,
    -- the grant is the same one; the new event neither accepts a command nor is a late tick
    hgrant.accepted, hgrant.instant, hgrant.mode, ?_, ?_⟩
  · intro e he later hlater
    rw [trace_append, ← exec_split, ← hevents] at he
    rcases List.mem_append.mp he with he | he
    · exact hgrant.last e he later hlater
    · simp only [trace_cons, trace_nil, List.mem_singleton] at he
      rw [he, hnone] at hlater
      cases hlater
  · intro t unixMs ht
    rcases List.mem_append.mp ht with ht | ht
    · exact hgrant.running t unixMs ht
    · rw [← hlease]
      exact hrunning t unixMs (List.mem_singleton.mp ht).symm deadline hset

theorem Move.leaseHistory {next : ListenerEvent}
    (hstate : Coherent endpoint (exec (step K endpoint) l₀ events) ∨
      Inert endpoint (exec (step K endpoint) l₀ events))
    (h : LeaseHistory K endpoint l₀ events (exec (step K endpoint) l₀ events))
    (hreply : (exec (step K endpoint) l₀ events).acceptedCommand K endpoint next = reply)
    (hmove : Move K endpoint (exec (step K endpoint) l₀ events) next reply l') :
    LeaseHistory K endpoint l₀ (events ++ [next]) l' := by
  cases hmove with
  | rejected hevent => exact h.snoc rfl hreply fun t unixMs ht => absurd ht (hevent t unixMs)
  | @accepted peer datagram now unixMs command hdecode hfresh =>
      intro deadline hset
      rcases hstate with hcoherent | hinert
      · rw [(accept_of_controlled command now unixMs hcoherent.controlled).2] at hset
        split at hset
        -- `SourceAndRepair` is the new last grant, `RepairOnly` clears the deadline
        · next hsource =>
            cases hset
            exact ⟨events, _, [], command, now, rfl, rfl, hreply, rfl, hsource, nofun, nofun⟩
        · cases hset
      · rw [(accept_of_inert command now unixMs hinert).deadline] at hset
        cases hset
  | expired hdeadline hpassed => exact fun deadline hset => nomatch hset
  | @idle now unixMs hrunning =>
      refine h.snoc rfl hreply ?_
      intro t unixMs' ht deadline hset
      cases ht
      exact hrunning deadline hset

theorem exec_leaseHistory (endpoints : List (SocketAddr × RelayForwardRole))
    (events : List ListenerEvent) :
    LeaseHistory K endpoint (start endpoints) events
      (exec (step K endpoint) (start endpoints) events) := by
  refine exec_history (step K endpoint) (LeaseHistory K endpoint (start endpoints)) _ ?_ ?_
    events
  · intro deadline hset
    cases hset
  · intro events next h
    exact (step_move next).leaseHistory (exec_coherent_or_inert endpoints events) h rfl

/-- Instants that do not decrease: an earlier lease tick is not after a later event. -/
theorem leaseTick_le_of_split {before after : List ListenerEvent} {now t : Nat} {unixMs : UInt64}
    (hordered : ((before ++ event :: after).filterMap ListenerEvent.instant).Pairwise (· ≤ ·))
    (hinstant : event.instant = some now) (hmem : .leaseTick t unixMs ∈ before) : t ≤ now := by
  rw [List.filterMap_append, List.filterMap_cons_some hinstant] at hordered
  exact (List.pairwise_append.mp hordered).2.2 t (List.mem_filterMap.mpr ⟨_, hmem, rfl⟩) now
    List.mem_cons_self

/-- A promotion rests on the last grant, whose lease no tick has reached. -/
theorem promoted_granted (endpoints : List (SocketAddr × RelayForwardRole))
    (hordered : (events.filterMap ListenerEvent.instant).Pairwise (· ≤ ·))
    (hpromoted : (exec (step K endpoint) (start endpoints) events).promoted endpoint = true) :
    ∃ before datagram now unixMs after command,
      events = before ++ .recv endpoint.peer datagram now unixMs :: after ∧
      K.decode (datagram.take (K.wireLen + 1)) = some command ∧
      command.generation = endpoint.generation ∧
      command.subscriptionId = endpoint.subscriptionId ∧
      LastGrant K endpoint (start endpoints) before (.recv endpoint.peer datagram now unixMs) after
        command now ∧
      (∀ t unixMs, .leaseTick t unixMs ∈ before → t ≤ now) ∧
      (0 < command.leaseDurationUs → ∀ t unixMs, .leaseTick t unixMs ∈ events →
        t < now + command.leaseDurationUs * 1000) := by
  have hstate := @exec_coherent_or_inert K endpoint endpoints events
  rcases hstate with hcoherent | hinert
  · have hset : (exec (step K endpoint) (start endpoints) events).leaseDeadline.isSome := by
      rw [hcoherent.deadline, ← hcoherent.promoted]
      exact hpromoted
    obtain ⟨deadline, hdeadline⟩ := Option.isSome_iff_exists.mp hset
    obtain ⟨before, event, after, command, now, rfl, -, hgrant⟩ :=
      exec_leaseHistory endpoints events deadline hdeadline
    obtain ⟨peer, datagram, now', unixMs, rfl, hdecode, hfresh, -⟩ :=
      of_acceptedCommand hgrant.accepted
    obtain ⟨rfl, hdecoded⟩ := decodeFrom_eq_some hdecode
    obtain ⟨hgeneration, hsubscription, -⟩ := stale_eq_false hfresh
    obtain rfl : now' = now := Option.some.inj hgrant.instant
    have hbefore : ∀ t unixMs, .leaseTick t unixMs ∈ before → t ≤ now' :=
      fun t _ => leaseTick_le_of_split hordered rfl
    refine ⟨before, datagram, now', unixMs, after, command, rfl, hdecoded, hgeneration,
      hsubscription, hgrant, hbefore, ?_⟩
    intro hlease t unixMs' ht
    rcases List.mem_append.mp ht with ht | ht
    -- the ticks before the grant are not after it, and a lease lasts
    · have hle := hbefore t unixMs' ht
      omega
    · rcases List.mem_cons.mp ht with ht | ht
      · cases ht
      · exact hgrant.running t unixMs' ht
  · rw [hinert.promoted] at hpromoted
    cases hpromoted

/-- **FAILOVER LISTENER SAFETY**, for every sequence of datagrams and lease ticks: the transition
id never decreases, a demotion is final for its id, a promotion rests on a running lease, and
foreign commands only count as rejected. -/
theorem exec_listener_safe (K : CommandCrate) (endpoint : RelayFailoverListenerEndpoint)
    (endpoints : List (SocketAddr × RelayForwardRole)) (events : List ListenerEvent)
    (hordered : (events.filterMap ListenerEvent.instant).Pairwise (· ≤ ·)) :
    let run := exec (step K endpoint) (start endpoints)
    (∀ before after, events = before ++ after →
      (run before).transitionId ≤ (run events).transitionId) ∧
    (∀ before event mid after peer datagram now unixMs command command',
      events = before ++ event :: (mid ++ .recv peer datagram now unixMs :: after) →
      (run before).acceptedCommand K endpoint event = some command →
      command.mode = .repairOnly →
      K.decode (datagram.take (K.wireLen + 1)) = some command' →
      (command'.transitionId < command.transitionId ∨
        (command'.transitionId = command.transitionId ∧ command'.mode = .sourceAndRepair)) →
      step K endpoint (run (before ++ event :: mid)) (.recv peer datagram now unixMs) =
        (none, (run (before ++ event :: mid)).reject)) ∧
    ((run events).promoted endpoint = true →
      ∃ before datagram now unixMs after command,
        events = before ++ .recv endpoint.peer datagram now unixMs :: after ∧
        K.decode (datagram.take (K.wireLen + 1)) = some command ∧
        command.generation = endpoint.generation ∧
        command.subscriptionId = endpoint.subscriptionId ∧
        LastGrant K endpoint (start endpoints) before
          (.recv endpoint.peer datagram now unixMs) after command now ∧
        (∀ t unixMs, .leaseTick t unixMs ∈ before → t ≤ now) ∧
        (0 < command.leaseDurationUs → ∀ t unixMs, .leaseTick t unixMs ∈ events →
          t < now + command.leaseDurationUs * 1000)) ∧
    (∀ peer datagram now unixMs,
      (peer ≠ endpoint.peer ∨ ∃ command,
        K.decode (datagram.take (K.wireLen + 1)) = some command ∧
        (command.generation ≠ endpoint.generation ∨
          command.subscriptionId ≠ endpoint.subscriptionId)) →
      step K endpoint (run events) (.recv peer datagram now unixMs) =
        (none, (run events).reject)) := by
  intro run
  refine ⟨?_, ?_, promoted_granted endpoints hordered, ?_⟩
  · rintro before after rfl
    show _ ≤ (exec (step K endpoint) (start endpoints) (before ++ after)).transitionId
    rw [exec_append]
    exact transitionId_le_exec _ after
  · intro before event mid after peer datagram now unixMs command command' _ haccepted hrepair
      hdecode hold
    -- the demotion fences its id, and every event of `mid` keeps the fence
    have hfenced : Fenced command.transitionId (run (before ++ event :: mid)) := by
      show Fenced command.transitionId (exec (step K endpoint) (start endpoints) _)
      rw [exec_append, exec_cons]
      refine exec_invariant (step K endpoint) (Fenced command.transitionId)
        (fun _ event h => (step_move event).fenced h) mid ?_
      obtain ⟨_, _, _, _, -, -, -, haccept⟩ := of_acceptedCommand haccepted
      rw [haccept]
      exact .inr ⟨accept_transitionId _ _ _, (accept_transitionMode _ _ _).trans hrepair⟩
    exact step_of_stale now unixMs hdecode (stale_of_fenced hfenced hold)
  · rintro peer datagram now unixMs (hpeer | ⟨command, hdecode, hforeign⟩)
    · simp [step, receive, decodeFrom, hpeer]
    · refine step_of_stale now unixMs hdecode ?_
      cases hstale : (run events).stale endpoint command with
      | true => rfl
      | false =>
          obtain ⟨hgeneration, hsubscription, -⟩ := stale_eq_false hstale
          rcases hforeign with h | h
          · exact absurd hgeneration h
          · exact absurd hsubscription h

end Moves

/-- A two-byte format: the transition id and the mode of a one-second lease. -/
def sampleFormat : CommandCrate where
  new := some
  decode := fun datagram => match datagram with
    | [id, 0] => some ⟨1, 1, id.toNat, 5, 1000000, .repairOnly⟩
    | [id, 1] => some ⟨1, 1, id.toNat, 5, 1000000, .sourceAndRepair⟩
    | _ => none
  wireLen := 2

def samplePeer : SocketAddr := ⟨"10.0.0.9", 9000⟩

def sampleChild : SocketAddr := ⟨"10.0.0.2", 5000⟩

def sampleEndpoint : RelayFailoverListenerEndpoint := ⟨samplePeer, sampleChild, 1, 1⟩

theorem exec_listener_safe_lease :
    let events := [.leaseTick 0 0, .recv samplePeer [9, 1] 0 0, .leaseTick 25000000 0]
    (exec (step sampleFormat sampleEndpoint) (start [(sampleChild, .repair)]) events).promoted
      sampleEndpoint = true ∧
    ∃ now, ∀ t unixMs, ListenerEvent.leaseTick t unixMs ∈ events → t < now + 1000000 * 1000 := by
  intro events
  have hpromoted : (exec (step sampleFormat sampleEndpoint) (start [(sampleChild, .repair)])
      events).promoted sampleEndpoint = true := by decide
  refine ⟨hpromoted, ?_⟩
  obtain ⟨before, datagram, now, unixMs, after, command, -, hdecode, -, -, -, -, hticks⟩ :=
    (exec_listener_safe sampleFormat sampleEndpoint [(sampleChild, .repair)] events
      (by decide)).2.2.1 hpromoted
  have hlease : command.leaseDurationUs = 1000000 := by
    simp only [sampleFormat] at hdecode
    split at hdecode
    · cases hdecode
      rfl
    · cases hdecode
      rfl
    · cases hdecode
  rw [hlease] at hticks
  exact ⟨now, hticks (by decide)⟩

end RelayFailoverListener

end AvMesh.Failover
