/-
  AvMesh.Failover.Forwarder
  ─────────────────────────
  **THE DOWNSTREAM FORWARDER** (`RelayDownstreamForwarder`, src/main.rs).

  One forwarder is shared by the ingest task, which hands it datagrams, and by
  the failover listeners, which promote and demote its paths:

      forward    for each path  — load the flag, then send, or keep the source
                                  datagram warm, or filter
      failover   swap the flag  — and after a promotion drain the warm buffer
                                  and send what was in it

  Every await and every atomic operation is a point at which the others run.
  `forwarder` is that program over the rules of `AvMesh.Lib.Tasks`; the
  counters are updated one atomic operation at a time after the fact.

  Main results:

    • `advance_spec`  — what one stage can do (`Advance`),
    • `forward_sound` — in every run each datagram on the wire is one that was
                        handed to `forward`, on a path whose role permits it,
                        or on a repair path that was promoted,
    • `apply_alone`   — without interleaving a failover command does what the
                        model of the listener says.
-/
import AvMesh.Failover.Listener
import AvMesh.Failover.WarmGauges
import AvMesh.Lib.Tasks
import AvMesh.Telemetry.Percentile

namespace AvMesh.Failover

open AvMesh.Lib
open AvMesh.Relay (MediaDatagramRole)
open AvMesh.Telemetry (BucketIndex bound)

/-! ## §1. The state. -/

def RelayForwardRole.permits : RelayForwardRole → MediaDatagramRole → Bool
  | .all, _ => true
  | .source, role => role == .source
  | .repair, role => role == .repair

/-- The arguments of `forward`. -/
structure ForwardDatagram (κ : Type) where
  wire : Bytes
  role : MediaDatagramRole
  objectKey : Option κ
  expiresAtUs : Option Nat
  deriving Repr, DecidableEq

/-- `RelayForwardPath`, with its buffer. -/
structure WarmForwardPath (κ : Type) extends RelayForwardPath where
  warmSources : WarmSourceReplayBuffer κ := {}

/-- The counters that are only ever added to or subtracted from. -/
inductive ForwardCounter where
  | sourceDatagrams
  | repairDatagrams
  | bytes
  | errors
  | filteredDatagrams
  | warm (counter : WarmCounter)
  | warmSourceReplayedDatagrams
  | warmSourceReplayedBytes
  | durationCount
  | durationSumUs
  | durationBucket (index : BucketIndex)
  | failoverCommandsReceived
  | failoverCommandsRejected
  | failoverLeaseExpirations
  | failoverPromotionsApplied
  | failoverDemotionsApplied
  deriving Repr, DecidableEq

/-- One atomic operation. -/
inductive AtomicOp where
  | update (u : Update ForwardCounter)
  /-- `duration_max_us.fetch_max`. -/
  | durationMax (durationUs : Nat)
  /-- `failover_last_transition_unix_ms.store`. -/
  | lastTransition (unixMs : Nat)
  deriving Repr, DecidableEq

/-- What happened, for the books; the program keeps no such list.  A call is numbered by its place
among the calls of `forward`. -/
inductive Note (κ : Type) where
  | filtered (call path : Nat)
  | buffered (call path : Nat) (mutation : WarmSourceBufferMutation)
  /-- `loaded` is the length of the list when the call read the flag of the path. -/
  | sent (call path loaded : Nat) (role : MediaDatagramRole) (wire : Bytes) (elapsedUs : Nat)
  | unsent (call path loaded : Nat) (role : MediaDatagramRole) (wire : Bytes)
  | drained (path : Nat) (batch : WarmSourceReplayBatch κ)
  | replayed (call path : Nat) (wire : Bytes) (elapsedUs : Nat)
  | unreplayed (call path : Nat) (wire : Bytes)
  | rejected
  | received
  | switched (path : Nat) (promoted leaseExpired : Bool) (unixMs : Nat)

/-- The forwarder; `offered` lists the calls of `forward`, `log` what happened. -/
structure DataPlane (κ : Type) where
  paths : List (WarmForwardPath κ)
  counters : ForwardCounter → Nat := fun _ => 0
  durationMaxUs : Nat := 0
  failoverLastTransitionUnixMs : Nat := 0
  offered : List (ForwardDatagram κ) := []
  log : List (Note κ) := []

/-- What a task does next. -/
inductive ForwardStage (κ : Type) where
  | visit (call : Nat) (datagram : ForwardDatagram κ) (path : Nat)
  | buffer (call : Nat) (datagram : ForwardDatagram κ) (path : Nat) (objectKey : κ)
      (expiresAtUs : Nat)
  | send (call : Nat) (datagram : ForwardDatagram κ) (path loaded : Nat)
  | apply (target : SocketAddr) (mode : FailoverForwardMode) (leaseExpired : Bool)
  | swap (target : SocketAddr) (path : Nat) (mode : FailoverForwardMode) (leaseExpired : Bool)
  | drain (target : SocketAddr)
  | replay (path : Nat) (rest : List (WarmSourceDatagram κ))
  | finished

inductive ForwardRequest (κ : Type) where
  | forward (datagram : ForwardDatagram κ)
  | failover (target : SocketAddr) (mode : FailoverForwardMode) (leaseExpired : Bool)

/-- What a stage reads: the clocks, and what `send_to` returned. -/
structure ForwardEnv where
  nowUs : Nat
  unixMs : Nat
  sent : Option Nat
  elapsedUs : Nat

/-! ## §2. The atomic operations of each event. -/

/-- `observe_duration`, of a duration in whole microseconds. -/
def observeDuration (elapsedUs : Nat) : List AtomicOp :=
  let durationUs := min elapsedUs u64Max
  [.update (.add .durationCount 1), .update (.add .durationSumUs durationUs),
      .durationMax durationUs]
    ++ (List.finRange _).filterMap fun index =>
        if durationUs ≤ bound index then some (.update (.add (.durationBucket index) 1)) else none

/-- `record_forward_success`. -/
def recordForwardSuccess (role : MediaDatagramRole) (sent elapsedUs : Nat) : List AtomicOp :=
  .update (.add (match role with | .source => .sourceDatagrams | .repair => .repairDatagrams) 1)
    :: .update (.add .bytes sent) :: observeDuration elapsedUs

def Update.mapCounter {κ κ' : Type} (f : κ → κ') : Update κ → Update κ'
  | .add counter n => .add (f counter) n
  | .sub counter n => .sub (f counter) n

def warmOps (updates : List (Update WarmCounter)) : List AtomicOp :=
  updates.map fun u => .update (Update.mapCounter ForwardCounter.warm u)

def count (counter : ForwardCounter) : AtomicOp := .update (.add counter 1)

/-- The atomic operations that follow an event, in their order. -/
def Note.ops {κ : Type} : Note κ → List AtomicOp
  | .filtered _ _ => [count .filteredDatagrams]
  | .buffered _ _ mutation => warmOps (bufferUpdates mutation) ++ [count .filteredDatagrams]
  | .sent _ _ _ role wire elapsedUs => recordForwardSuccess role wire.length elapsedUs
  | .unsent _ _ _ _ _ => [count .errors]
  | .drained _ batch => warmOps (replayUpdates batch)
  | .replayed _ _ wire elapsedUs =>
      recordForwardSuccess .source wire.length elapsedUs
        ++ [count .warmSourceReplayedDatagrams, .update (.add .warmSourceReplayedBytes wire.length)]
  | .unreplayed _ _ _ => [count .errors]
  | .rejected => [count .failoverCommandsRejected]
  | .received => [count .failoverCommandsReceived]
  | .switched _ promoted leaseExpired unixMs =>
      count (if promoted then .failoverPromotionsApplied else .failoverDemotionsApplied)
        :: (if leaseExpired then [count .failoverLeaseExpirations] else [])
        ++ [.lastTransition unixMs]

/-- A subtraction is on one of the two gauges; the other counters only grow. -/
def AtomicOp.Lawful : AtomicOp → Prop
  | .update (.sub counter _) => ∃ gauge, counter = .warm (.warmSourceBuffered gauge)
  | _ => True

theorem warmOps_lawful {updates : List (Update WarmCounter)}
    (h : ∀ u ∈ updates, ∀ counter n, u = .sub counter n → ∃ gauge, counter = .warmSourceBuffered gauge) :
    ∀ op ∈ warmOps updates, op.Lawful := by
  intro op hop
  obtain ⟨u, hu, rfl⟩ := List.mem_map.mp hop
  cases u with
  | add counter n => trivial
  | sub counter n =>
      obtain ⟨gauge, rfl⟩ := h _ hu counter n rfl
      exact ⟨gauge, rfl⟩

theorem recordForwardSuccess_lawful (role : MediaDatagramRole) (sent elapsedUs : Nat) :
    ∀ op ∈ recordForwardSuccess role sent elapsedUs, op.Lawful := by
  intro op hop
  unfold recordForwardSuccess observeDuration at hop
  simp only [List.mem_cons, List.cons_append, List.nil_append, List.mem_filterMap] at hop
  rcases hop with rfl | rfl | rfl | rfl | rfl | ⟨index, -, hindex⟩
  · trivial
  · trivial
  · trivial
  · trivial
  · trivial
  · split at hindex
    · cases hindex
      trivial
    · cases hindex

/-- **The operations of every event are lawful.** -/
theorem Note.ops_lawful {κ : Type} (n : Note κ) : ∀ op ∈ n.ops, op.Lawful := by
  cases n with
  | filtered | unsent | unreplayed | rejected | received =>
      intro op hop
      rw [List.mem_singleton.mp hop]
      trivial
  | sent call path loaded role wire elapsedUs => exact recordForwardSuccess_lawful _ _ _
  | buffered call path mutation =>
      intro op hop
      rcases List.mem_append.mp hop with hop | hop
      · refine warmOps_lawful ?_ op hop
        intro u hu counter n hsub
        subst hsub
        simp only [bufferUpdates, List.mem_cons, reduceCtorEq, Update.sub.injEq, false_or,
          List.not_mem_nil, or_false] at hu
        rcases hu with ⟨rfl, -⟩ | ⟨rfl, -⟩
        · exact ⟨_, rfl⟩
        · exact ⟨_, rfl⟩
      · rw [List.mem_singleton.mp hop]
        trivial
  | drained path batch =>
      refine warmOps_lawful ?_
      intro u hu counter n hsub
      subst hsub
      simp only [replayUpdates, List.mem_cons, reduceCtorEq, Update.sub.injEq, List.not_mem_nil,
        or_false] at hu
      rcases hu with ⟨rfl, -⟩ | ⟨rfl, -⟩
      · exact ⟨_, rfl⟩
      · exact ⟨_, rfl⟩
  | replayed call path wire elapsedUs =>
      intro op hop
      rcases List.mem_append.mp hop with hop | hop
      · exact recordForwardSuccess_lawful _ _ _ op hop
      · simp only [List.mem_cons, List.not_mem_nil, or_false] at hop
        rcases hop with rfl | rfl
        · trivial
        · trivial
  | switched path promoted leaseExpired unixMs =>
      intro op hop
      unfold ops at hop
      cases leaseExpired <;>
        simp only [if_true, Bool.false_eq_true, if_false, List.cons_append, List.nil_append,
          List.mem_cons, List.not_mem_nil, or_false] at hop
      · rcases hop with rfl | rfl
        · trivial
        · trivial
      · rcases hop with rfl | rfl | rfl
        · trivial
        · trivial
        · trivial

/-! ## §3. The program. -/

namespace DataPlane

variable {κ : Type} [DecidableEq κ]

omit [DecidableEq κ] in
def bind (endpoints : List (SocketAddr × RelayForwardRole)) : DataPlane κ where
  paths := endpoints.map fun endpoint => { target := endpoint.1, role := endpoint.2, promoted := false }

def setPath (s : DataPlane κ) (path : Nat) (p : WarmForwardPath κ) : DataPlane κ :=
  { s with paths := s.paths.set path p }

/-- An event, and the operations it leaves to the task. -/
def note (s : DataPlane κ) (n : Note κ) : List AtomicOp × DataPlane κ :=
  (n.ops, { s with log := s.log ++ [n] })

/-- `self.paths.iter().find(|path| path.target == target)`. -/
def findPath (s : DataPlane κ) (target : SocketAddr) : Option Nat :=
  s.paths.findIdx? fun path => path.target == target

def enter (s : DataPlane κ) : ForwardRequest κ → ForwardStage κ × DataPlane κ
  | .forward datagram =>
      (.visit s.offered.length datagram 0, { s with offered := s.offered ++ [datagram] })
  | .failover target mode leaseExpired => (.apply target mode leaseExpired, s)

def applyOp (s : DataPlane κ) : AtomicOp → DataPlane κ
  | .update u => { s with counters := u.apply s.counters }
  | .durationMax durationUs => { s with durationMaxUs := max s.durationMaxUs durationUs }
  | .lastTransition unixMs => { s with failoverLastTransitionUnixMs := unixMs }

/-- The head of the loop of `forward`. -/
def visit (s : DataPlane κ) (call : Nat) (datagram : ForwardDatagram κ) (path : Nat) :
    List AtomicOp × ForwardStage κ × DataPlane κ :=
  match s.paths[path]? with
  | none => ([], .finished, s)
  | some p =>
      let failoverSource := p.promoted && p.role == .repair && datagram.role == .source
      if !(p.role.permits datagram.role || failoverSource) then
        match p.role == .repair && datagram.role == .source, datagram.objectKey,
            datagram.expiresAtUs with
        | true, some objectKey, some expiresAtUs =>
            ([], .buffer call datagram path objectKey expiresAtUs, s)
        | _, _, _ =>
            let (ops, s) := s.note (.filtered call path)
            (ops, .visit call datagram (path + 1), s)
      else ([], .send call datagram path s.log.length, s)

/-- `send_to`, and whether all of the datagram went out. -/
def sentWhole (env : ForwardEnv) (wire : Bytes) : Bool := env.sent == some wire.length

def advance (s : DataPlane κ) (stage : ForwardStage κ) (env : ForwardEnv) :
    List AtomicOp × ForwardStage κ × DataPlane κ :=
  match stage with
  | .visit call datagram path => s.visit call datagram path
  | .buffer call datagram path objectKey expiresAtUs =>
      match s.paths[path]? with
      | none => ([], .finished, s)
      | some p =>
          let (warmSources, mutation) :=
            p.warmSources.push ⟨objectKey, expiresAtUs, datagram.wire, call⟩ env.nowUs
          let (ops, s) := (s.setPath path { p with warmSources }).note (.buffered call path mutation)
          (ops, .visit call datagram (path + 1), s)
  | .send call datagram path loaded =>
      let (ops, s) := s.note
        (if sentWhole env datagram.wire then
          .sent call path loaded datagram.role datagram.wire env.elapsedUs
        else .unsent call path loaded datagram.role datagram.wire)
      (ops, .visit call datagram (path + 1), s)
  | .apply target mode leaseExpired =>
      match s.findPath target with
      | none =>
          let (ops, s) := s.note .rejected
          (ops, .finished, s)
      | some path =>
          if (s.paths[path]?.map fun p => p.role) ≠ some .repair then
            let (ops, s) := s.note .rejected
            (ops, .finished, s)
          else if leaseExpired then ([], .swap target path mode leaseExpired, s)
          else
            let (ops, s) := s.note .received
            (ops, .swap target path mode leaseExpired, s)
  | .swap target path mode leaseExpired =>
      match s.paths[path]? with
      | none => ([], .finished, s)
      | some p =>
          let promoted := mode == .sourceAndRepair
          if p.promoted == promoted then ([], .finished, s)
          else
            let (ops, s) := (s.setPath path { p with promoted }).note
              (.switched path promoted leaseExpired env.unixMs)
            -- the listener replays after `Some(true)`, which an expired lease never asks for
            (ops, if promoted && !leaseExpired then .drain target else .finished, s)
  | .drain target =>
      match s.findPath target with
      | none => ([], .finished, s)
      | some path =>
          match s.paths[path]? with
          | none => ([], .finished, s)
          | some p =>
              let (batch, warmSources) := p.warmSources.takeLive env.nowUs
              let (ops, s) := (s.setPath path { p with warmSources }).note (.drained path batch)
              (ops, .replay path batch.datagrams, s)
  | .replay _ [] => ([], .finished, s)
  | .replay path (datagram :: rest) =>
      let (ops, s) := s.note
        (if sentWhole env datagram.wire then
          .replayed datagram.call path datagram.wire env.elapsedUs
        else .unreplayed datagram.call path datagram.wire)
      (ops, .replay path rest, s)
  | .finished => ([], .finished, s)

/-! ## §4. What a stage does. -/

/-- **One stage**: the next stage, the event if there is one, and the state but for the event. -/
inductive Advance (s : DataPlane κ) :
    ForwardStage κ → ForwardStage κ → Option (Note κ) → DataPlane κ → Prop
  | visited {call datagram path} (hpath : s.paths[path]? = none) :
      Advance s (.visit call datagram path) .finished none s
  | permitted {call datagram path p} (hpath : s.paths[path]? = some p)
      (hrole : p.role.permits datagram.role = true ∨
        (p.role = .repair ∧ datagram.role = .source ∧ p.promoted = true)) :
      Advance s (.visit call datagram path) (.send call datagram path s.log.length) none s
  | keep {call datagram path p objectKey expiresAtUs} (hpath : s.paths[path]? = some p)
      (hrole : p.role = .repair) (hsource : datagram.role = .source)
      (hkey : datagram.objectKey = some objectKey)
      (hexpires : datagram.expiresAtUs = some expiresAtUs) :
      Advance s (.visit call datagram path) (.buffer call datagram path objectKey expiresAtUs)
        none s
  | filter {call datagram path p} (hpath : s.paths[path]? = some p) :
      Advance s (.visit call datagram path) (.visit call datagram (path + 1))
        (some (.filtered call path)) s
  | push {call datagram path p objectKey expiresAtUs} (nowUs : Nat)
      (hpath : s.paths[path]? = some p) :
      Advance s (.buffer call datagram path objectKey expiresAtUs)
        (.visit call datagram (path + 1))
        (some (.buffered call path
          (p.warmSources.push ⟨objectKey, expiresAtUs, datagram.wire, call⟩ nowUs).2))
        (s.setPath path { p with
          warmSources :=
            (p.warmSources.push ⟨objectKey, expiresAtUs, datagram.wire, call⟩ nowUs).1 })
  | sent {call datagram path loaded} (elapsedUs : Nat) :
      Advance s (.send call datagram path loaded) (.visit call datagram (path + 1))
        (some (.sent call path loaded datagram.role datagram.wire elapsedUs)) s
  | unsent {call datagram path loaded} :
      Advance s (.send call datagram path loaded) (.visit call datagram (path + 1))
        (some (.unsent call path loaded datagram.role datagram.wire)) s
  | refuse {target mode leaseExpired} :
      Advance s (.apply target mode leaseExpired) .finished (some .rejected) s
  | accept {target path mode leaseExpired p} (hfind : s.findPath target = some path)
      (hpath : s.paths[path]? = some p) (hrole : p.role = .repair) :
      Advance s (.apply target mode leaseExpired) (.swap target path mode leaseExpired)
        (if leaseExpired then none else some .received) s
  | unchanged {target path mode leaseExpired} :
      Advance s (.swap target path mode leaseExpired) .finished none s
  | switch {target path mode leaseExpired p} (unixMs : Nat) (hpath : s.paths[path]? = some p)
      (hchange : p.promoted = !(mode == .sourceAndRepair)) :
      Advance s (.swap target path mode leaseExpired)
        (if (mode == .sourceAndRepair) && !leaseExpired then .drain target else .finished)
        (some (.switched path (mode == .sourceAndRepair) leaseExpired unixMs))
        (s.setPath path { p with promoted := mode == .sourceAndRepair })
  | undrained {target} : Advance s (.drain target) .finished none s
  | drain {target path p} (nowUs : Nat) (hfind : s.findPath target = some path)
      (hpath : s.paths[path]? = some p) :
      Advance s (.drain target) (.replay path (p.warmSources.takeLive nowUs).1.datagrams)
        (some (.drained path (p.warmSources.takeLive nowUs).1))
        (s.setPath path { p with warmSources := (p.warmSources.takeLive nowUs).2 })
  | drained {path} : Advance s (.replay path []) .finished none s
  | replayed {path datagram rest} (elapsedUs : Nat) :
      Advance s (.replay path (datagram :: rest)) (.replay path rest)
        (some (.replayed datagram.call path datagram.wire elapsedUs)) s
  | unreplayed {path datagram rest} :
      Advance s (.replay path (datagram :: rest)) (.replay path rest)
        (some (.unreplayed datagram.call path datagram.wire)) s
  | gone {call datagram path objectKey expiresAtUs} (hpath : s.paths[path]? = none) :
      Advance s (.buffer call datagram path objectKey expiresAtUs) .finished none s
  | finished : Advance s .finished .finished none s

/-- What a stage leaves behind. -/
structure Advanced (s : DataPlane κ) (stage : ForwardStage κ)
    (result : List AtomicOp × ForwardStage κ × DataPlane κ) (n : Option (Note κ))
    (s₁ : DataPlane κ) : Prop where
  stage : Advance s stage result.2.1 n s₁
  ops : result.1 = n.elim [] Note.ops
  state : result.2.2 = { s₁ with log := s₁.log ++ n.toList }

theorem Advanced.quiet {s : DataPlane κ} {stage stage' : ForwardStage κ}
    (h : Advance s stage stage' none s) : Advanced s stage ([], stage', s) none s where
  stage := h
  ops := rfl
  state := by rw [Option.toList_none, List.append_nil]

theorem visit_advance (s : DataPlane κ) (call : Nat) (datagram : ForwardDatagram κ) (path : Nat) :
    ∃ n s₁, Advanced s (.visit call datagram path) (s.visit call datagram path) n s₁ := by
  unfold visit
  split
  case h_1 hpath => exact ⟨_, _, .quiet (.visited hpath)⟩
  case h_2 p hpath =>
    dsimp only
    split
    case isFalse hpermitted =>
      refine ⟨_, _, .quiet (.permitted hpath ?_)⟩
      rw [Bool.not_eq_true, Bool.not_eq_false', Bool.or_eq_true] at hpermitted
      rcases hpermitted with hrole | hpromoted
      · exact .inl hrole
      · rw [Bool.and_eq_true, Bool.and_eq_true, beq_iff_eq, beq_iff_eq] at hpromoted
        exact .inr ⟨hpromoted.1.2, hpromoted.2, hpromoted.1.1⟩
    case isTrue =>
      split
      case h_1 objectKey expiresAtUs hwarm hkey hexpires =>
        rw [Bool.and_eq_true, beq_iff_eq, beq_iff_eq] at hwarm
        exact ⟨_, _, .quiet (.keep hpath hwarm.1 hwarm.2 hkey hexpires)⟩
      case h_2 => exact ⟨_, _, .filter hpath, rfl, rfl⟩

/-- **Every stage is one of `Advance`.** -/
theorem advance_spec (s : DataPlane κ) (stage : ForwardStage κ) (env : ForwardEnv) :
    ∃ n s₁, Advanced s stage (s.advance stage env) n s₁ := by
  cases stage with
  | visit call datagram path => exact s.visit_advance call datagram path
  | buffer call datagram path objectKey expiresAtUs =>
      unfold advance
      dsimp only
      split
      case h_1 hpath => exact ⟨_, _, .quiet (.gone hpath)⟩
      case h_2 p hpath => exact ⟨_, _, .push env.nowUs hpath, rfl, rfl⟩
  | send call datagram path loaded =>
      unfold advance
      dsimp only
      split
      · exact ⟨_, _, .sent env.elapsedUs, rfl, rfl⟩
      · exact ⟨_, _, .unsent, rfl, rfl⟩
  | apply target mode leaseExpired =>
      unfold advance
      dsimp only
      split
      case h_1 => exact ⟨_, _, .refuse, rfl, rfl⟩
      case h_2 path hfind =>
        split
        case isTrue => exact ⟨_, _, .refuse, rfl, rfl⟩
        case isFalse hrole =>
          obtain ⟨p, hpath, hrepair⟩ := Option.map_eq_some_iff.mp (not_not.mp hrole)
          have haccept : Advance s (.apply target mode leaseExpired)
              (.swap target path mode leaseExpired) _ s := .accept hfind hpath hrepair
          cases leaseExpired with
          | true => exact ⟨_, _, .quiet haccept⟩
          | false => exact ⟨_, _, haccept, rfl, rfl⟩
  | swap target path mode leaseExpired =>
      unfold advance
      dsimp only
      split
      case h_1 => exact ⟨_, _, .quiet .unchanged⟩
      case h_2 p hpath =>
        split
        case isTrue => exact ⟨_, _, .quiet .unchanged⟩
        case isFalse hchange =>
          refine ⟨_, _, .switch env.unixMs hpath ?_, rfl, rfl⟩
          rw [beq_iff_eq] at hchange
          exact Bool.eq_not_of_ne hchange
  | drain target =>
      unfold advance
      dsimp only
      split
      case h_1 => exact ⟨_, _, .quiet .undrained⟩
      case h_2 path hfind =>
        split
        case h_1 => exact ⟨_, _, .quiet .undrained⟩
        case h_2 p hpath => exact ⟨_, _, .drain env.nowUs hfind hpath, rfl, rfl⟩
  | replay path rest =>
      cases rest with
      | nil => exact ⟨_, _, .quiet .drained⟩
      | cons datagram rest =>
          unfold advance
          dsimp only
          split
          · exact ⟨_, _, .replayed env.elapsedUs, rfl, rfl⟩
          · exact ⟨_, _, .unreplayed, rfl, rfl⟩
  | finished => exact ⟨_, _, .quiet .finished⟩

/-! ## §5. What may go out. -/

/-- The addresses and roles of the paths. -/
def endpoints (s : DataPlane κ) : List (SocketAddr × RelayForwardRole) :=
  s.paths.map fun p => (p.target, p.role)

end DataPlane

/-- What an event makes of the flag of a path. -/
def Note.flag {κ : Type} (path : Nat) (flag : Bool) : Note κ → Bool
  | .switched q promoted _ _ => if q = path then promoted else flag
  | _ => flag

/-- The flag of a path after a list of events. -/
def flagAt {κ : Type} (path : Nat) (log : List (Note κ)) : Bool :=
  log.foldl (Note.flag path) false

theorem flagAt_append {κ : Type} (path : Nat) (log : List (Note κ)) (n : Note κ) :
    flagAt path (log ++ [n]) = n.flag path (flagAt path log) := by
  unfold flagAt
  rw [List.foldl_append]
  rfl

/-- A promotion of the path is among the events. -/
def WasPromoted {κ : Type} (path : Nat) (log : List (Note κ)) : Prop :=
  ∃ leaseExpired unixMs, Note.switched path true leaseExpired unixMs ∈ log

namespace DataPlane

variable {κ : Type}

/-- The role of the path permits the datagram, or it is a source datagram on a repair path that was
promoted when the call read its flag. -/
def MaySend (s : DataPlane κ) (path : Nat) (role : MediaDatagramRole) (loaded : Nat) : Prop :=
  ∃ target r, s.endpoints[path]? = some (target, r) ∧ (r.permits role = true ∨
    (r = .repair ∧ role = .source ∧ flagAt path (s.log.take loaded) = true))

/-- A datagram with this role and these bytes was handed to `forward` in this call. -/
def Offered (s : DataPlane κ) (call : Nat) (role : MediaDatagramRole) (wire : Bytes) : Prop :=
  ∃ datagram, s.offered[call]? = some datagram ∧ datagram.role = role ∧ datagram.wire = wire

/-- A datagram that waits on a repair path: a source datagram of a call, with its key and its
deadline. -/
def Held (s : DataPlane κ) (path : Nat) (w : WarmSourceDatagram κ) : Prop :=
  (∃ target, s.endpoints[path]? = some (target, .repair)) ∧
    s.offered[w.call]? = some ⟨w.wire, .source, some w.objectKey, some w.expiresAtUs⟩

/-- What an event says of the calls, and of the events `before` it. -/
def Licensed (s : DataPlane κ) (before : List (Note κ)) : Note κ → Prop
  | .sent call path loaded role wire _ | .unsent call path loaded role wire =>
      loaded ≤ before.length ∧ s.MaySend path role loaded ∧ s.Offered call role wire
  | .replayed call path wire _ | .unreplayed call path wire =>
      (∃ target, s.endpoints[path]? = some (target, .repair)) ∧ WasPromoted path before ∧
        s.Offered call .source wire
  | _ => True

/-- What holds of one path. -/
structure PathSound (s : DataPlane κ) [DecidableEq κ] (log : List (Note κ)) (path : Nat)
    (p : WarmForwardPath κ) : Prop where
  intact : p.warmSources.Intact
  held : ∀ w ∈ p.warmSources.datagrams, s.Held path w
  flag : p.promoted = flagAt path log
  repair : p.promoted = true → p.role = .repair

structure Sound (s : DataPlane κ) [DecidableEq κ] : Prop where
  paths : ∀ path p, s.paths[path]? = some p → s.PathSound s.log path p
  licensed : ∀ i n, s.log[i]? = some n → s.Licensed (s.log.take i) n

/-- What a stage relies on. -/
def Ready (s : DataPlane κ) : ForwardStage κ → Prop
  | .visit call datagram _ => s.offered[call]? = some datagram
  | .buffer call datagram path objectKey expiresAtUs =>
      s.offered[call]? = some datagram ∧ s.Held path ⟨objectKey, expiresAtUs, datagram.wire, call⟩
  | .send call datagram path loaded =>
      s.offered[call]? = some datagram ∧ loaded ≤ s.log.length ∧ s.MaySend path datagram.role loaded
  | .swap target path _ _ =>
      s.findPath target = some path ∧ ∃ target, s.endpoints[path]? = some (target, .repair)
  | .drain target => ∃ path, s.findPath target = some path ∧ WasPromoted path s.log
  | .replay path rest => WasPromoted path s.log ∧ ∀ w ∈ rest, s.Held path w
  | .apply _ _ _ | .finished => True

/-- How the forwarder can change: calls and events are added at the end. -/
structure Grows (s s' : DataPlane κ) : Prop where
  endpoints : s'.endpoints = s.endpoints
  offered : s.offered <+: s'.offered
  log : s.log <+: s'.log

/-! ## §6. What survives the other tasks. -/

theorem findPath_eq (s : DataPlane κ) (target : SocketAddr) :
    s.findPath target = s.endpoints.findIdx? fun endpoint => endpoint.1 == target := by
  unfold findPath endpoints
  rw [List.findIdx?_map]
  rfl

theorem getElem?_grown {α : Type*} {l l' : List α} (h : l <+: l') {i : Nat} {a : α}
    (hi : l[i]? = some a) : l'[i]? = some a := by
  obtain ⟨rest, rfl⟩ := h
  rw [List.getElem?_append_left (List.getElem?_eq_some_iff.mp hi).1]
  exact hi

theorem take_grown {α : Type*} {l l' : List α} (h : l <+: l') {i : Nat} (hi : i ≤ l.length) :
    l'.take i = l.take i := by
  obtain ⟨rest, rfl⟩ := h
  exact List.take_append_of_le_length hi

variable {s s' : DataPlane κ}

theorem Grows.refl (s : DataPlane κ) : Grows s s := ⟨rfl, List.prefix_rfl, List.prefix_rfl⟩

theorem Grows.held (h : Grows s s') {path : Nat} {w : WarmSourceDatagram κ} (hw : s.Held path w) :
    s'.Held path w := by
  obtain ⟨hrole, hoffered⟩ := hw
  exact ⟨h.endpoints ▸ hrole, getElem?_grown h.offered hoffered⟩

theorem Grows.maySend (h : Grows s s') {path loaded : Nat} {role : MediaDatagramRole}
    (hloaded : loaded ≤ s.log.length) (hmay : s.MaySend path role loaded) :
    s'.MaySend path role loaded := by
  obtain ⟨target, r, hpath, hrole⟩ := hmay
  refine ⟨target, r, h.endpoints ▸ hpath, ?_⟩
  rw [take_grown h.log hloaded]
  exact hrole

theorem Grows.offered_call (h : Grows s s') {call : Nat} {role : MediaDatagramRole} {wire : Bytes}
    (hcall : s.Offered call role wire) : s'.Offered call role wire := by
  obtain ⟨datagram, hoffered, hdatagram⟩ := hcall
  exact ⟨datagram, getElem?_grown h.offered hoffered, hdatagram⟩

theorem Grows.wasPromoted (h : Grows s s') {path : Nat} (hp : WasPromoted path s.log) :
    WasPromoted path s'.log := by
  obtain ⟨leaseExpired, unixMs, hmem⟩ := hp
  exact ⟨leaseExpired, unixMs, h.log.subset hmem⟩

theorem Grows.licensed (h : Grows s s') {before : List (Note κ)} (hbefore : before <+: s.log)
    {n : Note κ} (hn : s.Licensed before n) : s'.Licensed before n := by
  have hlen := hbefore.length_le
  cases n with
  | sent call path loaded role wire elapsedUs =>
      obtain ⟨hloaded, hmay, hcall⟩ := hn
      exact ⟨hloaded, h.maySend (Nat.le_trans hloaded hlen) hmay, h.offered_call hcall⟩
  | unsent call path loaded role wire =>
      obtain ⟨hloaded, hmay, hcall⟩ := hn
      exact ⟨hloaded, h.maySend (Nat.le_trans hloaded hlen) hmay, h.offered_call hcall⟩
  | replayed call path wire elapsedUs =>
      obtain ⟨hrole, hpromoted, hcall⟩ := hn
      exact ⟨h.endpoints ▸ hrole, hpromoted, h.offered_call hcall⟩
  | unreplayed call path wire =>
      obtain ⟨hrole, hpromoted, hcall⟩ := hn
      exact ⟨h.endpoints ▸ hrole, hpromoted, h.offered_call hcall⟩
  | filtered | buffered | drained | rejected | received | switched => trivial

/-- **What a stage relies on, the other tasks leave alone.** -/
theorem Grows.ready (h : Grows s s') {stage : ForwardStage κ} (hready : s.Ready stage) :
    s'.Ready stage := by
  have hfind : ∀ target, s'.findPath target = s.findPath target := by
    intro target
    rw [findPath_eq, findPath_eq, h.endpoints]
  cases stage with
  | visit call datagram path => exact getElem?_grown h.offered hready
  | buffer call datagram path objectKey expiresAtUs =>
      exact ⟨getElem?_grown h.offered hready.1, h.held hready.2⟩
  | send call datagram path loaded =>
      obtain ⟨hoffered, hloaded, hmay⟩ := hready
      exact ⟨getElem?_grown h.offered hoffered, Nat.le_trans hloaded h.log.length_le,
        h.maySend hloaded hmay⟩
  | swap target path mode leaseExpired =>
      exact ⟨(hfind target).trans hready.1, h.endpoints ▸ hready.2⟩
  | drain target =>
      obtain ⟨path, hpath, hpromoted⟩ := hready
      exact ⟨path, (hfind target).trans hpath, h.wasPromoted hpromoted⟩
  | replay path rest =>
      exact ⟨h.wasPromoted hready.1, fun w hw => h.held (hready.2 w hw)⟩
  | apply => trivial
  | finished => trivial

/-! ## §7. One stage keeps it. -/

section Steps

variable [DecidableEq κ] {stage stage' : ForwardStage κ} {n : Option (Note κ)} {s₁ : DataPlane κ}

omit [DecidableEq κ] in
theorem setPath_endpoints {path : Nat} {p p' : WarmForwardPath κ} (hpath : s.paths[path]? = some p)
    (htarget : p'.target = p.target) (hrole : p'.role = p.role) :
    (s.setPath path p').endpoints = s.endpoints := by
  unfold endpoints setPath
  refine List.ext_getElem? fun i => ?_
  rw [List.getElem?_map, List.getElem?_map, List.getElem?_set]
  split
  case isFalse => rfl
  case isTrue hi =>
    subst hi
    rw [hpath, if_pos (List.getElem?_eq_some_iff.mp hpath).1]
    show some (p'.target, p'.role) = some (p.target, p.role)
    rw [htarget, hrole]

theorem Advance.endpoints_eq (h : Advance s stage stage' n s₁) : s₁.endpoints = s.endpoints := by
  cases h with
  | push nowUs hpath => exact setPath_endpoints hpath rfl rfl
  | switch unixMs hpath hchange => exact setPath_endpoints hpath rfl rfl
  | drain nowUs hfind hpath => exact setPath_endpoints hpath rfl rfl
  | _ => rfl

theorem Advance.offered_eq (h : Advance s stage stage' n s₁) : s₁.offered = s.offered := by
  cases h <;> rfl

theorem Advance.log_eq (h : Advance s stage stage' n s₁) : s₁.log = s.log := by
  cases h <;> rfl

/-- The state after a stage, its event included. -/
def withEvent (s₁ : DataPlane κ) (n : Option (Note κ)) : DataPlane κ :=
  { s₁ with log := s₁.log ++ n.toList }

theorem Advance.grows (h : Advance s stage stage' n s₁) : Grows s (s₁.withEvent n) where
  endpoints := h.endpoints_eq
  offered := by
    show s.offered <+: s₁.offered
    simp only [h.offered_eq, List.prefix_rfl]
  log := by
    show s.log <+: s₁.log ++ n.toList
    rw [h.log_eq]
    exact List.prefix_append _ _

omit [DecidableEq κ] in
theorem endpoints_getElem? {path : Nat} {p : WarmForwardPath κ} (hpath : s.paths[path]? = some p) :
    s.endpoints[path]? = some (p.target, p.role) := by
  unfold endpoints
  rw [List.getElem?_map, hpath]
  rfl

/-- The next stage has what it relies on. -/
theorem Advance.ready (h : Advance s stage stage' n s₁) (hs : s.Sound) (hready : s.Ready stage) :
    (s₁.withEvent n).Ready stage' := by
  have hgrows := h.grows
  cases h with
  | visited | refuse | unchanged | undrained | drained | gone | finished => trivial
  | filter hpath => exact getElem?_grown hgrows.offered hready
  | push nowUs hpath => exact getElem?_grown hgrows.offered hready.1
  | sent elapsedUs => exact getElem?_grown hgrows.offered hready.1
  | unsent => exact getElem?_grown hgrows.offered hready.1
  | @permitted call datagram path p hpath hrole =>
      refine hgrows.ready (show s.Ready (.send call datagram path s.log.length) from
        ⟨hready, Nat.le_refl _, p.target, p.role, endpoints_getElem? hpath, ?_⟩)
      rcases hrole with hrole | ⟨hrole, hsource, hpromoted⟩
      · exact .inl hrole
      · refine .inr ⟨hrole, hsource, ?_⟩
        rw [List.take_length, ← (hs.paths path p hpath).flag]
        exact hpromoted
  | @keep call datagram path p objectKey expiresAtUs hpath hrole hsource hkey hexpires =>
      obtain ⟨wire, role, key, expires⟩ := datagram
      obtain rfl : role = .source := hsource
      obtain rfl : key = some objectKey := hkey
      obtain rfl : expires = some expiresAtUs := hexpires
      refine hgrows.ready (show s.Ready (.buffer call _ path objectKey expiresAtUs) from
        ⟨hready, ⟨p.target, ?_⟩, hready⟩)
      rw [endpoints_getElem? hpath, hrole]
  | @accept target path mode leaseExpired p hfind hpath hrole =>
      refine hgrows.ready (show s.Ready (.swap target path mode leaseExpired) from
        ⟨hfind, p.target, ?_⟩)
      rw [endpoints_getElem? hpath, hrole]
  | @switch target path mode leaseExpired p unixMs hpath hchange =>
      split
      case isFalse => trivial
      case isTrue hpromotion =>
        refine ⟨path, ?_, leaseExpired, unixMs, ?_⟩
        · rw [findPath_eq, hgrows.endpoints, ← findPath_eq]
          exact hready.1
        · rw [Bool.and_eq_true] at hpromotion
          rw [hpromotion.1]
          exact List.mem_append_right _ (List.mem_singleton.mpr rfl)
  | @drain target path p nowUs hfind hpath =>
      obtain ⟨path', hpath', hpromoted⟩ := hready
      obtain rfl : path = path' := Option.some.inj (hfind.symm.trans hpath')
      refine hgrows.ready (show s.Ready (.replay path _) from ⟨hpromoted, ?_⟩)
      intro w hw
      rw [WarmSourceReplayBuffer.takeLive_datagrams] at hw
      exact (hs.paths path p hpath).held w (List.mem_filter.mp hw).1
  | replayed elapsedUs =>
      exact hgrows.ready ⟨hready.1, fun w hw => hready.2 w (List.mem_cons_of_mem _ hw)⟩
  | unreplayed =>
      exact hgrows.ready ⟨hready.1, fun w hw => hready.2 w (List.mem_cons_of_mem _ hw)⟩

/-- One path changed, and with it at most its flag. -/
theorem Sound.setPath_paths (hs : s.Sound) {log : List (Note κ)} {path : Nat}
    {p' : WarmForwardPath κ} (hflag : ∀ q, q ≠ path → flagAt q log = flagAt q s.log)
    (hp' : s.PathSound log path p') :
    ∀ q p'', (s.setPath path p').paths[q]? = some p'' → s.PathSound log q p'' := by
  intro q p'' hq
  unfold setPath at hq
  rw [List.getElem?_set] at hq
  split at hq
  case isTrue hsame =>
    split at hq
    · cases hq
      exact hsame ▸ hp'
    · cases hq
  case isFalse hother =>
    have hpath := hs.paths q p'' hq
    refine ⟨hpath.intact, hpath.held, ?_, hpath.repair⟩
    rw [hflag q (Ne.symm hother)]
    exact hpath.flag

theorem Sound.same_paths (hs : s.Sound) {n : Note κ}
    (hflag : ∀ q flag, n.flag q flag = flag) :
    ∀ q p, s.paths[q]? = some p → s.PathSound (s.log ++ [n]) q p := by
  intro q p hq
  have hpath := hs.paths q p hq
  refine ⟨hpath.intact, hpath.held, ?_, hpath.repair⟩
  rw [flagAt_append, hflag]
  exact hpath.flag

/-- The paths after a stage, in terms of the calls before it. -/
theorem Advance.paths_sound (h : Advance s stage stage' n s₁) (hs : s.Sound)
    (hready : s.Ready stage) :
    ∀ q p, s₁.paths[q]? = some p → s.PathSound (s.log ++ n.toList) q p := by
  have hquiet : ∀ q p, s.paths[q]? = some p → s.PathSound (s.log ++ []) q p := by
    rw [List.append_nil]
    exact hs.paths
  have hnote : ∀ {note : Note κ} {path : Nat} {p p' : WarmForwardPath κ},
      (∀ q flag, note.flag q flag = flag) → s.paths[path]? = some p → p'.promoted = p.promoted →
      p'.role = p.role → p'.warmSources.Intact → (∀ w ∈ p'.warmSources.datagrams, s.Held path w) →
      ∀ q p'', (s.setPath path p').paths[q]? = some p'' → s.PathSound (s.log ++ [note]) q p'' := by
    intro note path p p' hflag hpath hpromoted hrole hintact hheld
    have hold := hs.paths path p hpath
    refine hs.setPath_paths (fun q _ => ?_) ⟨hintact, hheld, ?_, ?_⟩
    · rw [flagAt_append, hflag]
    · rw [flagAt_append, hflag, hpromoted]
      exact hold.flag
    · rw [hpromoted, hrole]
      exact hold.repair
  cases h with
  | visited | permitted | keep | unchanged | undrained | drained | gone | finished => exact hquiet
  | filter | sent | unsent | refuse | replayed | unreplayed =>
      exact hs.same_paths fun _ _ => rfl
  | @accept target path mode leaseExpired p hfind hpath hrole =>
      cases leaseExpired with
      | true => exact hquiet
      | false => exact hs.same_paths fun _ _ => rfl
  | @push call datagram path p objectKey expiresAtUs nowUs hpath =>
      have hold := hs.paths path p hpath
      refine hnote (fun _ _ => rfl) hpath rfl rfl
        (WarmSourceReplayBuffer.push_intact _ nowUs hold.intact) ?_
      obtain ⟨-, kept, hsub, hshape⟩ := WarmSourceReplayBuffer.push_shape
        ⟨objectKey, expiresAtUs, datagram.wire, call⟩ nowUs hold.intact.wellFormed
      intro w hw
      rcases hshape with hshape | hshape
      · rw [hshape] at hw
        rcases List.mem_append.mp hw with hw | hw
        · exact hold.held w (hsub.subset hw)
        · rw [List.mem_singleton.mp hw]
          exact hready.2
      · rw [hshape] at hw
        exact hold.held w (hsub.subset hw)
  | @drain target path p nowUs hfind hpath =>
      exact hnote (fun _ _ => rfl) hpath rfl rfl WarmSourceReplayBuffer.empty_intact nofun
  | @switch target path mode leaseExpired p unixMs hpath hchange =>
      have hold := hs.paths path p hpath
      obtain ⟨-, target', hrepair⟩ := hready
      rw [Option.toList_some]
      refine hs.setPath_paths (fun q hother => ?_) ⟨hold.intact, hold.held, ?_, ?_⟩
      · rw [flagAt_append]
        exact if_neg (Ne.symm hother)
      · rw [flagAt_append]
        exact (if_pos rfl).symm
      · intro _
        rw [endpoints_getElem? hpath] at hrepair
        exact congrArg Prod.snd (Option.some.inj hrepair)

/-- The event of a stage is licensed. -/
theorem Advance.licensed (h : Advance s stage stage' n s₁) (hready : s.Ready stage) :
    ∀ note, n = some note → s.Licensed s.log note := by
  intro note hnote
  cases h with
  | visited | permitted | keep | unchanged | undrained | drained | gone | finished => cases hnote
  | filter | push | refuse | switch | drain =>
      cases hnote
      trivial
  | @accept target path mode leaseExpired p hfind hpath hrole =>
      cases leaseExpired <;> cases hnote
      trivial
  | @sent call datagram path loaded elapsedUs =>
      cases hnote
      exact ⟨hready.2.1, hready.2.2, datagram, hready.1, rfl, rfl⟩
  | @unsent call datagram path loaded =>
      cases hnote
      exact ⟨hready.2.1, hready.2.2, datagram, hready.1, rfl, rfl⟩
  | @replayed path w rest elapsedUs =>
      cases hnote
      have hheld := hready.2 w List.mem_cons_self
      exact ⟨hheld.1, hready.1, _, hheld.2, rfl, rfl⟩
  | @unreplayed path w rest =>
      cases hnote
      have hheld := hready.2 w List.mem_cons_self
      exact ⟨hheld.1, hready.1, _, hheld.2, rfl, rfl⟩

omit [DecidableEq κ] in
theorem licensed_append {s' : DataPlane κ} (hgrows : Grows s s') {n : Option (Note κ)}
    (hlog : s'.log = s.log ++ n.toList)
    (hold : ∀ i note, s.log[i]? = some note → s.Licensed (s.log.take i) note)
    (hnew : ∀ note, n = some note → s.Licensed s.log note) :
    ∀ i note, s'.log[i]? = some note → s'.Licensed (s'.log.take i) note := by
  intro i note hi
  rw [hlog] at hi ⊢
  by_cases hlt : i < s.log.length
  · rw [List.getElem?_append_left hlt] at hi
    rw [List.take_append_of_le_length (Nat.le_of_lt hlt)]
    exact hgrows.licensed (List.take_prefix _ _) (hold i note hi)
  · have hge := Nat.le_of_not_lt hlt
    rw [List.getElem?_append_right hge] at hi
    cases n with
    | none => cases hi
    | some event =>
        -- the only index past the old events is that of the new one
        have hzero : i - s.log.length = 0 := by
          by_contra hpos
          rw [show i - s.log.length = (i - s.log.length - 1) + 1 by omega] at hi
          cases hi
        rw [hzero] at hi
        cases hi
        rw [show i = s.log.length by omega, List.take_left']
        · exact hgrows.licensed List.prefix_rfl (hnew note rfl)
        · rfl

theorem Advance.sound (h : Advance s stage stage' n s₁) (hs : s.Sound) (hready : s.Ready stage) :
    (s₁.withEvent n).Sound := by
  have hgrows := h.grows
  have hlog : (s₁.withEvent n).log = s.log ++ n.toList := by
    show s₁.log ++ n.toList = _
    rw [h.log_eq]
  refine ⟨?_, licensed_append hgrows hlog hs.licensed (h.licensed hready)⟩
  intro path p hpath
  have hpathSound := h.paths_sound hs hready path p hpath
  rw [← hlog] at hpathSound
  exact ⟨hpathSound.intact, fun w hw => hgrows.held (hpathSound.held w hw), hpathSound.flag,
    hpathSound.repair⟩

end Steps

end DataPlane

/-! ## §8. Every run. -/

/-- The forwarder and its tasks. -/
def forwarder (κ : Type) [DecidableEq κ] :
    TaskProgram (DataPlane κ) (ForwardStage κ) AtomicOp (ForwardRequest κ) ForwardEnv where
  enter := DataPlane.enter
  apply := DataPlane.applyOp
  advance := DataPlane.advance

namespace DataPlane

variable {κ : Type} [DecidableEq κ]

abbrev ForwardOp (κ : Type) := TaskOp (ForwardRequest κ) ForwardEnv

/-- The forwarder after a run. -/
def after (endpoints : List (SocketAddr × RelayForwardRole)) (ops : List (ForwardOp κ)) :
    Tasks (DataPlane κ) (ForwardStage κ) AtomicOp :=
  exec (forwarder κ).step ⟨bind endpoints, []⟩ ops

theorem bind_sound (endpoints : List (SocketAddr × RelayForwardRole)) :
    (bind endpoints : DataPlane κ).Sound := by
  refine ⟨?_, nofun⟩
  intro path p hpath
  obtain ⟨endpoint, -, rfl⟩ := List.mem_map.mp (List.mem_of_getElem? hpath)
  exact ⟨WarmSourceReplayBuffer.empty_intact, nofun, rfl, nofun⟩

omit [DecidableEq κ] in
theorem applyOp_paths (s : DataPlane κ) (op : AtomicOp) :
    (s.applyOp op).paths = s.paths ∧ (s.applyOp op).offered = s.offered ∧
      (s.applyOp op).log = s.log := by
  cases op <;> exact ⟨rfl, rfl, rfl⟩

omit [DecidableEq κ] in
theorem applyOp_grows (s : DataPlane κ) (op : AtomicOp) : Grows s (s.applyOp op) := by
  cases op <;> exact ⟨rfl, List.prefix_rfl, List.prefix_rfl⟩

/-- The same paths and events, and no fewer calls. -/
theorem Sound.of_grows {s s' : DataPlane κ} (h : s.Sound) (hgrows : Grows s s')
    (hpaths : s'.paths = s.paths) (hlog : s'.log = s.log) : s'.Sound := by
  constructor
  case paths =>
    intro path p hpath
    rw [hpaths] at hpath
    obtain ⟨hintact, hheld, hflag, hrepair⟩ := h.paths path p hpath
    exact ⟨hintact, fun w hw => hgrows.held (hheld w hw), hlog ▸ hflag, hrepair⟩
  case licensed =>
    intro i n hi
    rw [hlog] at hi ⊢
    exact hgrows.licensed (List.take_prefix _ _) (h.licensed i n hi)

/-- **The program keeps what its tasks rely on.** -/
theorem forwarder_sound :
    (forwarder κ).Sound (fun s => s.Sound) Ready AtomicOp.Lawful Grows where
  stable := fun _ _ _ hgrows hready => hgrows.ready hready
  enter := by
    intro s request hs
    cases request with
    | forward datagram =>
        have hgrows : Grows s { s with offered := s.offered ++ [datagram] } :=
          ⟨rfl, List.prefix_append _ _, List.prefix_rfl⟩
        exact ⟨hs.of_grows hgrows rfl rfl, hgrows, List.getElem?_concat_length⟩
    | failover target mode leaseExpired => exact ⟨hs, .refl s, trivial⟩
  apply := by
    intro s op hs _
    obtain ⟨hpaths, -, hlog⟩ := s.applyOp_paths op
    exact ⟨hs.of_grows (s.applyOp_grows op) hpaths hlog, s.applyOp_grows op⟩
  advance := by
    intro s stage env hs hready
    obtain ⟨n, s₁, hadvanced⟩ := s.advance_spec stage env
    have hstate : ((forwarder κ).advance s stage env).2.2 = s₁.withEvent n := hadvanced.state
    rw [hstate]
    refine ⟨hadvanced.stage.sound hs hready, hadvanced.stage.grows,
      hadvanced.stage.ready hs hready, ?_⟩
    rw [show ((forwarder κ).advance s stage env).1 = _ from hadvanced.ops]
    cases n with
    | none => exact nofun
    | some n => exact n.ops_lawful

theorem after_holds (endpoints : List (SocketAddr × RelayForwardRole))
    (ops : List (ForwardOp κ)) :
    TaskProgram.Holds (fun s => s.Sound) Ready AtomicOp.Lawful (after endpoints ops) :=
  forwarder_sound.exec ops ⟨bind_sound endpoints, nofun, nofun⟩

theorem after_endpoints (endpoints : List (SocketAddr × RelayForwardRole))
    (ops : List (ForwardOp κ)) : (after endpoints ops).shared.endpoints = endpoints := by
  refine exec_invariant (forwarder κ).step (fun s => s.shared.endpoints = endpoints) ?_ ops ?_
  · intro s op h
    rcases (forwarder κ).step_cases s op with hstep | ⟨request, -, hstep⟩ |
      ⟨i, a, pending, stage, -, hstep⟩ | ⟨i, env, stage, -, hstep⟩
    · rw [hstep]
      exact h
    · rw [hstep]
      cases request <;> exact h
    · rw [hstep]
      exact ((s.shared.applyOp_grows a).endpoints).trans h
    · rw [hstep]
      obtain ⟨n, s₁, hadvanced⟩ := s.shared.advance_spec stage env
      show (s.shared.advance stage env).2.2.endpoints = _
      rw [hadvanced.state]
      exact hadvanced.stage.endpoints_eq.trans h
  · show List.map _ (List.map _ endpoints) = endpoints
    rw [List.map_map]
    exact List.map_id' endpoints

/-- **What reaches a child.**  In every run, whatever the tasks interleave: a datagram that is sent
was handed to `forward`, with this role, and the role of the path permits it, or the path is a
repair path whose flag was up when the call read it; a datagram that is replayed is a source
datagram that was handed to `forward`, on a repair path that had been promoted. -/
theorem forward_sound (endpoints : List (SocketAddr × RelayForwardRole))
    (ops : List (ForwardOp κ)) :
    (after endpoints ops).shared.endpoints = endpoints ∧
      ∀ i n, (after endpoints ops).shared.log[i]? = some n →
        (after endpoints ops).shared.Licensed ((after endpoints ops).shared.log.take i) n :=
  ⟨after_endpoints endpoints ops, (after_holds endpoints ops).shared.licensed⟩

/-! ## §9. The task of the listener alone. -/

/-- The forwarder as the listener sees it. -/
def asListener (s : DataPlane κ) : RelayDownstreamForwarder where
  paths := s.paths.map fun p => p.toRelayForwardPath
  failoverCommandsReceived := .ofNat (s.counters .failoverCommandsReceived)
  failoverCommandsRejected := .ofNat (s.counters .failoverCommandsRejected)
  failoverLeaseExpirations := .ofNat (s.counters .failoverLeaseExpirations)
  failoverPromotionsApplied := .ofNat (s.counters .failoverPromotionsApplied)
  failoverDemotionsApplied := .ofNat (s.counters .failoverDemotionsApplied)
  failoverLastTransitionUnixMs := .ofNat s.failoverLastTransitionUnixMs

/-- A stage and the operations it leaves, with nothing in between. -/
def alone (s : DataPlane κ) (stage : ForwardStage κ) (env : ForwardEnv) :
    ForwardStage κ × DataPlane κ :=
  let (ops, stage, s) := s.advance stage env
  (stage, ops.foldl applyOp s)

omit [DecidableEq κ] in
theorem ofNat_count (values : ForwardCounter → Nat) (counter : ForwardCounter) :
    UInt64.ofNat (Update.apply values (.add counter 1) counter)
      = UInt64.ofNat (values counter) + 1 := by
  show UInt64.ofNat (Function.update values counter ((values counter + 1) % 2 ^ 64) counter) = _
  rw [Function.update_self, UInt64.ofNat_mod_size, UInt64.ofNat_add]
  rfl

omit [DecidableEq κ] in
theorem count_of_ne (values : ForwardCounter → Nat) {counter k : ForwardCounter}
    (h : counter ≠ k) : Update.apply values (.add counter 1) k = values k :=
  Update.apply_of_ne values h

omit [DecidableEq κ] in
/-- The two ways of finding a path find the same one. -/
theorem findPath_asListener (paths : List (WarmForwardPath κ)) (target : SocketAddr) :
    (paths.findIdx? (fun path => path.target == target) = none ∧
      RelayDownstreamForwarder.findPath (paths.map fun p => p.toRelayForwardPath) target = none) ∨
    ∃ i p, paths.findIdx? (fun path => path.target == target) = some i ∧ paths[i]? = some p ∧
      RelayDownstreamForwarder.findPath (paths.map fun p => p.toRelayForwardPath) target
        = some p.toRelayForwardPath ∧
      ∀ promoted, RelayDownstreamForwarder.swapPromoted target promoted
          (paths.map fun p => p.toRelayForwardPath)
        = (paths.set i { p with promoted }).map fun p => p.toRelayForwardPath := by
  induction paths with
  | nil => exact .inl ⟨rfl, rfl⟩
  | cons path paths ih =>
      unfold RelayDownstreamForwarder.findPath at ih ⊢
      rw [List.findIdx?_cons, List.map_cons, List.find?_cons]
      cases hpath : path.target == target with
      | true =>
          refine .inr ⟨0, path, rfl, rfl, rfl, ?_⟩
          intro promoted
          unfold RelayDownstreamForwarder.swapPromoted
          rw [if_pos hpath]
          rfl
      | false =>
          rcases ih with ⟨hnone, hfind⟩ | ⟨i, p, hsome, hi, hfind, hswap⟩
          · exact .inl ⟨by rw [hnone]; rfl, hfind⟩
          · refine .inr ⟨i + 1, p, by rw [hsome]; rfl, hi, hfind, ?_⟩
            intro promoted
            unfold RelayDownstreamForwarder.swapPromoted
            rw [if_neg (by rw [hpath]; decide), hswap]
            rfl

omit [DecidableEq κ] in
theorem ofNat_apply (values : ForwardCounter → Nat) (counter k : ForwardCounter) :
    UInt64.ofNat (Update.apply values (.add counter 1) k)
      = UInt64.ofNat (values k) + if counter = k then 1 else 0 := by
  by_cases hk : counter = k
  · subst hk
    rw [ofNat_count, if_pos rfl]
  · rw [count_of_ne _ hk, if_neg hk]
    exact (UInt64.add_zero _).symm

/-- **Alone, the two stages of a failover command are `applyFailoverMode`**: the same paths and
counters, and the warm datagrams are drained exactly if the caller goes on to replay them. -/
theorem apply_alone (s : DataPlane κ) (target : SocketAddr) (mode : FailoverForwardMode)
    (leaseExpired : Bool) (env : ForwardEnv) :
    let found := s.alone (.apply target mode leaseExpired) env
    let done := found.2.alone found.1 env
    let applied := s.asListener.applyFailoverMode target mode leaseExpired (.ofNat env.unixMs)
    done.2.asListener = applied.2 ∧
      (done.1 = .drain target ↔ applied.1 = some true ∧ leaseExpired = false) := by
  unfold RelayDownstreamForwarder.applyFailoverMode
  rcases findPath_asListener s.paths target with ⟨hnone, hfind⟩ | ⟨i, p, hsome, hi, hfind, hswap⟩
  · rw [show RelayDownstreamForwarder.findPath s.asListener.paths target = none from hfind]
    simp [alone, advance, findPath, hnone, note, Note.ops, count, applyOp, asListener, ofNat_apply,
      RelayDownstreamForwarder.recordFailoverCommandRejected]
  · rw [show RelayDownstreamForwarder.findPath s.asListener.paths target = some _ from hfind]
    by_cases hrole : p.role = .repair
    · have hkeep : ∀ promoted, p.promoted = promoted →
          (s.paths.map fun p => p.toRelayForwardPath).set i ⟨p.target, .repair, promoted⟩
            = s.paths.map fun p => p.toRelayForwardPath := by
        intro promoted hsame
        subst hsame
        rw [← hrole]
        refine List.ext_getElem? fun j => ?_
        rw [List.getElem?_set]
        split
        case isFalse => rfl
        case isTrue hij =>
          subst hij
          rw [List.getElem?_map, hi, List.length_map,
            if_pos (List.getElem?_eq_some_iff.mp hi).1]
          rfl
      have hrepairOnly : (FailoverForwardMode.repairOnly == .sourceAndRepair) = false := rfl
      cases leaseExpired <;> cases mode <;> cases hpromoted : p.promoted <;>
        simp [alone, advance, findPath, hsome, hi, hrole, hpromoted, setPath, note, Note.ops, count,
          applyOp, asListener, ofNat_apply, hswap, RelayDownstreamForwarder.recordChange,
          hrepairOnly, hkeep _ hpromoted]
    · simp [alone, advance, findPath, hsome, hi, hrole, note, Note.ops, count, applyOp, asListener,
        ofNat_apply, RelayDownstreamForwarder.recordFailoverCommandRejected]

end DataPlane

end AvMesh.Failover
