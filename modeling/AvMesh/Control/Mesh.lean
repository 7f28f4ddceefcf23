/-
  AvMesh.Control.Mesh
  ───────────────────
  **CONTROL COMMANDS ACROSS THE MESH.**

  A command enters the mesh at one node (`execute_control`, src/main.rs).  The
  node selects the target nodes from its telemetry, applies the command to
  itself if it is a target, and publishes an envelope.  Another node that
  receives the envelope (`ingest_control_payload`) applies it if it is a target.

      recorded ─ apply_control_locally ─▶ applied
               ─ ProvisionExecutor::close, at the origin ─▶ closed
               ─ ControlDispatch::publish, at the origin ─▶ published
               ─ ControlPlane::replace ─▶ executed
               ─ ControlPlane::replace, at a receiver ─▶ finished

  Each arrow is a step of one run, and a run of the mesh is any sequence of the
  steps of its runs.  An envelope stays on the network: it may be delivered
  late, many times, never, to any node, and in any order.

    • `Justified`   — an effect is one its own run is entitled to,
    • `Booked`      — each effect happened once, and just when its run passed
                      the point of it: the invariant,
    • `Ordered`     — what the selected targets of a command mean.

  Main results: `control_mesh_attribution`, `control_mesh_once`.
-/
import AvMesh.Control.Log
import AvMesh.Lib.SortedRuns
import Mathlib.Data.List.Perm.Subperm
import Mathlib.Data.String.Basic

namespace AvMesh.Control

open AvMesh.Lib

/-! ## §1. Targets. -/

/-- What the control functions read of a `MeshNode`. -/
structure NodeIdentity where
  nodeId : String
  region : String
  deriving Repr, DecidableEq

structure ControlEnvelope where
  id : Nat
  originNodeId : String
  kind : ControlKind
  request : ControlRequest
  targetNodeIds : List String
  deriving DecidableEq

def controlTargetsLocal (node : NodeIdentity) (request : ControlRequest)
    (targetNodeIds : List String) : Bool :=
  if !targetNodeIds.isEmpty then targetNodeIds.any fun nodeId => nodeId = node.nodeId
  else
    match request.nodeId with
    | some nodeId => nodeId = node.nodeId
    | none =>
        match request.region with
        | some region => region = node.region
        | none => true

/-- `selected_control_target_node_ids`, on the nodes of the snapshots telemetry has. -/
def selectedControlTargetNodeIds (snapshots : List NodeIdentity) (kind : ControlKind)
    (request : ControlRequest) : List String :=
  if kind = .provisionNode then []
  else
    match request.nodeId with
    | some nodeId => [nodeId]
    | none =>
        match request.region with
        | none => []
        | some region =>
            sortedFirst id (fun a b : String => decide (a ≤ b))
              ((snapshots.filter fun node => node.region = region).map NodeIdentity.nodeId)

/-- The nodes a command is for, when the issuing node knows `snapshots`. -/
def Ordered (snapshots : List NodeIdentity) (request : ControlRequest) (node : NodeIdentity) :
    Prop :=
  match request.nodeId, request.region with
  | some nodeId, _ => nodeId = node.nodeId
  | none, none => True
  | none, some region =>
      (∃ known ∈ snapshots, known.region = region ∧ known.nodeId = node.nodeId) ∨
        ((∀ known ∈ snapshots, known.region ≠ region) ∧ region = node.region)

theorem sortsBy_id : SortsBy (id : String → String) fun a b => decide (a ≤ b) where
  total a b := by
    rw [Bool.or_eq_true, decide_eq_true_iff, decide_eq_true_iff]
    exact le_total a b
  trans a b c hab hbc := by
    rw [decide_eq_true_iff] at hab hbc ⊢
    exact le_trans hab hbc
  key_le a b hab := of_decide_eq_true hab

theorem mem_sortedFirst_id {ids : List String} {nodeId : String} :
    nodeId ∈ sortedFirst id (fun a b : String => decide (a ≤ b)) ids ↔ nodeId ∈ ids := by
  constructor
  · exact mem_of_mem_sortedFirst
  · intro hmem
    obtain ⟨kept, hkept, hsame, _⟩ := exists_mem_sortedFirst sortsBy_id hmem
    rwa [show kept = nodeId from hsame] at hkept

theorem controlTargetsLocal_listed {node : NodeIdentity} {request : ControlRequest}
    {targetNodeIds : List String} (h : targetNodeIds ≠ []) :
    controlTargetsLocal node request targetNodeIds = true ↔ node.nodeId ∈ targetNodeIds := by
  unfold controlTargetsLocal
  rw [if_pos (by simpa using h), List.any_eq_true]
  simp

/-- The nodes that are selected by a region. -/
theorem mem_selected_region {snapshots : List NodeIdentity} {kind : ControlKind}
    {request : ControlRequest} {region nodeId : String} (hkind : kind ≠ .provisionNode)
    (hnode : request.nodeId = none) (hregion : request.region = some region) :
    nodeId ∈ selectedControlTargetNodeIds snapshots kind request ↔
      ∃ known ∈ snapshots, known.region = region ∧ known.nodeId = nodeId := by
  unfold selectedControlTargetNodeIds
  rw [if_neg hkind, hnode, hregion]
  dsimp only
  rw [mem_sortedFirst_id, List.mem_map]
  simp only [List.mem_filter, decide_eq_true_eq, and_assoc]

/-- An envelope names each of its targets once, in order. -/
theorem pairwise_selectedControlTargetNodeIds (snapshots : List NodeIdentity) (kind : ControlKind)
    (request : ControlRequest) :
    (selectedControlTargetNodeIds snapshots kind request).Pairwise (· < ·) := by
  unfold selectedControlTargetNodeIds
  split
  · exact List.Pairwise.nil
  · cases request.nodeId with
    | some nodeId => exact List.pairwise_singleton _ nodeId
    | none =>
        cases request.region with
        | none => exact List.Pairwise.nil
        | some region => exact pairwise_sortedFirst sortsBy_id _

/-- **The selected targets** are the nodes the command is for. -/
theorem controlTargetsLocal_selected (snapshots : List NodeIdentity) {kind : ControlKind}
    (hkind : kind ≠ .provisionNode) (request : ControlRequest) (node : NodeIdentity) :
    controlTargetsLocal node request (selectedControlTargetNodeIds snapshots kind request) = true
      ↔ Ordered snapshots request node := by
  unfold Ordered
  cases hnode : request.nodeId with
  | some nodeId =>
      have hselected : selectedControlTargetNodeIds snapshots kind request = [nodeId] := by
        unfold selectedControlTargetNodeIds
        rw [if_neg hkind, hnode]
      rw [hselected, controlTargetsLocal_listed (List.cons_ne_nil _ _), List.mem_singleton]
      exact eq_comm
  | none =>
      cases hregion : request.region with
      | none => simp [selectedControlTargetNodeIds, controlTargetsLocal, hkind, hnode, hregion]
      | some region =>
          have hmem := fun nodeId =>
            @mem_selected_region snapshots kind request region nodeId hkind hnode hregion
          dsimp only
          cases hselected : selectedControlTargetNodeIds snapshots kind request with
          | nil =>
              -- no known node is in the region: the receiver compares its own
              have hunknown : ∀ known ∈ snapshots, known.region ≠ region := by
                intro known hknown hin
                have hlisted := (hmem known.nodeId).mpr ⟨known, hknown, hin, rfl⟩
                rw [hselected] at hlisted
                cases hlisted
              have hlocal : controlTargetsLocal node request [] = decide (region = node.region) := by
                simp [controlTargetsLocal, hnode, hregion]
              rw [hlocal, decide_eq_true_iff]
              constructor
              · intro hsame
                exact .inr ⟨hunknown, hsame⟩
              · intro hfor
                rcases hfor with ⟨known, hknown, hin, _⟩ | ⟨_, hsame⟩
                · exact absurd hin (hunknown known hknown)
                · exact hsame
          | cons first rest =>
              rw [controlTargetsLocal_listed (List.cons_ne_nil _ _), ← hselected, hmem]
              constructor
              · intro hknown
                exact .inl hknown
              · intro hfor
                rcases hfor with hknown | ⟨hunknown, _⟩
                · exact hknown
                · -- the first target is a node of the region
                  have hfirst : first ∈ selectedControlTargetNodeIds snapshots kind request := by
                    rw [hselected]
                    exact List.mem_cons_self
                  obtain ⟨known, hknown, hin, _⟩ := (hmem first).mp hfirst
                  exact absurd hin (hunknown known hknown)

/-! ## §2. The steps of one run. -/

/-- What a run does outside the log. -/
inductive ControlAct where
  /-- `request_replica_for_stream`. -/
  | warm (streamId : UInt64) (region : Option String)
  /-- `NodeLifecycle::set_draining(true)`. -/
  | drain
  /-- `ProvisionExecutor::run`. -/
  | provision
  /-- `ProvisionExecutor::close`. -/
  | closeBackend
  deriving Repr, DecidableEq

/-- `apply_control_locally`: its status, and what it does.  `executor` is the status the
provision executor returns. -/
def applyControlLocally (node : NodeIdentity) (kind : ControlKind) (request : ControlRequest)
    (originatedLocally : Bool) (targetNodeIds : List String) (executor : String) :
    String × Option ControlAct :=
  if kind ≠ .provisionNode ∧ controlTargetsLocal node request targetNodeIds = false then
    ("local skipped: target does not match", none)
  else
    match kind with
    | .warmStream =>
        match request.streamId with
        | none => ("local warm skipped: missing stream id", none)
        | some streamId => ("local warm requested", some (.warm streamId request.region))
    | .closeNode => ("local close requested: draining", some .drain)
    | .provisionNode =>
        if originatedLocally then (executor, some .provision)
        else ("remote provision noted: executor only runs at command origin", none)
    | .replicaRequest => ("local replica request command ignored", none)

/-- How `ControlDispatch::publish` ends. -/
inductive PublishOutcome where
  | published
  | noPublisher
  | failed (error : String)
  deriving Repr, DecidableEq

def publishStatus (targetNodeIds : List String) : PublishOutcome → String
  | .published =>
      if targetNodeIds.isEmpty then "published AVMC control"
      else "published AVMC control to " ++ ",".intercalate targetNodeIds
  | .noPublisher => "no tcp-changes control publisher"
  | .failed error => "control publish failed: " ++ error

/-- Where a run of `execute_control_internal_with_targets` is. -/
inductive ControlPoint where
  | recorded
  | applied
  | closed
  | published
  | executed
  | finished
  deriving Repr, DecidableEq

def ControlPoint.rank : ControlPoint → Nat
  | .recorded => 0
  | .applied => 1
  | .closed => 2
  | .published => 3
  | .executed => 4
  | .finished => 5

/-- A run; `received` is the envelope of a run of `ingest_control_payload`. -/
structure ControlRun (ν : Type*) where
  node : ν
  kind : ControlKind
  request : ControlRequest
  targetNodeIds : List String
  received : Option ControlEnvelope
  command : ControlCommand
  statuses : List String
  point : ControlPoint

/-- What the environment answers a step. -/
structure StepAnswer where
  executor : String
  publish : PublishOutcome

/-- What a step of a run does. -/
structure StepEffect (ν : Type*) where
  run : ControlRun ν
  act : Option ControlAct := none
  envelope : Option ControlEnvelope := none
  replaced : Option ControlCommand := none

namespace ControlRun

variable {ν : Type*}

/-- The flag `dispatch`. -/
def dispatch (r : ControlRun ν) : Bool := r.received.isNone

def envelope (r : ControlRun ν) (node : NodeIdentity) : ControlEnvelope where
  id := r.command.id
  originNodeId := node.nodeId
  kind := r.kind
  request := r.request
  targetNodeIds := r.targetNodeIds

/-- The next step of a run at `node`. -/
def next (node : NodeIdentity) (answer : StepAnswer) (r : ControlRun ν) : StepEffect ν :=
  match r.point with
  | .recorded =>
      let (status, act) := applyControlLocally node r.kind r.request r.dispatch r.targetNodeIds
        answer.executor
      { run := { r with statuses := r.statuses ++ [status], point := .applied }, act }
  | .applied =>
      if r.dispatch ∧ r.kind = .closeNode ∧ r.request.nodeId.isSome then
        { run := { r with statuses := r.statuses ++ [answer.executor], point := .closed }
          act := some .closeBackend }
      else { run := { r with point := .closed } }
  | .closed =>
      if r.dispatch then
        { run := { r with
            statuses := r.statuses ++ [publishStatus r.targetNodeIds answer.publish]
            point := .published }
          envelope := if answer.publish = .published then some (r.envelope node) else none }
      else { run := { r with point := .published } }
  | .published =>
      let command := { r.command with status := "; ".intercalate r.statuses }
      { run := { r with command, point := .executed }, replaced := some command }
  | .executed =>
      match r.received with
      | none => { run := { r with point := .finished } }
      | some envelope =>
          let command := { r.command with
            status := "received from " ++ envelope.originNodeId ++ " command "
              ++ toString envelope.id ++ "; " ++ r.command.status }
          { run := { r with command, point := .finished }, replaced := some command }
  | .finished => { run := r }

end ControlRun

/-! ## §3. The mesh. -/

/-- All nodes, the runs that have begun, the envelopes on the network with the runs that
published them, and what the runs did. -/
structure ControlMesh (ν : Type*) where
  control : ν → ControlPlane := fun _ => ⟨[]⟩
  draining : ν → Bool := fun _ => false
  runs : Nat → Option (ControlRun ν) := fun _ => none
  envelopes : List (Nat × ControlEnvelope) := []
  acts : List (Nat × ControlAct) := []

inductive MeshOp (ν : Type*) where
  /-- `execute_control` selects the targets and records the command. -/
  | issue (run : Nat) (node : ν) (kind : ControlKind) (request : ControlRequest)
      (snapshots : List NodeIdentity) (idMs createdMs : Nat)
  /-- `ingest_control_payload` reads an envelope and records its command. -/
  | receive (run : Nat) (node : ν) (message : Nat) (idMs createdMs : Nat)
  /-- The next step of a run. -/
  | advance (run : Nat) (answer : StepAnswer)

namespace ControlMesh

variable {ν : Type*} [DecidableEq ν] (ident : ν → NodeIdentity)

/-- A run records its command. -/
def begin (mesh : ControlMesh ν) (run : Nat) (node : ν) (kind : ControlKind)
    (request : ControlRequest) (targetNodeIds : List String) (received : Option ControlEnvelope)
    (idMs createdMs : Nat) : ControlMesh ν :=
  let recorded := (mesh.control node).record kind request idMs createdMs
  { mesh with
    control := Function.update mesh.control node recorded.2
    runs := Function.update mesh.runs run (some
      { node, kind, request, targetNodeIds, received, command := recorded.1, statuses := []
        point := .recorded }) }

/-- A step of a run, done to the mesh. -/
def perform (mesh : ControlMesh ν) (run : Nat) (node : ν) (effect : StepEffect ν) :
    ControlMesh ν where
  control :=
    match effect.replaced with
    | none => mesh.control
    | some command => Function.update mesh.control node ((mesh.control node).replace command)
  draining :=
    if effect.act = some .drain then Function.update mesh.draining node true else mesh.draining
  runs := Function.update mesh.runs run (some effect.run)
  envelopes := mesh.envelopes ++ effect.envelope.toList.map fun envelope => (run, envelope)
  acts := mesh.acts ++ effect.act.toList.map fun act => (run, act)

/-- A name that is in use begins no second run. -/
def step (mesh : ControlMesh ν) : MeshOp ν → Unit × ControlMesh ν
  | .issue run node kind request snapshots idMs createdMs =>
      if (mesh.runs run).isSome then ((), mesh)
      else
        ((), mesh.begin run node kind request
          (selectedControlTargetNodeIds snapshots kind request) none idMs createdMs)
  | .receive run node message idMs createdMs =>
      match mesh.envelopes[message]? with
      | none => ((), mesh)
      | some (_, envelope) =>
          if (mesh.runs run).isSome ∨ envelope.originNodeId = (ident node).nodeId
              ∨ controlTargetsLocal (ident node) envelope.request envelope.targetNodeIds = false
          then ((), mesh)
          else
            ((), mesh.begin run node envelope.kind envelope.request envelope.targetNodeIds
              (some envelope) idMs createdMs)
  | .advance run answer =>
      match mesh.runs run with
      | none => ((), mesh)
      | some r => ((), mesh.perform run r.node (r.next (ident r.node) answer))

abbrev after (ops : List (MeshOp ν)) : ControlMesh ν := exec (step ident) {} ops

end ControlMesh

/-! ## §4. One step. -/

/-- The point of a run that is past an effect. -/
def ControlAct.rank : ControlAct → Nat
  | .closeBackend => 1
  | _ => 0

section Runs

variable {ν : Type*} {node : NodeIdentity} {r r' : ControlRun ν}

/-- The effects a run at `node` is entitled to: the executor runs at the origin, the others
need a target. -/
def Justified (node : NodeIdentity) (r : ControlRun ν) : ControlAct → Prop
  | .warm streamId region =>
      r.kind = .warmStream ∧ controlTargetsLocal node r.request r.targetNodeIds = true ∧
        r.request.streamId = some streamId ∧ r.request.region = region
  | .drain =>
      r.kind = .closeNode ∧ controlTargetsLocal node r.request r.targetNodeIds = true
  | .provision => r.kind = .provisionNode ∧ r.received = none
  | .closeBackend => r.kind = .closeNode ∧ r.received = none ∧ r.request.nodeId.isSome = true

/-- The same run, later. -/
structure Continues (r r' : ControlRun ν) : Prop where
  node : r'.node = r.node
  kind : r'.kind = r.kind
  request : r'.request = r.request
  targetNodeIds : r'.targetNodeIds = r.targetNodeIds
  received : r'.received = r.received
  id : r'.command.id = r.command.id

theorem Continues.justified (h : Continues r r') (act : ControlAct) :
    Justified node r' act ↔ Justified node r act := by
  cases act with
  | warm streamId region =>
      show _ ∧ _ ∧ _ ∧ _ ↔ _
      rw [h.kind, h.request, h.targetNodeIds]
      exact Iff.rfl
  | drain =>
      show _ ∧ _ ↔ _
      rw [h.kind, h.request, h.targetNodeIds]
      exact Iff.rfl
  | provision =>
      show _ ∧ _ ↔ _
      rw [h.kind, h.received]
      exact Iff.rfl
  | closeBackend =>
      show _ ∧ _ ∧ _ ↔ _
      rw [h.kind, h.received, h.request]
      exact Iff.rfl

theorem Continues.envelope (h : Continues r r') : r'.envelope node = r.envelope node := by
  unfold ControlRun.envelope
  rw [h.id, h.kind, h.request, h.targetNodeIds]

theorem applyControlLocally_act (executor : String) (act : ControlAct) :
    (applyControlLocally node r.kind r.request r.dispatch r.targetNodeIds executor).2 = some act
      ↔ Justified node r act ∧ act.rank = 0 := by
  unfold applyControlLocally ControlRun.dispatch
  cases hlocal : controlTargetsLocal node r.request r.targetNodeIds with
  | false =>
      cases hkind : r.kind with
      | provisionNode =>
          cases hreceived : r.received <;> cases act <;>
            simp [Justified, ControlAct.rank, hkind, hlocal, hreceived]
      | closeNode => cases act <;> simp [Justified, ControlAct.rank, hkind, hlocal]
      | warmStream => cases act <;> simp [Justified, ControlAct.rank, hkind, hlocal]
      | replicaRequest => cases act <;> simp [Justified, ControlAct.rank, hkind, hlocal]
  | true =>
      cases hkind : r.kind with
      | provisionNode =>
          cases hreceived : r.received <;> cases act <;>
            simp [Justified, ControlAct.rank, hkind, hlocal, hreceived]
      | closeNode => cases act <;> simp [Justified, ControlAct.rank, hkind, hlocal]
      | warmStream =>
          cases hstream : r.request.streamId <;> cases act <;>
            simp [Justified, ControlAct.rank, hkind, hlocal, hstream]
      | replicaRequest => cases act <;> simp [Justified, ControlAct.rank, hkind, hlocal]

/-- **What a step of a run does.** -/
theorem next_spec (answer : StepAnswer) (r : ControlRun ν) :
    Continues r (r.next node answer).run ∧
    (r.next node answer).run.point.rank = min (r.point.rank + 1) 5 ∧
    (∀ act, (r.next node answer).act = some act ↔ Justified node r act ∧ act.rank = r.point.rank) ∧
    (∀ envelope, (r.next node answer).envelope = some envelope →
      r.received = none ∧ r.point = .closed ∧ envelope = r.envelope node) := by
  have hlow : ∀ act : ControlAct, act.rank ≤ 1 := by
    intro act
    cases act <;> simp [ControlAct.rank]
  -- past `closed` no effect is left
  have hlate : 2 ≤ r.point.rank → ∀ act,
      (none : Option ControlAct) = some act ↔ Justified node r act ∧ act.rank = r.point.rank := by
    intro hrank act
    refine ⟨nofun, fun hact => ?_⟩
    have hle := hlow act
    omega
  cases hpoint : r.point with
  | recorded =>
      have hact : ∀ act : ControlAct,
          (applyControlLocally node r.kind r.request r.dispatch r.targetNodeIds answer.executor).2
            = some act ↔ Justified node r act ∧ act.rank = 0 :=
        applyControlLocally_act answer.executor
      unfold ControlRun.next
      rw [hpoint]
      exact ⟨⟨rfl, rfl, rfl, rfl, rfl, rfl⟩, rfl, hact, nofun⟩
  | applied =>
      unfold ControlRun.next ControlRun.dispatch
      rw [hpoint]
      by_cases hclose :
          r.received.isNone = true ∧ r.kind = .closeNode ∧ r.request.nodeId.isSome = true
      · simp only [if_pos hclose]
        refine ⟨⟨rfl, rfl, rfl, rfl, rfl, rfl⟩, rfl, fun act => ?_, nofun⟩
        obtain ⟨hreceived, hkind, hnode⟩ := hclose
        cases act <;>
          simp [Justified, ControlAct.rank, ControlPoint.rank, hkind, hnode,
            Option.isNone_iff_eq_none.mp hreceived]
      · simp only [if_neg hclose]
        refine ⟨⟨rfl, rfl, rfl, rfl, rfl, rfl⟩, rfl, fun act => ⟨nofun, fun hact => ?_⟩, nofun⟩
        obtain ⟨hjustified, hrank⟩ := hact
        cases act with
        | closeBackend =>
            obtain ⟨hkind, hreceived, hnode⟩ := hjustified
            exact absurd ⟨Option.isNone_iff_eq_none.mpr hreceived, hkind, hnode⟩ hclose
        | warm streamId region => cases hrank
        | drain => cases hrank
        | provision => cases hrank
  | closed =>
      rw [hpoint] at hlate
      unfold ControlRun.next ControlRun.dispatch
      rw [hpoint]
      cases hreceived : r.received with
      | none =>
          refine ⟨⟨rfl, rfl, rfl, rfl, hreceived.symm ▸ rfl, rfl⟩, rfl, hlate (by decide), ?_⟩
          intro envelope henvelope
          simp only [Option.isNone_none, if_true] at henvelope
          split at henvelope
          · exact ⟨rfl, rfl, (Option.some.inj henvelope).symm⟩
          · cases henvelope
      | some received =>
          exact ⟨⟨rfl, rfl, rfl, rfl, hreceived.symm ▸ rfl, rfl⟩, rfl, hlate (by decide), nofun⟩
  | published =>
      rw [hpoint] at hlate
      unfold ControlRun.next
      rw [hpoint]
      exact ⟨⟨rfl, rfl, rfl, rfl, rfl, rfl⟩, rfl, hlate (by decide), nofun⟩
  | executed =>
      rw [hpoint] at hlate
      unfold ControlRun.next
      rw [hpoint]
      cases hreceived : r.received with
      | none =>
          exact ⟨⟨rfl, rfl, rfl, rfl, hreceived.symm ▸ rfl, rfl⟩, rfl, hlate (by decide), nofun⟩
      | some received =>
          exact ⟨⟨rfl, rfl, rfl, rfl, hreceived.symm ▸ rfl, rfl⟩, rfl, hlate (by decide), nofun⟩
  | finished =>
      have hrank : r.point.rank = 5 := by rw [hpoint]; rfl
      unfold ControlRun.next
      rw [hpoint] at hlate ⊢
      exact ⟨⟨rfl, rfl, rfl, rfl, rfl, rfl⟩, hrank, hlate (by decide), nofun⟩

end Runs

/-! ## §5. What has happened so far. -/

namespace ControlMesh

variable {ν : Type*} {ident : ν → NodeIdentity} {mesh : ControlMesh ν} {run : Nat}
  {r : ControlRun ν}

/-- The envelope that a run has read: from another node, for this one, and on the network. -/
structure Read (ident : ν → NodeIdentity) (mesh : ControlMesh ν) (r : ControlRun ν)
    (envelope : ControlEnvelope) : Prop where
  other : envelope.originNodeId ≠ (ident r.node).nodeId
  onNetwork : ∃ publisher, (publisher, envelope) ∈ mesh.envelopes
  kind : r.kind = envelope.kind
  request : r.request = envelope.request
  targetNodeIds : r.targetNodeIds = envelope.targetNodeIds
  target : controlTargetsLocal (ident r.node) r.request r.targetNodeIds = true

/-- **The books of the mesh.**  Each effect happened once, just when its run passed the point of
it, and was justified; a run published at most one envelope, its own, and no received one. -/
structure Booked (ident : ν → NodeIdentity) (mesh : ControlMesh ν) : Prop where
  received : ∀ run r envelope, mesh.runs run = some r → r.received = some envelope →
    Read ident mesh r envelope
  acts : ∀ run act, (run, act) ∈ mesh.acts ↔
    ∃ r, mesh.runs run = some r ∧ Justified (ident r.node) r act ∧ act.rank < r.point.rank
  actsOnce : mesh.acts.Nodup
  envelopes : ∀ run envelope, (run, envelope) ∈ mesh.envelopes →
    ∃ r, mesh.runs run = some r ∧ r.received = none ∧
      envelope = r.envelope (ident r.node) ∧ 2 < r.point.rank
  envelopesOnce : (mesh.envelopes.map Prod.fst).Nodup
  draining : ∀ node, mesh.draining node = true ↔
    ∃ run r, mesh.runs run = some r ∧ r.node = node ∧ (run, .drain) ∈ mesh.acts

theorem booked_start : Booked ident ({} : ControlMesh ν) := by
  constructor
  case received =>
    intro run r envelope hr
    cases hr
  case acts =>
    intro run act
    constructor
    · intro hact
      cases hact
    · intro hact
      obtain ⟨r, hr, _⟩ := hact
      cases hr
  case actsOnce => exact List.nodup_nil
  case envelopes =>
    intro run envelope henvelope
    cases henvelope
  case envelopesOnce => exact List.nodup_nil
  case draining =>
    intro node
    constructor
    · intro hdrained
      cases hdrained
    · intro hdrained
      obtain ⟨_, r, hr, _⟩ := hdrained
      cases hr

/-- A run that begins has done nothing yet. -/
theorem Booked.begin (h : Booked ident mesh) (hfree : mesh.runs run = none) {mesh' : ControlMesh ν}
    (hruns : mesh'.runs = Function.update mesh.runs run (some r)) (hpoint : r.point = .recorded)
    (hdraining : mesh'.draining = mesh.draining) (hacts : mesh'.acts = mesh.acts)
    (henvelopes : mesh'.envelopes = mesh.envelopes)
    (hread : ∀ envelope, r.received = some envelope → Read ident mesh r envelope) :
    Booked ident mesh' := by
  -- the runs that were there keep their names
  have hnew : ∀ {other r'}, mesh'.runs other = some r' →
      mesh.runs other = some r' ∨ (other = run ∧ r' = r) := by
    intro other r' hr'
    rw [hruns] at hr'
    by_cases hother : other = run
    · rw [hother, Function.update_self] at hr'
      exact .inr ⟨hother, (Option.some.inj hr').symm⟩
    · rw [Function.update_of_ne hother] at hr'
      exact .inl hr'
  have hkept : ∀ {other r'}, mesh.runs other = some r' → mesh'.runs other = some r' := by
    intro other r' hr'
    have hother : other ≠ run := by
      intro hsame
      rw [hsame, hfree] at hr'
      cases hr'
    rw [hruns, Function.update_of_ne hother, hr']
  have hsame : ∀ other act, (other, act) ∈ mesh'.acts ↔ (other, act) ∈ mesh.acts := by
    intro other act
    rw [hacts]
  constructor
  case received =>
    intro other r' envelope hr' henvelope
    have hold : Read ident mesh r' envelope := by
      rcases hnew hr' with hold | ⟨_, hself⟩
      · exact h.received other r' envelope hold henvelope
      · subst hself
        exact hread envelope henvelope
    obtain ⟨hother, hon, hkind, hrequest, htargets, htarget⟩ := hold
    exact ⟨hother, henvelopes ▸ hon, hkind, hrequest, htargets, htarget⟩
  case acts =>
    intro other act
    rw [hsame, h.acts]
    constructor
    · intro hact
      obtain ⟨r', hr', hrest⟩ := hact
      exact ⟨r', hkept hr', hrest⟩
    · intro hact
      obtain ⟨r', hr', hjustified, hrank⟩ := hact
      rcases hnew hr' with hold | ⟨_, hself⟩
      · exact ⟨r', hold, hjustified, hrank⟩
      · rw [hself, hpoint] at hrank
        exact absurd hrank (Nat.not_lt_zero _)
  case actsOnce =>
    rw [hacts]
    exact h.actsOnce
  case envelopes =>
    intro other envelope hmem
    rw [henvelopes] at hmem
    obtain ⟨r', hr', hrest⟩ := h.envelopes other envelope hmem
    exact ⟨r', hkept hr', hrest⟩
  case envelopesOnce =>
    rw [henvelopes]
    exact h.envelopesOnce
  case draining =>
    intro n
    rw [hdraining, h.draining]
    constructor
    · intro hdrained
      obtain ⟨other, r', hr', hnode, hact⟩ := hdrained
      exact ⟨other, r', hkept hr', hnode, (hsame other .drain).mpr hact⟩
    · intro hdrained
      obtain ⟨other, r', hr', hnode, hact⟩ := hdrained
      rw [hsame] at hact
      obtain ⟨old, hold, _⟩ := (h.acts other .drain).mp hact
      -- the run that drained the node was there before
      rw [hkept hold] at hr'
      cases hr'
      exact ⟨other, _, hold, hnode, hact⟩

variable [DecidableEq ν]

/-- A step of a run. -/
theorem Booked.perform (h : Booked ident mesh) (hr : mesh.runs run = some r)
    (answer : StepAnswer) :
    Booked ident (mesh.perform run r.node (r.next (ident r.node) answer)) := by
  obtain ⟨hsame, hrank, hact, henvelope⟩ := @next_spec _ (ident r.node) answer r
  generalize r.next (ident r.node) answer = effect at hsame hrank hact henvelope
  have hpoint : r.point.rank ≤ 5 := by cases r.point <;> decide
  have hlow : ∀ act : ControlAct, act.rank ≤ 1 := by
    intro act
    cases act <;> simp [ControlAct.rank]
  have hself : (mesh.perform run r.node effect).runs run = some effect.run := by
    show Function.update mesh.runs run _ run = _
    rw [Function.update_self]
  have hother : ∀ {other}, other ≠ run →
      (mesh.perform run r.node effect).runs other = mesh.runs other := by
    intro other hne
    show Function.update mesh.runs run _ other = _
    rw [Function.update_of_ne hne]
  -- what is added to the two lists is the step's own
  have hacts : ∀ other act, (other, act) ∈ (mesh.perform run r.node effect).acts ↔
      (other, act) ∈ mesh.acts ∨ (other = run ∧ effect.act = some act) := by
    intro other act
    show (other, act) ∈ mesh.acts ++ effect.act.toList.map _ ↔ _
    rw [List.mem_append]
    cases effect.act <;> simp [eq_comm]
  have hsent : ∀ other envelope, (other, envelope) ∈ (mesh.perform run r.node effect).envelopes ↔
      (other, envelope) ∈ mesh.envelopes ∨ (other = run ∧ effect.envelope = some envelope) := by
    intro other envelope
    show (other, envelope) ∈ mesh.envelopes ++ effect.envelope.toList.map _ ↔ _
    rw [List.mem_append]
    cases effect.envelope <;> simp [eq_comm]
  have hbooked : ∀ other act, (other, act) ∈ (mesh.perform run r.node effect).acts ↔
      ∃ r', (mesh.perform run r.node effect).runs other = some r' ∧
        Justified (ident r'.node) r' act ∧ act.rank < r'.point.rank := by
    intro other act
    rw [hacts, h.acts]
    by_cases hne : other = run
    · subst hne
      have hpast : act.rank < effect.run.point.rank ↔
          act.rank < r.point.rank ∨ act.rank = r.point.rank := by
        have hle := hlow act
        rw [hrank]
        omega
      constructor
      · intro hdone
        refine ⟨effect.run, hself, ?_⟩
        rw [hsame.node, hsame.justified, hpast]
        rcases hdone with ⟨r', hr', hjustified, hlt⟩ | ⟨_, hnow⟩
        · rw [hr] at hr'
          cases hr'
          exact ⟨hjustified, .inl hlt⟩
        · exact ⟨((hact act).mp hnow).1, .inr ((hact act).mp hnow).2⟩
      · intro hdone
        obtain ⟨r', hr', hjustified, hlt⟩ := hdone
        rw [hself] at hr'
        cases hr'
        rw [hsame.node, hsame.justified] at hjustified
        rcases hpast.mp hlt with hbefore | hnow
        · exact .inl ⟨r, hr, hjustified, hbefore⟩
        · exact .inr ⟨rfl, (hact act).mpr ⟨hjustified, hnow⟩⟩
    · rw [hother hne]
      simp [hne]
  constructor
  case received =>
    intro other r' envelope hr' hreceived
    have hold : ∃ old, mesh.runs other = some old ∧ Continues old r' := by
      by_cases hne : other = run
      · subst hne
        rw [hself] at hr'
        cases hr'
        exact ⟨r, hr, hsame⟩
      · rw [hother hne] at hr'
        exact ⟨r', hr', ⟨rfl, rfl, rfl, rfl, rfl, rfl⟩⟩
    obtain ⟨old, hold, hcont⟩ := hold
    obtain ⟨ho, ⟨publisher, hon⟩, hk, hq, ht, hl⟩ :=
      h.received other old envelope hold (hcont.received ▸ hreceived)
    constructor
    case other => rwa [hcont.node]
    case onNetwork => exact ⟨publisher, (hsent publisher envelope).mpr (.inl hon)⟩
    case kind => rw [hcont.kind, hk]
    case request => rw [hcont.request, hq]
    case targetNodeIds => rw [hcont.targetNodeIds, ht]
    case target => rwa [hcont.node, hcont.request, hcont.targetNodeIds]
  case acts => exact hbooked
  case actsOnce =>
    show (mesh.acts ++ effect.act.toList.map fun act => (run, act)).Nodup
    cases hnow : effect.act with
    | none =>
        rw [Option.toList_none, List.map_nil, List.append_nil]
        exact h.actsOnce
    | some act =>
        refine List.nodup_append.mpr ⟨h.actsOnce, List.nodup_singleton _, ?_⟩
        intro done hdone added hadded heq
        rw [List.mem_singleton.mp hadded] at heq
        -- its run was not yet past the point of the effect
        rw [heq] at hdone
        obtain ⟨r', hr', _, hlt⟩ := (h.acts run act).mp hdone
        rw [hr] at hr'
        cases hr'
        have hnow' := ((hact act).mp hnow).2
        omega
  case envelopes =>
    intro other envelope hmem
    rcases (hsent other envelope).mp hmem with hold | ⟨hrun, hnow⟩
    · obtain ⟨old, hr', hreceived, henv, hlt⟩ := h.envelopes other envelope hold
      by_cases hne : other = run
      · subst hne
        rw [hr] at hr'
        cases hr'
        refine ⟨effect.run, hself, hsame.received.trans hreceived, ?_, by rw [hrank]; omega⟩
        rw [hsame.node, hsame.envelope, henv]
      · exact ⟨old, (hother hne).trans hr', hreceived, henv, hlt⟩
    · obtain ⟨hreceived, hclosed, henv⟩ := henvelope envelope hnow
      subst hrun
      refine ⟨effect.run, hself, hsame.received.trans hreceived, ?_, ?_⟩
      · rw [hsame.node, hsame.envelope, henv]
      · rw [hrank, hclosed]
        decide
  case envelopesOnce =>
    show ((mesh.envelopes ++ effect.envelope.toList.map fun envelope => (run, envelope)).map
      Prod.fst).Nodup
    cases hnow : effect.envelope with
    | none =>
        rw [Option.toList_none, List.map_nil, List.append_nil]
        exact h.envelopesOnce
    | some envelope =>
        rw [List.map_append]
        refine List.nodup_append.mpr ⟨h.envelopesOnce, List.nodup_singleton _, ?_⟩
        intro done hdone added hadded heq
        rw [List.mem_singleton.mp hadded] at heq
        obtain ⟨entry, hentry, hfst⟩ := List.mem_map.mp hdone
        -- a run that has published is past the point where it would publish
        obtain ⟨r', hr', _, _, hlt⟩ := h.envelopes entry.1 entry.2 hentry
        rw [hfst.trans heq, hr] at hr'
        cases hr'
        rw [(henvelope envelope hnow).2.1] at hlt
        exact absurd hlt (by decide)
  case draining =>
    intro n
    have hdrains : (mesh.perform run r.node effect).draining n = true ↔
        mesh.draining n = true ∨ (n = r.node ∧ effect.act = some .drain) := by
      show (if effect.act = some .drain then Function.update mesh.draining r.node true
        else mesh.draining) n = true ↔ _
      by_cases hdrain : effect.act = some .drain
      · rw [if_pos hdrain]
        by_cases hn : n = r.node
        · subst hn
          simp [hdrain]
        · simp [hn]
      · rw [if_neg hdrain]
        simp [hdrain]
    rw [hdrains, h.draining]
    constructor
    · intro hdrained
      rcases hdrained with ⟨other, old, hold, hnode, hdone⟩ | ⟨hn, hnow⟩
      · by_cases hne : other = run
        · subst hne
          rw [hr] at hold
          cases hold
          exact ⟨other, effect.run, hself, hsame.node.trans hnode,
            (hacts other .drain).mpr (.inl hdone)⟩
        · exact ⟨other, old, (hother hne).trans hold, hnode, (hacts other .drain).mpr (.inl hdone)⟩
      · exact ⟨run, effect.run, hself, hsame.node.trans hn.symm,
          (hacts run .drain).mpr (.inr ⟨rfl, hnow⟩)⟩
    · intro hdrained
      obtain ⟨other, r', hr', hnode, hdone⟩ := hdrained
      rcases (hacts other .drain).mp hdone with hold | ⟨hrun, hnow⟩
      · by_cases hne : other = run
        · subst hne
          rw [hself] at hr'
          cases hr'
          exact .inl ⟨other, r, hr, hsame.node.symm.trans hnode, hold⟩
        · rw [hother hne] at hr'
          exact .inl ⟨other, r', hr', hnode, hold⟩
      · subst hrun
        rw [hself] at hr'
        cases hr'
        exact .inr ⟨hnode.symm.trans hsame.node, hnow⟩

theorem booked_step (h : Booked ident mesh) (op : MeshOp ν) :
    Booked ident (mesh.step ident op).2 := by
  cases op with
  | issue run node kind request snapshots idMs createdMs =>
      unfold step
      dsimp only
      split
      case isTrue => exact h
      case isFalse hused =>
        exact h.begin (Option.not_isSome_iff_eq_none.mp hused) rfl rfl rfl rfl rfl nofun
  | receive run node message idMs createdMs =>
      unfold step
      dsimp only
      cases hmessage : mesh.envelopes[message]? with
      | none => exact h
      | some entry =>
          obtain ⟨publisher, envelope⟩ := entry
          dsimp only
          split
          case isTrue => exact h
          case isFalse hskip =>
            obtain ⟨hused, hother, htarget⟩ : ¬ (mesh.runs run).isSome ∧
                envelope.originNodeId ≠ (ident node).nodeId ∧
                controlTargetsLocal (ident node) envelope.request envelope.targetNodeIds
                  ≠ false := by
              simpa only [not_or] using hskip
            refine h.begin (Option.not_isSome_iff_eq_none.mp hused) rfl rfl rfl rfl rfl ?_
            intro received hreceived
            cases hreceived
            exact ⟨hother, ⟨publisher, List.mem_of_getElem? hmessage⟩, rfl, rfl, rfl,
              Bool.eq_true_of_not_eq_false htarget⟩
  | advance run answer =>
      unfold step
      dsimp only
      cases hr : mesh.runs run with
      | none => exact h
      | some r => exact h.perform hr answer

theorem booked_after (ops : List (MeshOp ν)) : Booked ident (after ident ops) :=
  exec_invariant (step ident) (Booked ident) (fun _ op h => booked_step h op) ops booked_start

/-! ## §6. Where a command comes from. -/

/-- The command was given to the mesh at the node of its run. -/
def Issued (ops : List (MeshOp ν)) (run : Nat) (r : ControlRun ν) : Prop :=
  ∃ snapshots idMs createdMs, .issue run r.node r.kind r.request snapshots idMs createdMs ∈ ops ∧
    r.targetNodeIds = selectedControlTargetNodeIds snapshots r.kind r.request

omit [DecidableEq ν] in
theorem Issued.later {r' : ControlRun ν} {ops : List (MeshOp ν)} (h : Issued ops run r)
    (hlater : Continues r r') (op : MeshOp ν) : Issued (ops ++ [op]) run r' := by
  obtain ⟨snapshots, idMs, createdMs, hop, htargets⟩ := h
  refine ⟨snapshots, idMs, createdMs, List.mem_append_left _ ?_, ?_⟩
  · rwa [hlater.node, hlater.kind, hlater.request]
  · rw [hlater.targetNodeIds, hlater.kind, hlater.request, htargets]

omit [DecidableEq ν] in
theorem Continues.same (r : ControlRun ν) : Continues r r := ⟨rfl, rfl, rfl, rfl, rfl, rfl⟩

/-- The runs that are there after an operation: a new one, or one that was there. -/
theorem runs_step {op : MeshOp ν} {r' : ControlRun ν}
    (hr' : (mesh.step ident op).2.runs run = some r') :
    (∃ r, mesh.runs run = some r ∧ Continues r r') ∨
      (r'.received = none → Issued [op] run r') := by
  cases op with
  | issue name node kind request snapshots idMs createdMs =>
      unfold step at hr'
      dsimp only at hr'
      split at hr'
      case isTrue => exact .inl ⟨r', hr', Continues.same r'⟩
      case isFalse =>
        change Function.update mesh.runs name _ run = some r' at hr'
        by_cases hrun : run = name
        · subst hrun
          rw [Function.update_self] at hr'
          cases hr'
          exact .inr fun _ => ⟨snapshots, idMs, createdMs, List.mem_singleton_self _, rfl⟩
        · rw [Function.update_of_ne hrun] at hr'
          exact .inl ⟨r', hr', Continues.same r'⟩
  | receive name node message idMs createdMs =>
      unfold step at hr'
      dsimp only at hr'
      split at hr'
      case h_1 => exact .inl ⟨r', hr', Continues.same r'⟩
      case h_2 =>
        split at hr'
        case isTrue => exact .inl ⟨r', hr', Continues.same r'⟩
        case isFalse =>
          change Function.update mesh.runs name _ run = some r' at hr'
          by_cases hrun : run = name
          · subst hrun
            rw [Function.update_self] at hr'
            cases hr'
            exact .inr nofun
          · rw [Function.update_of_ne hrun] at hr'
            exact .inl ⟨r', hr', Continues.same r'⟩
  | advance name answer =>
      unfold step at hr'
      dsimp only at hr'
      split at hr'
      case h_1 => exact .inl ⟨r', hr', Continues.same r'⟩
      case h_2 r hr =>
        change Function.update mesh.runs name _ run = some r' at hr'
        by_cases hrun : run = name
        · subst hrun
          rw [Function.update_self] at hr'
          cases hr'
          exact .inl ⟨r, hr, (next_spec answer r).1⟩
        · rw [Function.update_of_ne hrun] at hr'
          exact .inl ⟨r', hr', Continues.same r'⟩

/-- A run that received nothing was issued. -/
theorem issued_after (ops : List (MeshOp ν)) :
    ∀ run r, (after ident ops).runs run = some r → r.received = none → Issued ops run r := by
  refine exec_history (step ident) (fun ops mesh => ∀ run r, mesh.runs run = some r →
    r.received = none → Issued ops run r) {} ?_ ?_ ops
  · intro run r hr
    cases hr
  · intro ops op ih run r' hr' hreceived
    rcases runs_step hr' with ⟨r, hr, hlater⟩ | hnew
    · exact (ih run r hr (hlater.received ▸ hreceived)).later hlater op
    · obtain ⟨snapshots, idMs, createdMs, hop, htargets⟩ := hnew hreceived
      exact ⟨snapshots, idMs, createdMs, List.mem_append_right _ hop, htargets⟩

/-- Where the command of a run comes from: it was issued at the node of the run, or at the node
whose envelope the run has read. -/
theorem exists_issued (ops : List (MeshOp ν)) (hr : (after ident ops).runs run = some r) :
    ∃ origin issuer snapshots idMs createdMs,
      .issue origin issuer r.kind r.request snapshots idMs createdMs ∈ ops ∧
      r.targetNodeIds = selectedControlTargetNodeIds snapshots r.kind r.request ∧
      ((r.received = none ∧ origin = run ∧ issuer = r.node) ∨
        ((ident issuer).nodeId ≠ (ident r.node).nodeId ∧
          ∃ envelope, r.received = some envelope ∧
            (origin, envelope) ∈ (after ident ops).envelopes)) := by
  cases hreceived : r.received with
  | none =>
      obtain ⟨snapshots, idMs, createdMs, hop, htargets⟩ := issued_after ops run r hr hreceived
      exact ⟨run, r.node, snapshots, idMs, createdMs, hop, htargets, .inl ⟨rfl, rfl, rfl⟩⟩
  | some envelope =>
      have hbooked : Booked ident (after ident ops) := booked_after ops
      have hread := hbooked.received run r envelope hr hreceived
      obtain ⟨origin, hon⟩ := hread.onNetwork
      obtain ⟨sender, hsender, hlocal, henvelope, _⟩ := hbooked.envelopes origin envelope hon
      obtain ⟨snapshots, idMs, createdMs, hop, htargets⟩ :=
        issued_after ops origin sender hsender hlocal
      -- the envelope carries the sender's command
      have hkind : r.kind = sender.kind := by rw [hread.kind, henvelope]; rfl
      have hrequest : r.request = sender.request := by rw [hread.request, henvelope]; rfl
      have hids : r.targetNodeIds = sender.targetNodeIds := by
        rw [hread.targetNodeIds, henvelope]
        rfl
      refine ⟨origin, sender.node, snapshots, idMs, createdMs, ?_, ?_, .inr ⟨?_, envelope, rfl, hon⟩⟩
      · rw [hkind, hrequest]
        exact hop
      · rw [hids, hkind, hrequest, htargets]
      · have hother := hread.other
        rw [henvelope] at hother
        exact hother

/-- **Every effect goes back to an order.**  What a node did, and that it drains, goes back to a
command that somebody gave the mesh.  It warms a stream or drains only when the command was for
it, and only the node where the command was given runs the executor. -/
theorem control_mesh_attribution (ident : ν → NodeIdentity) (ops : List (MeshOp ν)) :
    (∀ node, (after ident ops).draining node = true ↔
      ∃ run r, (after ident ops).runs run = some r ∧ r.node = node ∧
        (run, .drain) ∈ (after ident ops).acts) ∧
    ∀ run act, (run, act) ∈ (after ident ops).acts →
      ∃ r origin issuer snapshots idMs createdMs, (after ident ops).runs run = some r ∧
        .issue origin issuer r.kind r.request snapshots idMs createdMs ∈ ops ∧
        (issuer = r.node ∨
          ((ident issuer).nodeId ≠ (ident r.node).nodeId ∧
            ∃ envelope, (origin, envelope) ∈ (after ident ops).envelopes)) ∧
        match act with
        | .warm streamId region =>
            r.kind = .warmStream ∧ r.request.streamId = some streamId ∧ r.request.region = region ∧
              Ordered snapshots r.request (ident r.node)
        | .drain => r.kind = .closeNode ∧ Ordered snapshots r.request (ident r.node)
        | .provision => r.kind = .provisionNode ∧ issuer = r.node
        | .closeBackend => r.kind = .closeNode ∧ r.request.nodeId.isSome = true ∧ issuer = r.node := by
  have hbooked : Booked ident (after ident ops) := booked_after ops
  refine ⟨hbooked.draining, fun run act hact => ?_⟩
  obtain ⟨r, hr, hjustified, _⟩ := (hbooked.acts run act).mp hact
  obtain ⟨origin, issuer, snapshots, idMs, createdMs, hop, htargets, hfrom⟩ := exists_issued ops hr
  have hwhere : issuer = r.node ∨ ((ident issuer).nodeId ≠ (ident r.node).nodeId ∧
      ∃ envelope, (origin, envelope) ∈ (after ident ops).envelopes) := by
    rcases hfrom with ⟨_, _, hnode⟩ | ⟨hother, envelope, _, hon⟩
    · exact .inl hnode
    · exact .inr ⟨hother, envelope, hon⟩
  have horigin : r.received = none → issuer = r.node := by
    intro hlocal
    rcases hfrom with ⟨_, _, hnode⟩ | ⟨_, envelope, hreceived, _⟩
    · exact hnode
    · rw [hlocal] at hreceived
      cases hreceived
  refine ⟨r, origin, issuer, snapshots, idMs, createdMs, hr, hop, hwhere, ?_⟩
  cases act with
  | warm streamId region =>
      obtain ⟨hkind, htarget, hstream, hregion⟩ := hjustified
      rw [htargets, controlTargetsLocal_selected snapshots (by rw [hkind]; decide)] at htarget
      exact ⟨hkind, hstream, hregion, htarget⟩
  | drain =>
      obtain ⟨hkind, htarget⟩ := hjustified
      rw [htargets, controlTargetsLocal_selected snapshots (by rw [hkind]; decide)] at htarget
      exact ⟨hkind, htarget⟩
  | provision =>
      obtain ⟨hkind, hlocal⟩ := hjustified
      exact ⟨hkind, horigin hlocal⟩
  | closeBackend =>
      obtain ⟨hkind, hlocal, hnode⟩ := hjustified
      exact ⟨hkind, hnode, horigin hlocal⟩

/-- The runs that `issue` operations begin. -/
def issuedRuns (ops : List (MeshOp ν)) : List Nat :=
  ops.filterMap fun op =>
    match op with
    | .issue run .. => some run
    | _ => none

/-- **Each run does each effect once, and no echo.**  A run does what it is entitled to exactly
once, when it passes the point of it; a command that a node received it does not publish again, so
there are never more envelopes than commands that were given to the mesh.  An envelope that is
delivered to a node twice begins two runs there, and each of them has its effects. -/
theorem control_mesh_once (ident : ν → NodeIdentity) (ops : List (MeshOp ν)) :
    (after ident ops).acts.Nodup ∧
    (∀ run act, (run, act) ∈ (after ident ops).acts ↔
      ∃ r, (after ident ops).runs run = some r ∧ Justified (ident r.node) r act ∧
        act.rank < r.point.rank) ∧
    (∀ run envelope, (run, envelope) ∈ (after ident ops).envelopes →
      ∃ r, (after ident ops).runs run = some r ∧ r.received = none ∧
        envelope = r.envelope (ident r.node)) ∧
    (after ident ops).envelopes.length ≤ (issuedRuns ops).length := by
  have hbooked : Booked ident (after ident ops) := booked_after ops
  refine ⟨hbooked.actsOnce, hbooked.acts, ?_, ?_⟩
  · intro run envelope hmem
    obtain ⟨r, hr, hlocal, henvelope, _⟩ := hbooked.envelopes run envelope hmem
    exact ⟨r, hr, hlocal, henvelope⟩
  · -- the publishers are among the runs that were issued, each once
    have hsubset : (after ident ops).envelopes.map Prod.fst ⊆ issuedRuns ops := by
      intro run hrun
      obtain ⟨entry, hentry, hfst⟩ := List.mem_map.mp hrun
      subst hfst
      obtain ⟨r, hr, hlocal, _⟩ := hbooked.envelopes entry.1 entry.2 hentry
      obtain ⟨snapshots, idMs, createdMs, hop, _⟩ := issued_after ops entry.1 r hr hlocal
      exact List.mem_filterMap.mpr ⟨_, hop, rfl⟩
    have hle := (hbooked.envelopesOnce.subperm hsubset).length_le
    rwa [List.length_map] at hle

end ControlMesh

end AvMesh.Control
