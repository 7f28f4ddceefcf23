/-
  AvMesh.Replication.Plan
  ───────────────────────
  **THE REPLICA PLANNER** (`ReplicationPolicy::plan_replicas`,
  src/replication.rs).

  A plan fills scopes one after the other, each from what the scopes before it
  have selected:

      every continent   — to `baselinePerContinent`, in the order of its name,
      every region      — to `baselinePerRegion`, likewise,
      every hot demand  — one replica in its region, else one in its continent.

  `fillScope` takes one candidate after the other until the scope has enough,
  the plan is full or there is no candidate.  Its fuel is the room that is left
  in the plan, so it is always the loop that stops and never the fuel.

  Positions, distances and scores are floating point: `Floats` has the
  operations and no law.  `HashOrder` is the order in which the hash containers
  are visited.
-/
import Mathlib.Data.List.Dedup
import Mathlib.Data.List.Perm.Basic
import AvMesh.Lib.Machine

namespace AvMesh.Replication

open AvMesh.Lib

/-! ## §1. Floating point. -/

/-- The operations on `f64` that the planner uses. -/
structure Floats where
  F64 : Type
  zero : F64
  infinity : F64
  add : F64 → F64 → F64
  /-- `f64::min`. -/
  min : F64 → F64 → F64
  /-- `left >= right`. -/
  ge : F64 → F64 → Bool
  /-- `left.partial_cmp(&right) == Some(Ordering::Greater)`. -/
  greater : F64 → F64 → Bool
  /-- `distance_km` of two positions, each a latitude and a longitude. -/
  distanceKm : F64 × F64 → F64 × F64 → F64
  /-- The weighted sum of `score_candidate_against_refs`: available and total storage, egress
  capacity, active and contributor streams, and the distance to the nearest replica. -/
  weigh : Nat → Nat → Nat → Nat → Nat → F64 → F64

variable (F : Floats)

/-! ## §2. Nodes, streams, demand, policy. -/

structure MeshNode where
  nodeId : String
  region : String
  continent : String
  latitude : F.F64
  longitude : F.F64
  totalStorageBytes : Nat
  usedStorageBytes : Nat
  egressCapacityBps : Nat
  contributorStreams : Nat
  activeStreams : Nat
  draining : Bool

structure StreamInfo where
  streamId : Nat
  bytes : Nat

structure DemandSignal where
  streamId : Nat
  region : String
  continent : String
  activeReaders : Nat
  readsPerSec : F.F64

structure ReplicationPolicy where
  baselinePerRegion : Nat
  baselinePerContinent : Nat
  demandReadsPerSec : F.F64
  demandActiveReaders : Nat
  minMirrorDistanceKm : F.F64
  maxNewReplicasPerPlan : Nat

inductive ReplicaReason where
  | baselineRegion (region : String)
  | baselineContinent (continent : String)
  | demandRegion (region : String)
  | demandContinent (continent : String)
  deriving Repr, DecidableEq

structure ReplicaPlacement where
  streamId : Nat
  targetNodeId : String
  reason : ReplicaReason
  score : F.F64

inductive Scope where
  | region (region : String)
  | continent (continent : String)
  deriving Repr, DecidableEq

structure DemandTotals where
  activeReaders : Nat
  readsPerSec : F.F64

/-- A region and a continent of demand, with its totals. -/
abbrev DemandGroup := (String × String) × DemandTotals F

variable {F}

namespace MeshNode

def availableStorageBytes (node : MeshNode F) : Nat :=
  node.totalStorageBytes - node.usedStorageBytes

def canStore (node : MeshNode F) (stream : StreamInfo) : Bool :=
  !node.draining && decide (node.availableStorageBytes ≥ stream.bytes)

def position (node : MeshNode F) : F.F64 × F.F64 := (node.latitude, node.longitude)

end MeshNode

/-! ## §3. Scopes and scores. -/

def scopeMatches (node : MeshNode F) : Scope → Bool
  | .region region => node.region == region
  | .continent continent => node.continent == continent

def countReplicasInScope (nodes : List (MeshNode F)) (existingReplicas selectedIds : List String)
    (scope : Scope) : Nat :=
  ((nodes.filter fun node => scopeMatches node scope).filter fun node =>
    existingReplicas.contains node.nodeId || selectedIds.contains node.nodeId).length

def hasReplicaInScope (nodes : List (MeshNode F)) (existingReplicas selectedIds : List String)
    (scope : Scope) : Bool :=
  decide (countReplicasInScope nodes existingReplicas selectedIds scope > 0)

def minDistanceToNodeRefs (node : MeshNode F) (replicas : List (MeshNode F)) : F.F64 :=
  (replicas.map fun replica => F.distanceKm node.position replica.position).foldl F.min F.infinity

def scoreCandidateAgainstRefs (node : MeshNode F) (replicas : List (MeshNode F)) : F.F64 :=
  F.weigh node.availableStorageBytes node.totalStorageBytes node.egressCapacityBps
    node.activeStreams node.contributorStreams (minDistanceToNodeRefs node replicas)

/-- The nodes of these ids, each id found at its first node. -/
def findNodes (nodes : List (MeshNode F)) (ids : List String) : List (MeshNode F) :=
  ids.filterMap fun nodeId => nodes.find? fun node => node.nodeId == nodeId

def scoreCandidate (node : MeshNode F) (existing : List (MeshNode F))
    (selected : List (ReplicaPlacement F)) (nodes : List (MeshNode F)) : F.F64 :=
  scoreCandidateAgainstRefs node
    (existing ++ findNodes nodes (selected.map (·.targetNodeId)))

/-- `iter().max_by(..)`: the last of the greatest elements. -/
def maxBy {α : Type} (greater : α → α → Bool) : List α → Option α
  | [] => none
  | first :: rest => some (rest.foldl (fun best x => if greater best x then best else x) first)

/-! ## §4. Filling a scope. -/

/-- How hash containers are visited: some permutation of what they hold. -/
structure HashOrder (F : Floats) where
  existing : List String → List String
  selected : List String → List String
  demand : List (DemandGroup F) → List (DemandGroup F)
  existing_perm : ∀ l, (existing l).Perm l
  selected_perm : ∀ l, (selected l).Perm l
  demand_perm : ∀ l, (demand l).Perm l

/-- The nodes a replica may go to. -/
def candidates (stream : StreamInfo) (nodes : List (MeshNode F))
    (existingReplicas selectedIds : List String) (scope : Scope) : List (MeshNode F) :=
  (((nodes.filter fun node => scopeMatches node scope).filter fun node =>
    !existingReplicas.contains node.nodeId).filter fun node =>
    !selectedIds.contains node.nodeId).filter fun node => node.canStore stream

namespace ReplicationPolicy

/-- `existing` are the nodes of the existing replicas, `selectedIds` the ids as they are visited. -/
def chooseCandidate (policy : ReplicationPolicy F) (stream : StreamInfo)
    (nodes : List (MeshNode F)) (existingReplicas selectedIds : List String) (scope : Scope)
    (existing : List (MeshNode F)) : Option (MeshNode F) :=
  let candidates := candidates stream nodes existingReplicas selectedIds scope
  let replicas := existing ++ findNodes nodes selectedIds
  let farEnough := candidates.filter fun node =>
    F.ge (minDistanceToNodeRefs node replicas) policy.minMirrorDistanceKm
  let pool := if farEnough.isEmpty then candidates else farEnough
  maxBy (fun left right => F.greater (scoreCandidateAgainstRefs left replicas)
    (scoreCandidateAgainstRefs right replicas)) pool

/-- The ids selected so far, in the order they were selected. -/
def selectedIds (selected : List (ReplicaPlacement F)) : List String :=
  selected.map (·.targetNodeId)

/-- The loop of `fill_scope`; `true` if it has added a placement. -/
def fillLoop (policy : ReplicationPolicy F) (order : HashOrder F) (stream : StreamInfo)
    (nodes : List (MeshNode F)) (existingReplicas : List String) (scope : Scope)
    (targetCount : Nat) (reason : ReplicaReason) (existing : List (MeshNode F)) :
    Nat → Bool → List (ReplicaPlacement F) → Bool × List (ReplicaPlacement F)
  | 0, added, selected => (added, selected)
  | fuel + 1, added, selected =>
      if countReplicasInScope nodes existingReplicas (selectedIds selected) scope < targetCount ∧
          selected.length < policy.maxNewReplicasPerPlan then
        match policy.chooseCandidate stream nodes existingReplicas
            (order.selected (selectedIds selected)) scope existing with
        | none => (added, selected)
        | some candidate =>
            fillLoop policy order stream nodes existingReplicas scope targetCount reason existing
              fuel true (selected ++ [{
                streamId := stream.streamId
                targetNodeId := candidate.nodeId
                reason
                score := scoreCandidate candidate existing selected nodes }])
      else (added, selected)

def fillScope (policy : ReplicationPolicy F) (order : HashOrder F) (stream : StreamInfo)
    (nodes : List (MeshNode F)) (existingReplicas : List String)
    (selected : List (ReplicaPlacement F)) (scope : Scope) (targetCount : Nat)
    (reason : ReplicaReason) (existing : List (MeshNode F)) :
    Bool × List (ReplicaPlacement F) :=
  policy.fillLoop order stream nodes existingReplicas scope targetCount reason existing
    (policy.maxNewReplicasPerPlan - selected.length) false selected

/-! ## §5. The plan. -/

/-- The keys of `ordered_counts`: distinct names, in order. -/
def orderedKeys (names : List String) : List String :=
  names.dedup.mergeSort fun left right => decide (left ≤ right)

/-- One signal added to the totals of its group. -/
def addSignal (groups : List (DemandGroup F)) (signal : DemandSignal F) : List (DemandGroup F) :=
  let key := (signal.region, signal.continent)
  let add (totals : DemandTotals F) : DemandTotals F :=
    { readsPerSec := F.add totals.readsPerSec signal.readsPerSec
      activeReaders := satAdd totals.activeReaders signal.activeReaders }
  if groups.any fun group => group.1 == key then
    groups.map fun group => if group.1 == key then (group.1, add group.2) else group
  else groups ++ [(key, add { readsPerSec := F.zero, activeReaders := 0 })]

/-- `demand_by_region`. -/
def demandByRegion (stream : StreamInfo) (demand : List (DemandSignal F)) :
    List (DemandGroup F) :=
  (demand.filter fun signal => signal.streamId == stream.streamId).foldl addSignal []

def demandIsHot (policy : ReplicationPolicy F) (totals : DemandTotals F) : Bool :=
  F.ge totals.readsPerSec policy.demandReadsPerSec ||
    decide (totals.activeReaders ≥ policy.demandActiveReaders)

/-- The baseline of every continent or region. -/
def fillBaseline (policy : ReplicationPolicy F) (order : HashOrder F) (stream : StreamInfo)
    (nodes : List (MeshNode F)) (existingReplicas : List String) (existing : List (MeshNode F))
    (scope : String → Scope) (reason : String → ReplicaReason) (targetCount : Nat) :
    List String → List (ReplicaPlacement F) → List (ReplicaPlacement F)
  | [], selected => selected
  | name :: names, selected =>
      fillBaseline policy order stream nodes existingReplicas existing scope reason targetCount names
        (policy.fillScope order stream nodes existingReplicas selected (scope name) targetCount
          (reason name) existing).2

/-- The body of the demand loop. -/
def serveDemand (policy : ReplicationPolicy F) (order : HashOrder F) (stream : StreamInfo)
    (nodes : List (MeshNode F)) (existingReplicas : List String) (existing : List (MeshNode F))
    (selected : List (ReplicaPlacement F)) (group : DemandGroup F) : List (ReplicaPlacement F) :=
  let ((region, continent), totals) := group
  if ¬ policy.demandIsHot totals then selected
  else
    -- the region first; a replica there ends the turn of the group
    let (added, selected) :=
      if ¬ hasReplicaInScope nodes existingReplicas (selectedIds selected) (.region region) then
        policy.fillScope order stream nodes existingReplicas selected (.region region) 1
          (.demandRegion region) existing
      else (false, selected)
    if added then selected
    else if ¬ hasReplicaInScope nodes existingReplicas (selectedIds selected)
        (.continent continent) then
      (policy.fillScope order stream nodes existingReplicas selected (.continent continent) 1
        (.demandContinent continent) existing).2
    else selected

/-- What the baselines select. -/
def planBaselines (policy : ReplicationPolicy F) (order : HashOrder F) (stream : StreamInfo)
    (nodes : List (MeshNode F)) (existingReplicas : List String) (existing : List (MeshNode F)) :
    List (ReplicaPlacement F) :=
  let selected :=
    if policy.baselinePerContinent > 0 then
      policy.fillBaseline order stream nodes existingReplicas existing .continent
        .baselineContinent policy.baselinePerContinent (orderedKeys (nodes.map (·.continent))) []
    else []
  if policy.baselinePerRegion > 0 then
    policy.fillBaseline order stream nodes existingReplicas existing .region .baselineRegion
      policy.baselinePerRegion (orderedKeys (nodes.map (·.region))) selected
  else selected

/-- `existingReplicas` are the elements of the set. -/
def planReplicas (policy : ReplicationPolicy F) (order : HashOrder F) (stream : StreamInfo)
    (nodes : List (MeshNode F)) (existingReplicas : List String)
    (demand : List (DemandSignal F)) : List (ReplicaPlacement F) :=
  let existing := findNodes nodes (order.existing existingReplicas.dedup)
  let selected := policy.planBaselines order stream nodes existingReplicas existing
  (order.demand (demandByRegion stream demand)).foldl
    (policy.serveDemand order stream nodes existingReplicas existing) selected

end ReplicationPolicy

end AvMesh.Replication
