/-
  AvMesh.Edge.Lifecycle
  ─────────────────────
  **THE EDGE LIFECYCLE PLANNER** (`EdgeLifecyclePlanner`, src/edge_lifecycle.rs).

  One call of `plan` looks at the edges telemetry shows, region by region:

      pressure      — an overloaded edge, or readers at the threshold,
      samples       — how many calls in a row saw pressure,
      provision     — room below the ceiling, two samples, cooldown over,
      close         — else, the edge that has been idle longest.

  Only the edge with the least id of a region acts for it.  Regions do not
  share any entry of the planner, so the order in which the hash map visits
  them is not seen; the actions are sorted by their `Debug` text, which is a
  parameter.
-/
import AvMesh.Lib.Machine
import AvMesh.Lib.Table
import Mathlib.Data.List.Dedup

namespace AvMesh.Edge

open AvMesh.Lib

/-! ## §1. Configuration, nodes, actions. -/

structure EdgeLifecycleConfig where
  enabled : Bool := false
  minEdgesPerRegion : UInt64 := 1
  maxEdgesPerRegion : UInt64 := 4
  scaleUpActiveReaders : UInt64 := 80
  idleSeconds : UInt64 := 900
  provisionCooldownSeconds : UInt64 := 30
  deriving Repr, DecidableEq

def EdgeLifecycleConfig.normalized (c : EdgeLifecycleConfig) : EdgeLifecycleConfig :=
  let minEdgesPerRegion := max c.minEdgesPerRegion 1
  { enabled := c.enabled
    minEdgesPerRegion
    maxEdgesPerRegion := max c.maxEdgesPerRegion minEdgesPerRegion
    scaleUpActiveReaders := max c.scaleUpActiveReaders 1
    idleSeconds := max c.idleSeconds 1
    provisionCooldownSeconds := max c.provisionCooldownSeconds 1 }

structure EdgeLifecycleNode where
  nodeId : String
  region : String
  updatedUnixMs : Nat
  lastResponseUnixMs : Option Nat
  activeReaders : Nat
  egressOverloaded : Bool
  draining : Bool
  deriving Repr, DecidableEq

inductive EdgeLifecycleAction where
  | provision (region : String)
  | close (nodeId region : String)
  deriving Repr, DecidableEq

structure EdgeLifecyclePlanner where
  lastProvisionUnixMs : Table String Nat := ∅
  pressureSamples : Table String Nat := ∅

/-- `iter().min_by(..)`: the first of the least elements. -/
def minBy {α : Type} (less : α → α → Bool) : List α → Option α
  | [] => none
  | first :: rest => some (rest.foldl (fun best x => if less x best then x else best) first)

/-- The largest unsigned 32-bit value. -/
def u32Max : Nat := 4294967295

/-! ## §2. What a call sees of one region. -/

/-- The nodes of the region that are not draining. -/
def liveNodes (regionNodes : List EdgeLifecycleNode) : List EdgeLifecycleNode :=
  regionNodes.filter fun node => !node.draining

def leader (regionNodes : List EdgeLifecycleNode) : Option EdgeLifecycleNode :=
  minBy (fun left right => left.nodeId < right.nodeId) (liveNodes regionNodes)

/-- `leader.is_some_and(|node| node.node_id == controller_node_id)`. -/
def isLeader (regionNodes : List EdgeLifecycleNode) (controllerNodeId : String) : Bool :=
  (leader regionNodes).any fun node => node.nodeId == controllerNodeId

def pressure (config : EdgeLifecycleConfig) (regionNodes : List EdgeLifecycleNode) : Bool :=
  let readers := ((liveNodes regionNodes).map (·.activeReaders)).sum % 2 ^ 64
  (regionNodes.any fun node => !node.draining && node.egressOverloaded) ||
    decide (readers ≥ config.scaleUpActiveReaders.toNat)

def EdgeLifecycleNode.activity (node : EdgeLifecycleNode) : Nat :=
  node.lastResponseUnixMs.getD node.updatedUnixMs

/-- The edge to close: idle for long enough, the least recently active first. -/
def closeCandidate (config : EdgeLifecycleConfig) (regionNodes : List EdgeLifecycleNode)
    (nowUnixMs : Nat) : Option EdgeLifecycleNode :=
  let idleMs := satMul config.idleSeconds.toNat 1000
  let idle := (regionNodes.filter fun node => !node.draining && node.activeReaders == 0).filter
    fun node => decide (nowUnixMs - node.activity ≥ idleMs)
  minBy (fun left right => left.activity < right.activity ||
    (left.activity == right.activity && left.nodeId < right.nodeId)) idle

def cooldownMs (config : EdgeLifecycleConfig) : Nat :=
  satMul config.provisionCooldownSeconds.toNat 1000

namespace EdgeLifecyclePlanner

/-! ## §3. The planner. -/

/-- The pressure samples of the region after this call, zero without pressure. -/
def nextSamples (p : EdgeLifecyclePlanner) (config : EdgeLifecycleConfig)
    (regionNodes : List EdgeLifecycleNode) (region : String) : Nat :=
  if pressure config regionNodes then min ((p.pressureSamples.lookup region).getD 0 + 1) u32Max
  else 0

/-- The region is sampled: one more under pressure, none otherwise. -/
def sample (p : EdgeLifecyclePlanner) (config : EdgeLifecycleConfig)
    (regionNodes : List EdgeLifecycleNode) (region : String) : EdgeLifecyclePlanner :=
  { p with
    pressureSamples :=
      if pressure config regionNodes then
        p.pressureSamples.insert region (p.nextSamples config regionNodes region)
      else p.pressureSamples.erase region }

/-- The region gets one more edge. -/
def provisions (p : EdgeLifecyclePlanner) (config : EdgeLifecycleConfig)
    (regionNodes : List EdgeLifecycleNode) (controllerNodeId region : String) (nowUnixMs : Nat) :
    Bool :=
  decide ((liveNodes regionNodes).length < config.maxEdgesPerRegion.toNat) &&
    decide (p.nextSamples config regionNodes region ≥ 2) &&
    isLeader regionNodes controllerNodeId &&
    decide (nowUnixMs - (p.lastProvisionUnixMs.lookup region).getD 0 ≥ cooldownMs config)

/-- One region of a call. -/
def planRegion (p : EdgeLifecyclePlanner) (config : EdgeLifecycleConfig)
    (regionNodes : List EdgeLifecycleNode) (controllerNodeId region : String) (nowUnixMs : Nat) :
    Option EdgeLifecycleAction × EdgeLifecyclePlanner :=
  let sampled := p.sample config regionNodes region
  if p.provisions config regionNodes controllerNodeId region nowUnixMs then
    (some (.provision region),
      { sampled with lastProvisionUnixMs := sampled.lastProvisionUnixMs.insert region nowUnixMs })
  else if (liveNodes regionNodes).length ≤ config.minEdgesPerRegion.toNat ∨
      ¬ isLeader regionNodes controllerNodeId then (none, sampled)
  else
    ((closeCandidate config regionNodes nowUnixMs).map fun node => .close node.nodeId region,
      sampled)

/-- The regions that have a node. -/
def regionsOf (nodes : List EdgeLifecycleNode) : List String := (nodes.map (·.region)).dedup

/-- The nodes of a region. -/
def nodesIn (nodes : List EdgeLifecycleNode) (region : String) : List EdgeLifecycleNode :=
  nodes.filter fun node => node.region = region

/-- The loop over the regions. -/
def planRegions (config : EdgeLifecycleConfig) (nodes : List EdgeLifecycleNode)
    (controllerNodeId : String) (nowUnixMs : Nat) :
    List String → EdgeLifecyclePlanner → List EdgeLifecycleAction × EdgeLifecyclePlanner
  | [], p => ([], p)
  | region :: regions, p =>
      let (action, p) :=
        p.planRegion config (nodesIn nodes region) controllerNodeId region nowUnixMs
      let (actions, p) := planRegions config nodes controllerNodeId nowUnixMs regions p
      (action.toList ++ actions, p)

/-- `debug` is `format!("{action:?}")`. -/
def plan (debug : EdgeLifecycleAction → String) (p : EdgeLifecyclePlanner)
    (config : EdgeLifecycleConfig) (nodes : List EdgeLifecycleNode) (controllerNodeId : String)
    (nowUnixMs : Nat) : List EdgeLifecycleAction × EdgeLifecyclePlanner :=
  let config := config.normalized
  if ¬ config.enabled then ([], p)
  else
    let (actions, p) := planRegions config nodes controllerNodeId nowUnixMs (regionsOf nodes) p
    (actions.mergeSort fun left right => decide (debug left ≤ debug right), p)

/-! ## §4. One region at a time. -/

variable {p : EdgeLifecyclePlanner} {config : EdgeLifecycleConfig}
  {nodes regionNodes : List EdgeLifecycleNode} {controllerNodeId region other : String}
  {nowUnixMs : Nat} {regions : List String}

/-- The entries of a region. -/
def entries (p : EdgeLifecyclePlanner) (region : String) : Option Nat × Option Nat :=
  (p.lastProvisionUnixMs.lookup region, p.pressureSamples.lookup region)

theorem planRegion_provision_iff :
    (p.planRegion config regionNodes controllerNodeId region nowUnixMs).1 = some (.provision other)
      ↔ other = region ∧
        p.provisions config regionNodes controllerNodeId region nowUnixMs = true := by
  unfold planRegion
  dsimp only
  split
  next h => simp [h, eq_comm]
  next h =>
    split
    · simp [h]
    · simp [h]

/-- A region leaves the entries of the others alone. -/
theorem entries_planRegion_ne (h : other ≠ region) :
    (p.planRegion config regionNodes controllerNodeId region nowUnixMs).2.entries other =
      p.entries other := by
  have hsample : (p.sample config regionNodes region).entries other = p.entries other := by
    unfold sample entries
    dsimp only
    split
    · rw [AList.lookup_insert_ne h]
    · rw [AList.lookup_erase_ne h]
  unfold planRegion
  dsimp only
  split
  · rw [← hsample]
    unfold entries
    dsimp only
    rw [AList.lookup_insert_ne h]
  · split
    · exact hsample
    · exact hsample

theorem sample_pressureSamples :
    (p.sample config regionNodes region).pressureSamples.lookup region =
      if pressure config regionNodes then some (p.nextSamples config regionNodes region)
      else none := by
  unfold sample
  dsimp only
  split
  · exact AList.lookup_insert _
  · exact AList.lookup_erase _ _

/-- The entries of the region after its turn. -/
theorem entries_planRegion_self :
    (p.planRegion config regionNodes controllerNodeId region nowUnixMs).2.entries region =
      (if p.provisions config regionNodes controllerNodeId region nowUnixMs then some nowUnixMs
        else p.lastProvisionUnixMs.lookup region,
      if pressure config regionNodes then some (p.nextSamples config regionNodes region)
        else none) := by
  rw [← sample_pressureSamples]
  unfold planRegion
  dsimp only
  split
  · unfold entries
    rw [AList.lookup_insert]
  · split
    · rfl
    · rfl

/-- A turn reads only the entries of its region. -/
theorem planRegion_congr {q : EdgeLifecyclePlanner} (config : EdgeLifecycleConfig)
    (regionNodes : List EdgeLifecycleNode) (controllerNodeId : String) (nowUnixMs : Nat)
    (h : p.entries region = q.entries region) :
    p.provisions config regionNodes controllerNodeId region nowUnixMs =
        q.provisions config regionNodes controllerNodeId region nowUnixMs ∧
      (p.planRegion config regionNodes controllerNodeId region nowUnixMs).2.entries region =
        (q.planRegion config regionNodes controllerNodeId region nowUnixMs).2.entries region := by
  obtain ⟨hlast, hsamples⟩ := Prod.mk.inj h
  have hnext : p.nextSamples config regionNodes region = q.nextSamples config regionNodes region := by
    unfold nextSamples
    rw [hsamples]
  have hprovisions : p.provisions config regionNodes controllerNodeId region nowUnixMs =
      q.provisions config regionNodes controllerNodeId region nowUnixMs := by
    unfold provisions
    rw [hlast, hnext]
  rw [entries_planRegion_self, entries_planRegion_self, hprovisions, hnext, hlast]
  exact ⟨rfl, rfl⟩

theorem planRegions_cons (regions : List String) (p : EdgeLifecyclePlanner) :
    planRegions config nodes controllerNodeId nowUnixMs (region :: regions) p =
      ((p.planRegion config (nodesIn nodes region) controllerNodeId region nowUnixMs).1.toList ++
        (planRegions config nodes controllerNodeId nowUnixMs regions
          (p.planRegion config (nodesIn nodes region) controllerNodeId region nowUnixMs).2).1,
      (planRegions config nodes controllerNodeId nowUnixMs regions
        (p.planRegion config (nodesIn nodes region) controllerNodeId region nowUnixMs).2).2) := rfl

/-- A region that is not visited keeps its entries, and no provision of it is due. -/
theorem planRegions_notMem (h : other ∉ regions) (p : EdgeLifecyclePlanner) :
    (planRegions config nodes controllerNodeId nowUnixMs regions p).2.entries other =
        p.entries other ∧
      .provision other ∉ (planRegions config nodes controllerNodeId nowUnixMs regions p).1 := by
  induction regions generalizing p with
  | nil => exact ⟨rfl, nofun⟩
  | cons region regions ih =>
      rw [List.mem_cons, not_or] at h
      obtain ⟨hentries, hactions⟩ := ih h.2
        (p.planRegion config (nodesIn nodes region) controllerNodeId region nowUnixMs).2
      rw [planRegions_cons, List.mem_append, Option.mem_toList, planRegion_provision_iff, not_or]
      exact ⟨hentries.trans (entries_planRegion_ne h.1), fun hboth => h.1 hboth.1, hactions⟩

/-- **A visited region has exactly one turn.** -/
theorem planRegions_mem (hnodup : regions.Nodup) (h : region ∈ regions)
    (p : EdgeLifecyclePlanner) :
    (planRegions config nodes controllerNodeId nowUnixMs regions p).2.entries region =
        (p.planRegion config (nodesIn nodes region) controllerNodeId region nowUnixMs).2.entries
          region ∧
      (.provision region ∈ (planRegions config nodes controllerNodeId nowUnixMs regions p).1 ↔
        p.provisions config (nodesIn nodes region) controllerNodeId region nowUnixMs = true) := by
  induction regions generalizing p with
  | nil => cases h
  | cons first regions ih =>
      obtain ⟨hfirst, hrest⟩ := List.nodup_cons.mp hnodup
      rw [planRegions_cons, List.mem_append, Option.mem_toList, planRegion_provision_iff]
      rcases List.mem_cons.mp h with rfl | hmem
      · -- its own turn, and no other after it
        obtain ⟨hentries, hactions⟩ := planRegions_notMem hfirst
          (p.planRegion config (nodesIn nodes region) controllerNodeId region nowUnixMs).2
        refine ⟨hentries, ?_⟩
        constructor
        · rintro (⟨-, hprovisions⟩ | hlater)
          · exact hprovisions
          · exact absurd hlater hactions
        · exact fun hprovisions => .inl ⟨rfl, hprovisions⟩
      · -- the turn of another region, which leaves the entries alone
        have hne : region ≠ first := by
          rintro rfl
          exact hfirst hmem
        obtain ⟨hentries, hactions⟩ := ih hrest hmem
          (p.planRegion config (nodesIn nodes first) controllerNodeId first nowUnixMs).2
        obtain ⟨hprovisions, hturn⟩ := planRegion_congr config (nodesIn nodes region)
          controllerNodeId nowUnixMs (@entries_planRegion_ne p config (nodesIn nodes first)
            controllerNodeId first region nowUnixMs hne)
        refine ⟨hentries.trans hturn, ?_⟩
        rw [hactions, hprovisions]
        constructor
        · rintro (⟨hsame, -⟩ | hlater)
          · exact absurd hsame hne
          · exact hlater
        · exact .inr

end EdgeLifecyclePlanner

end AvMesh.Edge
