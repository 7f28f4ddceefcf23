/-
  AvMesh.Edge.Ceiling
  ───────────────────
  **THE REGIONAL CEILING AND EDGES THAT ARE STILL BOOTING.**

  `plan` counts the live edges telemetry shows.  A provision it has emitted is
  not among them until the new edge has booted; meanwhile only the cooldown
  holds the planner back.  `Fleet` is the planner together with what it sees
  and the provisions in flight.

    • `provisions_apart`, `provision_sampled` — in every run provisions are a
      cooldown apart and follow two samples under pressure,
    • `exec_ceiling` — and the ceiling holds in every run in which no call
      finds, after the cooldown, a region that is full only because of
      provisions in flight,
    • `slow_boot_exceeds_ceiling` — a boot slower than the cooldown.
-/
import AvMesh.Edge.Lifecycle
import AvMesh.Lib.StepSystem

namespace AvMesh.Edge

open AvMesh.Lib EdgeLifecyclePlanner

/-! ## §1. The fleet. -/

structure Fleet where
  planner : EdgeLifecyclePlanner
  /-- The edges telemetry shows. -/
  nodes : List EdgeLifecycleNode
  /-- The region of each provision that was emitted and is not visible yet. -/
  pending : List String

inductive FleetOp where
  /-- The leader calls `plan`. -/
  | plan (nowUnixMs : UInt64)
  /-- Telemetry changes: load and activity of the edges, and edges that drain or leave. -/
  | observe (nodes : List EdgeLifecycleNode)
  /-- A provisioned edge becomes visible. -/
  | boot (node : EdgeLifecycleNode)

/-- The region of a provision. -/
def EdgeLifecycleAction.provisionRegion : EdgeLifecycleAction → Option String
  | .provision region => some region
  | .close _ _ => none

namespace Fleet

def start (nodes : List EdgeLifecycleNode) : Fleet := { planner := {}, nodes, pending := [] }

/-- The live edges of a region. -/
def live (nodes : List EdgeLifecycleNode) (region : String) : Nat :=
  (liveNodes (nodesIn nodes region)).length

section Runs

variable (debug : EdgeLifecycleAction → String) (config : EdgeLifecycleConfig)
  (controllerNodeId : String)

def step (f : Fleet) : FleetOp → List EdgeLifecycleAction × Fleet
  | .plan nowUnixMs =>
      let (actions, planner) :=
        f.planner.plan debug config f.nodes controllerNodeId nowUnixMs.toNat
      (actions, { f with
        planner
        pending := f.pending ++ actions.filterMap EdgeLifecycleAction.provisionRegion })
  | .observe nodes => ([], { f with nodes })
  | .boot node =>
      ([], { f with nodes := f.nodes ++ [node], pending := f.pending.erase node.region })

/-- Edges come into being only as provisions that boot. -/
def Allowed (f : Fleet) : FleetOp → Prop
  | .plan _ => True
  | .observe nodes => ∀ region, live nodes region ≤ live f.nodes region
  | .boot node => node.region ∈ f.pending ∧ node.draining = false

/-- A region that is below the ceiling, but not with its provisions in flight, is in cooldown. -/
def InCooldown (f : Fleet) : FleetOp → Prop
  | .plan nowUnixMs => ∀ region,
      live f.nodes region < config.normalized.maxEdgesPerRegion.toNat →
      config.normalized.maxEdgesPerRegion.toNat ≤ live f.nodes region + f.pending.count region →
      nowUnixMs.toNat - (f.planner.lastProvisionUnixMs.lookup region).getD 0
        < cooldownMs config.normalized
  | _ => True

/-- The time of a step that provisions the region. -/
def provisionedAt (region : String) (entry : Fleet × FleetOp) : Option Nat :=
  match entry.2 with
  | .plan nowUnixMs =>
      if .provision region ∈ (step debug config controllerNodeId entry.1 entry.2).1 then
        some nowUnixMs.toNat
      else none
  | _ => none

/-- The times at which a run provisions the region. -/
def provisionTimes (f : Fleet) (ops : List FleetOp) (region : String) : List Nat :=
  (trace (step debug config controllerNodeId) f ops).filterMap
    (provisionedAt debug config controllerNodeId region)

/-- What a call of `plan` samples of a region that has nodes. -/
def sampledBy (region : String) (entry : Fleet × FleetOp) : Option Bool :=
  match entry.2 with
  | .plan _ =>
      if config.normalized.enabled ∧ region ∈ regionsOf entry.1.nodes then
        some (pressure config.normalized (nodesIn entry.1.nodes region))
      else none
  | _ => none

/-- The samples of a region in a run, under pressure or not. -/
def samples (f : Fleet) (ops : List FleetOp) (region : String) : List Bool :=
  (trace (step debug config controllerNodeId) f ops).filterMap (sampledBy config region)

end Runs

/-! ## §2. One call of the planner. -/

variable {debug : EdgeLifecycleAction → String} {config : EdgeLifecycleConfig}
  {controllerNodeId : String} {f : Fleet} {op : FleetOp} {region : String} {nowUnixMs : UInt64}

/-- A region is provisioned at most once in a call. -/
theorem provisionRegions_sublist (nodes : List EdgeLifecycleNode) (now : Nat)
    (regions : List String) (p : EdgeLifecyclePlanner) :
    ((planRegions config nodes controllerNodeId now regions p).1.filterMap
      EdgeLifecycleAction.provisionRegion).Sublist regions := by
  induction regions generalizing p with
  | nil => exact List.Sublist.slnil
  | cons region regions ih =>
      rw [planRegions_cons, List.filterMap_append]
      have hrest := ih
        (p.planRegion config (nodesIn nodes region) controllerNodeId region now).2
      cases haction : (p.planRegion config (nodesIn nodes region) controllerNodeId region now).1 with
      | none => exact hrest.cons _
      | some action =>
          cases action with
          | close nodeId region' => exact hrest.cons _
          | provision region' =>
              obtain ⟨rfl, -⟩ := planRegion_provision_iff.mp haction
              exact hrest.cons_cons _

theorem nodup_regionsOf (nodes : List EdgeLifecycleNode) : (regionsOf nodes).Nodup :=
  List.nodup_dedup _

/-- The region has a turn in the call, and is provisioned. -/
def Turn (config : EdgeLifecycleConfig) (controllerNodeId : String) (f : Fleet) (now : Nat)
    (region : String) : Prop :=
  config.normalized.enabled = true ∧ region ∈ regionsOf f.nodes ∧
    f.planner.provisions config.normalized (nodesIn f.nodes region) controllerNodeId region now = true

theorem count_provisioned_le (region : String) :
    ((step debug config controllerNodeId f (.plan nowUnixMs)).1.filterMap
      EdgeLifecycleAction.provisionRegion).count region ≤ 1 := by
  show ((f.planner.plan debug config f.nodes controllerNodeId nowUnixMs.toNat).1.filterMap _).count _ ≤ 1
  unfold EdgeLifecyclePlanner.plan
  dsimp only
  split
  · exact Nat.zero_le _
  · have hperm := (List.mergeSort_perm (planRegions config.normalized f.nodes controllerNodeId
        nowUnixMs.toNat (regionsOf f.nodes) f.planner).1
          fun left right => decide (debug left ≤ debug right)).filterMap
            EdgeLifecycleAction.provisionRegion
    rw [hperm.count_eq]
    exact List.nodup_iff_count_le_one.mp
      ((nodup_regionsOf f.nodes).sublist (provisionRegions_sublist _ _ _ _)) region

theorem mem_actions_iff :
    .provision region ∈ (step debug config controllerNodeId f (.plan nowUnixMs)).1 ↔
      Turn config controllerNodeId f nowUnixMs.toNat region := by
  show _ ∈ (f.planner.plan debug config f.nodes controllerNodeId nowUnixMs.toNat).1 ↔ _
  unfold EdgeLifecyclePlanner.plan Turn
  dsimp only
  split
  next h => simp [h]
  next h =>
    rw [Bool.not_eq_true, Bool.not_eq_false] at h
    rw [List.mem_mergeSort]
    by_cases hmem : region ∈ regionsOf f.nodes
    · rw [(planRegions_mem (nodup_regionsOf f.nodes) hmem f.planner).2]
      simp [h, hmem]
    · simp [hmem, (planRegions_notMem hmem f.planner).2]

/-- The entries of a region after a call. -/
theorem entries_step_plan :
    (step debug config controllerNodeId f (.plan nowUnixMs)).2.planner.entries region =
      if config.normalized.enabled = true ∧ region ∈ regionsOf f.nodes then
        (f.planner.planRegion config.normalized (nodesIn f.nodes region) controllerNodeId region
          nowUnixMs.toNat).2.entries region
      else f.planner.entries region := by
  show (f.planner.plan debug config f.nodes controllerNodeId nowUnixMs.toNat).2.entries region = _
  unfold EdgeLifecyclePlanner.plan
  dsimp only
  split
  next h =>
    rw [if_neg]
    exact fun hboth => h hboth.1
  next h =>
    rw [Bool.not_eq_true, Bool.not_eq_false] at h
    by_cases hmem : region ∈ regionsOf f.nodes
    · rw [if_pos ⟨h, hmem⟩]
      exact (planRegions_mem (nodup_regionsOf f.nodes) hmem f.planner).1
    · rw [if_neg (fun hboth => hmem hboth.2)]
      exact (planRegions_notMem hmem f.planner).1

/-! ## §3. The ceiling. -/

theorem live_append (nodes : List EdgeLifecycleNode) (node : EdgeLifecycleNode)
    (h : node.draining = false) (region : String) :
    live (nodes ++ [node]) region = live nodes region + if node.region = region then 1 else 0 := by
  unfold live liveNodes nodesIn
  rw [List.filter_append, List.filter_append, List.length_append]
  by_cases hregion : node.region = region
  · simp [hregion, h]
  · simp [hregion]

/-- **One step keeps the ceiling.** -/
theorem ceiling_step {bound : Nat} (hallowed : Allowed f op)
    (hcooldown : InCooldown config f op)
    (hbound : config.normalized.maxEdgesPerRegion.toNat ≤ bound)
    (h : live f.nodes region + f.pending.count region ≤ bound) :
    live (step debug config controllerNodeId f op).2.nodes region +
      (step debug config controllerNodeId f op).2.pending.count region ≤ bound := by
  cases op with
  | observe nodes =>
      have hless := hallowed region
      show live nodes region + f.pending.count region ≤ bound
      omega
  | boot node =>
      obtain ⟨hmem, hdraining⟩ := hallowed
      show live (f.nodes ++ [node]) region + (f.pending.erase node.region).count region ≤ bound
      rw [live_append _ _ hdraining]
      by_cases hregion : node.region = region
      · subst hregion
        have hpos := List.count_pos_iff.mpr hmem
        rw [if_pos rfl, List.count_erase_self]
        omega
      · rw [if_neg hregion, List.count_erase_of_ne (Ne.symm hregion)]
        omega
  | plan nowUnixMs =>
      show live f.nodes region +
        (f.pending ++ (step debug config controllerNodeId f (.plan nowUnixMs)).1.filterMap
          EdgeLifecycleAction.provisionRegion).count region ≤ bound
      rw [List.count_append]
      have hone := @count_provisioned_le debug config controllerNodeId f nowUnixMs region
      by_cases hprovision : .provision region ∈
          (step debug config controllerNodeId f (.plan nowUnixMs)).1
      · -- the call found room: with the provisions in flight, or there are none past the cooldown
        obtain ⟨-, -, hturn⟩ := mem_actions_iff.mp hprovision
        unfold EdgeLifecyclePlanner.provisions at hturn
        rw [Bool.and_eq_true, Bool.and_eq_true, Bool.and_eq_true] at hturn
        obtain ⟨⟨⟨hroom, -⟩, -⟩, hover⟩ := hturn
        have hroom := of_decide_eq_true hroom
        have hover := of_decide_eq_true hover
        change live f.nodes region < _ at hroom
        by_contra hexceeds
        have hin := hcooldown region hroom (by omega)
        omega
      · have hzero : ((step debug config controllerNodeId f (.plan nowUnixMs)).1.filterMap
            EdgeLifecycleAction.provisionRegion).count region = 0 := by
          rw [List.count_eq_zero]
          intro hmem
          obtain ⟨action, haction, hregion⟩ := List.mem_filterMap.mp hmem
          cases action with
          | close nodeId region' => cases hregion
          | provision region' =>
              cases hregion
              exact hprovision haction
        omega

/-! ## §4. Cooldown and samples. -/

theorem toNat_cooldown_pos (config : EdgeLifecycleConfig) :
    1 ≤ config.normalized.provisionCooldownSeconds.toNat := by
  show 1 ≤ (max config.provisionCooldownSeconds 1).toNat
  rw [u64_toNat_max]
  exact Nat.le_max_right _ _

/-- What the planner remembers of a run. -/
structure Remembers (debug : EdgeLifecycleAction → String) (config : EdgeLifecycleConfig)
    (controllerNodeId : String) (start : Fleet) (ops : List FleetOp) (f : Fleet) : Prop where
  last : ∀ region, f.planner.lastProvisionUnixMs.lookup region =
    (provisionTimes debug config controllerNodeId start ops region).getLast?
  late : ∀ region, ∀ t ∈ provisionTimes debug config controllerNodeId start ops region,
    cooldownMs config.normalized ≤ t
  apart : ∀ region, (provisionTimes debug config controllerNodeId start ops region).Pairwise
    fun t t' => t + config.normalized.provisionCooldownSeconds.toNat * 1000 ≤ t'
  sampled : ∀ region, ∃ earlier, samples debug config controllerNodeId start ops region =
    earlier ++ List.replicate ((f.planner.pressureSamples.lookup region).getD 0) true

/-- The entries of a region after any operation, from what it provisions and samples. -/
theorem planner_step (f : Fleet) (op : FleetOp) (region : String) :
    (step debug config controllerNodeId f op).2.planner.lastProvisionUnixMs.lookup region =
      (provisionedAt debug config controllerNodeId region (f, op)).or
        (f.planner.lastProvisionUnixMs.lookup region) ∧
    ((step debug config controllerNodeId f op).2.planner.pressureSamples.lookup region).getD 0 =
      match sampledBy config region (f, op) with
      | none => (f.planner.pressureSamples.lookup region).getD 0
      | some true => min ((f.planner.pressureSamples.lookup region).getD 0 + 1) u32Max
      | some false => 0 := by
  cases op with
  | observe nodes => exact ⟨rfl, rfl⟩
  | boot node => exact ⟨rfl, rfl⟩
  | plan nowUnixMs =>
      have hentries := @entries_step_plan debug config controllerNodeId f region nowUnixMs
      have hturn := @mem_actions_iff debug config controllerNodeId f region nowUnixMs
      have hat : provisionedAt debug config controllerNodeId region (f, .plan nowUnixMs) =
          if .provision region ∈ (step debug config controllerNodeId f (.plan nowUnixMs)).1 then
            some nowUnixMs.toNat else none := rfl
      have hby : sampledBy config region (f, .plan nowUnixMs) =
          if config.normalized.enabled ∧ region ∈ regionsOf f.nodes then
            some (pressure config.normalized (nodesIn f.nodes region)) else none := rfl
      rw [hat, hby]
      by_cases hvisited : config.normalized.enabled = true ∧ region ∈ regionsOf f.nodes
      · rw [if_pos hvisited, entries_planRegion_self] at hentries
        obtain ⟨hlast, hsamples⟩ := Prod.mk.inj hentries
        rw [hlast, hsamples, if_pos hvisited]
        constructor
        · by_cases hprovisions : f.planner.provisions config.normalized (nodesIn f.nodes region)
              controllerNodeId region nowUnixMs.toNat = true
          · rw [if_pos hprovisions, if_pos (hturn.mpr ⟨hvisited.1, hvisited.2, hprovisions⟩)]
            rfl
          · rw [if_neg hprovisions, if_neg (fun hmem => hprovisions (hturn.mp hmem).2.2)]
            rfl
        · unfold EdgeLifecyclePlanner.nextSamples
          cases pressure config.normalized (nodesIn f.nodes region) with
          | true => rfl
          | false => rfl
      · rw [if_neg hvisited] at hentries
        obtain ⟨hlast, hsamples⟩ := Prod.mk.inj hentries
        rw [hlast, hsamples, if_neg hvisited]
        refine ⟨?_, rfl⟩
        rw [if_neg (fun hmem => hvisited ⟨(hturn.mp hmem).1, (hturn.mp hmem).2.1⟩)]
        rfl

/-- What a step that provisions has found. -/
theorem provisionedAt_eq_some {t : Nat}
    (h : provisionedAt debug config controllerNodeId region (f, op) = some t) :
    t ≤ u64Max ∧
      cooldownMs config.normalized ≤ t - (f.planner.lastProvisionUnixMs.lookup region).getD 0 ∧
      sampledBy config region (f, op) = some true ∧
      1 ≤ (f.planner.pressureSamples.lookup region).getD 0 := by
  cases op with
  | observe nodes => cases h
  | boot node => cases h
  | plan nowUnixMs =>
      unfold provisionedAt at h
      dsimp only at h
      split at h
      next hmem =>
        cases h
        obtain ⟨henabled, hvisited, hprovisions⟩ := mem_actions_iff.mp hmem
        unfold EdgeLifecyclePlanner.provisions at hprovisions
        rw [Bool.and_eq_true, Bool.and_eq_true, Bool.and_eq_true] at hprovisions
        obtain ⟨⟨⟨-, htwo⟩, -⟩, hover⟩ := hprovisions
        have htwo := of_decide_eq_true htwo
        unfold EdgeLifecyclePlanner.nextSamples at htwo
        split at htwo
        next hpressure =>
          refine ⟨toNat_le_u64Max nowUnixMs, of_decide_eq_true hover, ?_, by omega⟩
          unfold sampledBy
          dsimp only
          rw [if_pos ⟨henabled, hvisited⟩, hpressure]
        next => omega
      next => cases h

theorem getLast?_append_toList {l : List Nat} {o : Option Nat} :
    (l ++ o.toList).getLast? = o.or l.getLast? := by
  cases o with
  | none => simp
  | some t => simp

/-- A provision is a cooldown after the last one.  A saturated cooldown would need a second
provision past the end of the clock. -/
theorem cooldown_apart {t t' : Nat} (hlate : cooldownMs config.normalized ≤ t)
    (hmax : t' ≤ u64Max) (hover : cooldownMs config.normalized ≤ t' - t) :
    t + config.normalized.provisionCooldownSeconds.toNat * 1000 ≤ t' := by
  have hpos := toNat_cooldown_pos config
  unfold cooldownMs satMul at hlate hover
  unfold u64Max at hlate hover hmax
  omega

/-- **One step keeps the memory of the run.** -/
theorem Remembers.step {nodes : List EdgeLifecycleNode} {ops : List FleetOp}
    (h : Remembers debug config controllerNodeId (start nodes) ops f)
    (hf : f = exec (step debug config controllerNodeId) (start nodes) ops) (op : FleetOp) :
    Remembers debug config controllerNodeId (start nodes) (ops ++ [op])
      (step debug config controllerNodeId f op).2 := by
  have htimes : ∀ region, provisionTimes debug config controllerNodeId (start nodes) (ops ++ [op])
      region = provisionTimes debug config controllerNodeId (start nodes) ops region ++
        (provisionedAt debug config controllerNodeId region (f, op)).toList := by
    intro region
    rw [hf]
    exact filterMap_trace_append_singleton _ _ _ _ _
  have hsamples : ∀ region, samples debug config controllerNodeId (start nodes) (ops ++ [op])
      region = samples debug config controllerNodeId (start nodes) ops region ++
        (sampledBy config region (f, op)).toList := by
    intro region
    rw [hf]
    exact filterMap_trace_append_singleton _ _ _ _ _
  constructor
  case last =>
    intro region
    rw [(planner_step f op region).1, htimes, getLast?_append_toList, h.last]
  case late =>
    intro region t ht
    rw [htimes, List.mem_append, Option.mem_toList] at ht
    rcases ht with hold | hnew
    · exact h.late region t hold
    · have hfound := provisionedAt_eq_some hnew
      omega
  case apart =>
    intro region
    rw [htimes]
    refine List.pairwise_append.mpr ⟨h.apart region, ?_, ?_⟩
    · cases provisionedAt debug config controllerNodeId region (f, op) with
      | none => exact List.Pairwise.nil
      | some t => exact List.pairwise_singleton _ _
    · intro t ht t' ht'
      rw [Option.mem_toList] at ht'
      obtain ⟨hmax, hover, -, -⟩ := provisionedAt_eq_some ht'
      rw [h.last] at hover
      -- the last provision is a cooldown back, and every earlier one is before it
      cases hlast : (provisionTimes debug config controllerNodeId (start nodes) ops
          region).getLast? with
      | none =>
          rw [List.getLast?_eq_none_iff] at hlast
          rw [hlast] at ht
          cases ht
      | some last =>
          rw [hlast] at hover
          have hlate := h.late region last (List.mem_of_getLast? hlast)
          have hapart := cooldown_apart hlate hmax hover
          obtain ⟨front, hfront⟩ := List.getLast?_eq_some_iff.mp hlast
          have hpairwise := h.apart region
          rw [hfront] at ht hpairwise
          rcases List.mem_append.mp ht with ht | ht
          · have hbefore := (List.pairwise_append.mp hpairwise).2.2 t ht last List.mem_cons_self
            omega
          · rw [List.mem_singleton.mp ht]
            exact hapart
  case sampled =>
    intro region
    rw [(planner_step f op region).2, hsamples]
    obtain ⟨earlier, hearlier⟩ := h.sampled region
    rw [hearlier]
    generalize (f.planner.pressureSamples.lookup region).getD 0 = n
    cases sampledBy config region (f, op) with
    | none => exact ⟨earlier, by simp⟩
    | some sample =>
        cases sample with
        | false => exact ⟨earlier ++ List.replicate n true ++ [false], by simp⟩
        | true =>
            -- one more sample under pressure; a saturated counter only forgets older ones
            have hle : min (n + 1) u32Max ≤ n + 1 := Nat.min_le_left _ _
            refine ⟨earlier ++ List.replicate (n + 1 - min (n + 1) u32Max) true, ?_⟩
            show earlier ++ List.replicate n true ++ [true] = earlier ++
              List.replicate (n + 1 - min (n + 1) u32Max) true ++
                List.replicate (min (n + 1) u32Max) true
            rw [List.append_assoc, List.append_assoc, List.replicate_append_replicate,
              ← List.replicate_succ']
            congr 2
            omega

theorem remembers_exec (debug : EdgeLifecycleAction → String) (config : EdgeLifecycleConfig)
    (controllerNodeId : String) (nodes : List EdgeLifecycleNode) (ops : List FleetOp) :
    Remembers debug config controllerNodeId (start nodes) ops
      (exec (step debug config controllerNodeId) (start nodes) ops) := by
  refine exec_history (Fleet.step debug config controllerNodeId)
    (Remembers debug config controllerNodeId (start nodes)) (start nodes) ?_ ?_ ops
  · exact ⟨fun _ => rfl, nofun, fun _ => List.Pairwise.nil, fun _ => ⟨[], rfl⟩⟩
  · intro ops op ih
    exact ih.step rfl op

/-! ## §5. Whole runs. -/

/-- **The cooldown**: provisions of a region are apart, in every run. -/
theorem provisions_apart (debug : EdgeLifecycleAction → String) (config : EdgeLifecycleConfig)
    (controllerNodeId : String) (nodes : List EdgeLifecycleNode) (ops : List FleetOp)
    (region : String) :
    (provisionTimes debug config controllerNodeId (start nodes) ops region).Pairwise
      fun t t' => t + config.normalized.provisionCooldownSeconds.toNat * 1000 ≤ t' :=
  (remembers_exec debug config controllerNodeId nodes ops).apart region

/-- **Two samples** under pressure come before every provision, in every run. -/
theorem provision_sampled (debug : EdgeLifecycleAction → String) (config : EdgeLifecycleConfig)
    (controllerNodeId : String) (nodes : List EdgeLifecycleNode) {before : List FleetOp}
    {nowUnixMs : UInt64} {region : String}
    (hprovision : .provision region ∈ (step debug config controllerNodeId
      (exec (step debug config controllerNodeId) (start nodes) before) (.plan nowUnixMs)).1) :
    ∃ earlier, samples debug config controllerNodeId (start nodes)
      (before ++ [.plan nowUnixMs]) region = earlier ++ [true, true] := by
  have hat : provisionedAt debug config controllerNodeId region
      (exec (step debug config controllerNodeId) (start nodes) before, .plan nowUnixMs) =
        some nowUnixMs.toNat := if_pos hprovision
  obtain ⟨-, -, hsample, hone⟩ := provisionedAt_eq_some hat
  obtain ⟨earlier, hearlier⟩ :=
    (remembers_exec debug config controllerNodeId nodes before).sampled region
  obtain ⟨n, hn⟩ := Nat.exists_eq_add_of_le' hone
  refine ⟨earlier ++ List.replicate n true, ?_⟩
  unfold samples at hearlier ⊢
  rw [filterMap_trace_append_singleton, hsample, hearlier, hn, List.replicate_succ']
  simp

/-- **The ceiling of a region, its cooldown and its samples, over every run.** -/
theorem exec_ceiling (debug : EdgeLifecycleAction → String) (config : EdgeLifecycleConfig)
    (controllerNodeId : String) (nodes : List EdgeLifecycleNode) (ops : List FleetOp)
    (hallowed : ∀ entry ∈ trace (step debug config controllerNodeId) (start nodes) ops,
      Allowed entry.1 entry.2)
    (hcooldown : ∀ entry ∈ trace (step debug config controllerNodeId) (start nodes) ops,
      InCooldown config entry.1 entry.2) (region : String) :
    live (exec (step debug config controllerNodeId) (start nodes) ops).nodes region +
        (exec (step debug config controllerNodeId) (start nodes) ops).pending.count region
      ≤ max config.normalized.maxEdgesPerRegion.toNat (live nodes region) ∧
    (provisionTimes debug config controllerNodeId (start nodes) ops region).Pairwise
      (fun t t' => t + config.normalized.provisionCooldownSeconds.toNat * 1000 ≤ t') ∧
    ∀ before nowUnixMs after, ops = before ++ .plan nowUnixMs :: after →
      .provision region ∈ (step debug config controllerNodeId
        (exec (step debug config controllerNodeId) (start nodes) before) (.plan nowUnixMs)).1 →
      ∃ earlier, samples debug config controllerNodeId (start nodes)
        (before ++ [.plan nowUnixMs]) region = earlier ++ [true, true] := by
  refine ⟨?_, provisions_apart debug config controllerNodeId nodes ops region,
    fun _ _ _ _ hprovision =>
      provision_sampled debug config controllerNodeId nodes hprovision⟩
  refine exec_invariant_along (step debug config controllerNodeId)
    (fun f => live f.nodes region + f.pending.count region
      ≤ max config.normalized.maxEdgesPerRegion.toNat (live nodes region))
    (fun f op => Allowed f op ∧ InCooldown config f op)
    (fun f op hop h => ceiling_step hop.1 hop.2 (Nat.le_max_left _ _) h) ops (start nodes)
    (fun entry hentry => ⟨hallowed entry hentry, hcooldown entry hentry⟩) ?_
  show live nodes region + 0 ≤ _
  exact Nat.le_max_right _ _

/-! ## §6. Two runs. -/

section Samples

def twoEdges : EdgeLifecycleConfig := { enabled := true, maxEdgesPerRegion := 2 }

/-- An overloaded edge, or a fresh one. -/
def edge (nodeId : String) (egressOverloaded : Bool) : EdgeLifecycleNode :=
  { nodeId, region := "uk", updatedUnixMs := 100000, lastResponseUnixMs := some 100000,
    activeReaders := 1, egressOverloaded, draining := false }

def actionText : EdgeLifecycleAction → String
  | .provision region => "Provision \x7b region: " ++ region.quote ++ " \x7d"
  | .close nodeId region =>
      "Close \x7b node_id: " ++ nodeId.quote ++ ", region: " ++ region.quote ++ " \x7d"

/-- A provision that boots within the cooldown. -/
theorem exec_ceiling_fast_boot :
    live (exec (step actionText twoEdges "edge-a") (start [edge "edge-a" true])
        [.plan 100000, .plan 105000, .boot (edge "edge-b" false)]).nodes "uk" = 2 ∧
    live (exec (step actionText twoEdges "edge-a") (start [edge "edge-a" true])
        [.plan 100000, .plan 105000, .boot (edge "edge-b" false)]).nodes "uk" +
      (exec (step actionText twoEdges "edge-a") (start [edge "edge-a" true])
        [.plan 100000, .plan 105000, .boot (edge "edge-b" false)]).pending.count "uk"
      ≤ max twoEdges.normalized.maxEdgesPerRegion.toNat (live [edge "edge-a" true] "uk") := by
  refine ⟨by decide +kernel, (exec_ceiling actionText twoEdges "edge-a" [edge "edge-a" true]
    [.plan 100000, .plan 105000, .boot (edge "edge-b" false)] ?_ ?_ "uk").1⟩
  · intro entry hentry
    simp only [trace_cons, trace_nil, List.mem_cons, List.not_mem_nil, or_false] at hentry
    rcases hentry with rfl | rfl | rfl
    · trivial
    · trivial
    · exact ⟨by decide +kernel, rfl⟩
  · intro entry hentry
    simp only [trace_cons, trace_nil, List.mem_cons, List.not_mem_nil, or_false] at hentry
    rcases hentry with rfl | rfl | rfl
    · intro region hroom hfull
      exact absurd hroom (Nat.not_lt.mpr hfull)
    · intro region hroom hfull
      have hnone : (exec (step actionText twoEdges "edge-a") (start [edge "edge-a" true])
          [.plan 100000]).pending = [] := by decide +kernel
      change _ ≤ _ + List.count region (exec (step actionText twoEdges "edge-a")
        (start [edge "edge-a" true]) [.plan 100000]).pending at hfull
      rw [hnone] at hfull
      exact absurd hroom (Nat.not_lt.mpr hfull)
    · trivial

/-- The leader plans every five seconds and the first edge takes longer than the cooldown to boot:
the region is provisioned twice and ends up with three edges. -/
def slowBoot : List FleetOp :=
  [.plan 100000, .plan 105000, .plan 135000, .boot (edge "edge-b" false),
    .boot (edge "edge-c" false)]

theorem slow_boot_exceeds_ceiling :
    (∀ entry ∈ trace (step actionText twoEdges "edge-a") (start [edge "edge-a" true]) slowBoot,
      Allowed entry.1 entry.2) ∧
    (exec (step actionText twoEdges "edge-a") (start [edge "edge-a" true]) slowBoot).pending = [] ∧
    ¬ live (exec (step actionText twoEdges "edge-a") (start [edge "edge-a" true]) slowBoot).nodes "uk"
      + (exec (step actionText twoEdges "edge-a") (start [edge "edge-a" true]) slowBoot).pending.count
        "uk"
      ≤ max twoEdges.normalized.maxEdgesPerRegion.toNat (live [edge "edge-a" true] "uk") := by
  refine ⟨?_, by decide +kernel, by decide +kernel⟩
  intro entry hentry
  simp only [slowBoot, trace_cons, trace_nil, List.mem_cons, List.not_mem_nil, or_false] at hentry
  rcases hentry with rfl | rfl | rfl | rfl | rfl
  · trivial
  · trivial
  · trivial
  · exact ⟨by decide +kernel, rfl⟩
  · exact ⟨by decide +kernel, rfl⟩

end Samples

end Fleet

end AvMesh.Edge
