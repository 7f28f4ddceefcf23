/-
  AvMesh.Edge.Decisions
  ─────────────────────
  **WHAT ONE CALL OF THE LIFECYCLE PLANNER DECIDES.**

  A call visits the regions in the order of a hash map and sorts what it
  decided by `Debug` text.  Neither order shows:

    • a turn reads and writes the entries of its own region alone, so the
      actions are those of the regions taken one by one (`planRegions_actions`),
    • `Debug` texts of different actions differ (`debug_inj`), so the sorted
      list is determined by its members (`mergeSort_key_eq`),
    • the leader and the candidate are least elements, and the actions carry
      their ids alone (`minBy_key_eq`).

  `Decides` collects what a call promises.  One clause speaks of the true
  number of readers of a region, and the code adds with `sum::<u64>()`, which
  wraps: `plan_decides_iff` says for which views it is right all the same.
-/
import AvMesh.Edge.Lifecycle
import AvMesh.Lib.DebugText
import Mathlib.Data.List.Perm.Lattice
import Mathlib.Data.Prod.Lex
import Mathlib.Data.String.Basic

namespace AvMesh.Edge

open AvMesh.Lib

/-! ## §1. The order of the actions. -/

def EdgeLifecycleAction.region : EdgeLifecycleAction → String
  | provision region => region
  | close _ region => region

/-- The derived `Debug` text. -/
def EdgeLifecycleAction.debug (isPlain : Char → Bool) : EdgeLifecycleAction → String
  | provision region =>
      String.ofList ("Provision \x7b region: ".toList ++
        (debugStr isPlain region ++ " \x7d".toList))
  | close nodeId region =>
      String.ofList ("Close \x7b node_id: ".toList ++
        (debugStr isPlain nodeId ++ (", region: ".toList ++
          (debugStr isPlain region ++ " \x7d".toList))))

/-- Different actions have different texts. -/
theorem debug_inj {isPlain : Char → Bool} {a b : EdgeLifecycleAction}
    (h : a.debug isPlain = b.debug isPlain) : a = b := by
  cases a with
  | provision region =>
      cases b with
      | provision region' =>
          have hchars := String.ofList_inj.mp h
          rw [(debugStr_cancel (List.append_cancel_left hchars)).1]
      | close nodeId' region' =>
          -- the first letters differ
          have hchars := congrArg List.head? (String.ofList_inj.mp h)
          exact absurd hchars (by simp)
  | close nodeId region =>
      cases b with
      | provision region' =>
          have hchars := congrArg List.head? (String.ofList_inj.mp h)
          exact absurd hchars (by simp)
      | close nodeId' region' =>
          have hchars := String.ofList_inj.mp h
          obtain ⟨hnode, hrest⟩ := debugStr_cancel (List.append_cancel_left hchars)
          rw [hnode, (debugStr_cancel (List.append_cancel_left hrest)).1]

/-- Sorted by a key that tells its members apart, a list is determined by its members. -/
theorem mergeSort_key_eq {α β : Type} [LinearOrder β] {key : α → β} {le : α → α → Bool}
    (hle : ∀ a b, le a b = true ↔ key a ≤ key b) (hinj : ∀ a b, key a = key b → a = b)
    {l l' : List α} (h : l.Perm l') : l.mergeSort le = l'.mergeSort le := by
  have hsorted : ∀ m : List α, (m.mergeSort le).Pairwise fun a b => key a ≤ key b := by
    intro m
    have hpairwise := @List.pairwise_mergeSort α le
      (fun a b c hab hbc => by
        rw [hle] at hab hbc ⊢
        exact le_trans hab hbc)
      (fun a b => by
        rw [Bool.or_eq_true, hle, hle]
        exact le_total _ _) m
    exact hpairwise.imp fun hab => (hle _ _).mp hab
  have hperm : (l.mergeSort le).Perm (l'.mergeSort le) :=
    (List.mergeSort_perm l le).trans (h.trans (List.mergeSort_perm l' le).symm)
  refine List.Perm.eq_of_pairwise ?_ (hsorted l) (hsorted l') hperm
  intro a b _ _ hab hba
  exact hinj a b (le_antisymm hab hba)

/-! ## §2. Least elements. -/

section MinBy

variable {α β : Type} [LinearOrder β] {key : α → β} {less : α → α → Bool}

theorem minBy_eq_none {l : List α} : minBy less l = none ↔ l = [] := by
  cases l with
  | nil => exact ⟨fun _ => rfl, fun _ => rfl⟩
  | cons first rest => exact ⟨nofun, nofun⟩

theorem foldl_less (hless : ∀ x y, less x y = true ↔ key x < key y) (l : List α) (first : α) :
    (l.foldl (fun best x => if less x best then x else best) first ∈ first :: l) ∧
    ∀ x ∈ first :: l,
      key (l.foldl (fun best x => if less x best then x else best) first) ≤ key x := by
  induction l generalizing first with
  | nil =>
      refine ⟨List.mem_singleton.mpr rfl, ?_⟩
      intro x hx
      rw [List.mem_singleton.mp hx]
      exact le_refl _
  | cons second rest ih =>
      rw [List.foldl_cons]
      obtain ⟨hmem, hle⟩ := ih (if less second first then second else first)
      cases hsecond : less second first with
      | true =>
          have hlt := (hless second first).mp hsecond
          rw [hsecond, if_pos rfl] at hmem hle
          rw [if_pos rfl]
          refine ⟨List.mem_cons_of_mem _ hmem, ?_⟩
          intro x hx
          rcases List.mem_cons.mp hx with rfl | hx
          · exact le_trans (hle second List.mem_cons_self) (le_of_lt hlt)
          · exact hle x hx
      | false =>
          have hge : key first ≤ key second := by
            rw [← not_lt, ← hless, hsecond]
            nofun
          rw [hsecond, if_neg (by nofun)] at hmem hle
          rw [if_neg (by nofun)]
          refine ⟨?_, ?_⟩
          · rcases List.mem_cons.mp hmem with hsame | hmem
            · exact List.mem_cons.mpr (.inl hsame)
            · exact List.mem_cons_of_mem _ (List.mem_cons_of_mem _ hmem)
          · intro x hx
            rcases List.mem_cons.mp hx with rfl | hx
            · exact hle x List.mem_cons_self
            · rcases List.mem_cons.mp hx with rfl | hx
              · exact le_trans (hle first List.mem_cons_self) hge
              · exact hle x (List.mem_cons_of_mem _ hx)

/-- `min_by` finds a least element. -/
theorem minBy_spec (hless : ∀ x y, less x y = true ↔ key x < key y) {l : List α} {least : α}
    (h : minBy less l = some least) : least ∈ l ∧ ∀ x ∈ l, key least ≤ key x := by
  cases l with
  | nil => cases h
  | cons first rest =>
      cases h
      exact foldl_less hless rest first

/-- The least key does not depend on the order of the list. -/
theorem minBy_key_eq (hless : ∀ x y, less x y = true ↔ key x < key y) {l l' : List α}
    (h : l.Perm l') : (minBy less l).map key = (minBy less l').map key := by
  cases hleast : minBy less l with
  | none =>
      have hnil := minBy_eq_none.mp hleast
      rw [hnil] at h
      rw [h.symm.eq_nil]
      rfl
  | some least =>
      cases hleast' : minBy less l' with
      | none =>
          have hnil := minBy_eq_none.mp hleast'
          rw [hnil] at h
          rw [h.eq_nil] at hleast
          cases hleast
      | some least' =>
          obtain ⟨hmem, hle⟩ := minBy_spec hless hleast
          obtain ⟨hmem', hle'⟩ := minBy_spec hless hleast'
          have hsame := le_antisymm (hle least' (h.mem_iff.mpr hmem'))
            (hle' least (h.mem_iff.mp hmem))
          rw [Option.map_some, Option.map_some, hsame]

end MinBy

/-! ## §3. One region. -/

namespace EdgeLifecyclePlanner

variable {p : EdgeLifecyclePlanner} {config : EdgeLifecycleConfig}
  {nodes regionNodes regionNodes' : List EdgeLifecycleNode}
  {controllerNodeId region other : String} {nowUnixMs : Nat} {regions : List String}

theorem mem_live {node : EdgeLifecycleNode} :
    node ∈ liveNodes (nodesIn nodes region) ↔
      node ∈ nodes ∧ node.region = region ∧ node.draining = false := by
  unfold liveNodes nodesIn
  rw [List.mem_filter, List.mem_filter, Bool.not_eq_true', decide_eq_true_eq, and_assoc]

/-- The node has the least id of the nodes of the region that are not draining. -/
def LeastLive (nodes : List EdgeLifecycleNode) (region id : String) : Prop :=
  (∃ node ∈ nodes, node.region = region ∧ node.draining = false ∧ node.nodeId = id) ∧
  ∀ node ∈ nodes, node.region = region → node.draining = false → id ≤ node.nodeId

theorem LeastLive.unique {id id' : String} (h : LeastLive nodes region id)
    (h' : LeastLive nodes region id') : id = id' := by
  obtain ⟨⟨node, hnode, hregion, hlive, rfl⟩, hleast⟩ := h
  obtain ⟨⟨node', hnode', hregion', hlive', rfl⟩, hleast'⟩ := h'
  exact le_antisymm (hleast node' hnode' hregion' hlive') (hleast' node hnode hregion hlive)

theorem idOrder (left right : EdgeLifecycleNode) :
    decide (left.nodeId < right.nodeId) = true ↔ left.nodeId < right.nodeId :=
  decide_eq_true_iff

/-- The order of the candidates: the least recently active first, then by id. -/
theorem activityOrder (left right : EdgeLifecycleNode) :
    (decide (left.activity < right.activity) ||
      (left.activity == right.activity && decide (left.nodeId < right.nodeId))) = true ↔
      toLex (left.activity, left.nodeId) < toLex (right.activity, right.nodeId) := by
  rw [Prod.Lex.toLex_lt_toLex]
  simp only [Bool.or_eq_true, Bool.and_eq_true, decide_eq_true_eq, beq_iff_eq]

theorem leastLive_of_isLeader (h : isLeader (nodesIn nodes region) controllerNodeId = true) :
    LeastLive nodes region controllerNodeId := by
  unfold isLeader at h
  cases hleader : leader (nodesIn nodes region) with
  | none =>
      rw [hleader] at h
      cases h
  | some node =>
      rw [hleader] at h
      have hid : node.nodeId = controllerNodeId := by simpa using h
      obtain ⟨hmem, hle⟩ := minBy_spec idOrder hleader
      obtain ⟨hnode, hregion, hlive⟩ := mem_live.mp hmem
      refine ⟨⟨node, hnode, hregion, hlive, hid⟩, ?_⟩
      intro other hother hsame hawake
      rw [← hid]
      exact hle other (mem_live.mpr ⟨hother, hsame, hawake⟩)

theorem closeCandidate_spec {node : EdgeLifecycleNode}
    (h : closeCandidate config (nodesIn nodes region) nowUnixMs = some node) :
    node ∈ nodes ∧ node.region = region ∧ node.draining = false ∧ node.activeReaders = 0 ∧
      satMul config.idleSeconds.toNat 1000 ≤ nowUnixMs - node.activity := by
  have hmem := (minBy_spec activityOrder h).1
  unfold nodesIn at hmem
  simp only [List.mem_filter, Bool.and_eq_true, Bool.not_eq_true', beq_iff_eq,
    decide_eq_true_eq] at hmem
  obtain ⟨⟨⟨hnode, hregion⟩, hlive, hreaders⟩, hidle⟩ := hmem
  exact ⟨hnode, hregion, hlive, hreaders, hidle⟩

/-- The order of a region's nodes does not show in its turn. -/
theorem planRegion_perm (h : regionNodes.Perm regionNodes') :
    p.planRegion config regionNodes controllerNodeId region nowUnixMs =
      p.planRegion config regionNodes' controllerNodeId region nowUnixMs := by
  have hlive : (liveNodes regionNodes).Perm (liveNodes regionNodes') := h.filter _
  have hpressure : pressure config regionNodes = pressure config regionNodes' := by
    unfold pressure
    rw [(hlive.map (·.activeReaders)).sum_eq, h.any_eq]
  have hleader : isLeader regionNodes controllerNodeId = isLeader regionNodes' controllerNodeId := by
    have hid := minBy_key_eq idOrder hlive
    have hread : ∀ l, isLeader l controllerNodeId =
        ((leader l).map (·.nodeId)).any fun id => id == controllerNodeId := by
      intro l
      unfold isLeader
      cases leader l <;> rfl
    rw [hread, hread]
    exact congrArg (Option.any fun id => id == controllerNodeId) hid
  have hclose : (closeCandidate config regionNodes nowUnixMs).map (·.nodeId) =
      (closeCandidate config regionNodes' nowUnixMs).map (·.nodeId) := by
    have hkey := minBy_key_eq activityOrder (((h.filter fun node : EdgeLifecycleNode =>
      !node.draining && node.activeReaders == 0).filter fun node =>
        decide (nowUnixMs - node.activity ≥ satMul config.idleSeconds.toNat 1000)))
    have hid := congrArg (Option.map fun key => (ofLex key).2) hkey
    rw [Option.map_map, Option.map_map] at hid
    exact hid
  have haction : (closeCandidate config regionNodes nowUnixMs).map
        (fun node => EdgeLifecycleAction.close node.nodeId region) =
      (closeCandidate config regionNodes' nowUnixMs).map
        (fun node => EdgeLifecycleAction.close node.nodeId region) := by
    have hmapped := congrArg (Option.map fun id => EdgeLifecycleAction.close id region) hclose
    rw [Option.map_map, Option.map_map] at hmapped
    exact hmapped
  unfold planRegion provisions sample nextSamples
  rw [hpressure, hleader, hlive.length_eq, haction]

/-- What a turn decides depends on the entries of its region alone. -/
theorem planRegion_action_congr {q : EdgeLifecyclePlanner} (h : p.entries region = q.entries region) :
    (p.planRegion config regionNodes controllerNodeId region nowUnixMs).1 =
      (q.planRegion config regionNodes controllerNodeId region nowUnixMs).1 := by
  have hprovisions := (planRegion_congr config regionNodes controllerNodeId nowUnixMs h).1
  unfold planRegion
  dsimp only
  rw [hprovisions]
  split
  · rfl
  · split <;> rfl

/-- **The action of a region**: for the region, by its leader; a closed edge is idle, and the
region has more live edges than it needs. -/
theorem planRegion_action {action : EdgeLifecycleAction}
    (h : (p.planRegion config (nodesIn nodes region) controllerNodeId region nowUnixMs).1 =
      some action) :
    action.region = region ∧ LeastLive nodes region controllerNodeId ∧
      ∀ id closed, action = .close id closed →
        config.minEdgesPerRegion.toNat < (liveNodes (nodesIn nodes region)).length ∧
        ∃ node ∈ nodes, node.nodeId = id ∧ node.region = region ∧ node.draining = false ∧
          node.activeReaders = 0 ∧
          satMul config.idleSeconds.toNat 1000 ≤ nowUnixMs - node.activity := by
  unfold planRegion at h
  dsimp only at h
  split at h
  · next hprovisions =>
      cases h
      unfold provisions at hprovisions
      simp only [Bool.and_eq_true] at hprovisions
      exact ⟨rfl, leastLive_of_isLeader hprovisions.1.2, nofun⟩
  · split at h
    · cases h
    · next hleads =>
        obtain ⟨node, hcandidate, rfl⟩ := Option.map_eq_some_iff.mp h
        rw [not_or, not_not] at hleads
        obtain ⟨hnode, hregion, hlive, hreaders, hidle⟩ := closeCandidate_spec hcandidate
        refine ⟨rfl, leastLive_of_isLeader hleads.2, ?_⟩
        intro id closed hclose
        cases hclose
        exact ⟨by omega, node, hnode, rfl, hregion, hlive, hreaders, hidle⟩

/-! ## §4. Regions in any order. -/

/-- A call that visits the regions in a given order. -/
def planVisiting (debug : EdgeLifecycleAction → String) (p : EdgeLifecyclePlanner)
    (config : EdgeLifecycleConfig) (nodes : List EdgeLifecycleNode) (controllerNodeId : String)
    (nowUnixMs : Nat) (regions : List String) : List EdgeLifecycleAction × EdgeLifecyclePlanner :=
  let config := config.normalized
  if ¬ config.enabled then ([], p)
  else
    let (actions, p) := planRegions config nodes controllerNodeId nowUnixMs regions p
    (actions.mergeSort fun left right => decide (debug left ≤ debug right), p)

theorem plan_eq_planVisiting (debug : EdgeLifecycleAction → String) :
    p.plan debug config nodes controllerNodeId nowUnixMs =
      planVisiting debug p config nodes controllerNodeId nowUnixMs (regionsOf nodes) := rfl

/-- The actions of a call are those of its regions, each taken from the state before the call. -/
theorem planRegions_actions (hnodup : regions.Nodup) (p : EdgeLifecyclePlanner) :
    (planRegions config nodes controllerNodeId nowUnixMs regions p).1 =
      regions.flatMap fun region =>
        (p.planRegion config (nodesIn nodes region) controllerNodeId region nowUnixMs).1.toList := by
  induction regions generalizing p with
  | nil => rfl
  | cons first regions ih =>
      obtain ⟨hfirst, hrest⟩ := List.nodup_cons.mp hnodup
      rw [planRegions_cons, List.flatMap_cons]
      dsimp only
      rw [ih hrest]
      -- what the first region writes is not read by the turn of another
      congr 1
      refine List.flatMap_congr ?_
      intro region hregion
      have hne : region ≠ first := by
        rintro rfl
        exact hfirst hregion
      rw [planRegion_action_congr (entries_planRegion_ne hne)]

theorem planRegions_perm_nodes {nodes' : List EdgeLifecycleNode} (h : nodes.Perm nodes')
    (regions : List String) (p : EdgeLifecyclePlanner) :
    planRegions config nodes controllerNodeId nowUnixMs regions p =
      planRegions config nodes' controllerNodeId nowUnixMs regions p := by
  induction regions generalizing p with
  | nil => rfl
  | cons region regions ih =>
      have hregion : (nodesIn nodes region).Perm (nodesIn nodes' region) := h.filter _
      rw [planRegions_cons, planRegions_cons, planRegion_perm hregion, ih]

/-- The entries of every region after a call. -/
theorem entries_planRegions (hnodup : regions.Nodup) (p : EdgeLifecyclePlanner) (region : String) :
    (planRegions config nodes controllerNodeId nowUnixMs regions p).2.entries region =
      if region ∈ regions then
        (p.planRegion config (nodesIn nodes region) controllerNodeId region nowUnixMs).2.entries
          region
      else p.entries region := by
  split
  · next hmem => exact (planRegions_mem hnodup hmem p).1
  · next hmem => exact (planRegions_notMem hmem p).1

/-- **Neither order shows**: the nodes in any order, the regions visited in any order. -/
theorem planVisiting_order {isPlain : Char → Bool} {nodes' : List EdgeLifecycleNode}
    (hnodes : nodes.Perm nodes') (hregions : regions.Perm (regionsOf nodes)) :
    (planVisiting (EdgeLifecycleAction.debug isPlain) p config nodes' controllerNodeId nowUnixMs
        regions).1 =
      (p.plan (EdgeLifecycleAction.debug isPlain) config nodes controllerNodeId nowUnixMs).1 ∧
    ∀ region, (planVisiting (EdgeLifecycleAction.debug isPlain) p config nodes' controllerNodeId
        nowUnixMs regions).2.entries region =
      (p.plan (EdgeLifecycleAction.debug isPlain) config nodes controllerNodeId
        nowUnixMs).2.entries region := by
  have hvisited : (regionsOf nodes).Nodup := List.nodup_dedup _
  have hnodup : regions.Nodup := hregions.nodup_iff.mpr hvisited
  rw [plan_eq_planVisiting]
  unfold planVisiting
  dsimp only
  split
  · exact ⟨rfl, fun _ => rfl⟩
  · refine ⟨?_, ?_⟩
    -- the same actions in another order, and sorting by an injective text removes the order
    · refine mergeSort_key_eq (fun _ _ => decide_eq_true_iff) (fun _ _ => debug_inj) ?_
      rw [← planRegions_perm_nodes hnodes, planRegions_actions hnodup,
        planRegions_actions hvisited]
      exact hregions.flatMap_right _
    · intro region
      show EdgeLifecyclePlanner.entries (planRegions _ nodes' _ _ regions p).2 region =
        EdgeLifecyclePlanner.entries (planRegions _ nodes _ _ (regionsOf nodes) p).2 region
      rw [← planRegions_perm_nodes hnodes, entries_planRegions hnodup,
        entries_planRegions hvisited]
      simp only [hregions.mem_iff]

/-! ## §5. Pressure. -/

/-- A node of the region that is not draining reports overload. -/
def Overloaded (nodes : List EdgeLifecycleNode) (region : String) : Prop :=
  ∃ node ∈ nodes, node.region = region ∧ node.draining = false ∧ node.egressOverloaded = true

/-- The readers of the region's nodes that are not draining, however many. -/
def readersIn (nodes : List EdgeLifecycleNode) (region : String) : Nat :=
  ((liveNodes (nodesIn nodes region)).map (·.activeReaders)).sum

/-- The region is under pressure. -/
def UnderPressure (config : EdgeLifecycleConfig) (nodes : List EdgeLifecycleNode)
    (region : String) : Prop :=
  Overloaded nodes region ∨ config.normalized.scaleUpActiveReaders.toNat ≤ readersIn nodes region

theorem pressure_iff :
    pressure config (nodesIn nodes region) = true ↔
      Overloaded nodes region ∨
        config.scaleUpActiveReaders.toNat ≤ readersIn nodes region % 2 ^ 64 := by
  unfold pressure
  rw [Bool.or_eq_true, List.any_eq_true, decide_eq_true_eq]
  refine or_congr ?_ Iff.rfl
  unfold Overloaded nodesIn
  constructor
  · rintro ⟨node, hmem, hnode⟩
    simp only [List.mem_filter, decide_eq_true_eq] at hmem
    simp only [Bool.and_eq_true, Bool.not_eq_true'] at hnode
    exact ⟨node, hmem.1, hmem.2, hnode.1, hnode.2⟩
  · rintro ⟨node, hnode, hregion, hlive, hover⟩
    refine ⟨node, List.mem_filter.mpr ⟨hnode, decide_eq_true hregion⟩, ?_⟩
    rw [hlive, hover]
    rfl

/-- The wrapped sum finds the pressure that the true sum shows. -/
def ReadersCounted (config : EdgeLifecycleConfig) (nodes : List EdgeLifecycleNode)
    (region : String) : Prop :=
  Overloaded nodes region ∨ readersIn nodes region < 2 ^ 64 ∨
    config.normalized.scaleUpActiveReaders.toNat ≤ readersIn nodes region % 2 ^ 64

theorem pressure_correct_iff :
    (pressure config.normalized (nodesIn nodes region) = true ↔ UnderPressure config nodes region) ↔
      ReadersCounted config nodes region := by
  have hthreshold : config.normalized.scaleUpActiveReaders.toNat < 2 ^ 64 := UInt64.toNat_lt _
  rw [pressure_iff]
  unfold UnderPressure ReadersCounted
  by_cases hover : Overloaded nodes region
  · simp only [hover, true_or]
  · simp only [hover, false_or]
    constructor
    · intro hsame
      -- a wrapped sum is below the true one, so only a region taken for calm can be wrong
      by_cases hfits : readersIn nodes region < 2 ^ 64
      · exact .inl hfits
      · exact .inr (hsame.mpr (by omega))
    · rintro (hfits | hreached)
      · rw [Nat.mod_eq_of_lt hfits]
      · have hle := Nat.mod_le (readersIn nodes region) (2 ^ 64)
        exact ⟨fun _ => by omega, fun _ => hreached⟩

/-! ## §6. The decisions of a call. -/

/-- What a call promises. -/
structure Decides (isPlain : Char → Bool) (p : EdgeLifecyclePlanner) (config : EdgeLifecycleConfig)
    (nodes : List EdgeLifecycleNode) (controllerNodeId : String) (nowUnixMs : Nat) : Prop where
  disabled : config.enabled = false →
    p.plan (EdgeLifecycleAction.debug isPlain) config nodes controllerNodeId nowUnixMs = ([], p)
  one_per_region :
    ((p.plan (EdgeLifecycleAction.debug isPlain) config nodes controllerNodeId nowUnixMs).1.map
      (·.region)).Nodup
  led : ∀ action ∈
      (p.plan (EdgeLifecycleAction.debug isPlain) config nodes controllerNodeId nowUnixMs).1,
    LeastLive nodes action.region controllerNodeId
  alone : ∀ (p' : EdgeLifecyclePlanner) config' other nowUnixMs', other ≠ controllerNodeId →
    ∀ action ∈
      (p.plan (EdgeLifecycleAction.debug isPlain) config nodes controllerNodeId nowUnixMs).1,
    ∀ action' ∈ (p'.plan (EdgeLifecycleAction.debug isPlain) config' nodes other nowUnixMs').1,
    action.region ≠ action'.region
  sampled : config.enabled = true → ∀ region ∈ regionsOf nodes,
    (UnderPressure config nodes region →
      (p.plan (EdgeLifecycleAction.debug isPlain) config nodes controllerNodeId
        nowUnixMs).2.pressureSamples.lookup region =
        some (min ((p.pressureSamples.lookup region).getD 0 + 1) u32Max)) ∧
    (¬ UnderPressure config nodes region →
      (p.plan (EdgeLifecycleAction.debug isPlain) config nodes controllerNodeId
        nowUnixMs).2.pressureSamples.lookup region = none)
  /-- The idle time is that of the source, `idle_seconds * 1000` clamped at `u64::MAX`. -/
  closes : ∀ id region, .close id region ∈
      (p.plan (EdgeLifecycleAction.debug isPlain) config nodes controllerNodeId nowUnixMs).1 →
    (∃ node ∈ nodes, node.nodeId = id ∧ node.region = region ∧ node.draining = false ∧
      node.activeReaders = 0 ∧
      satMul config.idleSeconds.toNat 1000 ≤ nowUnixMs - node.activity) ∧
    config.minEdgesPerRegion.toNat ≤
      ((liveNodes (nodesIn nodes region)).filter fun node => decide (node.nodeId ≠ id)).length
  unordered : ∀ nodes' regions, nodes.Perm nodes' → regions.Perm (regionsOf nodes) →
    (planVisiting (EdgeLifecycleAction.debug isPlain) p config nodes' controllerNodeId nowUnixMs
        regions).1 =
      (p.plan (EdgeLifecycleAction.debug isPlain) config nodes controllerNodeId nowUnixMs).1 ∧
    ∀ region, (planVisiting (EdgeLifecycleAction.debug isPlain) p config nodes' controllerNodeId
        nowUnixMs regions).2.entries region =
      (p.plan (EdgeLifecycleAction.debug isPlain) config nodes controllerNodeId
        nowUnixMs).2.entries region

variable {isPlain : Char → Bool}

theorem plan_of_disabled (h : config.enabled = false) (debug : EdgeLifecycleAction → String) :
    p.plan debug config nodes controllerNodeId nowUnixMs = ([], p) := by
  unfold plan
  have hoff : config.normalized.enabled = false := h
  simp only [hoff, Bool.false_eq_true, not_false_eq_true, if_true]

/-- The actions of an enabled call, before they are sorted. -/
theorem plan_actions_perm (h : config.enabled = true) :
    (p.plan (EdgeLifecycleAction.debug isPlain) config nodes controllerNodeId nowUnixMs).1.Perm
      ((regionsOf nodes).flatMap fun region =>
        (p.planRegion config.normalized (nodesIn nodes region) controllerNodeId region
          nowUnixMs).1.toList) := by
  have hon : config.normalized.enabled = true := h
  have hnodup : (regionsOf nodes).Nodup := List.nodup_dedup _
  unfold plan
  simp only [hon, not_true_eq_false, if_false]
  rw [← planRegions_actions hnodup]
  exact List.mergeSort_perm _ _

theorem plan_entries (h : config.enabled = true) (debug : EdgeLifecycleAction → String)
    (region : String) :
    (p.plan debug config nodes controllerNodeId nowUnixMs).2.entries region =
      (planRegions config.normalized nodes controllerNodeId nowUnixMs (regionsOf nodes) p).2.entries
        region := by
  have hon : config.normalized.enabled = true := h
  unfold plan
  simp only [hon, not_true_eq_false, if_false]

/-- An action of a call is the action of its region. -/
theorem mem_plan {action : EdgeLifecycleAction}
    (h : action ∈
      (p.plan (EdgeLifecycleAction.debug isPlain) config nodes controllerNodeId nowUnixMs).1) :
    (p.planRegion config.normalized (nodesIn nodes action.region) controllerNodeId action.region
      nowUnixMs).1 = some action := by
  cases henabled : config.enabled with
  | false =>
      rw [plan_of_disabled henabled] at h
      cases h
  | true =>
      rw [(plan_actions_perm henabled).mem_iff, List.mem_flatMap] at h
      obtain ⟨region, -, haction⟩ := h
      have hturn := Option.mem_toList.mp haction
      have hregion := (planRegion_action hturn).1
      rw [hregion]
      exact hturn

theorem nodup_plan_regions :
    ((p.plan (EdgeLifecycleAction.debug isPlain) config nodes controllerNodeId nowUnixMs).1.map
      (·.region)).Nodup := by
  cases henabled : config.enabled with
  | false =>
      rw [plan_of_disabled henabled]
      exact List.nodup_nil
  | true =>
      rw [((plan_actions_perm henabled).map _).nodup_iff]
      -- each region gives its own name at most once
      have hsub : ∀ regions : List String,
          ((regions.flatMap fun region =>
            (p.planRegion config.normalized (nodesIn nodes region) controllerNodeId region
              nowUnixMs).1.toList).map (·.region)).Sublist regions := by
        intro regions
        induction regions with
        | nil => exact List.Sublist.refl _
        | cons region regions ih =>
            rw [List.flatMap_cons, List.map_append]
            cases hturn : (p.planRegion config.normalized (nodesIn nodes region) controllerNodeId
              region nowUnixMs).1 with
            | none => exact ih.cons region
            | some action =>
                have hregion := (planRegion_action hturn).1
                rw [Option.toList_some, List.map_cons, List.map_nil, hregion]
                exact ih.cons_cons region
      exact (hsub _).nodup (List.nodup_dedup _)

/-- Among different ids at most one is the one given. -/
theorem length_le_filter_ne {live : List EdgeLifecycleNode} (id : String)
    (hdistinct : (live.map (·.nodeId)).Nodup) :
    live.length ≤ (live.filter fun node => decide (node.nodeId ≠ id)).length + 1 := by
  induction live with
  | nil => exact Nat.zero_le _
  | cons node live ih =>
      rw [List.map_cons, List.nodup_cons] at hdistinct
      rw [List.filter_cons]
      by_cases hid : node.nodeId = id
      · -- no later node has the id
        have hrest : live.filter (fun node => decide (node.nodeId ≠ id)) = live := by
          rw [List.filter_eq_self]
          intro other hother
          rw [decide_eq_true_eq]
          intro hsame
          exact hdistinct.1 (List.mem_map.mpr ⟨other, hother, hsame.trans hid.symm⟩)
        rw [if_neg (by simp [hid]), hrest, List.length_cons]
      · have hle := ih hdistinct.2
        rw [if_pos (decide_eq_true hid), List.length_cons, List.length_cons]
        omega

theorem normalized_le (config : EdgeLifecycleConfig) :
    config.minEdgesPerRegion.toNat ≤ config.normalized.minEdgesPerRegion.toNat ∧
      config.idleSeconds.toNat ≤ config.normalized.idleSeconds.toNat := by
  have hmin := u64_toNat_max config.minEdgesPerRegion 1
  have hidle := u64_toNat_max config.idleSeconds 1
  constructor
  · show _ ≤ (max config.minEdgesPerRegion 1).toNat
    omega
  · show _ ≤ (max config.idleSeconds 1).toNat
    omega

theorem plan_samples (h : config.enabled = true) {region : String}
    (hregion : region ∈ regionsOf nodes) (debug : EdgeLifecycleAction → String) :
    (p.plan debug config nodes controllerNodeId nowUnixMs).2.pressureSamples.lookup region =
      if pressure config.normalized (nodesIn nodes region) then
        some (min ((p.pressureSamples.lookup region).getD 0 + 1) u32Max)
      else none := by
  have hnodup : (regionsOf nodes).Nodup := List.nodup_dedup _
  have hentries : (p.plan debug config nodes controllerNodeId nowUnixMs).2.entries region = _ :=
    plan_entries h debug region
  rw [entries_planRegions hnodup, if_pos hregion, entries_planRegion_self] at hentries
  have hsamples := (Prod.mk.inj hentries).2
  rw [hsamples]
  split
  · next hpressure =>
      unfold nextSamples
      rw [if_pos hpressure]
  · rfl

/-- **The decisions of a call**: everything it promises holds if and only if, in a planner that is
enabled, no region is taken for calm because its readers wrapped around. -/
theorem plan_decides_iff (p : EdgeLifecyclePlanner) (config : EdgeLifecycleConfig)
    {nodes : List EdgeLifecycleNode} (hdistinct : (nodes.map (·.nodeId)).Nodup)
    (controllerNodeId : String) (nowUnixMs : Nat) :
    Decides isPlain p config nodes controllerNodeId nowUnixMs ↔
      (config.enabled = true → ∀ region ∈ regionsOf nodes, ReadersCounted config nodes region) := by
  constructor
  · intro h henabled region hregion
    rw [← pressure_correct_iff]
    obtain ⟨hunder, hcalm⟩ := h.sampled henabled region hregion
    rw [plan_samples henabled hregion] at hunder hcalm
    constructor
    · intro hpressure
      by_contra hnot
      rw [if_pos hpressure] at hcalm
      exact absurd (hcalm hnot) (by nofun)
    · intro hpressure
      by_contra hnot
      rw [if_neg hnot] at hunder
      exact absurd (hunder hpressure) (by nofun)
  · intro hcounted
    have hled : ∀ (p : EdgeLifecyclePlanner) config controllerNodeId nowUnixMs, ∀ action ∈
        (p.plan (EdgeLifecycleAction.debug isPlain) config nodes controllerNodeId nowUnixMs).1,
        LeastLive nodes action.region controllerNodeId := by
      intro p config controllerNodeId nowUnixMs action haction
      exact (planRegion_action (mem_plan haction)).2.1
    constructor
    case disabled =>
      intro hdisabled
      exact plan_of_disabled hdisabled _
    case one_per_region => exact nodup_plan_regions
    case led => exact hled p config controllerNodeId nowUnixMs
    case alone =>
      intro p' config' other nowUnixMs' hother action haction action' haction' hsame
      have hone := hled p config controllerNodeId nowUnixMs action haction
      have hother' := hled p' config' other nowUnixMs' action' haction'
      rw [hsame] at hone
      exact hother (hother'.unique hone)
    case sampled =>
      intro henabled region hregion
      have hcorrect := pressure_correct_iff.mpr (hcounted henabled region hregion)
      rw [plan_samples henabled hregion]
      constructor
      · intro hunder
        rw [if_pos (hcorrect.mpr hunder)]
      · intro hcalm
        rw [if_neg fun hpressure => hcalm (hcorrect.mp hpressure)]
    case closes =>
      intro id region hclose
      obtain ⟨-, -, hcloses⟩ := planRegion_action (mem_plan hclose)
      obtain ⟨hmore, node, hnode, hid, hregion, hlive, hreaders, hidle⟩ := hcloses id region rfl
      obtain ⟨hmin, hidleSeconds⟩ := normalized_le config
      refine ⟨⟨node, hnode, hid, hregion, hlive, hreaders, ?_⟩, ?_⟩
      · refine Nat.le_trans ?_ hidle
        unfold satMul
        omega
      · have hlive' : ((liveNodes (nodesIn nodes region)).map (·.nodeId)).Nodup := by
          unfold liveNodes nodesIn
          exact hdistinct.sublist ((List.filter_sublist.trans List.filter_sublist).map _)
        have hle := length_le_filter_ne id hlive'
        change config.normalized.minEdgesPerRegion.toNat < (liveNodes (nodesIn nodes region)).length
          at hmore
        omega
    case unordered =>
      intro nodes' regions hnodes hregions
      exact planVisiting_order hnodes hregions

/-- Two edges whose readers sum to 2^64. -/
def fullNodes : List EdgeLifecycleNode :=
  [⟨"edge-a", "uk", 0, none, 9223372036854775808, false, false⟩,
    ⟨"edge-b", "uk", 0, none, 9223372036854775808, false, false⟩]

/-- The region is under pressure, and the call takes no sample of it. -/
theorem full_region_not_sampled :
    (fullNodes.map (·.nodeId)).Nodup ∧ UnderPressure { enabled := true } fullNodes "uk" ∧
    (EdgeLifecyclePlanner.plan (EdgeLifecycleAction.debug fun _ => true) {} { enabled := true }
      fullNodes "edge-a" 0).2.pressureSamples.lookup "uk" = none := by
  refine ⟨by decide, .inr (by decide), by decide +kernel⟩

/-- The same two edges with a reader less. -/
theorem plan_decides_iff_uk :
    Decides (fun _ => true) {} { enabled := true }
      [⟨"edge-a", "uk", 0, none, 9223372036854775808, false, false⟩,
        ⟨"edge-b", "uk", 0, none, 9223372036854775807, false, false⟩] "edge-a" 0 := by
  refine (plan_decides_iff {} _ (by decide) _ _).mpr ?_
  intro _ region hregion
  have huk : region = "uk" := by simpa [regionsOf] using hregion
  rw [huk]
  exact .inr (.inl (by decide))

end EdgeLifecyclePlanner

end AvMesh.Edge
