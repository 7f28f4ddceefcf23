/-
  AvMesh.Replication.Sound
  ────────────────────────
  **WHAT A REPLICA PLAN GUARANTEES.**

  Whatever the scores, the distances and the order of the hash containers, a
  plan grows by one candidate at a time (`Placed`).  Two facts carry the rest:

    • the replicas of a scope only become more, its candidates only fewer, as
      the plan grows — so what one scope has reached no later scope undoes;
    • `fill_scope` stops at the target, at the cap or without a candidate, and
      never because its fuel is used up.

  A demand group adds at most one placement (`serveDemand_eq`).

  Main result: `planReplicas_sound_complete`.
-/
import Mathlib.Logic.Relation
import AvMesh.Replication.Plan

namespace AvMesh.Replication

open AvMesh.Lib

variable {F : Floats}

/-! ## §1. Candidates and replicas as the plan grows. -/

section Scopes

variable {stream : StreamInfo} {nodes : List (MeshNode F)} {existingReplicas : List String}
  {ids ids' : List String} {scope : Scope} {node : MeshNode F}

theorem mem_candidates :
    node ∈ candidates stream nodes existingReplicas ids scope ↔
      node ∈ nodes ∧ scopeMatches node scope = true ∧ node.nodeId ∉ existingReplicas ∧
        node.nodeId ∉ ids ∧ node.canStore stream = true := by
  simp only [candidates, List.mem_filter, Bool.not_eq_true', List.contains_eq_mem,
    decide_eq_false_iff_not, and_assoc]

/-- A candidate of the larger plan was one of the smaller plan. -/
theorem candidates_anti (h : ids ⊆ ids')
    (hmem : node ∈ candidates stream nodes existingReplicas ids' scope) :
    node ∈ candidates stream nodes existingReplicas ids scope := by
  obtain ⟨hnode, hscope, hex, hids, hstore⟩ := mem_candidates.1 hmem
  exact mem_candidates.2 ⟨hnode, hscope, hex, fun hin => hids (h hin), hstore⟩

theorem candidates_eq_nil_anti (h : ids ⊆ ids')
    (hnil : candidates stream nodes existingReplicas ids scope = []) :
    candidates stream nodes existingReplicas ids' scope = [] := by
  refine List.eq_nil_iff_forall_not_mem.2 fun node hmem => ?_
  have hold := candidates_anti h hmem
  rw [hnil] at hold
  cases hold

theorem countReplicasInScope_mono (h : ids ⊆ ids') :
    countReplicasInScope nodes existingReplicas ids scope ≤
      countReplicasInScope nodes existingReplicas ids' scope := by
  refine List.Sublist.length_le (List.monotone_filter_right _ fun node hin => ?_)
  simp only [Bool.or_eq_true, List.contains_eq_mem, decide_eq_true_eq] at hin ⊢
  exact hin.imp id fun hids => h hids

theorem hasReplicaInScope_mono (h : ids ⊆ ids')
    (hhas : hasReplicaInScope nodes existingReplicas ids scope = true) :
    hasReplicaInScope nodes existingReplicas ids' scope = true := by
  simp only [hasReplicaInScope, decide_eq_true_eq] at hhas ⊢
  exact Nat.lt_of_lt_of_le hhas (countReplicasInScope_mono h)

theorem hasReplicaInScope_eq_true :
    hasReplicaInScope nodes existingReplicas ids scope = true ↔
      ∃ node ∈ nodes, scopeMatches node scope = true ∧
        (node.nodeId ∈ existingReplicas ∨ node.nodeId ∈ ids) := by
  simp only [hasReplicaInScope, countReplicasInScope, decide_eq_true_eq, gt_iff_lt,
    List.length_pos_iff_exists_mem, List.mem_filter, Bool.or_eq_true, List.contains_eq_mem,
    and_assoc]

end Scopes

/-! ## §2. Choosing a candidate. -/

theorem maxBy_mem {α : Type} {greater : α → α → Bool} {l : List α} {x : α}
    (h : maxBy greater l = some x) : x ∈ l := by
  have hfold : ∀ (rest : List α) (first : α),
      rest.foldl (fun best x => if greater best x then best else x) first ∈ first :: rest := by
    intro rest
    induction rest with
    | nil => intro first; exact List.mem_singleton.2 rfl
    | cons y rest ih =>
        intro first
        simp only [List.foldl_cons]
        split
        · exact List.mem_cons.2 ((List.mem_cons.1 (ih first)).imp id (List.mem_cons_of_mem y))
        · exact List.mem_cons_of_mem first (ih y)
  cases l with
  | nil => cases h
  | cons first rest =>
      cases h
      exact hfold rest first

theorem maxBy_eq_none {α : Type} {greater : α → α → Bool} {l : List α} :
    maxBy greater l = none ↔ l = [] := by
  cases l with
  | nil => exact ⟨fun _ => rfl, fun _ => rfl⟩
  | cons first rest => exact ⟨fun h => (nomatch h), fun h => (nomatch h)⟩

namespace ReplicationPolicy

variable {policy : ReplicationPolicy F} {order : HashOrder F} {stream : StreamInfo}
  {nodes : List (MeshNode F)} {existingReplicas : List String} {existing : List (MeshNode F)}

section Choice

variable {ids : List String} {scope : Scope} {node : MeshNode F}

/-- The node chosen is a candidate, far enough or not. -/
theorem chooseCandidate_mem
    (h : policy.chooseCandidate stream nodes existingReplicas ids scope existing = some node) :
    node ∈ candidates stream nodes existingReplicas ids scope := by
  have hpool := maxBy_mem h
  split at hpool
  · exact hpool
  · exact List.mem_of_mem_filter hpool

/-- A node is chosen whenever there is a candidate. -/
theorem chooseCandidate_eq_none :
    policy.chooseCandidate stream nodes existingReplicas ids scope existing = none ↔
      candidates stream nodes existingReplicas ids scope = [] := by
  refine Iff.trans maxBy_eq_none ?_
  split
  · rfl
  · next hfar =>
      refine ⟨fun h => absurd (List.isEmpty_iff.2 h) hfar, fun h => ?_⟩
      rw [h]
      rfl

end Choice

/-- The order in which the selected ids are visited does not matter to membership. -/
theorem selected_subset (order : HashOrder F) (ids : List String) :
    order.selected ids ⊆ ids ∧ ids ⊆ order.selected ids :=
  ⟨(order.selected_perm ids).subset, (order.selected_perm ids).symm.subset⟩

/-! ## §3. One placement more. -/

end ReplicationPolicy

/-- The scope a reason names. -/
def ReplicaReason.scope : ReplicaReason → Scope
  | .baselineRegion region => .region region
  | .baselineContinent continent => .continent continent
  | .demandRegion region => .region region
  | .demandContinent continent => .continent continent

namespace ReplicationPolicy

variable {policy : ReplicationPolicy F} {order : HashOrder F} {stream : StreamInfo}
  {nodes : List (MeshNode F)} {existingReplicas : List String} {existing : List (MeshNode F)}
  {selected selected' : List (ReplicaPlacement F)}

/-- The placement of a candidate. -/
def place (stream : StreamInfo) (nodes existing : List (MeshNode F))
    (selected : List (ReplicaPlacement F)) (reason : ReplicaReason) (candidate : MeshNode F) :
    ReplicaPlacement F where
  streamId := stream.streamId
  targetNodeId := candidate.nodeId
  reason
  score := scoreCandidate candidate existing selected nodes

/-- The candidate chosen next for this reason, as a placement. -/
def nextPlacement (policy : ReplicationPolicy F) (order : HashOrder F) (stream : StreamInfo)
    (nodes : List (MeshNode F)) (existingReplicas : List String) (existing : List (MeshNode F))
    (selected : List (ReplicaPlacement F)) (reason : ReplicaReason) :
    Option (ReplicaPlacement F) :=
  (policy.chooseCandidate stream nodes existingReplicas (order.selected (selectedIds selected))
    reason.scope existing).map (place stream nodes existing selected reason)

/-- One placement more, in a plan with room: a candidate of the scope that its reason names. -/
def Placed (policy : ReplicationPolicy F) (stream : StreamInfo) (nodes : List (MeshNode F))
    (existingReplicas : List String) (selected selected' : List (ReplicaPlacement F)) : Prop :=
  selected.length < policy.maxNewReplicasPerPlan ∧
    ∃ placement : ReplicaPlacement F, selected' = selected ++ [placement] ∧
      ∃ node ∈ candidates stream nodes existingReplicas (selectedIds selected)
        placement.reason.scope, node.nodeId = placement.targetNodeId

/-- One placement more, any number of times. -/
abbrev Grown (policy : ReplicationPolicy F) (stream : StreamInfo) (nodes : List (MeshNode F))
    (existingReplicas : List String) :
    List (ReplicaPlacement F) → List (ReplicaPlacement F) → Prop :=
  Relation.ReflTransGen (policy.Placed stream nodes existingReplicas)

theorem Grown.subset (h : policy.Grown stream nodes existingReplicas selected selected') :
    selectedIds selected ⊆ selectedIds selected' := by
  induction h with
  | refl => exact List.Subset.refl _
  | tail _ hplaced ih =>
      obtain ⟨_, placement, rfl, _⟩ := hplaced
      intro id hid
      have hbefore := ih hid
      simp only [selectedIds, List.map_append, List.mem_append] at hbefore ⊢
      exact Or.inl hbefore

theorem Grown.length_le (h : policy.Grown stream nodes existingReplicas selected selected') :
    selected.length ≤ selected'.length := by
  induction h with
  | refl => exact Nat.le_refl _
  | tail _ hplaced ih =>
      obtain ⟨_, placement, rfl, _⟩ := hplaced
      simp only [List.length_append, List.length_singleton]
      omega

/-- The candidate chosen next keeps the plan growing. -/
theorem Placed.of_nextPlacement {reason : ReplicaReason} {placement : ReplicaPlacement F}
    (hroom : selected.length < policy.maxNewReplicasPerPlan)
    (h : policy.nextPlacement order stream nodes existingReplicas existing selected reason =
      some placement) :
    placement.reason = reason ∧
      policy.Placed stream nodes existingReplicas selected (selected ++ [placement]) := by
  obtain ⟨node, hnode, rfl⟩ := Option.map_eq_some_iff.1 h
  exact ⟨rfl, hroom, _, rfl, node,
    candidates_anti (selected_subset order _).2 (chooseCandidate_mem hnode), rfl⟩

theorem nextPlacement_eq_none {reason : ReplicaReason} :
    policy.nextPlacement order stream nodes existingReplicas existing selected reason = none ↔
      candidates stream nodes existingReplicas (selectedIds selected) reason.scope = [] := by
  refine Option.map_eq_none_iff.trans (chooseCandidate_eq_none.trans ?_)
  exact ⟨candidates_eq_nil_anti (selected_subset order _).1,
    candidates_eq_nil_anti (selected_subset order _).2⟩

/-- With the placement of a candidate, its scope has a replica. -/
theorem Placed.has {placement : ReplicaPlacement F}
    (h : policy.Placed stream nodes existingReplicas selected (selected ++ [placement])) :
    hasReplicaInScope nodes existingReplicas (selectedIds (selected ++ [placement]))
      placement.reason.scope = true := by
  obtain ⟨_, placement', happend, node, hnode, hid⟩ := h
  obtain rfl : placement = placement' := List.singleton_inj.1 (List.append_cancel_left happend)
  obtain ⟨hmem, hscope, _⟩ := mem_candidates.1 hnode
  refine hasReplicaInScope_eq_true.2 ⟨node, hmem, hscope, Or.inr ?_⟩
  rw [hid, selectedIds, List.map_append]
  exact List.mem_append_right _ (List.mem_singleton.2 rfl)

/-! ## §4. The loop of `fill_scope`. -/

/-- The scope has enough replicas, the plan is full or nobody is left to take one. -/
def Filled (policy : ReplicationPolicy F) (stream : StreamInfo) (nodes : List (MeshNode F))
    (existingReplicas : List String) (scope : Scope) (targetCount : Nat)
    (selected : List (ReplicaPlacement F)) : Prop :=
  targetCount ≤ countReplicasInScope nodes existingReplicas (selectedIds selected) scope ∨
    policy.maxNewReplicasPerPlan ≤ selected.length ∨
    candidates stream nodes existingReplicas (selectedIds selected) scope = []

/-- What is filled stays filled: replicas are not taken back and candidates do not return. -/
theorem Filled.grown {scope : Scope} {targetCount : Nat}
    (h : policy.Filled stream nodes existingReplicas scope targetCount selected)
    (hgrown : policy.Grown stream nodes existingReplicas selected selected') :
    policy.Filled stream nodes existingReplicas scope targetCount selected' := by
  rcases h with hcount | hfull | hnil
  · exact Or.inl (Nat.le_trans hcount (countReplicasInScope_mono hgrown.subset))
  · exact Or.inr (Or.inl (Nat.le_trans hfull hgrown.length_le))
  · exact Or.inr (Or.inr (candidates_eq_nil_anti hgrown.subset hnil))

section Loop

variable {reason : ReplicaReason} {targetCount : Nat}

/-- One round of the loop. -/
theorem fillLoop_succ (fuel : Nat) (added : Bool) :
    policy.fillLoop order stream nodes existingReplicas reason.scope targetCount reason existing
        (fuel + 1) added selected =
      if countReplicasInScope nodes existingReplicas (selectedIds selected) reason.scope <
            targetCount ∧ selected.length < policy.maxNewReplicasPerPlan then
        match policy.nextPlacement order stream nodes existingReplicas existing selected reason with
        | none => (added, selected)
        | some placement =>
            policy.fillLoop order stream nodes existingReplicas reason.scope targetCount reason
              existing fuel true (selected ++ [placement])
      else (added, selected) := by
  simp only [fillLoop, nextPlacement]
  cases policy.chooseCandidate stream nodes existingReplicas
    (order.selected (selectedIds selected)) reason.scope existing <;> rfl

theorem fillLoop_grown (fuel : Nat) (added : Bool) :
    policy.Grown stream nodes existingReplicas selected
      (policy.fillLoop order stream nodes existingReplicas reason.scope targetCount reason existing
        fuel added selected).2 := by
  induction fuel generalizing added selected with
  | zero => exact Relation.ReflTransGen.refl
  | succ fuel ih =>
      rw [fillLoop_succ]
      split
      · next htest =>
          split
          · exact Relation.ReflTransGen.refl
          · next placement hnext =>
              have hplaced := (Placed.of_nextPlacement htest.2 hnext).2
              exact (Relation.ReflTransGen.single hplaced).trans (ih true)
      · exact Relation.ReflTransGen.refl

/-- With fuel for the room that is left, the loop ends by its own test. -/
theorem fillLoop_filled (fuel : Nat) (added : Bool)
    (hfuel : policy.maxNewReplicasPerPlan ≤ fuel + selected.length) :
    policy.Filled stream nodes existingReplicas reason.scope targetCount
      (policy.fillLoop order stream nodes existingReplicas reason.scope targetCount reason existing
        fuel added selected).2 := by
  induction fuel generalizing added selected with
  | zero =>
      refine Or.inr (Or.inl ?_)
      show policy.maxNewReplicasPerPlan ≤ selected.length
      omega
  | succ fuel ih =>
      rw [fillLoop_succ]
      split
      · split
        · next hnone => exact Or.inr (Or.inr (nextPlacement_eq_none.1 hnone))
        · refine ih true ?_
          simp only [List.length_append, List.length_singleton]
          omega
      · next htest =>
          by_cases hcount : targetCount ≤
              countReplicasInScope nodes existingReplicas (selectedIds selected) reason.scope
          · exact Or.inl hcount
          · refine Or.inr (Or.inl ?_)
            show policy.maxNewReplicasPerPlan ≤ selected.length
            omega

/-- More fuel than the room that is left changes nothing: the loop has ended. -/
theorem fillLoop_fuel (fuel extra : Nat) (added : Bool)
    (hfuel : policy.maxNewReplicasPerPlan ≤ fuel + selected.length) :
    policy.fillLoop order stream nodes existingReplicas reason.scope targetCount reason existing
        (fuel + extra) added selected =
      policy.fillLoop order stream nodes existingReplicas reason.scope targetCount reason existing
        fuel added selected := by
  induction fuel generalizing added selected with
  | zero =>
      -- the plan is full, so the test fails at once
      have hfull : ¬ selected.length < policy.maxNewReplicasPerPlan := by omega
      cases extra with
      | zero => rfl
      | succ extra =>
          rw [Nat.zero_add, fillLoop_succ, if_neg fun htest => hfull htest.2]
          rfl
  | succ fuel ih =>
      rw [Nat.add_right_comm, fillLoop_succ, fillLoop_succ]
      split
      · split
        · rfl
        · refine ih true ?_
          simp only [List.length_append, List.length_singleton]
          omega
      · rfl

theorem fillScope_grown :
    policy.Grown stream nodes existingReplicas selected
      (policy.fillScope order stream nodes existingReplicas selected reason.scope targetCount
        reason existing).2 :=
  fillLoop_grown _ _

theorem fillScope_filled :
    policy.Filled stream nodes existingReplicas reason.scope targetCount
      (policy.fillScope order stream nodes existingReplicas selected reason.scope targetCount
        reason existing).2 :=
  fillLoop_filled _ _ (by omega)

/-- A scope without a replica that is filled to one takes one candidate, or none. -/
theorem fillScope_one
    (hnone : hasReplicaInScope nodes existingReplicas (selectedIds selected) reason.scope = false) :
    policy.fillScope order stream nodes existingReplicas selected reason.scope 1 reason existing =
      if selected.length < policy.maxNewReplicasPerPlan then
        match policy.nextPlacement order stream nodes existingReplicas existing selected reason with
        | none => (false, selected)
        | some placement => (true, selected ++ [placement])
      else (false, selected) := by
  have hcount : countReplicasInScope nodes existingReplicas (selectedIds selected)
      reason.scope < 1 := by
    simp only [hasReplicaInScope, decide_eq_false_iff_not] at hnone
    omega
  by_cases hroom : selected.length < policy.maxNewReplicasPerPlan
  · obtain ⟨room, hfuel⟩ : ∃ room, policy.maxNewReplicasPerPlan - selected.length = room + 1 :=
      ⟨policy.maxNewReplicasPerPlan - selected.length - 1, by omega⟩
    rw [fillScope, hfuel, fillLoop_succ, if_pos ⟨hcount, hroom⟩, if_pos hroom]
    split
    · rfl
    · next placement hnext =>
        -- the scope has its replica now, so the next test fails
        obtain ⟨hreason, hplaced⟩ := Placed.of_nextPlacement hroom hnext
        have hhas := hplaced.has
        rw [hreason] at hhas
        simp only [hasReplicaInScope, decide_eq_true_eq] at hhas
        cases room with
        | zero => rfl
        | succ room => rw [fillLoop_succ, if_neg fun htest => by omega]
  · rw [fillScope, Nat.sub_eq_zero_of_le (by omega), if_neg hroom]
    rfl

end Loop

/-- Filling the scopes one after the other fills them all. -/
theorem fillBaseline_filled (policy : ReplicationPolicy F) (order : HashOrder F)
    (stream : StreamInfo) (nodes : List (MeshNode F)) (existingReplicas : List String)
    (existing : List (MeshNode F)) {scope : String → Scope} {reason : String → ReplicaReason}
    (hscope : ∀ name, (reason name).scope = scope name) (targetCount : Nat) (names : List String)
    (selected : List (ReplicaPlacement F)) :
    policy.Grown stream nodes existingReplicas selected
        (policy.fillBaseline order stream nodes existingReplicas existing scope reason targetCount
          names selected) ∧
      ∀ name ∈ names, policy.Filled stream nodes existingReplicas (scope name) targetCount
        (policy.fillBaseline order stream nodes existingReplicas existing scope reason targetCount
          names selected) := by
  induction names generalizing selected with
  | nil => exact ⟨Relation.ReflTransGen.refl, fun name hname => by cases hname⟩
  | cons first names ih =>
      simp only [fillBaseline, ← hscope]
      simp only [← hscope] at ih
      obtain ⟨hrest, hfilled⟩ := ih (policy.fillScope order stream nodes existingReplicas selected
        (reason first).scope targetCount (reason first) existing).2
      refine ⟨fillScope_grown.trans hrest, fun name hname => ?_⟩
      rcases List.mem_cons.1 hname with rfl | hname
      · exact fillScope_filled.grown hrest
      · exact hfilled name hname

/-! ## §5. One demand group. -/

/-- The placement for this reason, if the scope has no replica yet. -/
def missingPlacement (policy : ReplicationPolicy F) (order : HashOrder F) (stream : StreamInfo)
    (nodes : List (MeshNode F)) (existingReplicas : List String) (existing : List (MeshNode F))
    (selected : List (ReplicaPlacement F)) (reason : ReplicaReason) :
    Option (ReplicaPlacement F) :=
  if hasReplicaInScope nodes existingReplicas (selectedIds selected) reason.scope then none
  else policy.nextPlacement order stream nodes existingReplicas existing selected reason

/-- The placement a demand group adds to a plan. -/
def demandPlacement (policy : ReplicationPolicy F) (order : HashOrder F) (stream : StreamInfo)
    (nodes : List (MeshNode F)) (existingReplicas : List String) (existing : List (MeshNode F))
    (selected : List (ReplicaPlacement F)) (group : DemandGroup F) :
    Option (ReplicaPlacement F) :=
  if policy.demandIsHot group.2 ∧ selected.length < policy.maxNewReplicasPerPlan then
    (policy.missingPlacement order stream nodes existingReplicas existing selected
      (.demandRegion group.1.1)).or
      (policy.missingPlacement order stream nodes existingReplicas existing selected
        (.demandContinent group.1.2))
  else none

section Demand

variable {group : DemandGroup F} {placement : ReplicaPlacement F}

theorem missingPlacement_eq_some {reason : ReplicaReason} :
    policy.missingPlacement order stream nodes existingReplicas existing selected reason =
        some placement ↔
      hasReplicaInScope nodes existingReplicas (selectedIds selected) reason.scope = false ∧
        policy.nextPlacement order stream nodes existingReplicas existing selected reason =
          some placement := by
  simp only [missingPlacement]
  split
  · next hhas => simp only [hhas, reduceCtorEq, false_and]
  · next hhas => simp only [Bool.eq_false_iff.2 hhas, true_and]

theorem missingPlacement_eq_none {reason : ReplicaReason} :
    policy.missingPlacement order stream nodes existingReplicas existing selected reason = none ↔
      hasReplicaInScope nodes existingReplicas (selectedIds selected) reason.scope = true ∨
        candidates stream nodes existingReplicas (selectedIds selected) reason.scope = [] := by
  simp only [missingPlacement]
  split
  · next hhas => simp only [hhas, true_or]
  · next hhas => simp only [hhas, Bool.false_eq_true, false_or, nextPlacement_eq_none]

/-- `fill_scope` to one replica, where the scope has none. -/
def fillMissing (policy : ReplicationPolicy F) (order : HashOrder F) (stream : StreamInfo)
    (nodes : List (MeshNode F)) (existingReplicas : List String) (existing : List (MeshNode F))
    (selected : List (ReplicaPlacement F)) (reason : ReplicaReason) :
    Bool × List (ReplicaPlacement F) :=
  if ¬ hasReplicaInScope nodes existingReplicas (selectedIds selected) reason.scope then
    policy.fillScope order stream nodes existingReplicas selected reason.scope 1 reason existing
  else (false, selected)

theorem fillMissing_eq (reason : ReplicaReason) :
    policy.fillMissing order stream nodes existingReplicas existing selected reason =
      if selected.length < policy.maxNewReplicasPerPlan then
        match policy.missingPlacement order stream nodes existingReplicas existing selected
            reason with
        | none => (false, selected)
        | some placement => (true, selected ++ [placement])
      else (false, selected) := by
  by_cases hhas : hasReplicaInScope nodes existingReplicas (selectedIds selected) reason.scope
  · rw [fillMissing, if_neg (not_not.2 hhas), missingPlacement, if_pos hhas]
    split <;> rfl
  · rw [fillMissing, if_pos hhas, fillScope_one (Bool.eq_false_iff.2 hhas), missingPlacement,
      if_neg hhas]

theorem serveDemand_fillMissing :
    policy.serveDemand order stream nodes existingReplicas existing selected group =
      if policy.demandIsHot group.2 then
        if (policy.fillMissing order stream nodes existingReplicas existing selected
            (.demandRegion group.1.1)).1 then
          (policy.fillMissing order stream nodes existingReplicas existing selected
            (.demandRegion group.1.1)).2
        else
          (policy.fillMissing order stream nodes existingReplicas existing
            (policy.fillMissing order stream nodes existingReplicas existing selected
              (.demandRegion group.1.1)).2 (.demandContinent group.1.2)).2
      else selected := by
  by_cases hhot : policy.demandIsHot group.2 = true
  · rw [if_pos hhot]
    simp only [serveDemand, hhot, not_true_eq_false, if_false]
    simp only [fillMissing, apply_ite Prod.snd]
    rfl
  · rw [if_neg hhot]
    exact if_pos hhot

/-- **A demand group adds at most one placement.** -/
theorem serveDemand_eq :
    policy.serveDemand order stream nodes existingReplicas existing selected group =
      selected ++ (policy.demandPlacement order stream nodes existingReplicas existing selected
        group).toList := by
  rw [serveDemand_fillMissing, demandPlacement]
  by_cases hhot : policy.demandIsHot group.2 = true
  · by_cases hroom : selected.length < policy.maxNewReplicasPerPlan
    · rw [if_pos hhot, if_pos (And.intro hhot hroom), fillMissing_eq, if_pos hroom]
      cases policy.missingPlacement order stream nodes existingReplicas existing selected
          (.demandRegion group.1.1) with
      | some placement => rfl
      | none =>
          -- nothing in the region, so the continent has its turn with the same plan
          simp only [Bool.false_eq_true, if_false, Option.none_or]
          rw [fillMissing_eq, if_pos hroom]
          cases policy.missingPlacement order stream nodes existingReplicas existing selected
              (.demandContinent group.1.2) with
          | some placement => rfl
          | none => exact (List.append_nil selected).symm
    · have hfull : ¬ (policy.demandIsHot group.2 = true ∧
          selected.length < policy.maxNewReplicasPerPlan) := fun h => hroom h.2
      rw [if_pos hhot, if_neg hfull, fillMissing_eq, if_neg hroom]
      simp only [Bool.false_eq_true, if_false]
      rw [fillMissing_eq, if_neg hroom]
      exact (List.append_nil selected).symm
  · rw [if_neg hhot, if_neg fun h => hhot h.1]
    exact (List.append_nil selected).symm

theorem demandPlacement_placed
    (h : policy.demandPlacement order stream nodes existingReplicas existing selected group =
      some placement) :
    policy.Placed stream nodes existingReplicas selected (selected ++ [placement]) := by
  simp only [demandPlacement] at h
  split at h
  · next htest =>
      rcases Option.or_eq_some_iff.1 h with hregion | ⟨_, hcontinent⟩
      · exact (Placed.of_nextPlacement htest.2 (missingPlacement_eq_some.1 hregion).2).2
      · exact (Placed.of_nextPlacement htest.2 (missingPlacement_eq_some.1 hcontinent).2).2
  · cases h

theorem serveDemand_grown :
    policy.Grown stream nodes existingReplicas selected
      (policy.serveDemand order stream nodes existingReplicas existing selected group) := by
  rw [serveDemand_eq]
  cases hplacement : policy.demandPlacement order stream nodes existingReplicas existing selected
      group with
  | none =>
      rw [Option.toList_none, List.append_nil]
  | some placement => exact Relation.ReflTransGen.single (demandPlacement_placed hplacement)

/-- A hot group has a replica in its region or its continent, or nobody there can take one. -/
def Served (policy : ReplicationPolicy F) (stream : StreamInfo) (nodes : List (MeshNode F))
    (existingReplicas : List String) (selected : List (ReplicaPlacement F))
    (group : DemandGroup F) : Prop :=
  policy.maxNewReplicasPerPlan ≤ selected.length ∨
    hasReplicaInScope nodes existingReplicas (selectedIds selected) (.region group.1.1) = true ∨
    hasReplicaInScope nodes existingReplicas (selectedIds selected) (.continent group.1.2) = true ∨
    candidates stream nodes existingReplicas (selectedIds selected) (.continent group.1.2) = []

theorem Served.grown (h : policy.Served stream nodes existingReplicas selected group)
    (hgrown : policy.Grown stream nodes existingReplicas selected selected') :
    policy.Served stream nodes existingReplicas selected' group := by
  rcases h with hfull | hregion | hcontinent | hnil
  · exact Or.inl (Nat.le_trans hfull hgrown.length_le)
  · exact Or.inr (Or.inl (hasReplicaInScope_mono hgrown.subset hregion))
  · exact Or.inr (Or.inr (Or.inl (hasReplicaInScope_mono hgrown.subset hcontinent)))
  · exact Or.inr (Or.inr (Or.inr (candidates_eq_nil_anti hgrown.subset hnil)))

theorem serveDemand_served (hhot : policy.demandIsHot group.2 = true) :
    policy.Served stream nodes existingReplicas
      (policy.serveDemand order stream nodes existingReplicas existing selected group) group := by
  by_cases hroom : selected.length < policy.maxNewReplicasPerPlan
  · rw [serveDemand_eq, demandPlacement, if_pos (And.intro hhot hroom)]
    cases hregion : policy.missingPlacement order stream nodes existingReplicas existing selected
        (.demandRegion group.1.1) with
    | some placement =>
        obtain ⟨hreason, hplaced⟩ :=
          Placed.of_nextPlacement hroom (missingPlacement_eq_some.1 hregion).2
        have hhas := hplaced.has
        rw [hreason] at hhas
        exact Or.inr (Or.inl hhas)
    | none =>
        rw [Option.none_or]
        cases hcontinent : policy.missingPlacement order stream nodes existingReplicas existing
            selected (.demandContinent group.1.2) with
        | some placement =>
            obtain ⟨hreason, hplaced⟩ :=
              Placed.of_nextPlacement hroom (missingPlacement_eq_some.1 hcontinent).2
            have hhas := hplaced.has
            rw [hreason] at hhas
            exact Or.inr (Or.inr (Or.inl hhas))
        | none =>
            rw [Option.toList_none, List.append_nil]
            exact Or.inr (Or.inr (missingPlacement_eq_none.1 hcontinent))
  · refine Or.inl ?_
    have hgrown : policy.Grown stream nodes existingReplicas selected
        (policy.serveDemand order stream nodes existingReplicas existing selected group) :=
      serveDemand_grown
    have hle := hgrown.length_le
    omega

end Demand

/-! ## §6. The whole plan. -/

/-- Every target is a node that may hold the stream and lies where its reason says. -/
structure SoundPlan (policy : ReplicationPolicy F) (stream : StreamInfo)
    (nodes : List (MeshNode F)) (existingReplicas : List String)
    (plan : List (ReplicaPlacement F)) : Prop where
  distinct : (plan.map (·.targetNodeId)).Nodup
  target : ∀ placement ∈ plan, ∃ node ∈ nodes, node.nodeId = placement.targetNodeId ∧
    node.nodeId ∉ existingReplicas ∧ node.draining = false ∧
    stream.bytes ≤ node.availableStorageBytes ∧ scopeMatches node placement.reason.scope = true
  capped : plan.length ≤ policy.maxNewReplicasPerPlan

/-- A plan below the cap has filled every baseline and served every hot demand. -/
structure CompletePlan (policy : ReplicationPolicy F) (stream : StreamInfo)
    (nodes : List (MeshNode F)) (existingReplicas : List String) (demand : List (DemandSignal F))
    (plan : List (ReplicaPlacement F)) : Prop where
  continents : 0 < policy.baselinePerContinent → ∀ node ∈ nodes,
    policy.baselinePerContinent ≤
        countReplicasInScope nodes existingReplicas (selectedIds plan) (.continent node.continent) ∨
      candidates stream nodes existingReplicas (selectedIds plan) (.continent node.continent) = []
  regions : 0 < policy.baselinePerRegion → ∀ node ∈ nodes,
    policy.baselinePerRegion ≤
        countReplicasInScope nodes existingReplicas (selectedIds plan) (.region node.region) ∨
      candidates stream nodes existingReplicas (selectedIds plan) (.region node.region) = []
  demands : ∀ group ∈ demandByRegion stream demand, policy.demandIsHot group.2 = true →
    hasReplicaInScope nodes existingReplicas (selectedIds plan) (.region group.1.1) = true ∨
      hasReplicaInScope nodes existingReplicas (selectedIds plan) (.continent group.1.2) = true ∨
      candidates stream nodes existingReplicas (selectedIds plan) (.continent group.1.2) = []

theorem SoundPlan.nil : policy.SoundPlan stream nodes existingReplicas [] where
  distinct := List.nodup_nil
  target := fun placement h => by cases h
  capped := Nat.zero_le _

theorem SoundPlan.placed (h : policy.SoundPlan stream nodes existingReplicas selected)
    (hplaced : policy.Placed stream nodes existingReplicas selected selected') :
    policy.SoundPlan stream nodes existingReplicas selected' := by
  obtain ⟨hroom, placement, rfl, node, hnode, hid⟩ := hplaced
  obtain ⟨hmem, hscope, hexisting, hfresh, hstore⟩ := mem_candidates.1 hnode
  simp only [MeshNode.canStore, Bool.and_eq_true, Bool.not_eq_true', decide_eq_true_eq] at hstore
  refine ⟨?_, fun other hother => ?_, ?_⟩
  · rw [hid] at hfresh
    rw [List.map_append, List.map_singleton]
    refine h.distinct.append (List.nodup_singleton _) fun id hold hnew => ?_
    obtain rfl := List.mem_singleton.1 hnew
    exact hfresh hold
  · rcases List.mem_append.1 hother with hold | hnew
    · exact h.target other hold
    · obtain rfl := List.mem_singleton.1 hnew
      exact ⟨node, hmem, hid, hexisting, hstore.1, hstore.2, hscope⟩
  · simp only [List.length_append, List.length_singleton]
    omega

theorem SoundPlan.grown (h : policy.SoundPlan stream nodes existingReplicas selected)
    (hgrown : policy.Grown stream nodes existingReplicas selected selected') :
    policy.SoundPlan stream nodes existingReplicas selected' := by
  induction hgrown with
  | refl => exact h
  | tail _ hplaced ih => exact ih.placed hplaced

theorem mem_orderedKeys {name : String} {names : List String} :
    name ∈ orderedKeys names ↔ name ∈ names := by
  rw [orderedKeys, List.mem_mergeSort, List.mem_dedup]

/-- One phase of the baselines: every name that a node has, if there is a baseline at all. -/
theorem fillBaseline_phase (policy : ReplicationPolicy F) (order : HashOrder F)
    (stream : StreamInfo) (nodes : List (MeshNode F)) (existingReplicas : List String)
    (existing : List (MeshNode F)) {scope : String → Scope} {reason : String → ReplicaReason}
    (hscope : ∀ name, (reason name).scope = scope name) (name : MeshNode F → String)
    (targetCount : Nat) (selected : List (ReplicaPlacement F)) :
    let filled := if targetCount > 0 then
        policy.fillBaseline order stream nodes existingReplicas existing scope reason targetCount
          (orderedKeys (nodes.map name)) selected
      else selected
    policy.Grown stream nodes existingReplicas selected filled ∧
      (0 < targetCount → ∀ node ∈ nodes,
        policy.Filled stream nodes existingReplicas (scope (name node)) targetCount filled) := by
  intro filled
  by_cases htarget : targetCount > 0
  · simp only [filled, if_pos htarget]
    obtain ⟨hgrown, hfilled⟩ := policy.fillBaseline_filled order stream nodes existingReplicas
      existing hscope targetCount (orderedKeys (nodes.map name)) selected
    exact ⟨hgrown, fun _ node hnode =>
      hfilled (name node) (mem_orderedKeys.2 (List.mem_map_of_mem hnode))⟩
  · simp only [filled, if_neg htarget]
    exact ⟨Relation.ReflTransGen.refl, fun hpos => absurd hpos htarget⟩

/-- The baselines fill every continent and every region. -/
theorem planBaselines_filled :
    let selected := policy.planBaselines order stream nodes existingReplicas existing
    policy.Grown stream nodes existingReplicas [] selected ∧
      (0 < policy.baselinePerContinent → ∀ node ∈ nodes,
        policy.Filled stream nodes existingReplicas (.continent node.continent)
          policy.baselinePerContinent selected) ∧
      (0 < policy.baselinePerRegion → ∀ node ∈ nodes,
        policy.Filled stream nodes existingReplicas (.region node.region)
          policy.baselinePerRegion selected) := by
  obtain ⟨hgrown, hcontinents⟩ :=
    @fillBaseline_phase F policy order stream nodes existingReplicas existing .continent
      .baselineContinent (fun _ => rfl) (·.continent) policy.baselinePerContinent []
  obtain ⟨hgrown', hregions⟩ :=
    @fillBaseline_phase F policy order stream nodes existingReplicas existing .region
      .baselineRegion (fun _ => rfl) (·.region) policy.baselinePerRegion _
  exact ⟨hgrown.trans hgrown',
    fun hpos node hnode => (hcontinents hpos node hnode).grown hgrown', hregions⟩

/-- Serving the demand keeps the plan growing and serves every hot group. -/
theorem foldl_serveDemand (groups : List (DemandGroup F)) (selected : List (ReplicaPlacement F)) :
    policy.Grown stream nodes existingReplicas selected
        (groups.foldl (policy.serveDemand order stream nodes existingReplicas existing) selected) ∧
      ∀ group ∈ groups, policy.demandIsHot group.2 = true →
        policy.Served stream nodes existingReplicas
          (groups.foldl (policy.serveDemand order stream nodes existingReplicas existing) selected)
          group := by
  induction groups generalizing selected with
  | nil => exact ⟨Relation.ReflTransGen.refl, fun group h => by cases h⟩
  | cons first groups ih =>
      obtain ⟨hrest, hserved⟩ :=
        ih (policy.serveDemand order stream nodes existingReplicas existing selected first)
      refine ⟨serveDemand_grown.trans hrest, fun group hgroup hhot => ?_⟩
      rcases List.mem_cons.1 hgroup with rfl | hgroup
      · exact (serveDemand_served hhot).grown hrest
      · exact hserved group hgroup hhot

/-- **EVERY PLAN IS SOUND, AND COMPLETE BELOW THE CAP.**  Whatever the floating-point operations
and the hash order, each loop of `fill_scope` ends within the room of the plan. -/
theorem planReplicas_sound_complete (policy : ReplicationPolicy F) (order : HashOrder F)
    (stream : StreamInfo) (nodes : List (MeshNode F)) (existingReplicas : List String)
    (demand : List (DemandSignal F)) :
    let plan := policy.planReplicas order stream nodes existingReplicas demand
    (∀ (existing : List (MeshNode F)) (selected : List (ReplicaPlacement F))
        (reason : ReplicaReason) (targetCount extra : Nat),
      policy.fillLoop order stream nodes existingReplicas reason.scope targetCount reason existing
          (policy.maxNewReplicasPerPlan - selected.length + extra) false selected =
        policy.fillScope order stream nodes existingReplicas selected reason.scope targetCount
          reason existing) ∧
      policy.SoundPlan stream nodes existingReplicas plan ∧
      (plan.length < policy.maxNewReplicasPerPlan →
        policy.CompletePlan stream nodes existingReplicas demand plan) := by
  intro plan
  obtain ⟨hbase, hcontinents, hregions⟩ :
      let selected := policy.planBaselines order stream nodes existingReplicas
        (findNodes nodes (order.existing existingReplicas.dedup))
      policy.Grown stream nodes existingReplicas [] selected ∧ _ ∧ _ := planBaselines_filled
  obtain ⟨hgrown, hserved⟩ :
      policy.Grown stream nodes existingReplicas
        (policy.planBaselines order stream nodes existingReplicas
          (findNodes nodes (order.existing existingReplicas.dedup))) plan ∧ _ :=
    foldl_serveDemand (order.demand (demandByRegion stream demand)) _
  refine ⟨?_, SoundPlan.nil.grown (hbase.trans hgrown), fun hbelow => ?_⟩
  · intro existing selected reason targetCount extra
    exact fillLoop_fuel _ extra false (by omega)
  · -- below the cap, what is filled or served is so for one of the other reasons
    have hopen : ¬ policy.maxNewReplicasPerPlan ≤ plan.length := by omega
    refine ⟨fun hpos node hnode => ?_, fun hpos node hnode => ?_, fun group hgroup hhot => ?_⟩
    · exact ((hcontinents hpos node hnode).grown hgrown).imp_right fun h => h.resolve_left hopen
    · exact ((hregions hpos node hnode).grown hgrown).imp_right fun h => h.resolve_left hopen
    · exact (hserved group ((order.demand_perm _).symm.subset hgroup) hhot).resolve_left hopen

end ReplicationPolicy

end AvMesh.Replication
