/-
  AvMesh.Replication.Order
  ────────────────────────
  **DOES THE HASH ORDER DECIDE WHAT A PLAN SELECTS?**

  Three hash containers are visited: the existing ids, the selected ids and the
  demand groups.  The first two only meet in `f64::min`, so their order is lost
  (`planReplicas_eq`).  The demand groups are served one after the other, and
  what one group selects is part of what the next one sees:

      order₁:  base ⟶ g ⟶ h ⟶ …         order₂:  base ⟶ h ⟶ g ⟶ …

  The plan is the same in every order exactly if two groups that both have
  something to select after the baselines select the same thing, and one
  replica is enough for both (`OrderFree`).

  Main result: `planReplicas_order_iff`.
-/
import AvMesh.Replication.Sound

namespace AvMesh.Replication

open AvMesh.Lib

variable {F : Floats}

/-! ## §1. Ids in any order. -/

/-- `f64::min` takes its arguments in any order and any grouping. -/
structure LawfulMin (F : Floats) : Prop where
  comm : ∀ x y, F.min x y = F.min y x
  assoc : ∀ x y z, F.min (F.min x y) z = F.min x (F.min y z)

theorem minDistanceToNodeRefs_perm (hmin : LawfulMin F) (node : MeshNode F)
    {replicas replicas' : List (MeshNode F)} (h : replicas.Perm replicas') :
    minDistanceToNodeRefs node replicas = minDistanceToNodeRefs node replicas' := by
  refine (h.map _).foldl_eq' (fun x _ y _ z => ?_) F.infinity
  rw [hmin.assoc, hmin.comm x y, ← hmin.assoc]

theorem scoreCandidateAgainstRefs_perm (hmin : LawfulMin F) (node : MeshNode F)
    {replicas replicas' : List (MeshNode F)} (h : replicas.Perm replicas') :
    scoreCandidateAgainstRefs node replicas = scoreCandidateAgainstRefs node replicas' := by
  rw [scoreCandidateAgainstRefs, scoreCandidateAgainstRefs, minDistanceToNodeRefs_perm hmin node h]

theorem candidates_perm {stream : StreamInfo} {nodes : List (MeshNode F)}
    {existingReplicas ids ids' : List String} {scope : Scope} (h : ids.Perm ids') :
    candidates stream nodes existingReplicas ids scope =
      candidates stream nodes existingReplicas ids' scope := by
  have hcontains : ∀ id, ids.contains id = ids'.contains id := fun id => by
    simp only [List.contains_eq_mem, h.mem_iff]
  simp only [candidates, hcontains]

namespace ReplicationPolicy

variable {policy : ReplicationPolicy F} {order : HashOrder F} {stream : StreamInfo}
  {nodes : List (MeshNode F)} {existingReplicas : List String}
  {existing existing' : List (MeshNode F)} {selected selected' : List (ReplicaPlacement F)}

theorem chooseCandidate_perm (hmin : LawfulMin F) {ids ids' : List String} {scope : Scope}
    (hids : ids.Perm ids') (hexisting : existing.Perm existing') :
    policy.chooseCandidate stream nodes existingReplicas ids scope existing =
      policy.chooseCandidate stream nodes existingReplicas ids' scope existing' := by
  have hreplicas : (existing ++ findNodes nodes ids).Perm (existing' ++ findNodes nodes ids') :=
    hexisting.append (hids.filterMap _)
  simp only [chooseCandidate, candidates_perm hids,
    fun node => minDistanceToNodeRefs_perm hmin node hreplicas,
    fun node => scoreCandidateAgainstRefs_perm hmin node hreplicas]

end ReplicationPolicy

/-- Every container in the order in which it was filled. -/
def HashOrder.inserted (F : Floats) : HashOrder F where
  existing := id
  selected := id
  demand := id
  existing_perm := List.Perm.refl
  selected_perm := List.Perm.refl
  demand_perm := List.Perm.refl

namespace ReplicationPolicy

variable {policy : ReplicationPolicy F} {order : HashOrder F} {stream : StreamInfo}
  {nodes : List (MeshNode F)} {existingReplicas : List String}
  {existing existing' : List (MeshNode F)} {selected selected' : List (ReplicaPlacement F)}

theorem fillLoop_order (hmin : LawfulMin F) (hexisting : existing.Perm existing') {scope : Scope}
    {targetCount : Nat} {reason : ReplicaReason} (fuel : Nat) (added : Bool) :
    policy.fillLoop order stream nodes existingReplicas scope targetCount reason existing
        fuel added selected =
      policy.fillLoop (.inserted F) stream nodes existingReplicas scope targetCount reason existing'
        fuel added selected := by
  induction fuel generalizing added selected with
  | zero => rfl
  | succ fuel ih =>
      have hchoose : policy.chooseCandidate stream nodes existingReplicas
          (order.selected (selectedIds selected)) scope existing =
          policy.chooseCandidate stream nodes existingReplicas (selectedIds selected) scope
            existing' :=
        chooseCandidate_perm hmin (order.selected_perm _) hexisting
      have hscore : ∀ candidate, scoreCandidate candidate existing selected nodes =
          scoreCandidate candidate existing' selected nodes := fun candidate =>
        scoreCandidateAgainstRefs_perm hmin candidate (hexisting.append (List.Perm.refl _))
      simp only [fillLoop, hchoose, hscore, ih]
      rfl

theorem fillBaseline_order (hmin : LawfulMin F) (hexisting : existing.Perm existing')
    {scope : String → Scope} {reason : String → ReplicaReason} {targetCount : Nat}
    (names : List String) :
    policy.fillBaseline order stream nodes existingReplicas existing scope reason targetCount names
        selected =
      policy.fillBaseline (.inserted F) stream nodes existingReplicas existing' scope reason
        targetCount names selected := by
  induction names generalizing selected with
  | nil => rfl
  | cons name names ih =>
      simp only [fillBaseline, fillScope, fillLoop_order hmin hexisting, ih]

theorem planBaselines_order (hmin : LawfulMin F) (hexisting : existing.Perm existing') :
    policy.planBaselines order stream nodes existingReplicas existing =
      policy.planBaselines (.inserted F) stream nodes existingReplicas existing' := by
  simp only [planBaselines, fillBaseline_order hmin hexisting]

theorem fillMissing_order (hmin : LawfulMin F) (hexisting : existing.Perm existing')
    (reason : ReplicaReason) (selected : List (ReplicaPlacement F)) :
    policy.fillMissing order stream nodes existingReplicas existing selected reason =
      policy.fillMissing (.inserted F) stream nodes existingReplicas existing' selected reason := by
  simp only [fillMissing, fillScope, fillLoop_order hmin hexisting]

theorem serveDemand_order (hmin : LawfulMin F) (hexisting : existing.Perm existing')
    (group : DemandGroup F) :
    policy.serveDemand order stream nodes existingReplicas existing selected group =
      policy.serveDemand (.inserted F) stream nodes existingReplicas existing' selected group := by
  rw [serveDemand_fillMissing, serveDemand_fillMissing, fillMissing_order hmin hexisting,
    fillMissing_order hmin hexisting]

/-- What the baselines select, the ids in the order in which they were inserted. -/
def baselinePlan (policy : ReplicationPolicy F) (stream : StreamInfo) (nodes : List (MeshNode F))
    (existingReplicas : List String) : List (ReplicaPlacement F) :=
  policy.planBaselines (.inserted F) stream nodes existingReplicas
    (findNodes nodes existingReplicas.dedup)

/-- What a demand group adds to a plan, the ids in the order in which they were inserted. -/
def groupPlacement (policy : ReplicationPolicy F) (stream : StreamInfo) (nodes : List (MeshNode F))
    (existingReplicas : List String) (selected : List (ReplicaPlacement F))
    (group : DemandGroup F) : Option (ReplicaPlacement F) :=
  policy.demandPlacement (.inserted F) stream nodes existingReplicas
    (findNodes nodes existingReplicas.dedup) selected group

/-- The demand loop. -/
def serveGroups (policy : ReplicationPolicy F) (stream : StreamInfo) (nodes : List (MeshNode F))
    (existingReplicas : List String) :
    List (DemandGroup F) → List (ReplicaPlacement F) → List (ReplicaPlacement F)
  | [], selected => selected
  | group :: groups, selected =>
      serveGroups policy stream nodes existingReplicas groups
        (selected ++ (policy.groupPlacement stream nodes existingReplicas selected group).toList)

/-- **Only the order of the demand groups is left.** -/
theorem planReplicas_eq (hmin : LawfulMin F) (demand : List (DemandSignal F)) :
    policy.planReplicas order stream nodes existingReplicas demand =
      policy.serveGroups stream nodes existingReplicas (order.demand (demandByRegion stream demand))
        (policy.baselinePlan stream nodes existingReplicas) := by
  have hexisting : (findNodes nodes (order.existing existingReplicas.dedup)).Perm
      (findNodes nodes existingReplicas.dedup) := (order.existing_perm _).filterMap _
  have hloop : ∀ (groups : List (DemandGroup F)) (selected : List (ReplicaPlacement F)),
      groups.foldl (policy.serveDemand order stream nodes existingReplicas
          (findNodes nodes (order.existing existingReplicas.dedup))) selected =
        policy.serveGroups stream nodes existingReplicas groups selected := by
    intro groups
    induction groups with
    | nil => intro selected; rfl
    | cons group groups ih =>
        intro selected
        rw [List.foldl_cons, ih, serveDemand_order hmin hexisting, serveDemand_eq]
        rfl
  rw [planReplicas, hloop, planBaselines_order hmin hexisting]
  rfl

/-! ## §2. The demand groups are distinct. -/

theorem addSignal_keys_nodup {groups : List (DemandGroup F)} (h : (groups.map (·.1)).Nodup)
    (signal : DemandSignal F) : ((addSignal groups signal).map (·.1)).Nodup := by
  simp only [addSignal]
  split
  · -- the group is there: its totals change, the keys do not
    rw [List.map_map]
    convert h using 2
    funext group
    simp only [Function.comp_apply]
    split <;> rfl
  · next hnew =>
      rw [List.map_append, List.map_singleton]
      refine h.append (List.nodup_singleton _) fun key hold hkey => hnew ?_
      obtain rfl := List.mem_singleton.1 hkey
      obtain ⟨group, hgroup, hfst⟩ := List.mem_map.1 hold
      exact List.any_eq_true.2 ⟨group, hgroup, beq_iff_eq.2 hfst⟩

theorem demandByRegion_keys_nodup (stream : StreamInfo) (demand : List (DemandSignal F)) :
    ((demandByRegion stream demand).map (·.1)).Nodup := by
  have hfold : ∀ (signals : List (DemandSignal F)) (groups : List (DemandGroup F)),
      (groups.map (·.1)).Nodup → ((signals.foldl addSignal groups).map (·.1)).Nodup := by
    intro signals
    induction signals with
    | nil => intro groups h; exact h
    | cons signal signals ih =>
        intro groups h
        exact ih _ (addSignal_keys_nodup h signal)
  exact hfold _ [] List.nodup_nil

/-! ## §3. What a group adds, as the plan grows. -/

section Groups

variable {group group' : DemandGroup F} {placement placement' : ReplicaPlacement F}

theorem missingPlacement_none_grown {reason : ReplicaReason}
    (h : policy.missingPlacement order stream nodes existingReplicas existing selected reason = none)
    (hgrown : policy.Grown stream nodes existingReplicas selected selected') :
    policy.missingPlacement order stream nodes existingReplicas existing selected' reason =
      none := by
  refine missingPlacement_eq_none.2 ((missingPlacement_eq_none.1 h).imp ?_ ?_)
  · exact hasReplicaInScope_mono hgrown.subset
  · exact candidates_eq_nil_anti hgrown.subset

/-- A group that adds nothing adds nothing to a larger plan. -/
theorem groupPlacement_none_grown
    (h : policy.groupPlacement stream nodes existingReplicas selected group = none)
    (hgrown : policy.Grown stream nodes existingReplicas selected selected') :
    policy.groupPlacement stream nodes existingReplicas selected' group = none := by
  simp only [groupPlacement, demandPlacement] at h ⊢
  have hle := hgrown.length_le
  split
  · next htest =>
      rw [if_pos ⟨htest.1, by omega⟩] at h
      obtain ⟨hregion, hcontinent⟩ := Option.or_eq_none_iff.1 h
      exact Option.or_eq_none_iff.2 ⟨missingPlacement_none_grown hregion hgrown,
        missingPlacement_none_grown hcontinent hgrown⟩
  · rfl

/-- A group adds a replica in its region, or else one in its continent. -/
theorem groupPlacement_eq_some
    (h : policy.groupPlacement stream nodes existingReplicas selected group = some placement) :
    policy.nextPlacement (.inserted F) stream nodes existingReplicas
        (findNodes nodes existingReplicas.dedup) selected placement.reason = some placement ∧
      policy.Placed stream nodes existingReplicas selected (selected ++ [placement]) ∧
      (placement.reason = .demandRegion group.1.1 ∨
        placement.reason = .demandContinent group.1.2 ∧
          policy.missingPlacement (.inserted F) stream nodes existingReplicas
            (findNodes nodes existingReplicas.dedup) selected (.demandRegion group.1.1) = none) := by
  have hplaced := demandPlacement_placed h
  simp only [groupPlacement, demandPlacement] at h
  split at h
  · next htest =>
      rcases Option.or_eq_some_iff.1 h with hregion | ⟨hnone, hcontinent⟩
      · have hnext := (missingPlacement_eq_some.1 hregion).2
        have hreason := (Placed.of_nextPlacement htest.2 hnext).1
        exact ⟨hreason ▸ hnext, hplaced, Or.inl hreason⟩
      · have hnext := (missingPlacement_eq_some.1 hcontinent).2
        have hreason := (Placed.of_nextPlacement htest.2 hnext).1
        exact ⟨hreason ▸ hnext, hplaced, Or.inr ⟨hreason, hnone⟩⟩
  · cases h

/-- The same reason gives the same placement. -/
theorem groupPlacement_determined
    (h : policy.groupPlacement stream nodes existingReplicas selected group = some placement)
    (h' : policy.groupPlacement stream nodes existingReplicas selected group' = some placement')
    (hreason : placement.reason = placement'.reason) : placement = placement' := by
  have hnext := (groupPlacement_eq_some h).1
  rw [hreason, (groupPlacement_eq_some h').1] at hnext
  exact (Option.some.inj hnext).symm

/-- Once the continent that a group asked for has its replica, the group is served. -/
theorem groupPlacement_continent_served
    (h : policy.groupPlacement stream nodes existingReplicas selected group = some placement)
    (hcontinent : placement.reason = .demandContinent group.1.2)
    (hplaced : policy.Placed stream nodes existingReplicas selected (selected ++ [placement']))
    (hreason : placement'.reason = placement.reason) :
    policy.groupPlacement stream nodes existingReplicas (selected ++ [placement']) group = none := by
  have hgrown := Relation.ReflTransGen.single hplaced
  have hregion : policy.missingPlacement (.inserted F) stream nodes existingReplicas
      (findNodes nodes existingReplicas.dedup) selected (.demandRegion group.1.1) = none := by
    rcases (groupPlacement_eq_some h).2.2 with hregion | ⟨_, hnone⟩
    · rw [hcontinent] at hregion
      cases hregion
    · exact hnone
  have hhas := hplaced.has
  rw [hreason, hcontinent] at hhas
  simp only [groupPlacement, demandPlacement]
  split
  · exact Option.or_eq_none_iff.2 ⟨missingPlacement_none_grown hregion hgrown,
      missingPlacement_eq_none.2 (Or.inl hhas)⟩
  · rfl

/-- Once the region of a group has its replica, only the continent is left to ask for. -/
theorem groupPlacement_region_served
    (hhas : hasReplicaInScope nodes existingReplicas (selectedIds selected) (.region group.1.1) =
      true)
    (h : policy.groupPlacement stream nodes existingReplicas selected group = some placement) :
    placement.reason = .demandContinent group.1.2 := by
  simp only [groupPlacement, demandPlacement] at h
  split at h
  · next htest =>
      have hnone : policy.missingPlacement (.inserted F) stream nodes existingReplicas
          (findNodes nodes existingReplicas.dedup) selected (.demandRegion group.1.1) = none :=
        missingPlacement_eq_none.2 (Or.inl hhas)
      rw [hnone, Option.none_or] at h
      exact (Placed.of_nextPlacement htest.2 (missingPlacement_eq_some.1 h).2).1
  · cases h

theorem groupPlacement_grown (group : DemandGroup F) (selected : List (ReplicaPlacement F)) :
    policy.Grown stream nodes existingReplicas selected
      (selected ++ (policy.groupPlacement stream nodes existingReplicas selected group).toList) := by
  rw [groupPlacement, ← serveDemand_eq]
  exact serveDemand_grown

/-- What the loop appends comes from groups that had something to add at its start. -/
theorem serveGroups_appends (groups : List (DemandGroup F))
    (selected : List (ReplicaPlacement F)) :
    ∃ tail, policy.serveGroups stream nodes existingReplicas groups selected = selected ++ tail ∧
      ∀ placement ∈ tail, ∃ group ∈ groups,
        policy.groupPlacement stream nodes existingReplicas selected group ≠ none ∧
          (placement.reason = .demandRegion group.1.1 ∨
            placement.reason = .demandContinent group.1.2) := by
  induction groups generalizing selected with
  | nil => exact ⟨[], (List.append_nil _).symm, fun placement h => by cases h⟩
  | cons first groups ih =>
      obtain ⟨tail, htail, hfrom⟩ := ih (selected ++
        (policy.groupPlacement stream nodes existingReplicas selected first).toList)
      refine ⟨_, htail.trans (List.append_assoc _ _ _), fun placement hplacement => ?_⟩
      rcases List.mem_append.1 hplacement with hfirst | hlater
      · have hsome := Option.mem_toList.1 hfirst
        refine ⟨first, List.mem_cons_self, fun hnone => ?_, ?_⟩
        · rw [hnone] at hsome
          cases hsome
        · exact (groupPlacement_eq_some hsome).2.2.imp_right And.left
      · obtain ⟨group, hgroup, hadds, hreason⟩ := hfrom placement hlater
        refine ⟨group, List.mem_cons_of_mem first hgroup, fun hnone => hadds ?_, hreason⟩
        exact groupPlacement_none_grown hnone (groupPlacement_grown first selected)

/-- Groups that have nothing to add leave the plan as it is. -/
theorem serveGroups_idle {groups : List (DemandGroup F)}
    (h : ∀ group ∈ groups,
      policy.groupPlacement stream nodes existingReplicas selected group = none) :
    policy.serveGroups stream nodes existingReplicas groups selected = selected := by
  obtain ⟨tail, htail, hfrom⟩ :
      ∃ tail, policy.serveGroups stream nodes existingReplicas groups selected =
        selected ++ tail ∧ _ := serveGroups_appends groups selected
  cases tail with
  | nil => rw [htail, List.append_nil]
  | cons placement tail =>
      obtain ⟨group, hgroup, hadds, _⟩ := hfrom placement List.mem_cons_self
      exact absurd (h group hgroup) hadds

end Groups

/-! ## §4. The exact condition. -/

/-- The targets of a plan with their reasons. -/
def targets (plan : List (ReplicaPlacement F)) : List (String × ReplicaReason) :=
  plan.map fun placement => (placement.targetNodeId, placement.reason)

/-- Two demand groups that both have something to add after the baselines add it for the same
reason, and what one of them adds leaves nothing to add for the other. -/
def OrderFree (policy : ReplicationPolicy F) (stream : StreamInfo) (nodes : List (MeshNode F))
    (existingReplicas : List String) (demand : List (DemandSignal F)) : Prop :=
  let base := policy.baselinePlan stream nodes existingReplicas
  ∀ group ∈ demandByRegion stream demand, ∀ group' ∈ demandByRegion stream demand,
    group.1 ≠ group'.1 → ∀ placement placement',
      policy.groupPlacement stream nodes existingReplicas base group = some placement →
      policy.groupPlacement stream nodes existingReplicas base group' = some placement' →
        placement.reason = placement'.reason ∧
          policy.groupPlacement stream nodes existingReplicas (base ++ [placement]) group' = none

section Condition

variable {demand : List (DemandSignal F)} {groups groups' : List (DemandGroup F)}

/-- Under the condition, one placement at most is added, by a group that has one to add. -/
theorem serveGroups_orderFree (hfree : policy.OrderFree stream nodes existingReplicas demand)
    (hsub : groups ⊆ demandByRegion stream demand) (hnodup : (groups.map (·.1)).Nodup) :
    let base := policy.baselinePlan stream nodes existingReplicas
    (policy.serveGroups stream nodes existingReplicas groups base = base ∧
        ∀ group ∈ groups,
          policy.groupPlacement stream nodes existingReplicas base group = none) ∨
      ∃ group ∈ groups, ∃ placement,
        policy.groupPlacement stream nodes existingReplicas base group = some placement ∧
          policy.serveGroups stream nodes existingReplicas groups base = base ++ [placement] := by
  intro base
  induction groups with
  | nil => exact Or.inl ⟨rfl, fun group h => by cases h⟩
  | cons first groups ih =>
      rw [List.map_cons, List.nodup_cons] at hnodup
      obtain ⟨hfirst, hrest⟩ := List.cons_subset.1 hsub
      cases hplacement : policy.groupPlacement stream nodes existingReplicas base first with
      | none =>
          have hstep : policy.serveGroups stream nodes existingReplicas (first :: groups) base =
              policy.serveGroups stream nodes existingReplicas groups base := by
            rw [serveGroups, hplacement, Option.toList_none, List.append_nil]
          rw [hstep]
          rcases ih hrest hnodup.2 with ⟨hsame, hnone⟩ | ⟨group, hgroup, hadds⟩
          · refine Or.inl ⟨hsame, fun group hgroup => ?_⟩
            rcases List.mem_cons.1 hgroup with rfl | hgroup
            · exact hplacement
            · exact hnone group hgroup
          · exact Or.inr ⟨group, List.mem_cons_of_mem first hgroup, hadds⟩
      | some placement =>
          refine Or.inr ⟨first, List.mem_cons_self, placement, hplacement, ?_⟩
          rw [serveGroups, hplacement]
          refine serveGroups_idle fun group hgroup => ?_
          -- a group idle after the baselines stays idle, another one is served by `first`
          cases hother : policy.groupPlacement stream nodes existingReplicas base group with
          | none =>
              exact groupPlacement_none_grown hother
                (Relation.ReflTransGen.single (groupPlacement_eq_some hplacement).2.1)
          | some placement' =>
              have hne : first.1 ≠ group.1 := fun heq =>
                hnodup.1 (heq ▸ List.mem_map_of_mem hgroup)
              exact (hfree first hfirst group (hrest hgroup) hne placement placement' hplacement
                hother).2

theorem serveGroups_same_of_orderFree
    (hfree : policy.OrderFree stream nodes existingReplicas demand)
    (hperm : groups.Perm (demandByRegion stream demand))
    (hperm' : groups'.Perm (demandByRegion stream demand)) :
    policy.serveGroups stream nodes existingReplicas groups
        (policy.baselinePlan stream nodes existingReplicas) =
      policy.serveGroups stream nodes existingReplicas groups'
        (policy.baselinePlan stream nodes existingReplicas) := by
  have hkeys := demandByRegion_keys_nodup stream demand
  have hrun := serveGroups_orderFree hfree hperm.subset ((hperm.map _).nodup_iff.2 hkeys)
  have hrun' := serveGroups_orderFree hfree hperm'.subset ((hperm'.map _).nodup_iff.2 hkeys)
  have hmem : ∀ group, group ∈ groups ↔ group ∈ groups' := fun group =>
    hperm.mem_iff.trans hperm'.mem_iff.symm
  rcases hrun with ⟨hsame, hnone⟩ | ⟨group, hgroup, placement, hadds, hplan⟩
  · rcases hrun' with ⟨hsame', _⟩ | ⟨group', hgroup', placement', hadds', _⟩
    · rw [hsame, hsame']
    · rw [hnone group' ((hmem group').2 hgroup')] at hadds'
      cases hadds'
  · rcases hrun' with ⟨_, hnone'⟩ | ⟨group', hgroup', placement', hadds', hplan'⟩
    · rw [hnone' group ((hmem group).1 hgroup)] at hadds
      cases hadds
    · rw [hplan, hplan']
      have hreason : placement.reason = placement'.reason := by
        by_cases hkey : group.1 = group'.1
        · obtain rfl := List.inj_on_of_nodup_map hkeys (hperm.subset hgroup)
            (hperm'.subset hgroup') hkey
          rw [hadds] at hadds'
          rw [Option.some.inj hadds']
        · exact (hfree group (hperm.subset hgroup) group' (hperm'.subset hgroup') hkey placement
            placement' hadds hadds').1
      rw [groupPlacement_determined hadds hadds' hreason]

theorem exists_perm_two {α : Type} {l : List α} {x y : α} (hx : x ∈ l) (hy : y ∈ l)
    (hne : x ≠ y) : ∃ rest, (x :: y :: rest).Perm l := by
  obtain ⟨before, after, rfl⟩ := List.append_of_mem hx
  have hother : y ∈ before ++ after := by
    rcases List.mem_append.1 hy with hbefore | hafter
    · exact List.mem_append_left _ hbefore
    · exact List.mem_append_right _ ((List.mem_cons.1 hafter).resolve_left hne.symm)
  obtain ⟨before', after', hsplit⟩ := List.append_of_mem hother
  refine ⟨before' ++ after', List.Perm.symm (List.perm_middle.trans (List.Perm.cons x ?_))⟩
  rw [hsplit]
  exact List.perm_middle

theorem targets_append (plan tail : List (ReplicaPlacement F)) :
    targets (plan ++ tail) = targets plan ++ targets tail :=
  List.map_append

/-- Served first, a group puts its placement right after the plan. -/
theorem serveGroups_cons_some {group : DemandGroup F} {placement : ReplicaPlacement F}
    (h : policy.groupPlacement stream nodes existingReplicas selected group = some placement) :
    policy.serveGroups stream nodes existingReplicas (group :: groups) selected =
      policy.serveGroups stream nodes existingReplicas groups (selected ++ [placement]) := by
  rw [serveGroups, h]
  rfl

/-- Every order of the demand groups gives the same targets. -/
def OrderBlind (policy : ReplicationPolicy F) (stream : StreamInfo) (nodes : List (MeshNode F))
    (existingReplicas : List String) (demand : List (DemandSignal F)) : Prop :=
  ∀ groups groups', groups.Perm (demandByRegion stream demand) →
    groups'.Perm (demandByRegion stream demand) →
    targets (policy.serveGroups stream nodes existingReplicas groups
        (policy.baselinePlan stream nodes existingReplicas)) =
      targets (policy.serveGroups stream nodes existingReplicas groups'
        (policy.baselinePlan stream nodes existingReplicas))

/-- The group served first decides the first target, so all of them have the same reason. -/
theorem OrderBlind.reason_eq (h : policy.OrderBlind stream nodes existingReplicas demand)
    {group group' : DemandGroup F} {placement placement' : ReplicaPlacement F}
    (hgroup : group ∈ demandByRegion stream demand)
    (hgroup' : group' ∈ demandByRegion stream demand) (hne : group.1 ≠ group'.1)
    (hadds : policy.groupPlacement stream nodes existingReplicas
      (policy.baselinePlan stream nodes existingReplicas) group = some placement)
    (hadds' : policy.groupPlacement stream nodes existingReplicas
      (policy.baselinePlan stream nodes existingReplicas) group' = some placement') :
    placement.reason = placement'.reason := by
  obtain ⟨rest, hperm⟩ := exists_perm_two hgroup hgroup' fun heq => hne (congrArg _ heq)
  obtain ⟨tail, htail, _⟩ := serveGroups_appends (group' :: rest)
    (policy.baselinePlan stream nodes existingReplicas ++ [placement])
  obtain ⟨tail', htail', _⟩ := serveGroups_appends (group :: rest)
    (policy.baselinePlan stream nodes existingReplicas ++ [placement'])
  have hsame := h _ _ hperm ((List.Perm.swap group group' rest).trans hperm)
  rw [serveGroups_cons_some hadds, serveGroups_cons_some hadds', htail, htail'] at hsame
  simp only [targets_append, List.append_assoc, List.append_cancel_left_eq] at hsame
  exact congrArg Prod.snd (List.cons_eq_cons.1 hsame).1

/-- If every order of the groups gives the same targets, the condition holds. -/
theorem OrderBlind.orderFree (h : policy.OrderBlind stream nodes existingReplicas demand) :
    policy.OrderFree stream nodes existingReplicas demand := by
  intro group hgroup group' hgroup' hne placement placement' hadds hadds'
  have hreason := h.reason_eq hgroup hgroup' hne hadds hadds'
  refine ⟨hreason, ?_⟩
  obtain rfl := groupPlacement_determined hadds hadds' hreason
  obtain ⟨_, hplaced, hkind⟩ := groupPlacement_eq_some hadds'
  rcases hkind with hregion | ⟨hcontinent, _⟩
  · -- both ask for one region: a further placement of `group'` is for its continent
    cases hmore : policy.groupPlacement stream nodes existingReplicas
        (policy.baselinePlan stream nodes existingReplicas ++ [placement]) group' with
    | none => rfl
    | some further =>
        exfalso
        have hhas := hplaced.has
        rw [hregion] at hhas
        have hfurther := groupPlacement_region_served hhas hmore
        obtain ⟨rest, hperm⟩ := exists_perm_two hgroup hgroup' fun heq => hne (congrArg _ heq)
        obtain ⟨tail, htail, _⟩ := serveGroups_appends rest
          (policy.baselinePlan stream nodes existingReplicas ++ [placement] ++ [further])
        obtain ⟨tail', htail', hfrom⟩ := serveGroups_appends (group :: rest)
          (policy.baselinePlan stream nodes existingReplicas ++ [placement])
        have hperm' := (List.Perm.swap group group' rest).trans hperm
        have hsame := h _ _ hperm hperm'
        rw [serveGroups_cons_some hadds, serveGroups_cons_some hmore, serveGroups_cons_some hadds',
          htail, htail'] at hsame
        simp only [targets_append, List.append_assoc, List.append_cancel_left_eq] at hsame
        -- in the other order some group of `group :: rest` adds it, and asks for that region too
        cases tail' with
        | nil => cases hsame
        | cons other tail' =>
            have hother : further.reason = other.reason :=
              congrArg Prod.snd (List.cons_eq_cons.1 hsame).1
            obtain ⟨third, hthird, hactive, hfor⟩ := hfrom other List.mem_cons_self
            have hkeys := (hperm'.map Prod.fst).nodup_iff.2 (demandByRegion_keys_nodup stream demand)
            have hdistinct : third.1 ≠ group'.1 := fun heq =>
              (List.nodup_cons.1 hkeys).1 (heq ▸ List.mem_map_of_mem hthird)
            obtain ⟨early, hearly⟩ := Option.ne_none_iff_exists'.1 fun hnone => hactive
              (groupPlacement_none_grown hnone (Relation.ReflTransGen.single hplaced))
            have hthird' := hperm'.subset (List.mem_cons_of_mem group' hthird)
            have hsecond := h.reason_eq hthird' hgroup' hdistinct hearly hadds'
            refine hdistinct (Prod.ext ?_ ?_)
            · rcases (groupPlacement_eq_some hearly).2.2 with hkind | ⟨hkind, _⟩
              · rw [hkind, hregion] at hsecond
                exact ReplicaReason.demandRegion.inj hsecond
              · rw [hkind, hregion] at hsecond
                cases hsecond
            · rw [hfurther] at hother
              rcases hfor with hkind | hkind
              · rw [hkind] at hother
                cases hother
              · rw [hkind] at hother
                exact (ReplicaReason.demandContinent.inj hother).symm
  · exact groupPlacement_continent_served hadds' hcontinent hplaced rfl

end Condition

end ReplicationPolicy

open Classical in
/-- The demand groups visited in the order of `groups`. -/
noncomputable def HashOrder.serving {groups target : List (DemandGroup F)}
    (h : groups.Perm target) : HashOrder F where
  existing := id
  selected := id
  demand := fun l => if l = target then groups else l
  existing_perm := List.Perm.refl
  selected_perm := List.Perm.refl
  demand_perm := fun l => by
    split
    · next heq => exact heq ▸ h
    · exact List.Perm.refl l

theorem HashOrder.serving_demand {groups target : List (DemandGroup F)} (h : groups.Perm target) :
    (HashOrder.serving h).demand target = groups :=
  if_pos rfl

namespace ReplicationPolicy

/-- **THE PLAN IS THE SAME IN EVERY HASH ORDER EXACTLY IF THE DEMAND IS `OrderFree`.** -/
theorem planReplicas_order_iff (hmin : LawfulMin F) (policy : ReplicationPolicy F)
    (stream : StreamInfo) (nodes : List (MeshNode F)) (existingReplicas : List String)
    (demand : List (DemandSignal F)) :
    (∀ order order' : HashOrder F,
        targets (policy.planReplicas order stream nodes existingReplicas demand) =
          targets (policy.planReplicas order' stream nodes existingReplicas demand)) ↔
      policy.OrderFree stream nodes existingReplicas demand := by
  constructor
  · intro hsame
    refine OrderBlind.orderFree fun groups groups' hperm hperm' => ?_
    have horders := hsame (.serving hperm) (.serving hperm')
    rw [planReplicas_eq hmin, planReplicas_eq hmin, HashOrder.serving_demand,
      HashOrder.serving_demand] at horders
    exact horders
  · intro hfree order order'
    rw [planReplicas_eq hmin, planReplicas_eq hmin, serveGroups_same_of_orderFree hfree
      (order.demand_perm _) (order'.demand_perm _)]

/-! ## §5. Two hot regions and room for one replica. -/

/-- Thousandths, `none` for infinity; the nodes below are all in one place. -/
def thousandths : Floats where
  F64 := Option Nat
  zero := some 0
  infinity := none
  add := fun x y => x.bind fun a => y.map (a + ·)
  min := fun x y => x.elim y fun a => some (y.elim a (Nat.min a))
  ge := fun x y => x.elim true fun a => y.elim false fun b => decide (b ≤ a)
  greater := fun x y => x.elim y.isSome fun a => y.elim false fun b => decide (b < a)
  distanceKm := fun left right => if left = right then some 0 else none
  weigh := fun available total egress active contributors distance =>
    some (500 * available / total + 200 * Nat.min egress 10000000000 / 10000000000 +
      distance.elim 300 (fun d => 300 * Nat.min d 10000000 / 10000000) - (active + contributors))

theorem thousandths_lawfulMin : LawfulMin thousandths where
  comm x y := by
    cases x <;> cases y <;> simp [thousandths, Nat.min_comm]
  assoc x y z := by
    cases x <;> cases y <;> cases z <;> simp [thousandths, Nat.min_assoc]

/-- A node with free storage. -/
def edgeNode (nodeId region continent : String) : MeshNode thousandths where
  nodeId
  region
  continent
  latitude := some 0
  longitude := some 0
  totalStorageBytes := 1000
  usedStorageBytes := 0
  egressCapacityBps := 0
  contributorStreams := 0
  activeStreams := 0
  draining := false

def twoRegions : List (MeshNode thousandths) :=
  [edgeNode "eu-london-1" "uk-south" "eu", edgeNode "apac-tokyo-1" "jp-east" "apac"]

/-- Readers of stream 42 in both regions. -/
def bothHot : List (DemandSignal thousandths) :=
  [{ streamId := 42, region := "uk-south", continent := "eu", activeReaders := 200,
     readsPerSec := some 25000 },
   { streamId := 42, region := "jp-east", continent := "apac", activeReaders := 200,
     readsPerSec := some 25000 }]

/-- The default policy without baselines, capped at one replica. -/
def capped : ReplicationPolicy thousandths where
  baselinePerRegion := 0
  baselinePerContinent := 0
  demandReadsPerSec := some 10000
  demandActiveReaders := 50
  minMirrorDistanceKm := some 300000
  maxNewReplicasPerPlan := 1

/-- The demand groups in reverse. -/
def reversed : HashOrder thousandths where
  existing := id
  selected := id
  demand := List.reverse
  existing_perm := List.Perm.refl
  selected_perm := List.Perm.refl
  demand_perm := List.reverse_perm

/-- The region that is visited first gets the only replica. -/
theorem first_region_takes_cap :
    ¬ ∀ order order' : HashOrder thousandths,
      targets (capped.planReplicas order ⟨42, 100⟩ twoRegions [] bothHot) =
        targets (capped.planReplicas order' ⟨42, 100⟩ twoRegions [] bothHot) := by
  intro hsame
  have hlondon : targets (capped.planReplicas (.inserted thousandths) ⟨42, 100⟩ twoRegions []
      bothHot) = [("eu-london-1", .demandRegion "uk-south")] := by decide +kernel
  have htokyo : targets (capped.planReplicas reversed ⟨42, 100⟩ twoRegions [] bothHot) =
      [("apac-tokyo-1", .demandRegion "jp-east")] := by decide +kernel
  have heq := hsame (.inserted thousandths) reversed
  rw [hlondon, htokyo] at heq
  exact absurd heq (by decide)

/-- With a replica in London, only Tokyo is left to choose. -/
theorem planReplicas_order_iff_london :
    LawfulMin thousandths ∧
      capped.OrderFree ⟨42, 100⟩ twoRegions ["eu-london-1"] bothHot ∧
      ∀ order order' : HashOrder thousandths,
        targets (capped.planReplicas order ⟨42, 100⟩ twoRegions ["eu-london-1"] bothHot) =
          targets (capped.planReplicas order' ⟨42, 100⟩ twoRegions ["eu-london-1"] bothHot) := by
  have hgroups : demandByRegion ⟨42, 100⟩ bothHot =
      [(("uk-south", "eu"), ⟨200, some 25000⟩), (("jp-east", "apac"), ⟨200, some 25000⟩)] := rfl
  have hidle : capped.groupPlacement ⟨42, 100⟩ twoRegions ["eu-london-1"]
      (capped.baselinePlan ⟨42, 100⟩ twoRegions ["eu-london-1"])
      (("uk-south", "eu"), ⟨200, some 25000⟩) = none := rfl
  have hfree : capped.OrderFree ⟨42, 100⟩ twoRegions ["eu-london-1"] bothHot := by
    intro group hgroup group' hgroup' hne placement placement' hadds hadds'
    rw [hgroups] at hgroup hgroup'
    -- one of two different groups is the one in London
    rcases List.mem_pair.1 hgroup with rfl | rfl
    · rw [hidle] at hadds
      cases hadds
    · rcases List.mem_pair.1 hgroup' with rfl | rfl
      · rw [hidle] at hadds'
        cases hadds'
      · exact absurd rfl hne
  exact ⟨thousandths_lawfulMin, hfree,
    (planReplicas_order_iff thousandths_lawfulMin capped ⟨42, 100⟩ twoRegions ["eu-london-1"]
      bothHot).2 hfree⟩

end ReplicationPolicy

end AvMesh.Replication
