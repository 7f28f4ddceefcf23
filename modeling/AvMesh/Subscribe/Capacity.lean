/-
  AvMesh.Subscribe.Capacity
  ─────────────────────────
  **WHAT A REVOKED BINDING COSTS** (`MAX_ACTIVE_SUBSCRIPTIONS`).

  A registry refuses a binding when its map holds 65,536 of them.  A revoked
  binding stays in the map, inactive, until a snapshot replaces the map, so the
  limit is on the bindings installed since the last snapshot and not on the
  active ones.

  `Since` counts a run: what was installed since the last snapshot and how much
  of it was invalidated.  `Counts` says the map agrees with it.

    • `capacity_refusal_iff` — when a refusal means that so many are active.
-/
import AvMesh.Subscribe.Leases

namespace AvMesh.Subscribe

open AvMesh.Lib

variable {C : MediaCrates}

namespace CurrentSubscribeRegistry

/-! ## §1. Counting a run. -/

/-- 1 for an active binding. -/
def activeWeight (_ : SubscribeBindingKey) (registered : RegisteredSubscribeBinding C) : Nat :=
  if registered.active then 1 else 0

/-- The number of bindings that are installed and not revoked. -/
def activeCount (r : CurrentSubscribeRegistry C) : Nat := r.bindings.total activeWeight

/-- What happened since the last snapshot, its own bindings included. -/
structure Since where
  installed : Nat := 0
  invalidated : Nat := 0
  deriving Repr, DecidableEq

/-- What an operation adds. -/
def Since.next (since : Since) (r : CurrentSubscribeRegistry C) (op : Op C) : Since :=
  match op with
  | .install binding =>
      if (r.install binding).1.isOk then { since with installed := since.installed + 1 } else since
  | .applyInvalidation event =>
      match (r.applyInvalidation event).1 with
      | .ok (.applied invalidated) =>
          { since with invalidated := since.invalidated + invalidated }
      | _ => since
  | .installSnapshot _ bindings =>
      if snapshotInstalled r op then ⟨bindings.length, 0⟩ else since

/-- The count of a whole run. -/
def since (r : CurrentSubscribeRegistry C) (ops : List (Op C)) : Since :=
  (trace step r ops).foldl (fun since e => since.next e.1 e.2) {}

theorem since_append_singleton (r : CurrentSubscribeRegistry C) (ops : List (Op C)) (op : Op C) :
    since r (ops ++ [op]) = (since r ops).next (exec step r ops) op := by
  unfold since
  rw [trace_append, List.foldl_append]
  rfl

/-- The map holds what was installed, active but for what was invalidated. -/
structure Counts (r : CurrentSubscribeRegistry C) (since : Since) : Prop where
  size : r.bindings.size = since.installed
  active : r.activeCount + since.invalidated = since.installed
  size_le : since.installed ≤ maxActiveSubscriptions

/-! ## §2. The two loops. -/

section Loops

variable {event : SubscribeInvalidationV1 C} {key : SubscribeBindingKey}
  {unique : Table SubscribeBindingKey (CurrentSubscribeBinding C)}

/-- The loop of an invalidation counts every binding it takes from the active ones. -/
theorem revokeEach_active (event : SubscribeInvalidationV1 C) (keys : List SubscribeBindingKey) :
    ∀ v : Revocation C, v.bindings.total activeWeight + v.invalidated ≤ u64Max →
      (revokeEach event keys v).bindings.total activeWeight + (revokeEach event keys v).invalidated =
        v.bindings.total activeWeight + v.invalidated := by
  induction keys with
  | nil => intro v _; rfl
  | cons key keys ih =>
      intro v hroom
      rcases revokeEach_cons event key keys v with ⟨-, heq⟩ | ⟨registered, hlookup, hrevokes, heq⟩
      · rw [heq]
        exact ih v hroom
      · rw [revokes_of_lookup event hlookup, Bool.and_eq_true] at hrevokes
        -- the binding was active and is not any more
        have hactive : activeWeight key registered = 1 := if_pos hrevokes.1
        have htotal := AList.total_replace activeWeight
          { registered with revision := bumpRevision v.revision, active := false } hlookup
        have hrevoked : activeWeight key
            { registered with revision := bumpRevision v.revision, active := false } = 0 := rfl
        rw [hactive, hrevoked] at htotal
        have hinvalidated : satAdd v.invalidated 1 = v.invalidated + 1 := satAdd_of_le (by omega)
        have hafter : (revokeAt v key registered).bindings.total activeWeight +
            (revokeAt v key registered).invalidated =
              v.bindings.total activeWeight + v.invalidated := by
          show (v.bindings.replace key _).total activeWeight + satAdd v.invalidated 1 = _
          omega
        rw [heq, ih _ (by omega), hafter]

/-- The loop of a snapshot registers each key once. -/
theorem registerEach_total (f : SubscribeBindingKey → RegisteredSubscribeBinding C → Nat)
    (hf : ∀ key binding revision, f key ⟨binding, revision, true⟩ = 1)
    (keys : List SubscribeBindingKey) :
    ∀ acc : Nat × Table SubscribeBindingKey (RegisteredSubscribeBinding C),
      keys.Nodup → (∀ key ∈ keys, key ∈ unique) → (∀ key ∈ keys, key ∉ acc.2) →
      (registerEach unique keys acc).2.total f = acc.2.total f + keys.length := by
  induction keys with
  | nil => intro acc _ _ _; rfl
  | cons key keys ih =>
      intro acc hnodup hmem hnew
      obtain ⟨hkey, hkeys⟩ := List.nodup_cons.mp hnodup
      obtain ⟨binding, hbinding⟩ := AList.exists_lookup_of_mem (hmem key List.mem_cons_self)
      have hothers : ∀ other ∈ keys,
          other ∉ acc.2.insert key ⟨binding, bumpRevision acc.1, true⟩ := by
        intro other hother
        rw [AList.mem_insert, not_or]
        refine ⟨?_, hnew other (List.mem_cons_of_mem _ hother)⟩
        rintro rfl
        exact hkey hother
      rw [registerEach_cons unique hbinding,
        ih _ hkeys (fun other hother => hmem other (List.mem_cons_of_mem _ hother)) hothers,
        AList.total_insert_of_notMem _ _ (hnew key List.mem_cons_self), hf, List.length_cons]
      omega

theorem withSnapshot_total (f : SubscribeBindingKey → RegisteredSubscribeBinding C → Nat)
    (hf : ∀ key binding revision, f key ⟨binding, revision, true⟩ = 1)
    (r : CurrentSubscribeRegistry C) (boundarySequence : Nat)
    {bindings : List (CurrentSubscribeBinding C)} (hunique : collectUnique bindings ∅ = .ok unique) :
    (r.withSnapshot boundarySequence unique).bindings.total f = bindings.length := by
  have hsize := (collectUnique_ok bindings ∅ (by
    intro key binding hlookup
    rw [AList.lookup_empty] at hlookup
    cases hlookup) hunique).2
  have htotal := registerEach_total f hf (inKeyOrder C unique) (r.nextRevision, ∅)
    (nodup_inKeyOrder unique) (fun key hkey => mem_inKeyOrder.mp hkey)
    (fun key _ => AList.notMem_empty key)
  rw [length_inKeyOrder, hsize] at htotal
  show (registerEach unique (inKeyOrder C unique) (r.nextRevision, ∅)).2.total f = _
  rw [htotal]
  simp [AList.total]

end Loops

/-! ## §3. One operation. -/

variable {r : CurrentSubscribeRegistry C} {count : Since}

theorem Counts.activeCount_le (h : Counts r count) : r.activeCount ≤ u64Max := by
  have hmax : maxActiveSubscriptions ≤ u64Max := by decide
  have hactive := h.active
  have hle := h.size_le
  omega

theorem Counts.install (h : Counts r count) (binding : CurrentSubscribeBinding C) :
    Counts (r.install binding).2 (count.next r (.install binding)) := by
  unfold Since.next
  dsimp only
  by_cases hinstalls : Installs r binding
  · rw [install_of_installs hinstalls]
    have hroom := hinstalls.room
    have hsize := h.size
    -- a new key: one entry more, and it is active
    constructor
    case size =>
      show (r.bindings.insert _ _).size = count.installed + 1
      rw [AList.size_insert_of_notMem _ hinstalls.new, hsize]
    case active =>
      show (r.bindings.insert _ _).total activeWeight + count.invalidated = count.installed + 1
      rw [AList.total_insert_of_notMem _ _ hinstalls.new]
      have hactive : r.bindings.total activeWeight + count.invalidated = count.installed := h.active
      show 1 + _ + _ = _
      omega
    case size_le =>
      show count.installed + 1 ≤ _
      omega
  · obtain ⟨error, hrefused⟩ := install_refused hinstalls
    rw [hrefused]
    exact h

theorem Counts.applyInvalidation (h : Counts r count) (event : SubscribeInvalidationV1 C) :
    Counts (r.applyInvalidation event).2 (count.next r (.applyInvalidation event)) := by
  unfold Since.next
  dsimp only
  rcases applyInvalidation_cases r event with
    hmal | ⟨hwell, hold⟩ | ⟨hwell, hlater, hgap⟩ | happlies
  · rw [applyInvalidation_malformed r hmal]
    exact h
  · rw [applyInvalidation_duplicate hwell hold]
    exact h
  -- out of order: the registry only forgets that it is synchronized
  · rw [applyInvalidation_gap hwell hlater hgap]
    exact ⟨h.size, h.active, h.size_le⟩
  · rw [applyInvalidation_next happlies.wellFormed happlies.synchronized happlies.next]
    -- revoked bindings stay in the map
    refine ⟨?_, ?_, h.size_le⟩
    · show (revokeEach event _ _).bindings.size = _
      rw [revokeEach_size]
      exact h.size
    · have hloop := revokeEach_active event (inKeyOrder C r.bindings)
        ⟨r.bindings, r.nextRevision, 0⟩ h.activeCount_le
      have hactive : r.bindings.total activeWeight + count.invalidated = count.installed := h.active
      show (r.revoke event).bindings.total activeWeight +
        (count.invalidated + (r.revoke event).invalidated) = count.installed
      unfold revoke
      dsimp only at hloop
      omega

theorem Counts.installSnapshot (h : Counts r count) (boundarySequence : Nat)
    (bindings : List (CurrentSubscribeBinding C)) :
    Counts (r.installSnapshot boundarySequence bindings).2
      (count.next r (.installSnapshot boundarySequence bindings)) := by
  unfold Since.next
  dsimp only
  rcases installSnapshot_cases r boundarySequence bindings with
    ⟨hnot, error, hrefused⟩ | ⟨unique, hinstalled, hunique, hlast, hrequired, hok⟩
  · rw [hnot, hrefused]
    exact h
  · have hlength : bindings.length ≤ maxActiveSubscriptions := by
      -- a longer snapshot is refused before it is read
      rw [← Nat.not_lt]
      intro hlarge
      unfold CurrentSubscribeRegistry.installSnapshot at hok
      split at hok
      · cases hok
      · cases hok
    rw [if_pos hinstalled, hok]
    refine ⟨?_, ?_, hlength⟩
    · rw [AList.size_eq_total]
      exact withSnapshot_total _ (fun _ _ _ => rfl) r boundarySequence hunique
    · exact withSnapshot_total activeWeight (fun _ _ _ => rfl) r boundarySequence hunique

theorem Counts.step (h : Counts r count) (op : Op C) : Counts (step r op).2 (count.next r op) := by
  cases op with
  | install binding => exact h.install binding
  | applyInvalidation event => exact h.applyInvalidation event
  | installSnapshot boundarySequence bindings => exact h.installSnapshot boundarySequence bindings

/-! ## §4. Every run. -/

theorem exec_counts {boundarySequence : Nat} {registry : CurrentSubscribeRegistry C}
    (hnew : CurrentSubscribeRegistry.new C boundarySequence = .ok registry) (ops : List (Op C)) :
    Counts (exec CurrentSubscribeRegistry.step registry ops) (since registry ops) := by
  refine exec_history CurrentSubscribeRegistry.step (fun ops r => Counts r (since registry ops))
    registry ?_ ?_ ops
  · obtain ⟨-, rfl⟩ := new_eq_ok hnew
    exact ⟨rfl, rfl, Nat.zero_le _⟩
  · intro ops op h
    rw [since_append_singleton]
    exact h.step op

/-- The binding is refused for capacity. -/
def RefusedForCapacity (r : CurrentSubscribeRegistry C) (binding : CurrentSubscribeBinding C) :
    Prop :=
  (r.install binding).1 = .error ⟨.capacity, "subscribe_bindings"⟩

theorem refusedForCapacity_iff {binding : CurrentSubscribeBinding C}
    (hsync : r.synchronized = true) (hkey : binding.key ∉ r.bindings) :
    RefusedForCapacity r binding ↔ maxActiveSubscriptions ≤ r.bindings.size := by
  have hopen : ¬ r.synchronized = false := by
    rw [hsync]
    decide
  unfold RefusedForCapacity install
  rw [if_neg hopen, if_neg hkey]
  split
  next hfull => exact ⟨fun _ => hfull, fun _ => rfl⟩
  next hroom => exact ⟨nofun, fun hfull => absurd hfull hroom⟩

/-- **A refusal for capacity** means that `MAX_ACTIVE_SUBSCRIPTIONS` bindings are active exactly
when fewer were installed since the last snapshot, so that there is no refusal, or none of them
has been invalidated. -/
theorem capacity_refusal_iff {boundarySequence : Nat} {registry : CurrentSubscribeRegistry C}
    (hnew : CurrentSubscribeRegistry.new C boundarySequence = .ok registry) (ops : List (Op C))
    (binding : CurrentSubscribeBinding C)
    (hsync : (exec CurrentSubscribeRegistry.step registry ops).synchronized = true)
    (hkey : binding.key ∉ (exec CurrentSubscribeRegistry.step registry ops).bindings) :
    (RefusedForCapacity (exec CurrentSubscribeRegistry.step registry ops) binding →
        (exec CurrentSubscribeRegistry.step registry ops).activeCount = maxActiveSubscriptions) ↔
      (since registry ops).installed < maxActiveSubscriptions ∨
        (since registry ops).invalidated = 0 := by
  have hcounts := exec_counts hnew ops
  have hactive := hcounts.active
  have hle := hcounts.size_le
  rw [refusedForCapacity_iff hsync hkey, hcounts.size]
  constructor
  -- a full map has all its bindings active only if none was invalidated
  · intro h
    by_cases hfull : maxActiveSubscriptions ≤ (since registry ops).installed
    · have hall := h hfull
      omega
    · omega
  · intro h hfull
    omega

/-! ## §5. A full registry without an active binding. -/

/-- Distinct bindings are collected, and nothing else is. -/
theorem exists_collectUnique (bindings : List (CurrentSubscribeBinding C)) :
    ∀ start : Table SubscribeBindingKey (CurrentSubscribeBinding C),
      (bindings.map (·.key)).Nodup → (∀ binding ∈ bindings, binding.key ∉ start) →
      ∃ unique, collectUnique bindings start = .ok unique ∧
        ∀ key binding, unique.lookup key = some binding →
          binding ∈ bindings ∨ start.lookup key = some binding := by
  induction bindings with
  | nil => exact fun start _ _ => ⟨start, rfl, fun _ _ h => .inr h⟩
  | cons first rest ih =>
      intro start hnodup hnew
      obtain ⟨hfirst, hrest⟩ := List.nodup_cons.mp hnodup
      have hnew' : ∀ binding ∈ rest, binding.key ∉ start.insert first.key first := by
        intro binding hbinding
        rw [AList.mem_insert, not_or]
        refine ⟨?_, hnew binding (List.mem_cons_of_mem _ hbinding)⟩
        intro hsame
        have hmem : binding.key ∈ rest.map (·.key) := List.mem_map_of_mem hbinding
        rw [hsame] at hmem
        exact hfirst hmem
      obtain ⟨unique, hunique, hfrom⟩ := ih _ hrest hnew'
      refine ⟨unique, ?_, ?_⟩
      · unfold collectUnique
        rw [if_neg (hnew first List.mem_cons_self)]
        exact hunique
      · intro key binding hlookup
        rcases hfrom key binding hlookup with hmem | hstart
        · exact .inl (List.mem_cons_of_mem _ hmem)
        · rcases AList.lookup_of_insert hstart with ⟨-, rfl⟩ | ⟨-, hold⟩
          · exact .inl List.mem_cons_self
          · exact .inr hold

/-- Bindings of one endpoint, told apart by their generation. -/
def crowdMember (i : Fin 65536) : CurrentSubscribeBinding sampleMedia :=
  { sampleBinding with
    bindingGeneration := i.val + 1
    generations_valid := by
      intro generation hmem
      simp only [List.mem_cons, List.not_mem_nil, or_false] at hmem
      have hlt := i.isLt
      have hmax : 65536 ≤ sampleMedia.maxGeneration.toNat := by decide
      have hone : sampleBinding.sessionEpoch = 1 ∧ sampleBinding.mediaAuthorizationEpoch = 1 ∧
          sampleBinding.subjectGrantEpoch = 1 ∧ sampleBinding.mediaPolicyVersion = 1 ∧
          sampleBinding.topologyGeneration = 1 := by
        decide
      unfold ValidGeneration
      omega }

/-- As many bindings as a registry takes. -/
def crowd : List (CurrentSubscribeBinding sampleMedia) := (List.finRange 65536).map crowdMember

/-- A binding of the next session epoch. -/
def newcomer : CurrentSubscribeBinding sampleMedia :=
  { sampleBinding with
    sessionEpoch := 2
    bindingGeneration := 65537
    generations_valid := by decide }

/-- A snapshot of the crowd, all of it invalidated. -/
def crowdRun : List (Op sampleMedia) :=
  [.installSnapshot 1 crowd, .applyInvalidation (sampleEvent 2 2)]

theorem length_crowd : crowd.length = maxActiveSubscriptions := by
  unfold crowd
  rw [List.length_map, List.length_finRange]
  rfl

theorem nodup_crowd : (crowd.map (·.key)).Nodup := by
  unfold crowd
  rw [List.map_map]
  refine (List.nodup_finRange 65536).map ?_
  -- the keys differ in their generation
  intro i j hkey
  have hgeneration : i.val + 1 = j.val + 1 := congrArg SubscribeBindingKey.bindingGeneration hkey
  exact Fin.ext (by omega)

theorem stale_of_mem_crowd {binding : CurrentSubscribeBinding sampleMedia} (h : binding ∈ crowd) :
    (sampleEvent 2 2).stale binding = true ∧ binding.bindingGeneration ≤ 65536 := by
  obtain ⟨i, -, rfl⟩ := List.mem_map.mp h
  refine ⟨rfl, ?_⟩
  have hlt := i.isLt
  show i.val + 1 ≤ 65536
  omega

/-- A snapshot and the next invalidation, in one. -/
theorem exec_snapshot_invalidation {boundarySequence : Nat} {event : SubscribeInvalidationV1 C}
    {bindings : List (CurrentSubscribeBinding C)}
    {unique : Table SubscribeBindingKey (CurrentSubscribeBinding C)}
    (hsnapshot : r.installSnapshot boundarySequence bindings =
      (.ok (), r.withSnapshot boundarySequence unique))
    (happlies : Applies (r.withSnapshot boundarySequence unique) event) :
    exec CurrentSubscribeRegistry.step r
        [.installSnapshot boundarySequence bindings, .applyInvalidation event] =
      { r.withSnapshot boundarySequence unique with
        lastInvalidationSequence := event.deliverySequence
        bindings := ((r.withSnapshot boundarySequence unique).revoke event).bindings
        nextRevision := ((r.withSnapshot boundarySequence unique).revoke event).revision } := by
  rw [exec_cons, exec_cons, exec_nil]
  show ((r.installSnapshot boundarySequence bindings).2.applyInvalidation event).2 = _
  rw [hsnapshot]
  dsimp only
  rw [applyInvalidation_next happlies.wellFormed happlies.synchronized happlies.next]

/-- After the run every binding is one of the crowd, and revoked. -/
theorem exec_crowdRun :
    (exec CurrentSubscribeRegistry.step sampleRegistry crowdRun).synchronized = true ∧
    (exec CurrentSubscribeRegistry.step sampleRegistry crowdRun).bindings.size =
      maxActiveSubscriptions ∧
    ∀ key registered,
      (exec CurrentSubscribeRegistry.step sampleRegistry crowdRun).bindings.lookup key =
        some registered → registered.active = false ∧ registered.binding ∈ crowd := by
  obtain ⟨unique, hunique, hfrom⟩ := exists_collectUnique crowd ∅ nodup_crowd
    fun binding _ => AList.notMem_empty _
  have hsnapshot : sampleRegistry.installSnapshot 1 crowd =
      (.ok (), sampleRegistry.withSnapshot 1 unique) := by
    unfold CurrentSubscribeRegistry.installSnapshot
    rw [if_neg (by decide), if_neg (by rw [length_crowd]; exact Nat.lt_irrefl _), hunique]
    rfl
  have hmem : ∀ key registered,
      (sampleRegistry.withSnapshot 1 unique).bindings.lookup key = some registered →
        registered.binding ∈ crowd := by
    intro key registered hlookup
    rcases (registerEach_lookup (inKeyOrder sampleMedia unique) (0, ∅)
      (fun key hkey => mem_inKeyOrder.mp hkey) (Nat.zero_le _)).1 key registered hlookup with
      hold | ⟨hfound, -⟩
    · rw [AList.lookup_empty] at hold
      cases hold
    · rcases hfrom key _ hfound with hmem | hold
      · exact hmem
      · rw [AList.lookup_empty] at hold
        cases hold
  unfold crowdRun
  rw [exec_snapshot_invalidation hsnapshot ⟨by decide, rfl, rfl⟩]
  refine ⟨rfl, ?_, ?_⟩
  · show (revokeEach _ _ _).bindings.size = _
    rw [revokeEach_size, AList.size_eq_total]
    show (sampleRegistry.withSnapshot 1 unique).bindings.total _ = _
    rw [withSnapshot_total _ (fun _ _ _ => rfl) sampleRegistry 1 hunique, length_crowd]
  · intro key registered hlookup
    obtain ⟨old, hold, hsame, hkept⟩ := lookup_of_revoke hlookup
    have hcrowd := hmem key old hold
    refine ⟨?_, by rw [hsame]; exact hcrowd⟩
    rw [← Bool.not_eq_true]
    intro hactive
    have hfresh := (hkept hactive).2
    rw [(stale_of_mem_crowd hcrowd).1] at hfresh
    cases hfresh

/-- **The failing run**: 65,536 bindings are installed and all of them are invalidated; then none
is active and a new binding is refused for capacity. -/
theorem revoked_crowd_fills_registry :
    CurrentSubscribeRegistry.new sampleMedia 0 = .ok sampleRegistry ∧
    (exec CurrentSubscribeRegistry.step sampleRegistry crowdRun).synchronized = true ∧
    newcomer.key ∉ (exec CurrentSubscribeRegistry.step sampleRegistry crowdRun).bindings ∧
    (exec CurrentSubscribeRegistry.step sampleRegistry crowdRun).activeCount = 0 ∧
    RefusedForCapacity (exec CurrentSubscribeRegistry.step sampleRegistry crowdRun) newcomer := by
  have hnew : CurrentSubscribeRegistry.new sampleMedia 0 = .ok sampleRegistry := rfl
  have hreg := exec_invariant CurrentSubscribeRegistry.step _ step_registered crowdRun
    (new_registered hnew)
  obtain ⟨hsync, hsize, hrevoked⟩ := exec_crowdRun
  have hkey : newcomer.key ∉
      (exec CurrentSubscribeRegistry.step sampleRegistry crowdRun).bindings := by
    intro hmem
    obtain ⟨registered, hlookup⟩ := AList.exists_lookup_of_mem hmem
    have hle := (stale_of_mem_crowd (hrevoked _ _ hlookup).2).2
    have hsame : registered.binding.bindingGeneration = 65537 :=
      congrArg SubscribeBindingKey.bindingGeneration (hreg.keyed _ _ hlookup)
    omega
  refine ⟨hnew, hsync, hkey, ?_, ?_⟩
  -- all of them were revoked, yet all of them are still there
  · refine AList.total_eq_zero activeWeight ?_
    intro key registered hlookup
    unfold activeWeight
    rw [(hrevoked key registered hlookup).1]
    rfl
  · rw [refusedForCapacity_iff hsync hkey, hsize]

/-- One binding installed: the next one is not refused. -/
theorem capacity_refusal_iff_newcomer :
    ¬ RefusedForCapacity
      (exec CurrentSubscribeRegistry.step sampleRegistry [.install sampleBinding]) newcomer := by
  have hiff := @capacity_refusal_iff sampleMedia 0 sampleRegistry rfl [.install sampleBinding]
    newcomer rfl (by decide)
  intro hrefused
  have hfull := hiff.mpr (.inl (by decide)) hrefused
  exact absurd hfull (by decide)

end CurrentSubscribeRegistry

end AvMesh.Subscribe
