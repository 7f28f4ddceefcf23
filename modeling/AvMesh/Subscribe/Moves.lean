/-
  AvMesh.Subscribe.Moves
  ──────────────────────
  **WHAT AN OPERATION CAN DO TO THE REGISTRY.**

  `Change` lists the four ways an operation changes a registry, each with its
  guard, and `step_change` says there is no other.  What the two loops leave of
  a binding is stated once here:

    • `revoke_lookup`, `revoke_lookup_of_revokes` — a revoked binding keeps its
      place in the map, the others are untouched,
    • `snapshot_lookup` — the bindings of a snapshot are its own, and get
      revisions above every earlier one.
-/
import AvMesh.Subscribe.Registry

namespace AvMesh.Subscribe

open AvMesh.Lib

variable {C : MediaCrates}

/-! ## §1. Revisions and keys. -/

theorem le_bumpRevision {revision : Nat} (h : revision ≤ u64Max) :
    revision ≤ bumpRevision revision := by
  unfold bumpRevision satAdd
  omega

theorem bumpRevision_le (revision : Nat) : bumpRevision revision ≤ u64Max := by
  have hmax : 1 ≤ u64Max := by decide
  unfold bumpRevision satAdd
  omega

theorem bumpRevision_eq {revision : Nat} (h : revision + 1 ≤ u64Max) :
    bumpRevision revision = revision + 1 := by
  unfold bumpRevision satAdd
  omega

theorem nodup_inKeyOrder {V : Type} (map : Table SubscribeBindingKey V) :
    (inKeyOrder C map).Nodup :=
  (List.perm_insertionSort _ _).nodup_iff.mpr map.nodupKeys

theorem mem_inKeyOrder {V : Type} {map : Table SubscribeBindingKey V} {key : SubscribeBindingKey} :
    key ∈ inKeyOrder C map ↔ key ∈ map :=
  (List.perm_insertionSort _ _).mem_iff

theorem length_inKeyOrder {V : Type} (map : Table SubscribeBindingKey V) :
    (inKeyOrder C map).length = map.size := by
  rw [AList.size_eq_length_keys]
  exact (List.perm_insertionSort _ _).length_eq

namespace CurrentSubscribeRegistry

variable {r r' : CurrentSubscribeRegistry C} {event : SubscribeInvalidationV1 C}
  {bindings : Table SubscribeBindingKey (RegisteredSubscribeBinding C)}
  {key : SubscribeBindingKey} {registered : RegisteredSubscribeBinding C}

/-! ## §2. The loop of an invalidation. -/

/-- The event revokes the binding at `key`. -/
def revokes (event : SubscribeInvalidationV1 C)
    (bindings : Table SubscribeBindingKey (RegisteredSubscribeBinding C))
    (key : SubscribeBindingKey) : Bool :=
  match bindings.lookup key with
  | none => false
  | some registered => registered.active && event.stale registered.binding

theorem revokes_of_lookup (event : SubscribeInvalidationV1 C)
    (h : bindings.lookup key = some registered) :
    revokes event bindings key = (registered.active && event.stale registered.binding) := by
  unfold revokes
  rw [h]

/-- Only the entry at `key` decides whether it is revoked. -/
theorem revokes_congr {bindings' : Table SubscribeBindingKey (RegisteredSubscribeBinding C)}
    (h : bindings'.lookup key = bindings.lookup key) :
    revokes event bindings' key = revokes event bindings key := by
  unfold revokes
  rw [h]

/-- The variables of the loop after the binding at `key` was revoked. -/
def revokeAt (v : Revocation C) (key : SubscribeBindingKey)
    (registered : RegisteredSubscribeBinding C) : Revocation C where
  bindings := v.bindings.replace key
    { registered with revision := bumpRevision v.revision, active := false }
  revision := bumpRevision v.revision
  invalidated := satAdd v.invalidated 1

/-- One round of the loop. -/
theorem revokeEach_cons (event : SubscribeInvalidationV1 C) (key : SubscribeBindingKey)
    (keys : List SubscribeBindingKey) (v : Revocation C) :
    (revokes event v.bindings key = false
        ∧ revokeEach event (key :: keys) v = revokeEach event keys v)
      ∨ ∃ registered, v.bindings.lookup key = some registered
        ∧ revokes event v.bindings key = true
        ∧ revokeEach event (key :: keys) v = revokeEach event keys (revokeAt v key registered) := by
  cases hlookup : v.bindings.lookup key with
  | none =>
      refine .inl ⟨?_, ?_⟩
      · unfold revokes
        rw [hlookup]
      · conv => lhs; unfold revokeEach
        rw [hlookup]
  | some registered =>
      have hrevokes := revokes_of_lookup event hlookup
      by_cases hcond : registered.active = true ∧ event.stale registered.binding = true
      · refine .inr ⟨registered, rfl, ?_, ?_⟩
        · rw [hrevokes, hcond.1, hcond.2]
          rfl
        · conv => lhs; unfold revokeEach
          rw [hlookup]
          dsimp only
          rw [if_pos hcond]
          rfl
      · refine .inl ⟨?_, ?_⟩
        · rw [hrevokes, Bool.eq_false_iff, Ne, Bool.and_eq_true]
          exact hcond
        · conv => lhs; unfold revokeEach
          rw [hlookup]
          dsimp only
          rw [if_neg hcond]

/-- Revoking one binding leaves the others alone. -/
theorem revokeAt_lookup_ne (v : Revocation C) (registered : RegisteredSubscribeBinding C)
    {other : SubscribeBindingKey} (h : other ≠ key) :
    (revokeAt v key registered).bindings.lookup other = v.bindings.lookup other :=
  AList.lookup_replace_ne _ _ h

/-- A binding that is not stale, or not active, is left alone. -/
theorem revokeEach_lookup (keys : List SubscribeBindingKey) :
    ∀ (v : Revocation C) (key : SubscribeBindingKey), revokes event v.bindings key = false →
      (revokeEach event keys v).bindings.lookup key = v.bindings.lookup key := by
  induction keys with
  | nil => intro v key _; rfl
  | cons head keys ih =>
      intro v key hkey
      rcases revokeEach_cons event head keys v with ⟨_, heq⟩ | ⟨registered, _, hhead, heq⟩
      · rw [heq]
        exact ih v key hkey
      · have hne : key ≠ head := by
          intro hsame
          rw [hsame, hhead] at hkey
          cases hkey
        have hsame := revokeAt_lookup_ne v registered hne
        rw [heq, ih _ key ((revokes_congr hsame).trans hkey), hsame]

/-- A stale active binding is revoked when its turn comes, and stays revoked. -/
theorem revokeEach_lookup_of_revokes (keys : List SubscribeBindingKey) :
    ∀ (v : Revocation C) (key : SubscribeBindingKey) (registered : RegisteredSubscribeBinding C),
      v.bindings.lookup key = some registered → revokes event v.bindings key = true →
      key ∈ keys →
      ∃ revision, (revokeEach event keys v).bindings.lookup key
        = some { registered with revision := revision, active := false } := by
  induction keys with
  | nil => intro v key registered _ _ hmem; cases hmem
  | cons head keys ih =>
      intro v key registered hlookup hrevokes hmem
      rcases revokeEach_cons event head keys v with ⟨hhead, heq⟩ | ⟨found, hfound, _, heq⟩
      · rw [heq]
        refine ih v key registered hlookup hrevokes ?_
        rcases List.mem_cons.mp hmem with hsame | hmem
        · rw [hsame, hhead] at hrevokes
          cases hrevokes
        · exact hmem
      · rw [heq]
        by_cases hsame : key = head
        · subst hsame
          have hregistered := Option.some.inj (hfound.symm.trans hlookup)
          subst hregistered
          have hself : (revokeAt v key found).bindings.lookup key
              = some { found with revision := bumpRevision v.revision, active := false } :=
            AList.lookup_replace_self _ hlookup
          -- inactive from here on, so later rounds pass it by
          have hinactive : revokes event (revokeAt v key found).bindings key = false := by
            rw [revokes_of_lookup event hself]
            rfl
          exact ⟨_, (revokeEach_lookup keys _ key hinactive).trans hself⟩
        · have hother := revokeAt_lookup_ne v found hsame
          refine ih _ key registered (hother.trans hlookup) ?_ ?_
          · exact (revokes_congr hother).trans hrevokes
          · exact (List.mem_cons.mp hmem).resolve_left hsame

/-- No binding has a revision above the counter. -/
def RevisionsBelow (bindings : Table SubscribeBindingKey (RegisteredSubscribeBinding C))
    (revision : Nat) : Prop :=
  ∀ key registered, bindings.lookup key = some registered → registered.revision ≤ revision

theorem revokeEach_revisionsBelow (event : SubscribeInvalidationV1 C)
    (keys : List SubscribeBindingKey) :
    ∀ v : Revocation C, RevisionsBelow v.bindings v.revision → v.revision ≤ u64Max →
      RevisionsBelow (revokeEach event keys v).bindings (revokeEach event keys v).revision
        ∧ v.revision ≤ (revokeEach event keys v).revision
        ∧ (revokeEach event keys v).revision ≤ u64Max := by
  induction keys with
  | nil => intro v hbelow hle; exact ⟨hbelow, Nat.le_refl _, hle⟩
  | cons head keys ih =>
      intro v hbelow hle
      rcases revokeEach_cons event head keys v with ⟨_, heq⟩ | ⟨registered, hlookup, _, heq⟩
      · rw [heq]
        exact ih v hbelow hle
      · have hbump := le_bumpRevision hle
        have hbelow' : RevisionsBelow (revokeAt v head registered).bindings
            (bumpRevision v.revision) := by
          intro key found hfound
          rcases AList.lookup_of_replace hlookup hfound with ⟨_, hnew⟩ | ⟨_, hold⟩
          · rw [hnew]
          · exact Nat.le_trans (hbelow key found hold) hbump
        obtain ⟨hafter, hmono, hle'⟩ := ih (revokeAt v head registered) hbelow'
          (bumpRevision_le _)
        rw [heq]
        exact ⟨hafter, Nat.le_trans hbump hmono, hle'⟩

/-- Below saturation the loop takes one revision for each binding it revokes. -/
theorem revokeEach_revision (keys : List SubscribeBindingKey) :
    ∀ v : Revocation C, keys.Nodup →
      v.revision + (keys.filter (revokes event v.bindings)).length ≤ u64Max →
      (revokeEach event keys v).revision
        = v.revision + (keys.filter (revokes event v.bindings)).length := by
  induction keys with
  | nil => intro v _ _; rfl
  | cons head keys ih =>
      intro v hnd hroom
      obtain ⟨hhead, hnd'⟩ := List.nodup_cons.mp hnd
      rcases revokeEach_cons event head keys v with ⟨hkeep, heq⟩ | ⟨registered, _, hrevoke, heq⟩
      · rw [List.filter_cons_of_neg (by rw [hkeep]; decide)] at hroom ⊢
        rw [heq]
        exact ih v hnd' hroom
      · rw [List.filter_cons_of_pos hrevoke, List.length_cons] at hroom ⊢
        -- the later keys are other keys, whose bindings are as before
        have hsame : keys.filter (revokes event (revokeAt v head registered).bindings)
            = keys.filter (revokes event v.bindings) := by
          apply List.filter_congr
          intro key hkey
          apply revokes_congr
          apply revokeAt_lookup_ne
          intro hkeyHead
          exact hhead (hkeyHead ▸ hkey)
        have hbump : (revokeAt v head registered).revision = v.revision + 1 :=
          bumpRevision_eq (by omega)
        rw [heq, ih _ hnd' (by rw [hsame, hbump]; omega), hsame, hbump]
        omega

theorem revokeEach_size (keys : List SubscribeBindingKey) :
    ∀ v : Revocation C, (revokeEach event keys v).bindings.size = v.bindings.size := by
  induction keys with
  | nil => intro v; rfl
  | cons head keys ih =>
      intro v
      rcases revokeEach_cons event head keys v with ⟨_, heq⟩ | ⟨registered, _, _, heq⟩
      · rw [heq]
        exact ih v
      · rw [heq, ih]
        exact AList.size_replace _ _ _

/-! ## §3. A whole invalidation. -/

theorem revoke_lookup (r : CurrentSubscribeRegistry C)
    (h : revokes event r.bindings key = false) :
    (r.revoke event).bindings.lookup key = r.bindings.lookup key :=
  revokeEach_lookup _ _ key h

theorem revoke_lookup_of_revokes (hlookup : r.bindings.lookup key = some registered)
    (h : revokes event r.bindings key = true) :
    ∃ revision, (r.revoke event).bindings.lookup key
      = some { registered with revision := revision, active := false } :=
  revokeEach_lookup_of_revokes _ _ key registered hlookup h
    (mem_inKeyOrder.mpr (AList.mem_of_lookup hlookup))

/-- A binding after an invalidation was there before, and if it is still active
it is the same. -/
theorem lookup_of_revoke {registered' : RegisteredSubscribeBinding C}
    (h : (r.revoke event).bindings.lookup key = some registered') :
    ∃ registered, r.bindings.lookup key = some registered
      ∧ registered'.binding = registered.binding
      ∧ (registered'.active = true → registered' = registered
          ∧ event.stale registered.binding = false) := by
  cases hrevokes : revokes event r.bindings key with
  | false =>
      rw [revoke_lookup r hrevokes] at h
      refine ⟨registered', h, rfl, ?_⟩
      intro hactive
      rw [revokes_of_lookup event h, hactive, Bool.true_and] at hrevokes
      exact ⟨rfl, hrevokes⟩
  | true =>
      have hmem : key ∈ r.bindings := by
        rw [← AList.lookup_isSome]
        unfold revokes at hrevokes
        cases hlookup : r.bindings.lookup key with
        | none =>
            rw [hlookup] at hrevokes
            cases hrevokes
        | some registered => rfl
      obtain ⟨registered, hlookup⟩ := AList.exists_lookup_of_mem hmem
      obtain ⟨revision, hafter⟩ := revoke_lookup_of_revokes hlookup hrevokes
      have hsame := Option.some.inj (hafter.symm.trans h)
      subst hsame
      refine ⟨registered, hlookup, rfl, ?_⟩
      intro hactive
      cases hactive

theorem mem_revoke (r : CurrentSubscribeRegistry C) :
    key ∈ (r.revoke event).bindings ↔ key ∈ r.bindings := by
  constructor
  · intro hmem
    obtain ⟨registered', hlookup'⟩ := AList.exists_lookup_of_mem hmem
    obtain ⟨registered, hlookup, _⟩ := lookup_of_revoke hlookup'
    exact AList.mem_of_lookup hlookup
  · intro hmem
    obtain ⟨registered, hlookup⟩ := AList.exists_lookup_of_mem hmem
    cases hrevokes : revokes event r.bindings key with
    | false => exact AList.mem_of_lookup ((revoke_lookup r hrevokes).trans hlookup)
    | true =>
        obtain ⟨_, hafter⟩ := revoke_lookup_of_revokes hlookup hrevokes
        exact AList.mem_of_lookup hafter

/-! ## §4. The loops of a snapshot. -/

variable {unique : Table SubscribeBindingKey (CurrentSubscribeBinding C)}

/-- The collected bindings are those of the list, each under its own key. -/
theorem collectUnique_ok (bindings : List (CurrentSubscribeBinding C)) :
    ∀ start : Table SubscribeBindingKey (CurrentSubscribeBinding C),
      (∀ key binding, start.lookup key = some binding → binding.key = key) →
      collectUnique bindings start = .ok unique →
      (∀ key binding, unique.lookup key = some binding → binding.key = key)
        ∧ unique.size = start.size + bindings.length := by
  induction bindings with
  | nil =>
      intro start hkeyed h
      cases h
      exact ⟨hkeyed, rfl⟩
  | cons binding bindings ih =>
      intro start hkeyed h
      unfold collectUnique at h
      split at h
      · cases h
      next hnew =>
        have hkeyed' : ∀ key found, (start.insert binding.key binding).lookup key = some found →
            found.key = key := by
          intro key found hfound
          rcases AList.lookup_of_insert hfound with ⟨hkey, hsame⟩ | ⟨_, hold⟩
          · rw [hsame, hkey]
          · exact hkeyed key found hold
        obtain ⟨hafter, hsize⟩ := ih _ hkeyed' h
        refine ⟨hafter, ?_⟩
        rw [hsize, AList.size_insert_of_notMem _ hnew, List.length_cons]
        omega

/-- One round of the second loop. -/
theorem registerEach_cons (unique : Table SubscribeBindingKey (CurrentSubscribeBinding C))
    {binding : CurrentSubscribeBinding C} (h : unique.lookup key = some binding)
    (keys : List SubscribeBindingKey)
    (acc : Nat × Table SubscribeBindingKey (RegisteredSubscribeBinding C)) :
    registerEach unique (key :: keys) acc
      = registerEach unique keys
          (bumpRevision acc.1, acc.2.insert key ⟨binding, bumpRevision acc.1, true⟩) := by
  conv => lhs; unfold registerEach
  rw [h]

/-- What the loop registers: bindings of the snapshot, active, with revisions
from the next one on. -/
theorem registerEach_lookup (keys : List SubscribeBindingKey) :
    ∀ acc : Nat × Table SubscribeBindingKey (RegisteredSubscribeBinding C),
      (∀ key ∈ keys, key ∈ unique) → acc.1 ≤ u64Max →
      (∀ key registered, (registerEach unique keys acc).2.lookup key = some registered →
        acc.2.lookup key = some registered
          ∨ (unique.lookup key = some registered.binding ∧ registered.active = true
            ∧ bumpRevision acc.1 ≤ registered.revision
            ∧ registered.revision ≤ (registerEach unique keys acc).1))
      ∧ acc.1 ≤ (registerEach unique keys acc).1
      ∧ (registerEach unique keys acc).1 ≤ u64Max := by
  induction keys with
  | nil =>
      intro acc _ hle
      refine ⟨?_, Nat.le_refl _, hle⟩
      intro key registered hlookup
      exact .inl hlookup
  | cons head keys ih =>
      intro acc hmem hle
      obtain ⟨binding, hbinding⟩ := AList.exists_lookup_of_mem (hmem head List.mem_cons_self)
      obtain ⟨hlookup, hmono, hle'⟩ := ih
        (bumpRevision acc.1, acc.2.insert head ⟨binding, bumpRevision acc.1, true⟩)
        (fun key hkey => hmem key (List.mem_cons_of_mem _ hkey)) (bumpRevision_le _)
      have hbump := le_bumpRevision hle
      have hbump' := le_bumpRevision (bumpRevision_le acc.1)
      rw [registerEach_cons unique hbinding]
      dsimp only at hlookup hmono
      refine ⟨?_, Nat.le_trans hbump hmono, hle'⟩
      intro key registered hafter
      rcases hlookup key registered hafter with hacc | ⟨hfrom, hactive, hlow, hhigh⟩
      · rcases AList.lookup_of_insert hacc with ⟨hkey, hnew⟩ | ⟨_, hold⟩
        · refine .inr ⟨?_, ?_, ?_, ?_⟩
          · rw [hkey, hnew]
            exact hbinding
          · rw [hnew]
          · rw [hnew]
          · rw [hnew]
            exact hmono
        · exact .inl hold
      · exact .inr ⟨hfrom, hactive, Nat.le_trans hbump' hlow, hhigh⟩

/-- Below saturation the loop takes one revision for each key. -/
theorem registerEach_revision (keys : List SubscribeBindingKey) :
    ∀ acc : Nat × Table SubscribeBindingKey (RegisteredSubscribeBinding C),
      (∀ key ∈ keys, key ∈ unique) → acc.1 + keys.length ≤ u64Max →
      (registerEach unique keys acc).1 = acc.1 + keys.length := by
  induction keys with
  | nil => intro acc _ _; rfl
  | cons head keys ih =>
      intro acc hmem hroom
      obtain ⟨binding, hbinding⟩ := AList.exists_lookup_of_mem (hmem head List.mem_cons_self)
      rw [List.length_cons] at hroom
      have hbump := bumpRevision_eq (by omega : acc.1 + 1 ≤ u64Max)
      rw [registerEach_cons unique hbinding, ih _ ?_ ?_, List.length_cons]
      · dsimp only
        omega
      · intro key hkey
        exact hmem key (List.mem_cons_of_mem _ hkey)
      · dsimp only
        omega

/-! ## §5. The operations. -/

/-- The registry with the bindings of a snapshot. -/
def withSnapshot (r : CurrentSubscribeRegistry C) (boundarySequence : Nat)
    (unique : Table SubscribeBindingKey (CurrentSubscribeBinding C)) :
    CurrentSubscribeRegistry C where
  nextRevision := (registerEach unique (inKeyOrder C unique) (r.nextRevision, ∅)).1
  lastInvalidationSequence := boundarySequence
  requiredSnapshotBoundary := 0
  synchronized := true
  bindings := (registerEach unique (inKeyOrder C unique) (r.nextRevision, ∅)).2

/-- Every way an operation changes the registry. -/
inductive Change (r : CurrentSubscribeRegistry C) : Op C → CurrentSubscribeRegistry C → Prop where
  | unchanged (op : Op C) (hsnapshot : snapshotInstalled r op = false)
      (happlied : appliedEvent r op = none) : Change r op r
  | install (binding : CurrentSubscribeBinding C) (hsync : r.synchronized = true)
      (hnew : binding.key ∉ r.bindings) (hroom : r.bindings.size < maxActiveSubscriptions) :
      Change r (.install binding)
        { r with
          nextRevision := bumpRevision r.nextRevision
          bindings := r.bindings.insert binding.key
            ⟨binding, bumpRevision r.nextRevision, true⟩ }
  | gap (event : SubscribeInvalidationV1 C) (hwell : event.WellFormed)
      (hlater : r.lastInvalidationSequence < event.deliverySequence)
      (hgap : r.synchronized = false
        ∨ event.deliverySequence ≠ r.lastInvalidationSequence + 1) :
      Change r (.applyInvalidation event)
        { r with
          synchronized := false
          requiredSnapshotBoundary :=
            max r.requiredSnapshotBoundary event.deliverySequence }
  | apply (event : SubscribeInvalidationV1 C) (hwell : event.WellFormed)
      (hsync : r.synchronized = true)
      (hnext : event.deliverySequence = r.lastInvalidationSequence + 1) :
      Change r (.applyInvalidation event)
        { r with
          lastInvalidationSequence := event.deliverySequence
          bindings := (r.revoke event).bindings
          nextRevision := (r.revoke event).revision }
  | snapshot (boundarySequence : Nat) (bindings : List (CurrentSubscribeBinding C))
      (unique : Table SubscribeBindingKey (CurrentSubscribeBinding C))
      (hinstalled : snapshotInstalled r (.installSnapshot boundarySequence bindings) = true)
      (hunique : collectUnique bindings ∅ = .ok unique)
      (hlast : r.lastInvalidationSequence ≤ boundarySequence)
      (hrequired : r.requiredSnapshotBoundary ≤ boundarySequence) :
      Change r (.installSnapshot boundarySequence bindings)
        (r.withSnapshot boundarySequence unique)

/-- The next sequence exists: a later well-formed one leaves room for it. -/
theorem satAdd_lastInvalidationSequence (hwell : event.WellFormed)
    (hlater : r.lastInvalidationSequence < event.deliverySequence) :
    satAdd r.lastInvalidationSequence 1 = r.lastInvalidationSequence + 1 := by
  have hle : event.deliverySequence ≤ C.maxGeneration.toNat :=
    (hwell.1 event.deliverySequence List.mem_cons_self).2
  have hmax := C.maxGeneration.toNat_lt
  apply satAdd_of_le
  unfold u64Max
  omega

theorem applyInvalidation_malformed (r : CurrentSubscribeRegistry C) (h : ¬event.WellFormed) :
    r.applyInvalidation event
      = (.error ⟨.invalidConfiguration, "invalidation_event"⟩, r) := by
  unfold applyInvalidation
  rw [if_pos h]

/-- An event that was applied before, or is covered by a snapshot. -/
theorem applyInvalidation_duplicate (hwell : event.WellFormed)
    (hold : event.deliverySequence ≤ r.lastInvalidationSequence) :
    r.applyInvalidation event = (.ok .duplicate, r) := by
  unfold applyInvalidation
  rw [if_neg (not_not.mpr hwell), if_pos hold]

/-- An event that proves others were missed. -/
theorem applyInvalidation_gap (hwell : event.WellFormed)
    (hlater : r.lastInvalidationSequence < event.deliverySequence)
    (hgap : r.synchronized = false ∨ event.deliverySequence ≠ r.lastInvalidationSequence + 1) :
    r.applyInvalidation event
      = (.error gapError,
        { r with
          synchronized := false
          requiredSnapshotBoundary :=
            max r.requiredSnapshotBoundary event.deliverySequence }) := by
  rw [← satAdd_lastInvalidationSequence hwell hlater] at hgap
  unfold applyInvalidation
  rw [if_neg (not_not.mpr hwell), if_neg (Nat.not_le.mpr hlater), if_pos hgap]

/-- The next event. -/
theorem applyInvalidation_next (hwell : event.WellFormed) (hsync : r.synchronized = true)
    (hnext : event.deliverySequence = r.lastInvalidationSequence + 1) :
    r.applyInvalidation event
      = (.ok (.applied (r.revoke event).invalidated),
        { r with
          lastInvalidationSequence := event.deliverySequence
          bindings := (r.revoke event).bindings
          nextRevision := (r.revoke event).revision }) := by
  have hlater : r.lastInvalidationSequence < event.deliverySequence := by omega
  have hgap : ¬(r.synchronized = false
      ∨ event.deliverySequence ≠ satAdd r.lastInvalidationSequence 1) := by
    rw [satAdd_lastInvalidationSequence hwell hlater, hsync, hnext]
    simp
  unfold applyInvalidation
  rw [if_neg (not_not.mpr hwell), if_neg (Nat.not_le.mpr hlater), if_neg hgap]

/-- The event is applied in `r`. -/
structure Applies (r : CurrentSubscribeRegistry C) (event : SubscribeInvalidationV1 C) : Prop where
  wellFormed : event.WellFormed
  synchronized : r.synchronized = true
  next : event.deliverySequence = r.lastInvalidationSequence + 1

/-- An event that shows a gap is not applied. -/
theorem not_applies_of_gap (hgap : r.synchronized = false
    ∨ event.deliverySequence ≠ r.lastInvalidationSequence + 1) : ¬Applies r event := by
  intro happlies
  rcases hgap with hsync | hnext
  · rw [happlies.synchronized] at hsync
    cases hsync
  · exact hnext happlies.next

/-- The four answers to an event. -/
theorem applyInvalidation_cases (r : CurrentSubscribeRegistry C)
    (event : SubscribeInvalidationV1 C) :
    ¬event.WellFormed
      ∨ (event.WellFormed ∧ event.deliverySequence ≤ r.lastInvalidationSequence)
      ∨ (event.WellFormed ∧ r.lastInvalidationSequence < event.deliverySequence
        ∧ (r.synchronized = false ∨ event.deliverySequence ≠ r.lastInvalidationSequence + 1))
      ∨ Applies r event := by
  by_cases hwell : event.WellFormed
  · by_cases hold : event.deliverySequence ≤ r.lastInvalidationSequence
    · exact .inr (.inl ⟨hwell, hold⟩)
    · by_cases hgap : r.synchronized = false
          ∨ event.deliverySequence ≠ r.lastInvalidationSequence + 1
      · exact .inr (.inr (.inl ⟨hwell, Nat.lt_of_not_le hold, hgap⟩))
      · rw [not_or, Bool.not_eq_false, not_not] at hgap
        exact .inr (.inr (.inr ⟨hwell, hgap.1, hgap.2⟩))
  · exact .inl hwell

/-- An operation applies an event exactly when it hands one in that is next. -/
theorem appliedEvent_eq_some_iff {op : Op C} :
    appliedEvent r op = some event ↔ op = .applyInvalidation event ∧ Applies r event := by
  constructor
  · intro h
    cases op with
    | install binding => cases h
    | installSnapshot boundarySequence bindings => cases h
    | applyInvalidation found =>
        unfold appliedEvent at h
        dsimp only at h
        rcases applyInvalidation_cases r found with
          hmal | ⟨hwell, hold⟩ | ⟨hwell, hlater, hgap⟩ | happlies
        · rw [applyInvalidation_malformed r hmal] at h
          cases h
        · rw [applyInvalidation_duplicate hwell hold] at h
          cases h
        · rw [applyInvalidation_gap hwell hlater hgap] at h
          cases h
        · rw [applyInvalidation_next happlies.1 happlies.2 happlies.3] at h
          cases h
          exact ⟨rfl, happlies⟩
  · intro h
    obtain ⟨rfl, happlies⟩ := h
    unfold appliedEvent
    dsimp only
    rw [applyInvalidation_next happlies.1 happlies.2 happlies.3]

theorem Applies.appliedEvent_eq (h : Applies r event) :
    appliedEvent r (.applyInvalidation event) = some event :=
  appliedEvent_eq_some_iff.mpr ⟨rfl, h⟩

/-- An event that is not next is not applied. -/
theorem appliedEvent_eq_none (h : ¬Applies r event) :
    appliedEvent r (.applyInvalidation event) = none := by
  rw [Option.eq_none_iff_forall_not_mem]
  intro found hfound
  obtain ⟨hop, happlies⟩ := appliedEvent_eq_some_iff.mp hfound
  cases hop
  exact h happlies

/-- The registry takes the binding. -/
structure Installs (r : CurrentSubscribeRegistry C) (binding : CurrentSubscribeBinding C) :
    Prop where
  synchronized : r.synchronized = true
  new : binding.key ∉ r.bindings
  room : r.bindings.size < maxActiveSubscriptions

theorem install_of_installs {binding : CurrentSubscribeBinding C} (h : Installs r binding) :
    r.install binding
      = (.ok (bumpRevision r.nextRevision),
        { r with
          nextRevision := bumpRevision r.nextRevision
          bindings := r.bindings.insert binding.key
            ⟨binding, bumpRevision r.nextRevision, true⟩ }) := by
  have hsync : ¬r.synchronized = false := by
    rw [h.synchronized]
    decide
  unfold install
  rw [if_neg hsync, if_neg h.new, if_neg (Nat.not_le.mpr h.room)]

theorem install_refused {binding : CurrentSubscribeBinding C} (h : ¬Installs r binding) :
    ∃ error, r.install binding = (.error error, r) := by
  unfold install
  split
  · exact ⟨_, rfl⟩
  next hsync =>
    split
    · exact ⟨_, rfl⟩
    next hnew =>
      split
      · exact ⟨_, rfl⟩
      next hroom =>
        exact absurd ⟨Bool.eq_true_of_not_eq_false hsync, hnew, Nat.lt_of_not_le hroom⟩ h

/-- A snapshot is refused, or installed at a boundary that is not behind. -/
theorem installSnapshot_cases (r : CurrentSubscribeRegistry C) (boundarySequence : Nat)
    (bindings : List (CurrentSubscribeBinding C)) :
    (snapshotInstalled r (.installSnapshot boundarySequence bindings) = false
        ∧ ∃ error, r.installSnapshot boundarySequence bindings = (.error error, r))
      ∨ ∃ unique, snapshotInstalled r (.installSnapshot boundarySequence bindings) = true
        ∧ collectUnique bindings ∅ = .ok unique
        ∧ r.lastInvalidationSequence ≤ boundarySequence
        ∧ r.requiredSnapshotBoundary ≤ boundarySequence
        ∧ r.installSnapshot boundarySequence bindings
          = (.ok (), r.withSnapshot boundarySequence unique) := by
  unfold snapshotInstalled installSnapshot
  dsimp only
  split
  · exact .inl ⟨rfl, _, rfl⟩
  · split
    · exact .inl ⟨rfl, _, rfl⟩
    · split
      · exact .inl ⟨rfl, _, rfl⟩
      next unique hunique =>
        split
        · exact .inl ⟨rfl, _, rfl⟩
        next hbehind =>
          rw [not_or] at hbehind
          exact .inr ⟨unique, rfl, hunique, Nat.le_of_not_lt hbehind.1,
            Nat.le_of_not_lt hbehind.2, rfl⟩

/-- **Nothing else happens to a registry.** -/
theorem step_change (r : CurrentSubscribeRegistry C) (op : Op C) : Change r op (step r op).2 := by
  cases op with
  | install binding =>
      show Change r _ (r.install binding).2
      by_cases hinstalls : Installs r binding
      · rw [install_of_installs hinstalls]
        exact .install binding hinstalls.1 hinstalls.2 hinstalls.3
      · obtain ⟨error, hrefused⟩ := install_refused hinstalls
        rw [hrefused]
        exact .unchanged _ rfl rfl
  | applyInvalidation event =>
      show Change r _ (r.applyInvalidation event).2
      rcases applyInvalidation_cases r event with
        hmal | ⟨hwell, hold⟩ | ⟨hwell, hlater, hgap⟩ | happlies
      · rw [applyInvalidation_malformed r hmal]
        exact .unchanged _ rfl (appliedEvent_eq_none fun h => hmal h.wellFormed)
      · rw [applyInvalidation_duplicate hwell hold]
        refine .unchanged _ rfl (appliedEvent_eq_none fun h => ?_)
        have hnext := h.next
        omega
      · rw [applyInvalidation_gap hwell hlater hgap]
        exact .gap event hwell hlater hgap
      · rw [applyInvalidation_next happlies.1 happlies.2 happlies.3]
        exact .apply event happlies.1 happlies.2 happlies.3
  | installSnapshot boundarySequence bindings =>
      show Change r _ (r.installSnapshot boundarySequence bindings).2
      rcases installSnapshot_cases r boundarySequence bindings with
        ⟨hnot, error, hrefused⟩ | ⟨unique, hinstalled, hunique, hlast, hrequired, hok⟩
      · rw [hrefused]
        exact .unchanged _ hnot rfl
      · rw [hok]
        exact .snapshot boundarySequence bindings unique hinstalled hunique hlast hrequired

end CurrentSubscribeRegistry

end AvMesh.Subscribe
