/-
  AvMesh.Subscribe.Leases
  ───────────────────────
  **A LEASE NEVER OUTLIVES ITS BINDING.**

  A lease carries the binding and the revision its call resolved.  From the
  resolve on it is in one of two states, whatever the other calls do:

    • `Holds` — the registry has exactly this binding, active, at this revision,
    • `Ended` — no active binding under its key has its revision.

  A snapshot or an invalidation that makes the binding stale ends the lease
  (`Holds.ended_step`), every other operation keeps it (`Holds.step`), and an
  ended lease stays ended since revisions are handed out once (`Ended.step`).
-/
import AvMesh.Subscribe.Gate
import AvMesh.Subscribe.Moves

namespace AvMesh.Subscribe

open AvMesh.Lib

variable {C : MediaCrates}

/-! ## §1. The registry of an edge, and its calls in flight. -/

namespace EdgeState

theorem beginAuthorize_registry (gate : EdgeSubscribeGate C) (request : EdgeSubscribeRequest C) :
    (gate.beginAuthorize request).2.registry = gate.registry := by
  unfold EdgeSubscribeGate.beginAuthorize
  split
  · rfl
  · split <;> rfl

theorem finishAuthorize_registry (gate : EdgeSubscribeGate C) (entry : AuthorizeCall C)
    (result : Except CapabilityVerifierError (VerifiedSubscribeCapability C)) :
    (gate.finishAuthorize entry result).2.registry = gate.registry := by
  unfold EdgeSubscribeGate.finishAuthorize
  split <;> rfl

theorem revalidate_registry (gate : EdgeSubscribeGate C) (lease : SubscriptionLease C)
    (nowUnixSeconds : Int) : (gate.revalidate lease nowUnixSeconds).2.registry = gate.registry := by
  unfold EdgeSubscribeGate.revalidate
  split
  · rfl
  · split <;> rfl

/-- Only its own operations change the registry. -/
theorem step_registry (e : EdgeState C) (op : Op C) :
    (step e op).2.gate.registry
      = exec CurrentSubscribeRegistry.step e.gate.registry (registryOps [op]) := by
  cases op with
  | registry op => rfl
  | beginAuthorize call request =>
      show (step e _).2.gate.registry = e.gate.registry
      unfold step
      dsimp only
      split
      · rfl
      · split
        · exact beginAuthorize_registry e.gate request
        · exact beginAuthorize_registry e.gate request
  | checkAndAdmit call admission =>
      show (step e _).2.gate.registry = e.gate.registry
      unfold step
      dsimp only
      split <;> rfl
  | finishAuthorize call result =>
      show (step e _).2.gate.registry = e.gate.registry
      unfold step
      dsimp only
      split
      · rfl
      · exact finishAuthorize_registry e.gate _ result
  | revalidate lease nowUnixSeconds => exact revalidate_registry e.gate lease nowUnixSeconds

theorem exec_registry (e : EdgeState C) (ops : List (Op C)) :
    (exec step e ops).gate.registry
      = exec CurrentSubscribeRegistry.step e.gate.registry (registryOps ops) := by
  induction ops generalizing e with
  | nil => rfl
  | cons op ops ih =>
      have hsplit : registryOps (op :: ops) = registryOps [op] ++ registryOps ops := by
        show registryOps ([op] ++ ops) = _
        unfold registryOps
        rw [List.filterMap_append]
      rw [exec_cons, ih, hsplit, exec_append, step_registry]

/-- The call began in the run, and resolved there what it carries. -/
def BegunIn (e : EdgeState C) (ops : List (Op C)) (call : Nat) (entry : AuthorizeCall C) : Prop :=
  ∃ before after, ops = before ++ .beginAuthorize call entry.request :: after
    ∧ (exec step e before).gate.registry.resolve entry.request.endpointId
        entry.request.mediaClass entry.request.bindingGeneration = .ok entry.registered

theorem BegunIn.snoc {e : EdgeState C} {ops : List (Op C)} {call : Nat} {entry : AuthorizeCall C}
    (h : BegunIn e ops call entry) (op : Op C) : BegunIn e (ops ++ [op]) call entry := by
  obtain ⟨before, after, hops, hresolve⟩ := h
  refine ⟨before, after ++ [op], ?_, hresolve⟩
  rw [hops, List.append_assoc, List.cons_append]

theorem beginAuthorize_ok {gate : EdgeSubscribeGate C} {request : EdgeSubscribeRequest C}
    {entry : AuthorizeCall C} (h : (gate.beginAuthorize request).1 = .ok entry) :
    entry.request = request
      ∧ gate.registry.resolve request.endpointId request.mediaClass request.bindingGeneration
        = .ok entry.registered := by
  unfold EdgeSubscribeGate.beginAuthorize at h
  split at h
  · cases h
  · split at h
    · cases h
    next registered hresolve =>
      cases h
      exact ⟨rfl, hresolve⟩

/-- Every call in flight began in the run. -/
theorem exec_calls_begunIn (e : EdgeState C) (hnone : e.calls = ∅) (ops : List (Op C)) :
    ∀ call entry, (exec step e ops).calls.lookup call = some entry → BegunIn e ops call entry := by
  refine exec_history step
    (fun ops s => ∀ call entry, s.calls.lookup call = some entry → BegunIn e ops call entry)
    e ?_ ?_ ops
  · intro call entry hentry
    rw [hnone, AList.lookup_empty] at hentry
    cases hentry
  · intro ops op ih call entry hentry
    have hkept : (exec step e ops).calls.lookup call = some entry →
        BegunIn e (ops ++ [op]) call entry := fun hold => (ih call entry hold).snoc op
    cases op with
    | registry op => exact hkept hentry
    | beginAuthorize begun request =>
        unfold step at hentry
        dsimp only at hentry
        split at hentry
        · exact hkept hentry
        · split at hentry
          · exact hkept hentry
          next started hstarted =>
            rcases AList.lookup_of_insert hentry with ⟨hcall, hnew⟩ | ⟨_, hold⟩
            · obtain ⟨hrequest, hresolve⟩ := beginAuthorize_ok hstarted
              subst hcall hnew hrequest
              exact ⟨ops, [], rfl, hresolve⟩
            · exact hkept hold
    | checkAndAdmit asked admission =>
        unfold step at hentry
        dsimp only at hentry
        split at hentry
        · exact hkept hentry
        next old hold =>
          -- the guard of the call moves on, its request and binding stay
          rcases AList.lookup_of_replace hold hentry with ⟨hcall, hnew⟩ | ⟨_, hother⟩
          · subst hcall hnew
            exact (ih call old hold).snoc _
          · exact hkept hother
    | finishAuthorize finished result =>
        unfold step at hentry
        dsimp only at hentry
        split at hentry
        · exact hkept hentry
        · exact hkept (AList.lookup_of_erase hentry).2
    | revalidate lease nowUnixSeconds => exact hkept hentry

/-- A granted lease carries the binding and the revision of a call in flight. -/
theorem grantedLease_eq_some {e : EdgeState C} {op : Op C} {lease : SubscriptionLease C}
    (h : grantedLease e op = some lease) :
    ∃ call entry, e.calls.lookup call = some entry ∧ lease.binding = entry.registered.binding
      ∧ lease.bindingRevision = entry.registered.revision := by
  unfold grantedLease at h
  cases op with
  | registry op => cases h
  | beginAuthorize call request =>
      unfold step at h
      dsimp only at h
      split at h
      next granted hgranted =>
        split at hgranted
        · cases hgranted
        · split at hgranted <;> cases hgranted
      next => cases h
  | checkAndAdmit call admission =>
      unfold step at h
      dsimp only at h
      split at h
      next granted hgranted => split at hgranted <;> cases hgranted
      next => cases h
  | revalidate lease' nowUnixSeconds => cases h
  | finishAuthorize call result =>
      unfold step at h
      dsimp only at h
      cases hentry : e.calls.lookup call with
      | none =>
          rw [hentry] at h
          cases h
      | some entry =>
          rw [hentry] at h
          unfold EdgeSubscribeGate.finishAuthorize at h
          dsimp only at h
          refine ⟨call, entry, hentry, ?_⟩
          cases hverified : EdgeSubscribeGate.checkVerified entry.request result with
          | error error =>
              rw [hverified] at h
              cases h
          | ok verified =>
              -- `leaseFor` takes both from the call, not from the registry of now
              rw [hverified] at h
              cases h
              exact ⟨rfl, rfl⟩

end EdgeState

namespace CurrentSubscribeRegistry

variable {r r' : CurrentSubscribeRegistry C} {lease : SubscriptionLease C} {op : Op C}

/-! ## §2. Revisions are handed out once. -/

structure Registered (r : CurrentSubscribeRegistry C) : Prop where
  keyed : ∀ key registered, r.bindings.lookup key = some registered →
    registered.binding.key = key
  below : RevisionsBelow r.bindings r.nextRevision
  next_le : r.nextRevision ≤ u64Max

/-- The bindings of a snapshot: under their own keys, active, with revisions above
those handed out before. -/
theorem withSnapshot_lookup (hle : r.nextRevision ≤ u64Max) (boundarySequence : Nat)
    {bindings : List (CurrentSubscribeBinding C)}
    {unique : Table SubscribeBindingKey (CurrentSubscribeBinding C)}
    (hunique : collectUnique bindings ∅ = .ok unique) :
    (∀ key registered,
      (r.withSnapshot boundarySequence unique).bindings.lookup key = some registered →
        registered.binding.key = key ∧ 0 < bindings.length
          ∧ bumpRevision r.nextRevision ≤ registered.revision
          ∧ registered.revision ≤ (r.withSnapshot boundarySequence unique).nextRevision)
      ∧ r.nextRevision ≤ (r.withSnapshot boundarySequence unique).nextRevision
      ∧ (r.withSnapshot boundarySequence unique).nextRevision ≤ u64Max
      ∧ (r.nextRevision + bindings.length ≤ u64Max →
        (r.withSnapshot boundarySequence unique).nextRevision
          = r.nextRevision + bindings.length) := by
  have hempty : ∀ key binding,
      (∅ : Table SubscribeBindingKey (CurrentSubscribeBinding C)).lookup key = some binding →
      binding.key = key := by
    intro key binding hlookup
    rw [AList.lookup_empty] at hlookup
    cases hlookup
  obtain ⟨hkeyed, hsize⟩ := collectUnique_ok bindings ∅ hempty hunique
  rw [AList.size_empty, Nat.zero_add] at hsize
  have hmem : ∀ key ∈ inKeyOrder C unique, key ∈ unique := fun key hkey => mem_inKeyOrder.mp hkey
  obtain ⟨hlookup, hmono, hle'⟩ := registerEach_lookup (inKeyOrder C unique)
    (r.nextRevision, (∅ : Table SubscribeBindingKey (RegisteredSubscribeBinding C))) hmem hle
  refine ⟨?_, hmono, hle', ?_⟩
  · intro key registered hregistered
    rcases hlookup key registered hregistered with hold | ⟨hfrom, _, hlow, hhigh⟩
    · rw [AList.lookup_empty] at hold
      cases hold
    · refine ⟨hkeyed key registered.binding hfrom, ?_, hlow, hhigh⟩
      have hcount := AList.size_erase hfrom
      omega
  · intro hroom
    rw [← hsize, ← length_inKeyOrder (C := C) unique] at hroom ⊢
    exact registerEach_revision (inKeyOrder C unique) (r.nextRevision, ∅) hmem hroom

/-- The loop of an invalidation only moves the counter forward. -/
theorem Registered.revoke (h : Registered r) (event : SubscribeInvalidationV1 C) :
    RevisionsBelow (r.revoke event).bindings (r.revoke event).revision
      ∧ r.nextRevision ≤ (r.revoke event).revision ∧ (r.revoke event).revision ≤ u64Max :=
  revokeEach_revisionsBelow event (inKeyOrder C r.bindings) ⟨r.bindings, r.nextRevision, 0⟩
    h.below h.next_le

theorem step_registered (r : CurrentSubscribeRegistry C) (op : Op C) (h : Registered r) :
    Registered (step r op).2 := by
  have hchange := step_change r op
  generalize (step r op).2 = r' at hchange ⊢
  cases hchange with
  | unchanged _ _ _ => exact h
  | install binding hsync hnew hroom =>
      have hbump := le_bumpRevision h.next_le
      refine ⟨?_, ?_, bumpRevision_le _⟩
      · intro key registered hlookup
        rcases AList.lookup_of_insert hlookup with ⟨hkey, hsame⟩ | ⟨_, hold⟩
        · rw [hkey, hsame]
        · exact h.keyed key registered hold
      · intro key registered hlookup
        rcases AList.lookup_of_insert hlookup with ⟨_, hsame⟩ | ⟨_, hold⟩
        · rw [hsame]
        · exact Nat.le_trans (h.below key registered hold) hbump
  | gap event _ _ _ => exact ⟨h.keyed, h.below, h.next_le⟩
  | apply event _ _ _ =>
      obtain ⟨hbelow, _, hle⟩ := h.revoke event
      refine ⟨?_, hbelow, hle⟩
      intro key registered hlookup
      obtain ⟨old, hold, hsame, _⟩ := lookup_of_revoke hlookup
      rw [hsame]
      exact h.keyed key old hold
  | snapshot boundarySequence bindings unique _ hunique _ _ =>
      obtain ⟨hlookup, _, hle, _⟩ :=
        withSnapshot_lookup h.next_le boundarySequence hunique
      refine ⟨?_, ?_, hle⟩
      · intro key registered hregistered
        exact (hlookup key registered hregistered).1
      · intro key registered hregistered
        exact (hlookup key registered hregistered).2.2.2

/-- The number of revisions an operation hands out. -/
def revisionsTaken (r : CurrentSubscribeRegistry C) (op : Op C) : Nat :=
  match op with
  | .install binding => if (r.install binding).1.isOk then 1 else 0
  | .applyInvalidation event =>
      if (appliedEvent r op).isSome then
        ((inKeyOrder C r.bindings).filter (revokes event r.bindings)).length
      else 0
  | .installSnapshot _ bindings => if snapshotInstalled r op then bindings.length else 0

/-- The number of revisions a run hands out. -/
def revisions (r : CurrentSubscribeRegistry C) (ops : List (Op C)) : Nat :=
  ((trace step r ops).map fun e => revisionsTaken e.1 e.2).sum

/-- The counter can give the operation all its revisions. -/
def HasRoom (r : CurrentSubscribeRegistry C) (op : Op C) : Prop :=
  r.nextRevision + revisionsTaken r op ≤ u64Max

theorem step_nextRevision (h : Registered r) (hroom : HasRoom r op) :
    (step r op).2.nextRevision = r.nextRevision + revisionsTaken r op := by
  unfold HasRoom at hroom
  cases op with
  | install binding =>
      show (r.install binding).2.nextRevision = _
      by_cases hinstalls : Installs r binding
      · have htaken : revisionsTaken r (.install binding) = 1 := by
          unfold revisionsTaken
          dsimp only
          rw [install_of_installs hinstalls]
          rfl
        rw [htaken] at hroom ⊢
        rw [install_of_installs hinstalls]
        exact bumpRevision_eq hroom
      · obtain ⟨error, hrefused⟩ := install_refused hinstalls
        unfold revisionsTaken
        dsimp only
        rw [hrefused]
        rfl
  | applyInvalidation event =>
      show (r.applyInvalidation event).2.nextRevision = _
      unfold revisionsTaken at hroom ⊢
      dsimp only at hroom ⊢
      by_cases happlies : Applies r event
      · rw [happlies.appliedEvent_eq] at hroom ⊢
        rw [applyInvalidation_next happlies.1 happlies.2 happlies.3]
        exact revokeEach_revision (inKeyOrder C r.bindings) ⟨r.bindings, r.nextRevision, 0⟩
          (nodup_inKeyOrder _) hroom
      · rw [appliedEvent_eq_none happlies]
        rcases applyInvalidation_cases r event with
          hmal | ⟨hwell, hold⟩ | ⟨hwell, hlater, hgap⟩ | happlies'
        · rw [applyInvalidation_malformed r hmal]
          rfl
        · rw [applyInvalidation_duplicate hwell hold]
          rfl
        · rw [applyInvalidation_gap hwell hlater hgap]
          rfl
        · exact absurd happlies' happlies
  | installSnapshot boundarySequence bindings =>
      show (r.installSnapshot boundarySequence bindings).2.nextRevision = _
      unfold revisionsTaken at hroom ⊢
      dsimp only at hroom ⊢
      rcases installSnapshot_cases r boundarySequence bindings with
        ⟨hnot, error, hrefused⟩ | ⟨unique, hinstalled, hunique, _, _, hok⟩
      · rw [hnot, hrefused]
        rfl
      · rw [if_pos hinstalled] at hroom ⊢
        rw [hok]
        exact (withSnapshot_lookup h.next_le boundarySequence hunique).2.2.2 hroom

/-- A run with fewer than 2^64 revisions has room at every step. -/
theorem room_along (ops : List (Op C)) :
    ∀ r : CurrentSubscribeRegistry C, Registered r → r.nextRevision + revisions r ops ≤ u64Max →
      ∀ e ∈ trace step r ops, Registered e.1 ∧ HasRoom e.1 e.2 := by
  induction ops with
  | nil => intro r _ _ e he; cases he
  | cons op ops ih =>
      intro r h hroom e he
      unfold revisions at hroom
      rw [trace_cons, List.map_cons, List.sum_cons] at hroom
      dsimp only at hroom
      have hfirst : HasRoom r op := by
        unfold HasRoom
        omega
      rcases List.mem_cons.mp he with rfl | he
      · exact ⟨h, hfirst⟩
      · refine ih _ (step_registered r op h) ?_ e he
        rw [step_nextRevision h hfirst]
        unfold revisions
        omega

/-! ## §3. A lease holds or has ended. -/

theorem resolve_eq_ok_iff {endpointId : C.EndpointId} {mediaClass : MediaClass}
    {bindingGeneration : Nat} {registered : RegisteredSubscribeBinding C} :
    r.resolve endpointId mediaClass bindingGeneration = .ok registered ↔
      r.synchronized = true
        ∧ r.bindings.lookup (bindingKey endpointId mediaClass bindingGeneration)
          = some registered
        ∧ registered.active = true := by
  unfold resolve
  constructor
  · intro h
    split at h
    · cases h
    next hsync =>
      split at h
      · cases h
      next found hfound =>
        split at h
        · cases h
        next hactive =>
          cases h
          exact ⟨Bool.eq_true_of_not_eq_false hsync, hfound, Bool.eq_true_of_not_eq_false hactive⟩
  · intro h
    obtain ⟨hsync, hlookup, hactive⟩ := h
    have hsync' : ¬r.synchronized = false := by
      rw [hsync]
      decide
    have hactive' : ¬registered.active = false := by
      rw [hactive]
      decide
    rw [if_neg hsync', hlookup]
    dsimp only
    rw [if_neg hactive']

/-- A lease revalidates exactly when the active binding under its key has its
revision. -/
theorem revalidate_eq_ok_iff :
    r.revalidate lease = .ok () ↔
      r.synchronized = true ∧ ∃ registered, r.bindings.lookup lease.binding.key = some registered
        ∧ registered.active = true ∧ registered.revision = lease.bindingRevision := by
  unfold revalidate
  constructor
  · intro h
    split at h
    · cases h
    next current hcurrent =>
      split at h
      · cases h
      next hrevision =>
        obtain ⟨hsync, hlookup, hactive⟩ := resolve_eq_ok_iff.mp hcurrent
        exact ⟨hsync, current, hlookup, hactive, not_not.mp hrevision⟩
  · intro h
    obtain ⟨hsync, registered, hlookup, hactive, hrevision⟩ := h
    rw [resolve_eq_ok_iff.mpr ⟨hsync, hlookup, hactive⟩]
    dsimp only
    rw [if_neg (not_not.mpr hrevision)]

/-- The registry has the binding of the lease, active and at its revision. -/
def Holds (lease : SubscriptionLease C) (r : CurrentSubscribeRegistry C) : Prop :=
  r.bindings.lookup lease.binding.key = some ⟨lease.binding, lease.bindingRevision, true⟩

/-- No active binding under the key of the lease has its revision, nor will a
later one. -/
structure Ended (lease : SubscriptionLease C) (r : CurrentSubscribeRegistry C) : Prop where
  revision_le : lease.bindingRevision ≤ r.nextRevision
  revision_ne : ∀ registered, r.bindings.lookup lease.binding.key = some registered →
    registered.active = true → registered.revision ≠ lease.bindingRevision

/-- The operation neither installs a snapshot nor makes the binding stale. -/
def Keeps (lease : SubscriptionLease C) (r : CurrentSubscribeRegistry C) (op : Op C) : Prop :=
  snapshotInstalled r op = false
    ∧ ∀ event, appliedEvent r op = some event → event.stale lease.binding = false

theorem Holds.revalidate_iff (h : Holds lease r) :
    r.revalidate lease = .ok () ↔ r.synchronized = true := by
  rw [revalidate_eq_ok_iff]
  constructor
  · intro hvalid
    exact hvalid.1
  · intro hsync
    exact ⟨hsync, _, h, rfl, rfl⟩

theorem Ended.not_revalidate (h : Ended lease r) : r.revalidate lease ≠ .ok () := by
  intro hvalid
  obtain ⟨_, registered, hlookup, hactive, hrevision⟩ := revalidate_eq_ok_iff.mp hvalid
  exact h.revision_ne registered hlookup hactive hrevision

/-- A snapshot ends every lease from before it. -/
theorem withSnapshot_ended (h : Registered r) {boundarySequence : Nat}
    {bindings : List (CurrentSubscribeBinding C)}
    {unique : Table SubscribeBindingKey (CurrentSubscribeBinding C)}
    (hunique : collectUnique bindings ∅ = .ok unique)
    (hroom : r.nextRevision + bindings.length ≤ u64Max)
    (hle : lease.bindingRevision ≤ r.nextRevision) :
    Ended lease (r.withSnapshot boundarySequence unique) := by
  obtain ⟨hlookup, hmono, _, _⟩ := withSnapshot_lookup h.next_le boundarySequence hunique
  refine ⟨Nat.le_trans hle hmono, ?_⟩
  intro registered hregistered _
  obtain ⟨_, hpos, hlow, _⟩ := hlookup _ registered hregistered
  rw [bumpRevision_eq (by omega)] at hlow
  omega

/-- What a snapshot takes, it takes from the counter. -/
theorem HasRoom.snapshot {boundarySequence : Nat} {bindings : List (CurrentSubscribeBinding C)}
    (hroom : HasRoom r (.installSnapshot boundarySequence bindings))
    (hinstalled : snapshotInstalled r (.installSnapshot boundarySequence bindings) = true) :
    r.nextRevision + bindings.length ≤ u64Max := by
  unfold HasRoom revisionsTaken at hroom
  dsimp only at hroom
  rw [if_pos hinstalled] at hroom
  exact hroom

theorem HasRoom.install {binding : CurrentSubscribeBinding C} (hroom : HasRoom r (.install binding))
    (hinstalls : Installs r binding) : r.nextRevision + 1 ≤ u64Max := by
  unfold HasRoom revisionsTaken at hroom
  dsimp only at hroom
  rw [install_of_installs hinstalls] at hroom
  exact hroom

/-- **Nothing but a snapshot or a stale-making invalidation touches a held
binding.** -/
theorem Holds.step (h : Holds lease r) (hkeeps : Keeps lease r op) :
    Holds lease (CurrentSubscribeRegistry.step r op).2 := by
  have hchange := step_change r op
  generalize (CurrentSubscribeRegistry.step r op).2 = r' at hchange ⊢
  cases hchange with
  | unchanged _ _ _ => exact h
  | install binding hsync hnew hroom =>
      -- an install takes a free key, and the key of the lease is taken
      have hne : lease.binding.key ≠ binding.key := by
        intro hkey
        exact hnew (hkey ▸ AList.mem_of_lookup h)
      exact (AList.lookup_insert_ne hne).trans h
  | gap event _ _ _ => exact h
  | apply event hwell hsync hnext =>
      have hfresh := hkeeps.2 event (Applies.appliedEvent_eq ⟨hwell, hsync, hnext⟩)
      have hrevokes : revokes event r.bindings lease.binding.key = false := by
        rw [revokes_of_lookup event h]
        exact hfresh
      exact (revoke_lookup r hrevokes).trans h
  | snapshot boundarySequence bindings unique hinstalled _ _ _ =>
      rw [hkeeps.1] at hinstalled
      cases hinstalled

/-- **A snapshot, and an invalidation that makes the binding stale, end the
lease.** -/
theorem Holds.ended_step (h : Holds lease r) (hr : Registered r) (hroom : HasRoom r op)
    (hnot : ¬Keeps lease r op) : Ended lease (CurrentSubscribeRegistry.step r op).2 := by
  have hle : lease.bindingRevision ≤ r.nextRevision := hr.below _ _ h
  have hchange := step_change r op
  generalize (CurrentSubscribeRegistry.step r op).2 = r' at hchange ⊢
  cases hchange with
  | unchanged _ hsnapshot happlied =>
      refine absurd ⟨hsnapshot, ?_⟩ hnot
      intro event hevent
      rw [happlied] at hevent
      cases hevent
  | install binding _ _ _ =>
      refine absurd ⟨rfl, ?_⟩ hnot
      intro event hevent
      cases hevent
  | gap event _ _ hgap =>
      refine absurd ⟨rfl, ?_⟩ hnot
      intro found hfound
      rw [appliedEvent_eq_none (not_applies_of_gap hgap)] at hfound
      cases hfound
  | apply event hwell hsync hnext =>
      have happlied := Applies.appliedEvent_eq (r := r) ⟨hwell, hsync, hnext⟩
      have hstale : event.stale lease.binding = true := by
        by_contra hfresh
        refine hnot ⟨rfl, ?_⟩
        intro found hfound
        cases Option.some.inj (happlied.symm.trans hfound)
        exact Bool.eq_false_iff.mpr hfresh
      have hrevokes : revokes event r.bindings lease.binding.key = true := by
        rw [revokes_of_lookup event h]
        exact hstale
      obtain ⟨_, hmono, _⟩ := hr.revoke event
      obtain ⟨revision, hafter⟩ := revoke_lookup_of_revokes h hrevokes
      refine ⟨Nat.le_trans hle hmono, ?_⟩
      intro registered hregistered hactive
      cases Option.some.inj (hafter.symm.trans hregistered)
      cases hactive
  | snapshot boundarySequence bindings unique hinstalled hunique _ _ =>
      exact withSnapshot_ended hr hunique (hroom.snapshot hinstalled) hle

/-- **An ended lease stays ended**: what comes later has a later revision. -/
theorem Ended.step (h : Ended lease r) (hr : Registered r) (hroom : HasRoom r op) :
    Ended lease (CurrentSubscribeRegistry.step r op).2 := by
  have hle := h.revision_le
  have hchange := step_change r op
  generalize (CurrentSubscribeRegistry.step r op).2 = r' at hchange ⊢
  cases hchange with
  | unchanged _ _ _ => exact h
  | install binding hsync hnew hfits =>
      -- the new revision is above every one handed out, the lease's included
      have hbump := bumpRevision_eq (hroom.install ⟨hsync, hnew, hfits⟩)
      refine ⟨?_, ?_⟩
      · show lease.bindingRevision ≤ bumpRevision r.nextRevision
        omega
      · intro registered hregistered hactive
        rcases AList.lookup_of_insert hregistered with ⟨_, hnew⟩ | ⟨_, hold⟩
        · rw [hnew]
          show bumpRevision r.nextRevision ≠ _
          omega
        · exact h.revision_ne registered hold hactive
  | gap event _ _ _ => exact ⟨hle, h.revision_ne⟩
  | apply event _ _ _ =>
      obtain ⟨_, hmono, _⟩ := hr.revoke event
      refine ⟨Nat.le_trans hle hmono, ?_⟩
      -- what is active after the loop was there before, at the same revision
      intro registered hregistered hactive
      obtain ⟨old, hold, _, hsame⟩ := lookup_of_revoke hregistered
      obtain ⟨hsame, _⟩ := hsame hactive
      subst hsame
      exact h.revision_ne registered hold hactive
  | snapshot boundarySequence bindings unique hinstalled hunique _ _ =>
      exact withSnapshot_ended hr hunique (hroom.snapshot hinstalled) hle

theorem exec_holds (ops : List (Op C)) (h : Holds lease r)
    (hkeeps : ∀ e ∈ trace step r ops, Keeps lease e.1 e.2) : Holds lease (exec step r ops) :=
  exec_invariant_along CurrentSubscribeRegistry.step (Holds lease) (Keeps lease)
    (fun _ _ hkeep hold => Holds.step hold hkeep) ops r hkeeps h

theorem exec_still_ended (ops : List (Op C)) (h : Ended lease r)
    (hroom : ∀ e ∈ trace step r ops, Registered e.1 ∧ HasRoom e.1 e.2) :
    Ended lease (exec step r ops) :=
  exec_invariant_along CurrentSubscribeRegistry.step (Ended lease)
    (fun r op => Registered r ∧ HasRoom r op) (fun _ _ hstep hend => Ended.step hend hstep.1 hstep.2)
    ops r hroom h

/-- A lease some operation of the run does not keep has ended after it. -/
theorem exec_ended (ops : List (Op C)) :
    ∀ r : CurrentSubscribeRegistry C, Holds lease r →
      (∀ e ∈ trace step r ops, Registered e.1 ∧ HasRoom e.1 e.2) →
      (¬∀ e ∈ trace step r ops, Keeps lease e.1 e.2) → Ended lease (exec step r ops) := by
  induction ops with
  | nil =>
      intro r _ _ hnot
      refine absurd ?_ hnot
      intro e he
      cases he
  | cons op ops ih =>
      intro r h hroom hnot
      rw [trace_cons] at hroom hnot
      rw [exec_cons]
      have hfirst := hroom (r, op) List.mem_cons_self
      have hrest : ∀ e ∈ trace step (step r op).2 ops, Registered e.1 ∧ HasRoom e.1 e.2 :=
        fun e he => hroom e (List.mem_cons_of_mem _ he)
      -- the first operation that does not keep the lease ends it, for good
      by_cases hkeeps : Keeps lease r op
      · refine ih _ (h.step hkeeps) hrest ?_
        intro hall
        apply hnot
        intro e he
        rcases List.mem_cons.mp he with rfl | he
        · exact hkeeps
        · exact hall e he
      · exact exec_still_ended ops (h.ended_step hfirst.1 hfirst.2 hkeeps) hrest

/-! ## §4. A revoked key. -/

/-- The binding under `key` is revoked. -/
def Revoked (key : SubscribeBindingKey) (r : CurrentSubscribeRegistry C) : Prop :=
  ∃ registered, r.bindings.lookup key = some registered ∧ registered.active = false

/-- Without a snapshot a revoked binding keeps its key occupied. -/
theorem Revoked.step {key : SubscribeBindingKey} (h : Revoked key r)
    (hsnapshot : snapshotInstalled r op = false) :
    Revoked key (CurrentSubscribeRegistry.step r op).2 := by
  obtain ⟨registered, hlookup, hinactive⟩ := h
  have hchange := step_change r op
  generalize (CurrentSubscribeRegistry.step r op).2 = r' at hchange ⊢
  cases hchange with
  | unchanged _ _ _ => exact ⟨registered, hlookup, hinactive⟩
  | install binding hsync hnew hfits =>
      have hne : key ≠ binding.key := by
        intro hkey
        exact hnew (hkey ▸ AList.mem_of_lookup hlookup)
      exact ⟨registered, (AList.lookup_insert_ne hne).trans hlookup, hinactive⟩
  | gap event _ _ _ => exact ⟨registered, hlookup, hinactive⟩
  | apply event _ _ _ =>
      have hrevokes : revokes event r.bindings key = false := by
        rw [revokes_of_lookup event hlookup, hinactive]
        rfl
      exact ⟨registered, (revoke_lookup r hrevokes).trans hlookup, hinactive⟩
  | snapshot boundarySequence bindings unique hinstalled _ _ _ =>
      rw [hsnapshot] at hinstalled
      cases hinstalled

theorem Revoked.not_resolve {endpointId : C.EndpointId} {mediaClass : MediaClass}
    {bindingGeneration : Nat} (h : Revoked (bindingKey endpointId mediaClass bindingGeneration) r)
    (registered : RegisteredSubscribeBinding C) :
    r.resolve endpointId mediaClass bindingGeneration ≠ .ok registered := by
  intro hresolve
  obtain ⟨_, hlookup, hactive⟩ := resolve_eq_ok_iff.mp hresolve
  obtain ⟨found, hfound, hinactive⟩ := h
  cases Option.some.inj (hfound.symm.trans hlookup)
  rw [hactive] at hinactive
  cases hinactive

/-- An applied event revokes the bindings it makes stale. -/
theorem Applies.revoked {event : SubscribeInvalidationV1 C} (h : Applies r event)
    {endpointId : C.EndpointId} {mediaClass : MediaClass} {bindingGeneration : Nat}
    {registered : RegisteredSubscribeBinding C}
    (hresolve : r.resolve endpointId mediaClass bindingGeneration = .ok registered)
    (hstale : event.stale registered.binding = true) :
    Revoked (bindingKey endpointId mediaClass bindingGeneration)
      (CurrentSubscribeRegistry.step r (.applyInvalidation event)).2 := by
  obtain ⟨_, hlookup, hactive⟩ := resolve_eq_ok_iff.mp hresolve
  have hrevokes : revokes event r.bindings (bindingKey endpointId mediaClass bindingGeneration)
      = true := by
    rw [revokes_of_lookup event hlookup, hactive, hstale]
    rfl
  obtain ⟨revision, hafter⟩ := revoke_lookup_of_revokes hlookup hrevokes
  show Revoked _ (r.applyInvalidation event).2
  rw [applyInvalidation_next h.1 h.2 h.3]
  exact ⟨_, hafter, rfl⟩

theorem exec_revoked {key : SubscribeBindingKey} (ops : List (Op C)) (h : Revoked key r)
    (hsnapshot : ∀ e ∈ trace step r ops, snapshotInstalled e.1 e.2 = false) :
    Revoked key (exec step r ops) :=
  exec_invariant_along CurrentSubscribeRegistry.step (Revoked key)
    (fun r op => snapshotInstalled r op = false) (fun _ _ hnone hrev => Revoked.step hrev hnone)
    ops r hsnapshot h

/-! ## §5. Every run. -/

theorem new_eq_ok {boundarySequence : Nat}
    (h : CurrentSubscribeRegistry.new C boundarySequence = .ok r) :
    boundarySequence ≤ C.maxGeneration.toNat
      ∧ r = {
        nextRevision := 0
        lastInvalidationSequence := boundarySequence
        requiredSnapshotBoundary := 0
        synchronized := true
        bindings := ∅ } := by
  unfold CurrentSubscribeRegistry.new at h
  split at h
  · cases h
  next hle =>
    cases h
    exact ⟨Nat.le_of_not_lt hle, rfl⟩

theorem new_registered {boundarySequence : Nat}
    (h : CurrentSubscribeRegistry.new C boundarySequence = .ok r) : Registered r := by
  obtain ⟨_, rfl⟩ := new_eq_ok h
  refine ⟨?_, ?_, Nat.zero_le _⟩
  · intro key registered hlookup
    rw [AList.lookup_empty] at hlookup
    cases hlookup
  · intro key registered hlookup
    rw [AList.lookup_empty] at hlookup
    cases hlookup

/-- A resolve for the request gives the binding and the revision of the lease. -/
def ResolvedFor (r : CurrentSubscribeRegistry C) (request : EdgeSubscribeRequest C)
    (lease : SubscriptionLease C) : Prop :=
  r.resolve request.endpointId request.mediaClass request.bindingGeneration
    = .ok ⟨lease.binding, lease.bindingRevision, true⟩

theorem ResolvedFor.holds {request : EdgeSubscribeRequest C} (h : ResolvedFor r request lease)
    (hr : Registered r) : Holds lease r := by
  obtain ⟨_, hlookup, _⟩ := resolve_eq_ok_iff.mp h
  unfold Holds
  rw [hr.keyed _ _ hlookup]
  exact hlookup

/-- **From its resolve on a lease revalidates exactly while the registry is
synchronized and every operation keeps its binding.** -/
theorem exec_revalidate_iff {boundarySequence : Nat} {registry : CurrentSubscribeRegistry C}
    (h : CurrentSubscribeRegistry.new C boundarySequence = .ok registry)
    (before after : List (Op C)) {request : EdgeSubscribeRequest C}
    (hresolved : ResolvedFor (exec step registry before) request lease)
    (hfew : revisions registry (before ++ after) ≤ u64Max) :
    (exec step registry (before ++ after)).revalidate lease = .ok () ↔
      (exec step registry (before ++ after)).synchronized = true
        ∧ ∀ e ∈ trace step (exec step registry before) after, Keeps lease e.1 e.2 := by
  have hnew := new_registered h
  have hholds := hresolved.holds (exec_invariant step _ step_registered before hnew)
  have hroom : ∀ e ∈ trace step (exec step registry before) after,
      Registered e.1 ∧ HasRoom e.1 e.2 := by
    have hzero : registry.nextRevision = 0 := by
      obtain ⟨_, hregistry⟩ := new_eq_ok h
      rw [hregistry]
    have hall := room_along (before ++ after) registry hnew (by omega)
    rw [trace_append] at hall
    intro e he
    exact hall e (List.mem_append_right _ he)
  rw [exec_append]
  by_cases hkeeps : ∀ e ∈ trace step (exec step registry before) after, Keeps lease e.1 e.2
  · rw [(exec_holds after hholds hkeeps).revalidate_iff]
    constructor
    · intro hsync
      exact ⟨hsync, hkeeps⟩
    · intro hboth
      exact hboth.1
  · -- some operation of the run did not keep the binding, so the lease has ended
    constructor
    · intro hok
      exact absurd hok (exec_ended after _ hholds hroom hkeeps).not_revalidate
    · intro hboth
      exact absurd hboth.2 hkeeps

/-- **LEASES AND BINDINGS.**  In every run from a new registry:

    • a granted lease carries what its call resolved at a point of the run,
    • from there on it revalidates exactly while the registry is synchronized, no
      snapshot has been installed and no applied invalidation made its binding
      stale (for fewer than 2^64 revisions),
    • a key whose binding was invalidated does not resolve until a snapshot is
      installed,
    • a lease from before a snapshot is never valid again. -/
theorem exec_leases_follow_bindings {boundarySequence : Nat} {registry : CurrentSubscribeRegistry C}
    (h : CurrentSubscribeRegistry.new C boundarySequence = .ok registry) :
    (∀ (ops : List (EdgeState.Op C)) (op : EdgeState.Op C) (lease : SubscriptionLease C),
      EdgeState.grantedLease (exec EdgeState.step (.new registry) ops) op = some lease →
      ∃ before call request after, ops = before ++ .beginAuthorize call request :: after
        ∧ ResolvedFor (exec step registry (EdgeState.registryOps before)) request lease)
    ∧ (∀ (before after : List (Op C)) (request : EdgeSubscribeRequest C)
        (lease : SubscriptionLease C),
      ResolvedFor (exec step registry before) request lease →
      revisions registry (before ++ after) ≤ u64Max →
      ((exec step registry (before ++ after)).revalidate lease = .ok () ↔
        (exec step registry (before ++ after)).synchronized = true
          ∧ (∀ e ∈ trace step (exec step registry before) after,
              snapshotInstalled e.1 e.2 = false)
          ∧ ∀ e ∈ trace step (exec step registry before) after,
              ∀ event, appliedEvent e.1 e.2 = some event → event.stale lease.binding = false))
    ∧ (∀ (before after : List (Op C)) (event : SubscribeInvalidationV1 C)
        (endpointId : C.EndpointId) (mediaClass : MediaClass) (bindingGeneration : Nat)
        (registered : RegisteredSubscribeBinding C),
      (exec step registry before).resolve endpointId mediaClass bindingGeneration
        = .ok registered →
      appliedEvent (exec step registry before) (.applyInvalidation event) = some event →
      event.stale registered.binding = true →
      (∀ e ∈ trace step (exec step registry (before ++ [.applyInvalidation event])) after,
        snapshotInstalled e.1 e.2 = false) →
      ∀ registered', (exec step registry (before ++ [.applyInvalidation event] ++ after)).resolve
        endpointId mediaClass bindingGeneration ≠ .ok registered')
    ∧ (∀ (before after : List (Op C)) (request : EdgeSubscribeRequest C)
        (lease : SubscriptionLease C),
      ResolvedFor (exec step registry before) request lease →
      revisions registry (before ++ after) ≤ u64Max →
      (∃ e ∈ trace step (exec step registry before) after, snapshotInstalled e.1 e.2 = true) →
      (exec step registry (before ++ after)).revalidate lease ≠ .ok ()) := by
  refine ⟨?_, ?_, ?_, ?_⟩
  · intro ops op lease hgranted
    obtain ⟨call, entry, hentry, hbinding, hrevision⟩ := EdgeState.grantedLease_eq_some hgranted
    obtain ⟨before, after, hops, hresolve⟩ :=
      EdgeState.exec_calls_begunIn (.new registry) rfl ops call entry hentry
    refine ⟨before, call, entry.request, after, hops, ?_⟩
    rw [EdgeState.exec_registry] at hresolve
    have hactive := (resolve_eq_ok_iff.mp hresolve).2.2
    unfold ResolvedFor
    rw [hbinding, hrevision, ← hactive]
    exact hresolve
  · intro before after request lease hresolved hfew
    rw [exec_revalidate_iff h before after hresolved hfew]
    constructor
    · intro hboth
      exact ⟨hboth.1, fun e he => (hboth.2 e he).1, fun e he => (hboth.2 e he).2⟩
    · intro hall
      exact ⟨hall.1, fun e he => ⟨hall.2.1 e he, hall.2.2 e he⟩⟩
  · intro before after event endpointId mediaClass bindingGeneration registered hresolve happlied
      hstale hsnapshot registered'
    have happlies := (appliedEvent_eq_some_iff.mp happlied).2
    have hrevoked := happlies.revoked hresolve hstale
    rw [exec_append] at hsnapshot
    rw [exec_append, exec_append]
    exact (exec_revoked after hrevoked hsnapshot).not_resolve registered'
  · intro before after request lease hresolved hfew hsnapshot hok
    obtain ⟨e, he, hinstalled⟩ := hsnapshot
    have hkeeps := ((exec_revalidate_iff h before after hresolved hfew).mp hok).2 e he
    rw [hkeeps.1] at hinstalled
    cases hinstalled

/-- The lease for `sampleBinding` at its first revision. -/
def sampleLease : SubscriptionLease sampleMedia where
  binding := sampleBinding
  bindingRevision := 1
  capabilityId := "capability-1"
  connectionId := "connection-1"
  sourceIds := ["source-1"]
  audienceIds := []
  maxChannels := 2
  maxBitrate := 256000
  maxDatagramBytes := 1200
  expiresAt := 2000

/-- A call resolves the binding, a snapshot installs an equal binding, and only
then the call gets its lease, which is not valid. -/
theorem exec_leases_follow_bindings_sample :
    CurrentSubscribeRegistry.new sampleMedia 0 = .ok sampleRegistry
      ∧ (∃ before call request after,
          [.registry (.install sampleBinding), .beginAuthorize 1 sampleRequest,
            .registry (.installSnapshot 0 [sampleBinding])]
            = before ++ EdgeState.Op.beginAuthorize call request :: after
          ∧ ResolvedFor (exec step sampleRegistry (EdgeState.registryOps before)) request
            sampleLease)
      ∧ (exec step sampleRegistry
          ([.install sampleBinding] ++ [.installSnapshot 0 [sampleBinding]])).revalidate sampleLease
        ≠ .ok () := by
  have hnew : CurrentSubscribeRegistry.new sampleMedia 0 = .ok sampleRegistry := rfl
  refine ⟨hnew, ?_, ?_⟩
  · exact (exec_leases_follow_bindings hnew).1 _ (.finishAuthorize 1 (.ok sampleCapability)) _ rfl
  · exact (exec_leases_follow_bindings hnew).2.2.2 [.install sampleBinding]
      [.installSnapshot 0 [sampleBinding]] sampleRequest sampleLease rfl (by decide)
      ⟨_, List.mem_cons_self, rfl⟩

end CurrentSubscribeRegistry

end AvMesh.Subscribe
