/-
  AvMesh.Subscribe.Staleness
  ──────────────────────────
  **APPLIED INVALIDATIONS AND LATE INSTALLS.**

  An applied invalidation revokes the bindings that are there.  `install` does not
  look at the invalidations that came before it, so a binding that is behind one of
  them and arrives late is installed and resolves.

    • `exec_resolves_current_iff` — a run respects what it applied exactly when it
      takes no such late install, and an install and an invalidation may change
      places exactly when the invalidation does not make the binding stale,
    • `lateInstall_resolves` — a run of two operations that takes one.
-/
import AvMesh.Subscribe.Fence

namespace AvMesh.Subscribe.CurrentSubscribeRegistry

open AvMesh.Lib

variable {C : MediaCrates} {r r' : CurrentSubscribeRegistry C} {op : Op C}
  {event : SubscribeInvalidationV1 C} {binding : CurrentSubscribeBinding C} {ledger : Ledger C}
  {key : SubscribeBindingKey}

/-! ## §1. Resolvable bindings. -/

/-- Some resolve returns the binding. -/
def Resolvable (r : CurrentSubscribeRegistry C) (binding : CurrentSubscribeBinding C) : Prop :=
  ∃ endpointId mediaClass bindingGeneration registered,
    r.resolve endpointId mediaClass bindingGeneration = .ok registered
      ∧ registered.binding = binding

/-- No resolve returns a binding that an applied event made stale. -/
def RespectsApplied (ledger : Ledger C) (r : CurrentSubscribeRegistry C) : Prop :=
  ∀ event ∈ ledger.applied, ∀ binding, Resolvable r binding → event.stale binding = false

/-- The active binding under `key`. -/
def activeAt (r : CurrentSubscribeRegistry C) (key : SubscribeBindingKey) :
    Option (CurrentSubscribeBinding C) :=
  match r.bindings.lookup key with
  | none => none
  | some registered => if registered.active then some registered.binding else none

theorem activeAt_eq_some_iff :
    r.activeAt key = some binding ↔
      ∃ registered, r.bindings.lookup key = some registered ∧ registered.active = true
        ∧ registered.binding = binding := by
  unfold activeAt
  cases hlookup : r.bindings.lookup key with
  | none => simp
  | some registered =>
      cases hactive : registered.active with
      | false => simp [hactive]
      | true => simp [hactive]

/-- A resolve finds the active bindings of a synchronized registry. -/
theorem resolvable_iff :
    Resolvable r binding ↔
      r.synchronized = true ∧ ∃ (endpointId : C.EndpointId) (mediaClass : MediaClass)
          (bindingGeneration : Nat),
        r.activeAt (bindingKey endpointId mediaClass bindingGeneration) = some binding := by
  constructor
  · intro h
    obtain ⟨endpointId, mediaClass, bindingGeneration, registered, hresolve, hbinding⟩ := h
    obtain ⟨hsync, hlookup, hactive⟩ := resolve_eq_ok_iff.mp hresolve
    exact ⟨hsync, endpointId, mediaClass, bindingGeneration,
      activeAt_eq_some_iff.mpr ⟨registered, hlookup, hactive, hbinding⟩⟩
  · intro h
    obtain ⟨hsync, endpointId, mediaClass, bindingGeneration, hactiveAt⟩ := h
    obtain ⟨registered, hlookup, hactive, hbinding⟩ := activeAt_eq_some_iff.mp hactiveAt
    exact ⟨endpointId, mediaClass, bindingGeneration, registered,
      resolve_eq_ok_iff.mpr ⟨hsync, hlookup, hactive⟩, hbinding⟩

/-- The registry after an accepted install. -/
theorem activeAt_install (h : Installs r binding) (key : SubscribeBindingKey) :
    (r.install binding).2.activeAt key
      = if key = binding.key then some binding else r.activeAt key := by
  rw [install_of_installs h]
  unfold activeAt
  dsimp only
  by_cases hkey : key = binding.key
  · rw [if_pos hkey, hkey, AList.lookup_insert]
    rfl
  · rw [if_neg hkey, AList.lookup_insert_ne hkey]

/-- The registry after an applied event: the stale ones are gone. -/
theorem activeAt_applyInvalidation (h : Applies r event) (key : SubscribeBindingKey) :
    (r.applyInvalidation event).2.activeAt key
      = (r.activeAt key).filter fun binding => !event.stale binding := by
  rw [applyInvalidation_next h.1 h.2 h.3]
  show (match (r.revoke event).bindings.lookup key with
    | none => none
    | some registered => if registered.active then some registered.binding else none) = _
  unfold activeAt
  cases hlookup : r.bindings.lookup key with
  | none =>
      have hrevokes : revokes event r.bindings key = false := by
        unfold revokes
        rw [hlookup]
      rw [revoke_lookup r hrevokes, hlookup]
      rfl
  | some registered =>
      cases hrevokes : revokes event r.bindings key with
      | false =>
          rw [revoke_lookup r hrevokes, hlookup]
          rw [revokes_of_lookup event hlookup] at hrevokes
          cases hactive : registered.active with
          | false => simp [hactive]
          | true =>
              rw [hactive, Bool.true_and] at hrevokes
              simp [hactive, hrevokes, Option.filter_some]
      | true =>
          obtain ⟨revision, hafter⟩ := revoke_lookup_of_revokes hlookup hrevokes
          rw [hafter]
          rw [revokes_of_lookup event hlookup, Bool.and_eq_true] at hrevokes
          simp [hrevokes.1, hrevokes.2, Option.filter_some]

theorem Installs.resolvable (h : Installs r binding) :
    Resolvable (r.install binding).2 binding := by
  apply resolvable_iff.mpr
  refine ⟨?_, binding.endpointId, binding.mediaClass, binding.bindingGeneration, ?_⟩
  · rw [install_of_installs h]
    exact h.synchronized
  · rw [activeAt_install h]
    exact if_pos rfl

/-- Right after it is applied, an event leaves no stale binding to resolve. -/
theorem Applies.not_stale_of_resolvable (h : Applies r event)
    (hresolvable : Resolvable (r.applyInvalidation event).2 binding) :
    event.stale binding = false := by
  obtain ⟨_, endpointId, mediaClass, bindingGeneration, hactiveAt⟩ :=
    resolvable_iff.mp hresolvable
  rw [activeAt_applyInvalidation h] at hactiveAt
  have hfresh := (Option.filter_eq_some_iff.mp hactiveAt).2
  rw [Bool.not_eq_true'] at hfresh
  exact hfresh

/-! ## §2. Runs without late installs. -/

/-- Every active binding is current with respect to the applied events. -/
def AllCurrent (ledger : Ledger C) (r : CurrentSubscribeRegistry C) : Prop :=
  ∀ key registered, r.bindings.lookup key = some registered → registered.active = true →
    ∀ event ∈ ledger.applied, event.stale registered.binding = false

/-- The operation is not an accepted install of a binding that an applied event
makes stale. -/
def NotLate (ledger : Ledger C) (r : CurrentSubscribeRegistry C) (op : Op C) : Prop :=
  ∀ binding, op = .install binding → Installs r binding →
    ∀ event ∈ ledger.applied, event.stale binding = false

theorem AllCurrent.respectsApplied (h : AllCurrent ledger r) : RespectsApplied ledger r := by
  intro event hevent binding hresolvable
  obtain ⟨_, endpointId, mediaClass, bindingGeneration, hactiveAt⟩ :=
    resolvable_iff.mp hresolvable
  obtain ⟨registered, hlookup, hactive, hbinding⟩ := activeAt_eq_some_iff.mp hactiveAt
  rw [← hbinding]
  exact h _ registered hlookup hactive event hevent

theorem AllCurrent.step (h : AllCurrent ledger r) (hnotLate : NotLate ledger r op) :
    AllCurrent (recordStep ledger r op) (CurrentSubscribeRegistry.step r op).2 := by
  have hchange := step_change r op
  generalize (CurrentSubscribeRegistry.step r op).2 = r' at hchange ⊢
  cases hchange with
  | unchanged _ hsnapshot happlied =>
      rw [recordStep_unchanged hsnapshot happlied]
      exact h
  | install binding hsync hnew hroom =>
      rw [recordStep_unchanged rfl rfl]
      intro key registered hlookup hactive event hevent
      rcases AList.lookup_of_insert hlookup with ⟨_, hsame⟩ | ⟨_, hold⟩
      · rw [hsame]
        exact hnotLate binding rfl ⟨hsync, hnew, hroom⟩ event hevent
      · exact h key registered hold hactive event hevent
  | gap event hwell hlater hgap =>
      rw [recordStep_unchanged rfl (appliedEvent_eq_none (not_applies_of_gap hgap))]
      exact h
  | apply event hwell hsync hnext =>
      have happlies : Applies r event := ⟨hwell, hsync, hnext⟩
      intro key registered hlookup hactive applied hmem
      -- what is still active was active before and is not stale now
      obtain ⟨old, hold, _, hkept⟩ := lookup_of_revoke hlookup
      obtain ⟨hsame, hfresh⟩ := hkept hactive
      unfold recordStep at hmem
      dsimp only at hmem
      rw [happlies.appliedEvent_eq, Option.toList_some] at hmem
      rcases List.mem_append.mp hmem with hbefore | hnow
      · rw [hsame] at hactive ⊢
        exact h key old hold hactive applied hbefore
      · rw [List.mem_singleton.mp hnow, hsame]
        exact hfresh
  | snapshot boundarySequence bindings unique hinstalled _ _ _ =>
      -- the ledger starts again, so there is nothing to be behind of
      unfold recordStep
      dsimp only
      rw [if_pos hinstalled]
      intro key registered _ _ event hevent
      cases hevent

theorem exec_allCurrent (ops : List (Op C)) :
    ∀ (ledger : Ledger C) (r : CurrentSubscribeRegistry C), AllCurrent ledger r →
      (∀ before op after, ops = before ++ op :: after →
        NotLate (ledgerAfter ledger r before) (exec step r before) op) →
      AllCurrent (ledgerAfter ledger r ops) (exec step r ops) := by
  induction ops with
  | nil => intro ledger r h _; exact h
  | cons op ops ih =>
      intro ledger r h hnotLate
      refine ih (recordStep ledger r op) _ (h.step (hnotLate [] op ops rfl)) ?_
      intro before next after hops
      exact hnotLate (op :: before) next after (by rw [hops]; rfl)

theorem ledgerAfter_snoc_install (ledger : Ledger C) (r : CurrentSubscribeRegistry C)
    (ops : List (Op C)) (binding : CurrentSubscribeBinding C) :
    ledgerAfter ledger r (ops ++ [.install binding]) = ledgerAfter ledger r ops := by
  have hsame : recordStep (ledgerAfter ledger r ops) (exec step r ops) (.install binding)
      = ledgerAfter ledger r ops := recordStep_unchanged rfl rfl
  unfold ledgerAfter at hsame ⊢
  rw [trace_append, List.foldl_append]
  exact hsame

/-! ## §3. The two orders of an install and an invalidation. -/

/-- The same bindings resolve. -/
def SameResolvable (r r' : CurrentSubscribeRegistry C) : Prop :=
  ∀ binding, Resolvable r binding ↔ Resolvable r' binding

theorem sameResolvable_of_activeAt (hsync : r.synchronized = r'.synchronized)
    (hactive : ∀ key, r.activeAt key = r'.activeAt key) : SameResolvable r r' := by
  intro binding
  rw [resolvable_iff, resolvable_iff, hsync]
  simp only [hactive]

/-- Nothing resolves in either of two closed registries. -/
theorem Closed.sameResolvable (h : Closed r) (h' : Closed r') : SameResolvable r r' := by
  have hnone : ∀ {s : CurrentSubscribeRegistry C}, Closed s → ∀ binding, ¬Resolvable s binding := by
    intro s hs binding hresolvable
    have hsync := (resolvable_iff.mp hresolvable).1
    unfold Closed at hs
    rw [hs] at hsync
    cases hsync
  intro binding
  constructor
  · intro hresolvable
    exact absurd hresolvable (hnone h binding)
  · intro hresolvable
    exact absurd hresolvable (hnone h' binding)

/-- An event changes nothing of what an install asks for, except that a gap closes
the registry. -/
theorem installs_applyInvalidation :
    Installs (r.applyInvalidation event).2 binding ↔
      Installs r binding ∧ (r.applyInvalidation event).2.synchronized = true := by
  rcases applyInvalidation_cases r event with
    hmal | ⟨hwell, hold⟩ | ⟨hwell, hlater, hgap⟩ | happlies
  · rw [applyInvalidation_malformed r hmal]
    constructor
    · intro h
      exact ⟨h, h.synchronized⟩
    · intro h
      exact h.1
  · rw [applyInvalidation_duplicate hwell hold]
    constructor
    · intro h
      exact ⟨h, h.synchronized⟩
    · intro h
      exact h.1
  · rw [applyInvalidation_gap hwell hlater hgap]
    constructor
    · intro h
      cases h.synchronized
    · intro h
      cases h.2
  · rw [applyInvalidation_next happlies.1 happlies.2 happlies.3]
    have hsize : (r.revoke event).bindings.size = r.bindings.size := revokeEach_size _ _
    constructor
    · intro h
      refine ⟨⟨h.synchronized, ?_, ?_⟩, h.synchronized⟩
      · intro hmem
        exact h.new ((mem_revoke r).mpr hmem)
      · rw [← hsize]
        exact h.room
    · intro h
      refine ⟨happlies.synchronized, ?_, ?_⟩
      · intro hmem
        exact h.1.new ((mem_revoke r).mp hmem)
      · show (r.revoke event).bindings.size < _
        rw [hsize]
        exact h.1.room

/-- An install changes nothing of what an event asks for. -/
theorem applies_install (binding : CurrentSubscribeBinding C) :
    Applies (r.install binding).2 event ↔ Applies r event := by
  by_cases hinstalls : Installs r binding
  · rw [install_of_installs hinstalls]
    constructor
    · intro h
      exact ⟨h.1, h.2, h.3⟩
    · intro h
      exact ⟨h.1, h.2, h.3⟩
  · obtain ⟨error, hrefused⟩ := install_refused hinstalls
    rw [hrefused]

/-- An event that is not applied does not tell the two orders apart. -/
theorem sameResolvable_of_not_applies (hinstalls : Installs r binding) (hnot : ¬Applies r event) :
    SameResolvable (exec step r [.install binding, .applyInvalidation event])
      (exec step r [.applyInvalidation event, .install binding]) := by
  have hinstalled := install_of_installs hinstalls
  show SameResolvable ((r.install binding).2.applyInvalidation event).2
    ((r.applyInvalidation event).2.install binding).2
  rcases applyInvalidation_cases r event with
    hmal | ⟨hwell, hold⟩ | ⟨hwell, hlater, hgap⟩ | happlies
  · rw [applyInvalidation_malformed _ hmal, applyInvalidation_malformed _ hmal]
    intro found
    exact Iff.rfl
  · have hold' : event.deliverySequence ≤ (r.install binding).2.lastInvalidationSequence := by
      rw [hinstalled]
      exact hold
    rw [applyInvalidation_duplicate hwell hold, applyInvalidation_duplicate hwell hold']
    intro found
    exact Iff.rfl
  · have hlater' : (r.install binding).2.lastInvalidationSequence < event.deliverySequence := by
      rw [hinstalled]
      exact hlater
    have hgap' : (r.install binding).2.synchronized = false
        ∨ event.deliverySequence ≠ (r.install binding).2.lastInvalidationSequence + 1 := by
      rw [hinstalled]
      exact hgap
    have hclosed : Closed (r.applyInvalidation event).2 := by
      rw [applyInvalidation_gap hwell hlater hgap]
      rfl
    rw [hclosed.refuses.install, applyInvalidation_gap hwell hlater' hgap']
    exact Closed.sameResolvable rfl hclosed
  · exact absurd happlies hnot

/-- **Delivered in either order, an install and an invalidation leave the same
bindings to resolve, unless the one is accepted, the other applied, and the binding
stale.** -/
theorem install_applyInvalidation_order_iff (r : CurrentSubscribeRegistry C)
    (binding : CurrentSubscribeBinding C) (event : SubscribeInvalidationV1 C) :
    SameResolvable (exec step r [.install binding, .applyInvalidation event])
        (exec step r [.applyInvalidation event, .install binding]) ↔
      ¬(Installs r binding ∧ Applies r event ∧ event.stale binding = true) := by
  by_cases hinstalls : Installs r binding
  · by_cases happlies : Applies r event
    · have happlies' : Applies (r.install binding).2 event := (applies_install binding).mpr happlies
      have hsync : (r.applyInvalidation event).2.synchronized = true := by
        rw [applyInvalidation_next happlies.1 happlies.2 happlies.3]
        exact happlies.synchronized
      have hinstalls' : Installs (r.applyInvalidation event).2 binding :=
        installs_applyInvalidation.mpr ⟨hinstalls, hsync⟩
      constructor
      · -- installed last it resolves, installed first it does not
        intro hsame hlate
        have hresolvable := (hsame binding).mpr hinstalls'.resolvable
        have hfresh := happlies'.not_stale_of_resolvable hresolvable
        rw [hlate.2.2] at hfresh
        cases hfresh
      · -- a binding that stays fresh is there in both orders, key by key
        intro hnot
        have hfresh : event.stale binding = false := by
          by_contra hstale
          exact hnot ⟨hinstalls, happlies, Bool.eq_true_of_not_eq_false hstale⟩
        show SameResolvable ((r.install binding).2.applyInvalidation event).2
          ((r.applyInvalidation event).2.install binding).2
        apply sameResolvable_of_activeAt
        · rw [applyInvalidation_next happlies'.1 happlies'.2 happlies'.3,
            install_of_installs hinstalls']
          exact happlies'.synchronized.trans hsync.symm
        · intro key
          rw [activeAt_applyInvalidation happlies', activeAt_install hinstalls,
            activeAt_install hinstalls', activeAt_applyInvalidation happlies]
          by_cases hkey : key = binding.key
          · rw [if_pos hkey, if_pos hkey, Option.filter_some, hfresh]
            rfl
          · rw [if_neg hkey, if_neg hkey]
    · constructor
      · intro _ hlate
        exact happlies hlate.2.1
      · intro _
        exact sameResolvable_of_not_applies hinstalls happlies
  · constructor
    · intro _ hlate
      exact hinstalls hlate.1
    · -- refused before the event, the install is refused after it
      intro _
      have hrefused' : ¬Installs (r.applyInvalidation event).2 binding := fun h =>
        hinstalls (installs_applyInvalidation.mp h).1
      obtain ⟨error, hrefused⟩ := install_refused hinstalls
      obtain ⟨error', hrefused'⟩ := install_refused hrefused'
      show SameResolvable ((r.install binding).2.applyInvalidation event).2
        ((r.applyInvalidation event).2.install binding).2
      rw [hrefused, hrefused']
      intro found
      exact Iff.rfl

/-! ## §4. Every run. -/

/-- **LATE INSTALLS UNDO INVALIDATIONS, AND NOTHING ELSE DOES.**  A run, from a new
registry or any other, respects the invalidations it applied since its last snapshot,
in every state it reaches, if and only if it accepts no install of a binding that one
of them makes stale.  In every state reached, the two orders of an install and an
invalidation leave the same bindings to resolve under the same condition. -/
theorem exec_resolves_current_iff (initialBoundary : Nat) (registry : CurrentSubscribeRegistry C)
    (ops : List (Op C)) :
    ((∀ before after, ops = before ++ after →
        RespectsApplied (ledgerAfter ⟨initialBoundary, []⟩ registry before)
          (exec step registry before)) ↔
      ∀ before op after, ops = before ++ op :: after →
        NotLate (ledgerAfter ⟨initialBoundary, []⟩ registry before)
          (exec step registry before) op)
    ∧ ∀ binding event,
      SameResolvable (exec step registry (ops ++ [.install binding, .applyInvalidation event]))
          (exec step registry (ops ++ [.applyInvalidation event, .install binding])) ↔
        ¬(Installs (exec step registry ops) binding ∧ Applies (exec step registry ops) event
          ∧ event.stale binding = true) := by
  refine ⟨⟨?_, ?_⟩, ?_⟩
  · intro hrespects before op after hops binding hop hinstalls event hevent
    subst hop
    -- right after the install its binding resolves
    have hnext := hrespects (before ++ [.install binding]) after (by
      rw [hops, List.append_assoc]
      rfl)
    rw [ledgerAfter_snoc_install, exec_append] at hnext
    exact hnext event hevent binding hinstalls.resolvable
  · intro hnotLate before after hops
    have hstart : AllCurrent ⟨initialBoundary, []⟩ registry := by
      intro key registered _ _ event hevent
      cases hevent
    refine (exec_allCurrent before _ registry hstart ?_).respectsApplied
    intro pre op post hbefore
    exact hnotLate pre op (post ++ after) (by
      rw [hops, hbefore, List.append_assoc]
      rfl)
  · intro binding event
    rw [exec_append, exec_append]
    exact install_applyInvalidation_order_iff (exec step registry ops) binding event

/-- Event 1 moves the epoch of the session to 2; a binding of epoch 1 arrives after
it, is installed and resolves.  Had it arrived before the event, it would not. -/
theorem lateInstall_resolves :
    CurrentSubscribeRegistry.new sampleMedia 0 = .ok sampleRegistry
      ∧ appliedEvent sampleRegistry (.applyInvalidation (sampleEvent 1 2)) = some (sampleEvent 1 2)
      ∧ (exec step sampleRegistry
          [.applyInvalidation (sampleEvent 1 2), .install sampleBinding]).resolve
            sampleBinding.endpointId sampleBinding.mediaClass sampleBinding.bindingGeneration
          = .ok ⟨sampleBinding, 1, true⟩
      ∧ sampleBinding.sessionId = (sampleEvent 1 2).sessionId
      ∧ sampleBinding.sessionEpoch < (sampleEvent 1 2).sessionEpoch
      ∧ (exec step sampleRegistry
          [.install sampleBinding, .applyInvalidation (sampleEvent 1 2)]).resolve
            sampleBinding.endpointId sampleBinding.mediaClass sampleBinding.bindingGeneration
          = .error ⟨.revokedBinding, "subscribe_binding"⟩
      ∧ ¬RespectsApplied (ledgerAfter ⟨0, []⟩ sampleRegistry
          [.applyInvalidation (sampleEvent 1 2), .install sampleBinding])
        (exec step sampleRegistry
          [.applyInvalidation (sampleEvent 1 2), .install sampleBinding]) := by
  refine ⟨rfl, rfl, rfl, rfl, by decide, rfl, ?_⟩
  intro hrespects
  have hfresh := hrespects (sampleEvent 1 2) List.mem_cons_self sampleBinding
    ⟨sampleBinding.endpointId, sampleBinding.mediaClass, sampleBinding.bindingGeneration,
      ⟨sampleBinding, 1, true⟩, rfl, rfl⟩
  cases hfresh

end AvMesh.Subscribe.CurrentSubscribeRegistry
