/-
  AvMesh.Subscribe.Fence
  ──────────────────────
  **THE INVALIDATION-GAP FENCE.**

  Invalidations may be lost, repeated and reordered on their way to an edge.
  `Ledger` records what a run really applied since the last snapshot; it is no
  state of the program.

    • `Fenced` — the applied sequences are the consecutive ones from the boundary
      up to the last one, each once and in order,
    • `Closed` — after a gap the registry refuses everything until a snapshot,
      and the snapshot has to reach every sequence seen since (`Reaches`).
-/
import AvMesh.Subscribe.Leases

namespace AvMesh.Subscribe

open AvMesh.Lib

variable {C : MediaCrates}

/-- What was applied since the last boundary: the initial one, or that of the last
installed snapshot. -/
structure Ledger (C : MediaCrates) where
  boundary : Nat
  applied : List (SubscribeInvalidationV1 C)

namespace CurrentSubscribeRegistry

variable {r r' : CurrentSubscribeRegistry C} {op : Op C} {event : SubscribeInvalidationV1 C}
  {ledger : Ledger C}

/-! ## §1. What was applied. -/

def recordStep (ledger : Ledger C) (r : CurrentSubscribeRegistry C) (op : Op C) : Ledger C :=
  match op with
  | .installSnapshot boundarySequence _ =>
      if snapshotInstalled r op then ⟨boundarySequence, []⟩ else ledger
  | _ => { ledger with applied := ledger.applied ++ (appliedEvent r op).toList }

/-- The ledger after a run. -/
def ledgerAfter (ledger : Ledger C) (r : CurrentSubscribeRegistry C) (ops : List (Op C)) :
    Ledger C :=
  (trace step r ops).foldl (fun ledger e => recordStep ledger e.1 e.2) ledger

theorem recordStep_unchanged (hsnapshot : snapshotInstalled r op = false)
    (happlied : appliedEvent r op = none) : recordStep ledger r op = ledger := by
  unfold recordStep
  cases op with
  | installSnapshot boundarySequence bindings =>
      dsimp only
      rw [hsnapshot]
      rfl
  | install binding =>
      dsimp only
      rw [happlied, Option.toList_none, List.append_nil]
  | applyInvalidation event =>
      dsimp only
      rw [happlied, Option.toList_none, List.append_nil]

/-- The applied events are the consecutive ones after the boundary. -/
structure Fenced (ledger : Ledger C) (r : CurrentSubscribeRegistry C) : Prop where
  last : r.lastInvalidationSequence = ledger.boundary + ledger.applied.length
  applied : ledger.applied.map (·.deliverySequence)
    = List.range' (ledger.boundary + 1) ledger.applied.length

theorem Fenced.step (h : Fenced ledger r) (op : Op C) :
    Fenced (recordStep ledger r op) (CurrentSubscribeRegistry.step r op).2 := by
  have hchange := step_change r op
  generalize (CurrentSubscribeRegistry.step r op).2 = r' at hchange ⊢
  cases hchange with
  | unchanged _ hsnapshot happlied =>
      rw [recordStep_unchanged hsnapshot happlied]
      exact h
  | install binding _ _ _ =>
      rw [recordStep_unchanged rfl rfl]
      exact ⟨h.last, h.applied⟩
  | gap event _ _ hgap =>
      rw [recordStep_unchanged rfl (appliedEvent_eq_none (not_applies_of_gap hgap))]
      exact ⟨h.last, h.applied⟩
  | apply event hwell hsync hnext =>
      have happlies : Applies r event := ⟨hwell, hsync, hnext⟩
      unfold recordStep
      dsimp only
      rw [happlies.appliedEvent_eq, Option.toList_some]
      -- the event is the one after the last, which is where the ledger ends
      have hlast := h.last
      refine ⟨?_, ?_⟩
      · show event.deliverySequence = ledger.boundary + (ledger.applied ++ [event]).length
        rw [List.length_append, List.length_singleton, hnext, hlast]
        omega
      · show (ledger.applied ++ [event]).map _
          = List.range' (ledger.boundary + 1) (ledger.applied ++ [event]).length
        rw [List.map_append, h.applied, List.length_append, List.length_singleton,
          List.range'_concat, List.map_singleton, hnext, hlast]
        congr 2
        omega
  | snapshot boundarySequence bindings unique hinstalled _ _ _ =>
      -- a new boundary, with nothing applied after it
      unfold recordStep
      dsimp only
      rw [if_pos hinstalled]
      exact ⟨rfl, rfl⟩

theorem exec_fenced (ops : List (Op C)) :
    ∀ (ledger : Ledger C) (r : CurrentSubscribeRegistry C), Fenced ledger r →
      Fenced (ledgerAfter ledger r ops) (exec step r ops) := by
  induction ops with
  | nil => intro ledger r h; exact h
  | cons op ops ih =>
      intro ledger r h
      exact ih (recordStep ledger r op) _ (h.step op)

/-! ## §2. What never goes back. -/

theorem step_lastInvalidationSequence (r : CurrentSubscribeRegistry C) (op : Op C) :
    r.lastInvalidationSequence ≤ (step r op).2.lastInvalidationSequence := by
  have hchange := step_change r op
  generalize (step r op).2 = r' at hchange ⊢
  cases hchange with
  | unchanged _ _ _ => exact Nat.le_refl _
  | install binding _ _ _ => exact Nat.le_refl _
  | gap event _ _ _ => exact Nat.le_refl _
  | apply event _ _ hnext =>
      show _ ≤ event.deliverySequence
      omega
  | snapshot boundarySequence bindings unique _ _ hlast _ => exact hlast

theorem exec_lastInvalidationSequence (r : CurrentSubscribeRegistry C) (ops : List (Op C)) :
    r.lastInvalidationSequence ≤ (exec step r ops).lastInvalidationSequence := by
  refine exec_invariant step (fun s => r.lastInvalidationSequence ≤ s.lastInvalidationSequence)
    ?_ ops (Nat.le_refl _)
  intro s op hle
  exact Nat.le_trans hle (step_lastInvalidationSequence s op)

theorem acknowledgedSequence_eq_some {n : Nat} :
    r.acknowledgedSequence = some n ↔
      r.synchronized = true ∧ r.lastInvalidationSequence = n := by
  unfold acknowledgedSequence
  cases r.synchronized with
  | false => simp
  | true => simp

/-! ## §3. After a gap. -/

/-- The registry has missed an invalidation. -/
def Closed (r : CurrentSubscribeRegistry C) : Prop := r.synchronized = false

/-- The events up to `sequence` are applied, or a snapshot has to cover them. -/
def Reaches (sequence : Nat) (r : CurrentSubscribeRegistry C) : Prop :=
  sequence ≤ max r.lastInvalidationSequence r.requiredSnapshotBoundary

/-- Without a snapshot a closed registry stays closed and forgets no sequence. -/
theorem Closed.step (h : Closed r) (hsnapshot : snapshotInstalled r op = false) :
    Closed (CurrentSubscribeRegistry.step r op).2
      ∧ ∀ sequence, Reaches sequence r →
        Reaches sequence (CurrentSubscribeRegistry.step r op).2 := by
  have hchange := step_change r op
  generalize (CurrentSubscribeRegistry.step r op).2 = r' at hchange ⊢
  unfold Closed at h
  cases hchange with
  | unchanged _ _ _ => exact ⟨h, fun _ hreaches => hreaches⟩
  | install binding hsync _ _ =>
      rw [h] at hsync
      cases hsync
  | gap event _ _ _ =>
      refine ⟨rfl, ?_⟩
      intro sequence hreaches
      unfold Reaches at hreaches ⊢
      dsimp only
      omega
  | apply event _ hsync _ =>
      rw [h] at hsync
      cases hsync
  | snapshot boundarySequence bindings unique hinstalled _ _ _ =>
      rw [hsnapshot] at hinstalled
      cases hinstalled

/-- A closed registry takes note of every sequence it is shown. -/
theorem Closed.reaches_event (h : Closed r) (hwell : event.WellFormed) :
    Reaches event.deliverySequence
      (CurrentSubscribeRegistry.step r (.applyInvalidation event)).2 := by
  show Reaches _ (r.applyInvalidation event).2
  by_cases hold : event.deliverySequence ≤ r.lastInvalidationSequence
  · rw [applyInvalidation_duplicate hwell hold]
    unfold Reaches
    dsimp only
    omega
  · rw [applyInvalidation_gap hwell (Nat.lt_of_not_le hold) (.inl h)]
    unfold Reaches
    dsimp only
    omega

theorem exec_closed (ops : List (Op C)) :
    ∀ r : CurrentSubscribeRegistry C, Closed r →
      (∀ e ∈ trace step r ops, snapshotInstalled e.1 e.2 = false) →
      Closed (exec step r ops)
        ∧ (∀ sequence, Reaches sequence r → Reaches sequence (exec step r ops))
        ∧ ∀ event : SubscribeInvalidationV1 C, .applyInvalidation event ∈ ops →
          event.WellFormed → Reaches event.deliverySequence (exec step r ops) := by
  induction ops with
  | nil =>
      intro r h _
      refine ⟨h, fun _ hreaches => hreaches, ?_⟩
      intro event hevent
      cases hevent
  | cons op ops ih =>
      intro r h hsnapshot
      rw [trace_cons] at hsnapshot
      -- a sequence shown by the first operation is kept by all later ones
      obtain ⟨hclosed, hkeeps⟩ := h.step (hsnapshot (r, op) List.mem_cons_self)
      obtain ⟨hend, hmono, hseen⟩ := ih _ hclosed
        fun e he => hsnapshot e (List.mem_cons_of_mem _ he)
      rw [exec_cons]
      refine ⟨hend, fun sequence hreaches => hmono sequence (hkeeps sequence hreaches), ?_⟩
      intro event hevent hwell
      rcases List.mem_cons.mp hevent with hfirst | hlater
      · rw [← hfirst] at hmono ⊢
        exact hmono _ (h.reaches_event hwell)
      · exact hseen event hlater hwell

/-- Everything that needs the invalidations fails. -/
structure Refuses (r : CurrentSubscribeRegistry C) : Prop where
  install : ∀ binding, r.install binding = (.error gapError, r)
  resolve : ∀ endpointId mediaClass bindingGeneration,
    r.resolve endpointId mediaClass bindingGeneration = .error gapError
  revalidate : ∀ lease, r.revalidate lease = .error gapError

theorem Closed.refuses (h : Closed r) : Refuses r := by
  have hsync : r.synchronized = false := h
  have hresolve : ∀ endpointId mediaClass bindingGeneration,
      r.resolve endpointId mediaClass bindingGeneration = .error gapError := by
    intro endpointId mediaClass bindingGeneration
    unfold CurrentSubscribeRegistry.resolve
    rw [if_pos hsync]
  refine ⟨?_, hresolve, ?_⟩
  · intro binding
    unfold CurrentSubscribeRegistry.install
    rw [if_pos hsync]
  · intro lease
    unfold CurrentSubscribeRegistry.revalidate
    rw [hresolve]

/-- A snapshot that is installed is not behind. -/
theorem snapshotInstalled_reaches {boundarySequence : Nat}
    {bindings : List (CurrentSubscribeBinding C)}
    (h : snapshotInstalled r (.installSnapshot boundarySequence bindings) = true) :
    r.lastInvalidationSequence ≤ boundarySequence
      ∧ r.requiredSnapshotBoundary ≤ boundarySequence := by
  rcases installSnapshot_cases r boundarySequence bindings with
    ⟨hnot, _⟩ | ⟨_, _, _, hlast, hrequired, _⟩
  · rw [h] at hnot
    cases hnot
  · exact ⟨hlast, hrequired⟩

/-- **From an event beyond the next one until a snapshot** everything is refused, and
a snapshot is accepted only at a boundary that reaches every event shown since. -/
theorem exec_after_gap (hwell : event.WellFormed)
    (hbeyond : r.lastInvalidationSequence + 1 < event.deliverySequence) (after : List (Op C))
    (hsnapshot : ∀ e ∈ trace step (step r (.applyInvalidation event)).2 after,
      snapshotInstalled e.1 e.2 = false) :
    Refuses (exec step r (.applyInvalidation event :: after))
      ∧ ∀ boundarySequence bindings,
        snapshotInstalled (exec step r (.applyInvalidation event :: after))
          (.installSnapshot boundarySequence bindings) = true →
        ∀ seen : SubscribeInvalidationV1 C,
          .applyInvalidation seen ∈ .applyInvalidation event :: after → seen.WellFormed →
          seen.deliverySequence ≤ boundarySequence := by
  have hgap := applyInvalidation_gap (r := r) hwell (by omega) (.inr (by omega))
  have hclosed : Closed (step r (.applyInvalidation event)).2 := by
    show Closed (r.applyInvalidation event).2
    rw [hgap]
    rfl
  -- the event that shows the gap is itself the first sequence to reach
  have hfirst : Reaches event.deliverySequence (step r (.applyInvalidation event)).2 := by
    show Reaches event.deliverySequence (r.applyInvalidation event).2
    rw [hgap]
    unfold Reaches
    dsimp only
    omega
  obtain ⟨hend, hmono, hseen⟩ := exec_closed after _ hclosed hsnapshot
  refine ⟨hend.refuses, ?_⟩
  intro boundarySequence bindings hinstalled seen hmem hseenWell
  obtain ⟨hlast, hrequired⟩ := snapshotInstalled_reaches hinstalled
  have hreaches : Reaches seen.deliverySequence
      (exec step r (.applyInvalidation event :: after)) := by
    rcases List.mem_cons.mp hmem with hsame | hlater
    · cases hsame
      exact hmono _ hfirst
    · exact hseen seen hlater hseenWell
  unfold Reaches at hreaches
  omega

/-! ## §4. Every run. -/

/-- **THE GAP FENCE.**  In every run from a new registry, whatever invalidations it
is shown:

    • the acknowledged sequence never decreases,
    • the events applied since the last boundary are the consecutive ones up to the
      last sequence, which is the acknowledged one,
    • an event at or below the last sequence is a duplicate and changes nothing,
    • after an event beyond the next one everything is refused until a snapshot is
      installed,
    • an installed snapshot reaches the last sequence, and every sequence seen since
      the gap. -/
theorem exec_gap_fence {initialBoundary : Nat} {registry : CurrentSubscribeRegistry C}
    (h : CurrentSubscribeRegistry.new C initialBoundary = .ok registry) :
    (∀ (before after : List (Op C)) (n m : Nat),
      (exec step registry before).acknowledgedSequence = some n →
      (exec step registry (before ++ after)).acknowledgedSequence = some m → n ≤ m)
    ∧ (∀ ops : List (Op C),
      Fenced (ledgerAfter ⟨initialBoundary, []⟩ registry ops) (exec step registry ops)
        ∧ ∀ n, (exec step registry ops).acknowledgedSequence = some n →
          n = (exec step registry ops).lastInvalidationSequence)
    ∧ (∀ (ops : List (Op C)) (event : SubscribeInvalidationV1 C), event.WellFormed →
      event.deliverySequence ≤ (exec step registry ops).lastInvalidationSequence →
      (exec step registry ops).applyInvalidation event = (.ok .duplicate, exec step registry ops))
    ∧ (∀ (before after : List (Op C)) (event : SubscribeInvalidationV1 C), event.WellFormed →
      (exec step registry before).lastInvalidationSequence + 1 < event.deliverySequence →
      (∀ e ∈ trace step (exec step registry (before ++ [.applyInvalidation event])) after,
        snapshotInstalled e.1 e.2 = false) →
      Refuses (exec step registry (before ++ .applyInvalidation event :: after))
        ∧ ∀ boundarySequence bindings,
          snapshotInstalled (exec step registry (before ++ .applyInvalidation event :: after))
            (.installSnapshot boundarySequence bindings) = true →
          ∀ seen : SubscribeInvalidationV1 C,
            .applyInvalidation seen ∈ .applyInvalidation event :: after → seen.WellFormed →
            seen.deliverySequence ≤ boundarySequence)
    ∧ (∀ (ops : List (Op C)) (boundarySequence : Nat)
        (bindings : List (CurrentSubscribeBinding C)),
      snapshotInstalled (exec step registry ops) (.installSnapshot boundarySequence bindings)
        = true →
      (exec step registry ops).lastInvalidationSequence ≤ boundarySequence) := by
  refine ⟨?_, ?_, ?_, ?_, ?_⟩
  · intro before after n m hbefore hafter
    obtain ⟨_, hn⟩ := acknowledgedSequence_eq_some.mp hbefore
    obtain ⟨_, hm⟩ := acknowledgedSequence_eq_some.mp hafter
    have hle := exec_lastInvalidationSequence (exec step registry before) after
    rw [← exec_append] at hle
    omega
  · intro ops
    refine ⟨exec_fenced ops _ registry ?_, ?_⟩
    · obtain ⟨_, hregistry⟩ := new_eq_ok h
      rw [hregistry]
      exact ⟨rfl, rfl⟩
    · intro n hn
      exact (acknowledgedSequence_eq_some.mp hn).2.symm
  · intro ops event hwell hold
    exact applyInvalidation_duplicate hwell hold
  · intro before after event hwell hbeyond hsnapshot
    rw [exec_append] at hsnapshot
    rw [exec_append]
    exact exec_after_gap hwell hbeyond after hsnapshot
  · intro ops boundarySequence bindings hinstalled
    exact (snapshotInstalled_reaches hinstalled).1

/-- Event 1 is applied, event 3 shows that event 2 was missed, and event 2, when it
comes, no longer helps. -/
theorem exec_gap_fence_lateEvent :
    CurrentSubscribeRegistry.new sampleMedia 0 = .ok sampleRegistry
      ∧ (exec step sampleRegistry
          [.applyInvalidation (sampleEvent 1 1)]).lastInvalidationSequence + 1 < 3
      ∧ Refuses (exec step sampleRegistry ([.applyInvalidation (sampleEvent 1 1)]
          ++ .applyInvalidation (sampleEvent 3 2) :: [.applyInvalidation (sampleEvent 2 2)])) := by
  have hnew : CurrentSubscribeRegistry.new sampleMedia 0 = .ok sampleRegistry := rfl
  have hbeyond : (exec step sampleRegistry
      [.applyInvalidation (sampleEvent 1 1)]).lastInvalidationSequence + 1 < 3 := by decide
  refine ⟨hnew, hbeyond, ?_⟩
  refine ((exec_gap_fence hnew).2.2.2.1 _ _ (sampleEvent 3 2) (by decide) hbeyond ?_).1
  intro e he
  rw [List.mem_singleton.mp he]
  rfl

end CurrentSubscribeRegistry

end AvMesh.Subscribe
