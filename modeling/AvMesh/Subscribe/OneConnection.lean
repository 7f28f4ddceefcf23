/-
  AvMesh.Subscribe.OneConnection
  ──────────────────────────────
  **ONE CAPABILITY, ONE CONNECTION.**

  `Ordered` is the invariant of the edge and its journal, over every
  interleaving of the calls.  Its heart is `held`: a call that was admitted and
  has not failed still holds the id with its fingerprint, unless some check came
  at or after an expiry that had been reported for the id, which prunes it.
  A check that comes before all of these expiries finds the id held, and so is
  admitted only for the connection that was admitted before (`Agreed`).
-/
import AvMesh.Subscribe.Admissions

namespace AvMesh.Subscribe

open AvMesh.Lib

variable {C : MediaCrates}

namespace Journal

open EdgeState (Op)

/-! ## §1. The invariant. -/

/-- A call with the reservation id waits for the verifier. -/
def InFlight (calls : Table Nat (AuthorizeCall C)) (reservationId : Nat) : Prop :=
  ∃ call entry, calls.lookup call = some entry ∧ entry.guard.reservationId = reservationId

/-- The call with the reservation id has not failed. -/
def Live (calls : Table Nat (AuthorizeCall C)) (grants : List (Nat × SubscriptionLease C))
    (reservationId : Nat) : Prop :=
  InFlight calls reservationId ∨ ∃ lease, (reservationId, lease) ∈ grants

/-- Some check came at or after an expiry that was reported for the id. -/
def Lapsed (checks : List Check) (id : String) : Prop :=
  ∃ report ∈ checks, report.admitted = true ∧ report.admission.capabilityId = id ∧
    ∃ check ∈ checks, report.admission.expiresAt ≤ check.now

/-- The check came before every expiry that was reported for its id. -/
def InTime (before : List Check) (check : Check) : Prop :=
  ∀ report ∈ before, report.admitted = true →
    report.admission.capabilityId = check.admission.capabilityId →
    check.now < report.admission.expiresAt

/-- The calls in flight and the leases granted, against the record of the checks. -/
structure Tracked (calls : Table Nat (AuthorizeCall C)) (reserved : List Nat)
    (checks : List Check) (grants : List (Nat × SubscriptionLease C)) : Prop where
  taken : ∀ call entry, calls.lookup call = some entry → entry.guard.reservationId ∈ reserved
  checked : ∀ check ∈ checks, check.reservationId ∈ reserved
  distinct : ∀ call call' entry entry', calls.lookup call = some entry →
    calls.lookup call' = some entry' →
    entry.guard.reservationId = entry'.guard.reservationId → call = call'
  request : ∀ call entry, calls.lookup call = some entry →
    entry.guard.fingerprint = ⟨C.endpointStr entry.registered.binding.endpointId,
      entry.registered.binding.mediaClass, entry.registered.binding.bindingGeneration,
      entry.request.connectionId⟩ ∧
    entry.guard.now = entry.request.nowUnixSeconds
  guards : ∀ check ∈ checks, ∀ call entry, calls.lookup call = some entry →
    check.reservationId = entry.guard.reservationId →
    check.fingerprint = entry.guard.fingerprint ∧ check.now = entry.guard.now
  reports : ∀ check ∈ checks, ∀ check' ∈ checks,
    check.reservationId = check'.reservationId → check.admission = check'.admission
  reservation : ∀ call entry id, calls.lookup call = some entry →
    entry.guard.pendingCapabilityId = some id → ∃ check ∈ checks,
      check.reservationId = entry.guard.reservationId ∧ check.admission.capabilityId = id
  granted : ∀ grant ∈ grants, ¬ InFlight calls grant.1 ∧
    (∃ check ∈ checks, check.reservationId = grant.1 ∧ check.admitted = true ∧
      check.admission = ⟨grant.2.capabilityId, grant.2.expiresAt⟩) ∧
    ∀ check ∈ checks, check.reservationId = grant.1 →
      check.fingerprint = grant.2.fingerprint ∧ check.now < grant.2.expiresAt

/-- The stored admissions, against the calls and the record. -/
structure Stored (admissions : Admissions) (calls : Table Nat (AuthorizeCall C))
    (checks : List Check) (grants : List (Nat × SubscriptionLease C)) : Prop where
  pending : ∀ id stored reservationId, admissions.lookup id = some stored →
    stored.state = .pending reservationId → ∃ call entry, calls.lookup call = some entry ∧
      entry.guard.reservationId = reservationId ∧ entry.guard.pendingCapabilityId = some id ∧
      stored.fingerprint = entry.guard.fingerprint
  committed : ∀ id stored, admissions.lookup id = some stored → stored.state = .committed →
    ∃ grant ∈ grants, grant.2.capabilityId = id ∧ grant.2.fingerprint = stored.fingerprint
  expiry : ∀ id stored, admissions.lookup id = some stored →
    ∃ check ∈ checks, check.admitted = true ∧ check.admission = ⟨id, stored.expiresAt⟩
  held : ∀ check ∈ checks, check.admitted = true → Live calls grants check.reservationId →
    Lapsed checks check.admission.capabilityId ∨
    ∃ stored, admissions.lookup check.admission.capabilityId = some stored ∧
      stored.fingerprint = check.fingerprint ∧
      (stored.state = .committed ∨ stored.state = .pending check.reservationId)

/-- A check in time is of the connection that was admitted before. -/
def Agreed (checks : List Check) (live : Nat → Prop) : Prop :=
  ∀ before check after, checks = before ++ check :: after → check.admitted = true →
    live check.reservationId → InTime before check →
    ∀ earlier ∈ before, earlier.admitted = true → live earlier.reservationId →
      earlier.admission.capabilityId = check.admission.capabilityId →
      earlier.fingerprint = check.fingerprint

structure Ordered (J : Journal C) : Prop where
  tracked : Tracked J.edge.calls J.reserved J.checks J.grants
  stored : Stored J.edge.gate.admissions J.edge.calls J.checks J.grants
  agreed : Agreed J.checks (Live J.edge.calls J.grants)

theorem start_ordered (registry : CurrentSubscribeRegistry C) : Ordered (start registry) where
  tracked := by
    have hnone : ∀ call entry, (start registry).edge.calls.lookup call ≠ some entry := by
      intro call entry h
      change (∅ : Table Nat (AuthorizeCall C)).lookup call = some entry at h
      rw [AList.lookup_empty] at h
      cases h
    exact ⟨fun call entry h => absurd h (hnone call entry), nofun,
      fun call _ entry _ h => absurd h (hnone call entry),
      fun call entry h => absurd h (hnone call entry), nofun, nofun,
      fun call entry _ h => absurd h (hnone call entry), nofun⟩
  stored := by
    have hnone : ∀ id stored, (start registry).edge.gate.admissions.lookup id ≠ some stored := by
      intro id stored h
      change (∅ : Admissions).lookup id = some stored at h
      rw [AList.lookup_empty] at h
      cases h
    exact ⟨fun id stored _ h => absurd h (hnone id stored),
      fun id stored h => absurd h (hnone id stored),
      fun id stored h => absurd h (hnone id stored), nofun⟩
  agreed := by
    intro before check after hsplit
    cases before <;> cases hsplit

section Preservation

variable {calls : Table Nat (AuthorizeCall C)} {reserved : List Nat} {checks : List Check}
  {grants : List (Nat × SubscriptionLease C)} {admissions admissions' : Admissions} {call : Nat}
  {entry : AuthorizeCall C}

theorem Agreed.mono {live live' : Nat → Prop} (h : Agreed checks live)
    (hlive : ∀ check ∈ checks, live' check.reservationId → live check.reservationId) :
    Agreed checks live' := by
  intro before check after hsplit hadmitted hcheck hintime earlier hearlier hadmitted' hlive' hid
  have hmem : ∀ k, k ∈ before ∨ k = check → k ∈ checks := by
    rintro k (hk | rfl)
    · rw [hsplit]
      exact List.mem_append_left _ hk
    · rw [hsplit]
      exact List.mem_append_right _ List.mem_cons_self
  exact h before check after hsplit hadmitted (hlive check (hmem _ (.inr rfl)) hcheck) hintime
    earlier hearlier hadmitted' (hlive earlier (hmem _ (.inl hearlier)) hlive') hid

theorem Lapsed.append {id : String} (h : Lapsed checks id) (check : Check) :
    Lapsed (checks ++ [check]) id := by
  obtain ⟨report, hreport, hadmitted, hid, late, hlate, hle⟩ := h
  exact ⟨report, List.mem_append_left _ hreport, hadmitted, hid, late,
    List.mem_append_left _ hlate, hle⟩

theorem notInFlight_of_notMem (h : Tracked calls reserved checks grants) {reservationId : Nat}
    (hnew : reservationId ∉ reserved) : ¬ InFlight calls reservationId := by
  rintro ⟨call, entry, hentry, rfl⟩
  exact hnew (h.taken call entry hentry)

theorem inFlight_insert {reservationId : Nat}
    (h : InFlight (calls.insert call entry) reservationId) :
    reservationId = entry.guard.reservationId ∨ InFlight calls reservationId := by
  obtain ⟨other, found, hfound, rfl⟩ := h
  rcases AList.lookup_of_insert hfound with ⟨rfl, rfl⟩ | ⟨-, hold⟩
  · exact .inl rfl
  · exact .inr ⟨other, found, hold, rfl⟩

theorem Tracked.begun (h : Tracked calls reserved checks grants)
    (hnew : entry.guard.reservationId ∉ reserved) (hnone : entry.guard.pendingCapabilityId = none)
    (hrequest : entry.guard.fingerprint = ⟨C.endpointStr entry.registered.binding.endpointId,
        entry.registered.binding.mediaClass, entry.registered.binding.bindingGeneration,
        entry.request.connectionId⟩ ∧
      entry.guard.now = entry.request.nowUnixSeconds) :
    Tracked (calls.insert call entry) (reserved ++ [entry.guard.reservationId]) checks grants := by
  have hfresh : ∀ other found, calls.lookup other = some found →
      found.guard.reservationId ≠ entry.guard.reservationId := by
    intro other found hfound hsame
    exact notInFlight_of_notMem h hnew ⟨other, found, hfound, hsame⟩
  constructor
  case taken =>
    intro other found hfound
    rcases AList.lookup_of_insert hfound with ⟨-, rfl⟩ | ⟨-, hold⟩
    · simp
    · exact List.mem_append_left _ (h.taken other found hold)
  case checked =>
    intro check hcheck
    exact List.mem_append_left _ (h.checked check hcheck)
  case distinct =>
    intro other other' found found' hfound hfound' hsame
    rcases AList.lookup_of_insert hfound with ⟨rfl, rfl⟩ | ⟨-, hold⟩
    · rcases AList.lookup_of_insert hfound' with ⟨rfl, -⟩ | ⟨-, hold'⟩
      · rfl
      · exact absurd hsame.symm (hfresh other' found' hold')
    · rcases AList.lookup_of_insert hfound' with ⟨rfl, rfl⟩ | ⟨-, hold'⟩
      · exact absurd hsame (hfresh other found hold)
      · exact h.distinct other other' found found' hold hold' hsame
  case request =>
    intro other found hfound
    rcases AList.lookup_of_insert hfound with ⟨-, rfl⟩ | ⟨-, hold⟩
    · exact hrequest
    · exact h.request other found hold
  case guards =>
    intro check hcheck other found hfound hsame
    rcases AList.lookup_of_insert hfound with ⟨-, rfl⟩ | ⟨-, hold⟩
    · exact absurd (hsame ▸ h.checked check hcheck) hnew
    · exact h.guards check hcheck other found hold hsame
  case reports => exact h.reports
  case reservation =>
    intro other found id hfound hid
    rcases AList.lookup_of_insert hfound with ⟨-, rfl⟩ | ⟨-, hold⟩
    · cases hnone.symm.trans hid
    · exact h.reservation other found id hold hid
  case granted =>
    intro grant hgrant
    obtain ⟨hdone, ⟨check, hcheck, hid, hreport⟩, hall⟩ := h.granted grant hgrant
    refine ⟨fun hflight => ?_, ⟨check, hcheck, hid, hreport⟩, hall⟩
    rcases inFlight_insert hflight with hsame | hold
    · rw [← hsame, ← hid] at hnew
      exact hnew (h.checked check hcheck)
    · exact hdone hold

theorem Stored.begun (h : Stored admissions calls checks grants)
    (htracked : Tracked calls reserved checks grants) (hfree : call ∉ calls)
    (hnew : entry.guard.reservationId ∉ reserved) :
    Stored admissions (calls.insert call entry) checks grants := by
  constructor
  case pending =>
    intro id stored reservationId hstored hpending
    obtain ⟨other, found, hfound, hrest⟩ := h.pending id stored reservationId hstored hpending
    refine ⟨other, found, ?_, hrest⟩
    rw [AList.lookup_insert_ne]
    · exact hfound
    · rintro rfl
      exact hfree (AList.mem_of_lookup hfound)
  case committed => exact h.committed
  case expiry => exact h.expiry
  case held =>
    intro check hcheck hadmitted hlive
    refine h.held check hcheck hadmitted (hlive.imp_left fun hflight => ?_)
    rcases inFlight_insert hflight with hsame | hold
    · exact absurd (hsame ▸ htracked.checked check hcheck) hnew
    · exact hold

section Check

variable {admission : ReplayAdmissionV1} {result : Except ReplayAdmissionRejection Unit}
  {guard : SubscribeAdmissionGuard}

/-- A check leaves the guard the guard of its call. -/
theorem guard_same (hchecked : entry.guard.Checked admissions admission result guard admissions') :
    guard.reservationId = entry.guard.reservationId ∧
    guard.fingerprint = entry.guard.fingerprint ∧ guard.now = entry.guard.now := by
  rcases hchecked.reservation with rfl | ⟨-, rfl⟩
  · exact ⟨rfl, rfl, rfl⟩
  · exact ⟨rfl, rfl, rfl⟩

/-- The calls after a check, each with the guard it had before. -/
theorem lookup_checked {other : Nat} {found : AuthorizeCall C}
    (hentry : calls.lookup call = some entry)
    (hchecked : entry.guard.Checked admissions admission result guard admissions')
    (hfound : (calls.replace call { entry with guard }).lookup other = some found) :
    ∃ before, calls.lookup other = some before ∧ found.request = before.request ∧
      found.registered = before.registered ∧
      found.guard.reservationId = before.guard.reservationId ∧
      found.guard.fingerprint = before.guard.fingerprint ∧ found.guard.now = before.guard.now ∧
      (found = before ∨ (other = call ∧ before = entry ∧ found.guard = guard)) := by
  rcases AList.lookup_of_replace hentry hfound with ⟨rfl, rfl⟩ | ⟨-, hold⟩
  · obtain ⟨hid, hfingerprint, hnow⟩ := guard_same hchecked
    exact ⟨entry, hentry, rfl, rfl, hid, hfingerprint, hnow, .inr ⟨rfl, rfl, rfl⟩⟩
  · exact ⟨found, hold, rfl, rfl, rfl, rfl, rfl, .inl rfl⟩

theorem inFlight_checked {reservationId : Nat} (hentry : calls.lookup call = some entry)
    (hchecked : entry.guard.Checked admissions admission result guard admissions')
    (h : InFlight (calls.replace call { entry with guard }) reservationId) :
    InFlight calls reservationId := by
  obtain ⟨other, found, hfound, rfl⟩ := h
  obtain ⟨before, hbefore, -, -, hid, -⟩ := lookup_checked hentry hchecked hfound
  exact ⟨other, before, hbefore, hid.symm⟩

theorem Tracked.check (h : Tracked calls reserved checks grants)
    (hentry : calls.lookup call = some entry)
    (hchecked : entry.guard.Checked admissions admission result guard admissions')
    (hreport : ∀ check ∈ checks, check.reservationId = entry.guard.reservationId →
      check.admission = admission) :
    Tracked (calls.replace call { entry with guard }) reserved
      (checks ++ [checkOf entry.guard admission result]) grants := by
  constructor
  case taken =>
    intro other found hfound
    obtain ⟨before, hbefore, -, -, hid, -⟩ := lookup_checked hentry hchecked hfound
    rw [hid]
    exact h.taken other before hbefore
  case checked =>
    intro check hcheck
    rcases List.mem_append.mp hcheck with hcheck | hcheck
    · exact h.checked check hcheck
    · rw [List.mem_singleton.mp hcheck]
      exact h.taken call entry hentry
  case distinct =>
    intro other other' found found' hfound hfound' hsame
    obtain ⟨before, hbefore, -, -, hid, -⟩ := lookup_checked hentry hchecked hfound
    obtain ⟨before', hbefore', -, -, hid', -⟩ := lookup_checked hentry hchecked hfound'
    rw [hid, hid'] at hsame
    exact h.distinct other other' before before' hbefore hbefore' hsame
  case request =>
    intro other found hfound
    obtain ⟨before, hbefore, hrequest, hregistered, -, hfingerprint, hnow, -⟩ :=
      lookup_checked hentry hchecked hfound
    rw [hfingerprint, hnow, hrequest, hregistered]
    exact h.request other before hbefore
  case guards =>
    intro check hcheck other found hfound hsame
    obtain ⟨before, hbefore, -, -, hid, hfingerprint, hnow, -⟩ :=
      lookup_checked hentry hchecked hfound
    rw [hfingerprint, hnow]
    rw [hid] at hsame
    rcases List.mem_append.mp hcheck with hcheck | hcheck
    · exact h.guards check hcheck other before hbefore hsame
    · rw [List.mem_singleton.mp hcheck] at hsame ⊢
      cases h.distinct call other entry before hentry hbefore hsame
      cases hentry.symm.trans hbefore
      exact ⟨rfl, rfl⟩
  case reports =>
    intro check hcheck check' hcheck' hsame
    rcases List.mem_append.mp hcheck with hcheck | hcheck
    · rcases List.mem_append.mp hcheck' with hcheck' | hcheck'
      · exact h.reports check hcheck check' hcheck' hsame
      · rw [List.mem_singleton.mp hcheck'] at hsame ⊢
        exact hreport check hcheck hsame
    · rcases List.mem_append.mp hcheck' with hcheck' | hcheck'
      · rw [List.mem_singleton.mp hcheck] at hsame ⊢
        exact (hreport check' hcheck' hsame.symm).symm
      · rw [List.mem_singleton.mp hcheck, List.mem_singleton.mp hcheck']
  case reservation =>
    intro other found id hfound hid
    obtain ⟨before, hbefore, -, -, hreserved, -, -, hguard⟩ :=
      lookup_checked hentry hchecked hfound
    have hold : before.guard.pendingCapabilityId = some id → ∃ check ∈ checks ++
        [checkOf entry.guard admission result],
        check.reservationId = found.guard.reservationId ∧ check.admission.capabilityId = id := by
      intro hpending
      obtain ⟨check, hcheck, hsame, hcapability⟩ := h.reservation other before id hbefore hpending
      exact ⟨check, List.mem_append_left _ hcheck, hsame.trans hreserved.symm, hcapability⟩
    rcases hguard with rfl | ⟨-, rfl, hguard⟩
    · exact hold hid
    · rcases hchecked.reservation with rfl | ⟨-, rfl⟩
      · exact hold (hguard ▸ hid)
      · -- the new reservation is for the id of this check
        rw [hguard] at hid
        exact ⟨checkOf before.guard admission result, by simp, hreserved.symm, Option.some.inj hid⟩
  case granted =>
    intro grant hgrant
    obtain ⟨hdone, ⟨check, hcheck, hreport⟩, hall⟩ := h.granted grant hgrant
    refine ⟨fun hflight => hdone (inFlight_checked hentry hchecked hflight),
      ⟨check, List.mem_append_left _ hcheck, hreport⟩, ?_⟩
    intro check hcheck hsame
    rcases List.mem_append.mp hcheck with hcheck | hcheck
    · exact hall check hcheck hsame
    · rw [List.mem_singleton.mp hcheck] at hsame
      exact absurd ⟨call, entry, hentry, hsame⟩ hdone

/-- What a reservation of the guard was for is what the verifier reports. -/
theorem Tracked.reservation_eq (h : Tracked calls reserved checks grants)
    (hentry : calls.lookup call = some entry)
    (hreport : ∀ check ∈ checks, check.reservationId = entry.guard.reservationId →
      check.admission = admission) {id : String}
    (hid : entry.guard.pendingCapabilityId = some id) : id = admission.capabilityId := by
  obtain ⟨check, hcheck, hsame, rfl⟩ := h.reservation call entry id hentry hid
  rw [hreport check hcheck hsame]

theorem Stored.check (h : Stored admissions calls checks grants)
    (htracked : Tracked calls reserved checks grants) (hentry : calls.lookup call = some entry)
    (hchecked : entry.guard.Checked admissions admission result guard admissions')
    (hreport : ∀ check ∈ checks, check.reservationId = entry.guard.reservationId →
      check.admission = admission) :
    Stored admissions' (calls.replace call { entry with guard })
      (checks ++ [checkOf entry.guard admission result]) grants := by
  obtain ⟨hguardId, hguardFingerprint, hguardNow⟩ := guard_same hchecked
  have hself := AList.lookup_replace_self { entry with guard } hentry
  constructor
  case pending =>
    intro id stored reservationId hstored hpending
    rcases hchecked.origin id stored hstored with
      ⟨hold, -⟩ | ⟨-, rfl, hfingerprint, -, ⟨hstate, hid⟩ | ⟨hstate, -⟩⟩
    · obtain ⟨other, found, hfound, hid, hcapability, hfingerprint⟩ :=
        h.pending id stored reservationId hold hpending
      by_cases hcall : other = call
      · -- the guard's own reservation: a further check reports the same id
        subst hcall
        cases hentry.symm.trans hfound
        refine ⟨other, _, hself, hguardId.trans hid, ?_, hfingerprint.trans hguardFingerprint.symm⟩
        rcases hchecked.reservation with rfl | ⟨-, rfl⟩
        · exact hcapability
        · rw [htracked.reservation_eq hentry hreport hcapability]
      · refine ⟨other, found, ?_, hid, hcapability, hfingerprint⟩
        rw [AList.lookup_replace_ne _ _ hcall]
        exact hfound
    · rw [hstate] at hpending
      cases hpending
      exact ⟨call, _, hself, hguardId, hid, hfingerprint.trans hguardFingerprint.symm⟩
    · rw [hstate] at hpending
      cases hpending
  case committed =>
    intro id stored hstored hcommitted
    rcases hchecked.origin id stored hstored with
      ⟨hold, -⟩ | ⟨-, -, hfingerprint, -, ⟨hstate, -⟩ | ⟨-, before, hbefore, hsame, hstate⟩⟩
    · exact h.committed id stored hold hcommitted
    · rw [hstate] at hcommitted
      cases hcommitted
    · obtain ⟨grant, hgrant, hid, hlease⟩ := h.committed id before hbefore hstate
      exact ⟨grant, hgrant, hid, hlease.trans (hsame.trans hfingerprint.symm)⟩
  case expiry =>
    intro id stored hstored
    rcases hchecked.origin id stored hstored with ⟨hold, -⟩ | ⟨hok, rfl, -, hexpires, -⟩
    · obtain ⟨check, hcheck, hrest⟩ := h.expiry id stored hold
      exact ⟨check, List.mem_append_left _ hcheck, hrest⟩
    · refine ⟨checkOf entry.guard admission result, by simp, ?_, ?_⟩
      · rw [hok]
        rfl
      · rw [hexpires]
        rfl
  case held =>
    intro check hcheck hadmitted hlive
    rcases List.mem_append.mp hcheck with hcheck | hcheck
    · have hlive' : Live calls grants check.reservationId :=
        hlive.imp_left (inFlight_checked hentry hchecked)
      rcases h.held check hcheck hadmitted hlive' with hlapsed | ⟨stored, hstored, hown⟩
      · exact .inl (hlapsed.append _)
      · by_cases hnow : entry.guard.now < stored.expiresAt
        · refine .inr ?_
          rcases hchecked.kept _ stored hstored hnow with hkept | ⟨-, -, hstate, hkept⟩
          · exact ⟨stored, hkept, hown⟩
          · exact ⟨_, hkept, hown.1, .inl hstate⟩
        · -- the check prunes it: some report of the id expired by now
          obtain ⟨report, hmem, hreported, hadmission⟩ := h.expiry _ stored hstored
          refine .inl ⟨report, List.mem_append_left _ hmem, hreported, ?_,
            checkOf entry.guard admission result, by simp, ?_⟩
          · rw [hadmission]
          · rw [hadmission]
            exact Int.not_lt.mp hnow
    · rw [List.mem_singleton.mp hcheck] at hadmitted ⊢
      have hok : result = .ok () := by
        cases result with
        | error _ => cases hadmitted
        | ok _ => rfl
      exact .inr (hchecked.admitted hok).2

theorem Agreed.check (h : Agreed checks (Live calls grants))
    (hstored : Stored admissions calls checks grants) (hentry : calls.lookup call = some entry)
    (hchecked : entry.guard.Checked admissions admission result guard admissions')
    (hnow : ∀ check ∈ checks, check.now ≤ entry.guard.now) :
    Agreed (checks ++ [checkOf entry.guard admission result])
      (Live (calls.replace call { entry with guard }) grants) := by
  have hlive : ∀ reservationId, Live (calls.replace call { entry with guard }) grants reservationId →
      Live calls grants reservationId :=
    fun _ hlive => hlive.imp_left (inFlight_checked hentry hchecked)
  intro before check after hsplit hadmitted hcheck hintime earlier hearlier hadmitted' hlive' hid
  rcases split_of_append_singleton hsplit with ⟨rfl, rfl⟩ | ⟨after', hold, -⟩
  · have hok : result = .ok () := by
      cases result with
      | error _ => cases hadmitted
      | ok _ => rfl
    rcases hstored.held earlier hearlier hadmitted' (hlive _ hlive') with
      ⟨report, hreport, hreported, hsame, late, hlate, hle⟩ | ⟨stored, hfound, hown, -⟩
    · -- an expiry had passed before this check, so it is not in time
      have hbefore := hintime report hreport hreported (hsame.trans hid)
      have hafter := hnow late hlate
      change entry.guard.now < report.admission.expiresAt at hbefore
      omega
    · obtain ⟨report, hreport, hreported, hadmission⟩ := hstored.expiry _ stored hfound
      have hunexpired : entry.guard.now < stored.expiresAt := by
        have hbefore := hintime report hreport hreported (by rw [hadmission]; exact hid)
        rw [hadmission] at hbefore
        exact hbefore
      rw [hid] at hfound
      exact hown.symm.trans ((hchecked.admitted hok).1 stored hfound hunexpired)
  · exact h before check after' hold hadmitted (hlive _ hcheck) hintime earlier hearlier hadmitted'
      (hlive _ hlive') hid

end Check

/-! ### Calls that finish. -/

theorem inFlight_erase (h : Tracked calls reserved checks grants)
    (hentry : calls.lookup call = some entry) {reservationId : Nat}
    (hflight : InFlight (calls.erase call) reservationId) :
    InFlight calls reservationId ∧ reservationId ≠ entry.guard.reservationId := by
  obtain ⟨other, found, hfound, rfl⟩ := hflight
  obtain ⟨hne, hold⟩ := AList.lookup_of_erase hfound
  exact ⟨⟨other, found, hold, rfl⟩, fun hsame => hne (h.distinct other call _ _ hold hentry hsame)⟩

theorem Tracked.finish (h : Tracked calls reserved checks grants)
    (hentry : calls.lookup call = some entry) :
    Tracked (calls.erase call) reserved checks grants := by
  have hold : ∀ other found, (calls.erase call).lookup other = some found →
      calls.lookup other = some found := fun _ _ hfound => (AList.lookup_of_erase hfound).2
  constructor
  case taken =>
    intro other found hfound
    exact h.taken other found (hold other found hfound)
  case checked => exact h.checked
  case distinct =>
    intro other other' found found' hfound hfound'
    exact h.distinct other other' found found' (hold _ _ hfound) (hold _ _ hfound')
  case request =>
    intro other found hfound
    exact h.request other found (hold other found hfound)
  case guards =>
    intro check hcheck other found hfound
    exact h.guards check hcheck other found (hold other found hfound)
  case reports => exact h.reports
  case reservation =>
    intro other found id hfound
    exact h.reservation other found id (hold other found hfound)
  case granted =>
    intro grant hgrant
    obtain ⟨hdone, hrest⟩ := h.granted grant hgrant
    exact ⟨fun hflight => hdone (inFlight_erase h hentry hflight).1, hrest⟩

theorem Tracked.grant (h : Tracked calls reserved checks grants)
    (hentry : calls.lookup call = some entry) {verified : VerifiedSubscribeCapability C}
    (hlive : entry.request.nowUnixSeconds < verified.expiresAt)
    (hreported : ∃ check ∈ checks, check.reservationId = entry.guard.reservationId ∧
      check.admitted = true ∧ check.admission = ⟨verified.capabilityId, verified.expiresAt⟩) :
    Tracked (calls.erase call) reserved checks
      (grants ++ [(entry.guard.reservationId, EdgeSubscribeGate.leaseFor entry verified)]) := by
  have hfinished := h.finish hentry
  refine ⟨hfinished.taken, hfinished.checked, hfinished.distinct, hfinished.request,
    hfinished.guards, hfinished.reports, hfinished.reservation, ?_⟩
  intro grant hgrant
  rcases List.mem_append.mp hgrant with hgrant | hgrant
  · exact hfinished.granted grant hgrant
  · rw [List.mem_singleton.mp hgrant]
    refine ⟨fun hflight => (inFlight_erase h hentry hflight).2 rfl, hreported, ?_⟩
    intro check hcheck hsame
    obtain ⟨hfingerprint, hnow⟩ := h.guards check hcheck call entry hentry hsame
    obtain ⟨hlease, hrequest⟩ := h.request call entry hentry
    refine ⟨hfingerprint.trans hlease, ?_⟩
    rw [hnow, hrequest]
    exact hlive

/-- What is pending for the call is what its guard reserved. -/
theorem Stored.owns_iff (h : Stored admissions calls checks grants)
    (htracked : Tracked calls reserved checks grants) (hentry : calls.lookup call = some entry)
    {id : String} {stored : StoredAdmission} (hstored : admissions.lookup id = some stored) :
    entry.guard.Owns id stored ↔ stored.state = .pending entry.guard.reservationId := by
  refine ⟨And.right, fun hpending => ⟨?_, hpending⟩⟩
  obtain ⟨other, found, hfound, hsame, hid, -⟩ := h.pending id stored _ hstored hpending
  cases htracked.distinct other call found entry hfound hentry hsame
  cases hentry.symm.trans hfound
  exact hid

/-- The owner of a reservation that is not the finished call's is still there. -/
theorem Stored.pending_erase (h : Stored admissions calls checks grants)
    (hentry : calls.lookup call = some entry) {id : String} {stored : StoredAdmission}
    {reservationId : Nat} (hstored : admissions.lookup id = some stored)
    (hpending : stored.state = .pending reservationId)
    (hother : reservationId ≠ entry.guard.reservationId) :
    ∃ other found, (calls.erase call).lookup other = some found ∧
      found.guard.reservationId = reservationId ∧ found.guard.pendingCapabilityId = some id ∧
      stored.fingerprint = found.guard.fingerprint := by
  obtain ⟨other, found, hfound, hsame, hrest⟩ := h.pending id stored reservationId hstored hpending
  refine ⟨other, found, ?_, hsame, hrest⟩
  rw [AList.lookup_erase_ne]
  · exact hfound
  · rintro rfl
    cases hentry.symm.trans hfound
    exact hother hsame.symm

theorem Stored.fail (h : Stored admissions calls checks grants)
    (htracked : Tracked calls reserved checks grants) (hentry : calls.lookup call = some entry) :
    Stored (entry.guard.rollback admissions) (calls.erase call) checks grants := by
  constructor
  case pending =>
    intro id stored reservationId hstored hpending
    obtain ⟨hold, hother⟩ := SubscribeAdmissionGuard.lookup_rollback_iff.mp hstored
    rw [h.owns_iff htracked hentry hold, hpending] at hother
    exact h.pending_erase hentry hold hpending fun hsame => hother (by rw [hsame])
  case committed =>
    intro id stored hstored
    exact h.committed id stored (SubscribeAdmissionGuard.lookup_rollback_iff.mp hstored).1
  case expiry =>
    intro id stored hstored
    exact h.expiry id stored (SubscribeAdmissionGuard.lookup_rollback_iff.mp hstored).1
  case held =>
    intro check hcheck hadmitted hlive
    -- a call that is live afterwards is not the failed one
    have hlive' : Live calls grants check.reservationId ∧
        check.reservationId ≠ entry.guard.reservationId := by
      rcases hlive with hflight | ⟨lease, hgrant⟩
      · obtain ⟨hflight, hne⟩ := inFlight_erase htracked hentry hflight
        exact ⟨.inl hflight, hne⟩
      · refine ⟨.inr ⟨lease, hgrant⟩, fun hsame => ?_⟩
        exact (htracked.granted _ hgrant).1 ⟨call, entry, hentry, hsame.symm⟩
    refine (h.held check hcheck hadmitted hlive'.1).imp_right ?_
    rintro ⟨stored, hstored, hfingerprint, hstate⟩
    refine ⟨stored, SubscribeAdmissionGuard.lookup_rollback_iff.mpr ⟨hstored, ?_⟩, hfingerprint,
      hstate⟩
    rw [h.owns_iff htracked hentry hstored]
    rcases hstate with hstate | hstate
    · rw [hstate]
      nofun
    · rw [hstate]
      exact fun hsame => hlive'.2 (AdmissionState.pending.inj hsame)

/-- After a commit: the call's own reservation is committed, the rest is as it was. -/
theorem Stored.lookup_commit (h : Stored admissions calls checks grants)
    (htracked : Tracked calls reserved checks grants) (hentry : calls.lookup call = some entry)
    (id : String) :
    (entry.guard.commit admissions).lookup id = (admissions.lookup id).map fun stored =>
      if stored.state = .pending entry.guard.reservationId then { stored with state := .committed }
      else stored := by
  rw [SubscribeAdmissionGuard.lookup_commit]
  cases hstored : admissions.lookup id with
  | none => rfl
  | some stored =>
      rw [Option.map_some, Option.map_some]
      simp only [h.owns_iff htracked hentry hstored]

theorem live_grant (h : Tracked calls reserved checks grants)
    (hentry : calls.lookup call = some entry) {lease : SubscriptionLease C} {reservationId : Nat}
    (hlive : Live (calls.erase call) (grants ++ [(entry.guard.reservationId, lease)])
      reservationId) :
    Live calls grants reservationId := by
  rcases hlive with hflight | ⟨found, hgrant⟩
  · exact .inl (inFlight_erase h hentry hflight).1
  · rcases List.mem_append.mp hgrant with hgrant | hgrant
    · exact .inr ⟨found, hgrant⟩
    · obtain ⟨hsame, -⟩ := Prod.mk.inj (List.mem_singleton.mp hgrant)
      exact .inl ⟨call, entry, hentry, hsame.symm⟩

theorem Stored.grant (h : Stored admissions calls checks grants)
    (htracked : Tracked calls reserved checks grants) (hentry : calls.lookup call = some entry)
    {verified : VerifiedSubscribeCapability C}
    (hreported : ∃ check ∈ checks, check.reservationId = entry.guard.reservationId ∧
      check.admitted = true ∧ check.admission = ⟨verified.capabilityId, verified.expiresAt⟩) :
    Stored (entry.guard.commit admissions) (calls.erase call) checks
      (grants ++ [(entry.guard.reservationId, EdgeSubscribeGate.leaseFor entry verified)]) := by
  have hcommit := h.lookup_commit htracked hentry
  have hbefore : ∀ id stored', (entry.guard.commit admissions).lookup id = some stored' →
      ∃ stored, admissions.lookup id = some stored ∧ stored'.fingerprint = stored.fingerprint ∧
        stored'.expiresAt = stored.expiresAt ∧
        ((stored.state = .pending entry.guard.reservationId ∧ stored'.state = .committed) ∨
          (stored.state ≠ .pending entry.guard.reservationId ∧ stored' = stored)) := by
    intro id stored' hstored'
    rw [hcommit id] at hstored'
    obtain ⟨stored, hstored, rfl⟩ := Option.map_eq_some_iff.mp hstored'
    by_cases hown : stored.state = .pending entry.guard.reservationId
    · rw [if_pos hown]
      exact ⟨stored, hstored, rfl, rfl, .inl ⟨hown, rfl⟩⟩
    · rw [if_neg hown]
      exact ⟨stored, hstored, rfl, rfl, .inr ⟨hown, rfl⟩⟩
  constructor
  case pending =>
    intro id stored' reservationId hstored' hpending
    obtain ⟨stored, hstored, -, -, ⟨-, hstate⟩ | ⟨hother, rfl⟩⟩ := hbefore id stored' hstored'
    · rw [hstate] at hpending
      cases hpending
    · exact h.pending_erase hentry hstored hpending fun hsame => hother (by rw [hpending, hsame])
  case committed =>
    intro id stored' hstored' hstate'
    obtain ⟨stored, hstored, hfingerprint, -, ⟨hown, -⟩ | ⟨-, rfl⟩⟩ := hbefore id stored' hstored'
    · -- the reservation was for the id that the verifier reported and the lease carries
      obtain ⟨hid, -⟩ := (h.owns_iff htracked hentry hstored).mpr hown
      obtain ⟨check, hcheck, hsame, rfl⟩ := htracked.reservation call entry id hentry hid
      obtain ⟨report, hreport, hreportId, -, hadmission⟩ := hreported
      rw [htracked.reports check hcheck report hreport (hsame.trans hreportId.symm), hadmission]
        at hstored ⊢
      obtain ⟨other, found, hfound, hfoundId, -, hfoundFingerprint⟩ :=
        h.pending _ stored _ hstored hown
      cases htracked.distinct other call found entry hfound hentry hfoundId
      cases hentry.symm.trans hfound
      refine ⟨(entry.guard.reservationId, EdgeSubscribeGate.leaseFor entry verified), by simp, rfl, ?_⟩
      rw [hfingerprint, hfoundFingerprint, (htracked.request call entry hentry).1]
      rfl
    · obtain ⟨grant, hgrant, hrest⟩ := h.committed id stored' hstored hstate'
      exact ⟨grant, List.mem_append_left _ hgrant, hrest⟩
  case expiry =>
    intro id stored' hstored'
    obtain ⟨stored, hstored, -, hexpires, -⟩ := hbefore id stored' hstored'
    rw [hexpires]
    exact h.expiry id stored hstored
  case held =>
    intro check hcheck hadmitted hlive
    refine (h.held check hcheck hadmitted (live_grant htracked hentry hlive)).imp_right ?_
    rintro ⟨stored, hstored, hfingerprint, hstate⟩
    rw [hcommit, hstored, Option.map_some]
    by_cases hown : stored.state = .pending entry.guard.reservationId
    · rw [if_pos hown]
      exact ⟨_, rfl, hfingerprint, .inl rfl⟩
    · rw [if_neg hown]
      exact ⟨_, rfl, hfingerprint, hstate⟩

end Preservation

/-! ## §2. One step, every run. -/

/-- The call resolved the binding of its request. -/
theorem fingerprint_of_begun {gate : EdgeSubscribeGate C} {request : EdgeSubscribeRequest C}
    {entry : AuthorizeCall C} (hregistered : gate.registry.Registered)
    (h : (gate.beginAuthorize request).1 = .ok entry) :
    entry.guard.fingerprint = ⟨C.endpointStr entry.registered.binding.endpointId,
        entry.registered.binding.mediaClass, entry.registered.binding.bindingGeneration,
        entry.request.connectionId⟩ ∧
      entry.guard.now = entry.request.nowUnixSeconds := by
  obtain ⟨rfl, hresolve⟩ := EdgeState.beginAuthorize_ok h
  obtain ⟨-, hlookup, -⟩ := CurrentSubscribeRegistry.resolve_eq_ok_iff.mp hresolve
  have hkey := hregistered.keyed _ _ hlookup
  injection hkey with hendpoint hclass hgeneration
  rw [beginAuthorize_guard h, hendpoint, hclass, hgeneration]
  exact ⟨rfl, rfl⟩

theorem Ordered.move {J J' : Journal C} {op : Op C} (h : Ordered J)
    (hregistered : J.edge.gate.registry.Registered) (hfaithful : Faithful J op)
    (hmove : Move J op J') : Ordered J' := by
  obtain ⟨htracked, hstored, hagreed⟩ := h
  cases hmove with
  | idle hadmissions hcalls =>
      refine ⟨?_, ?_, ?_⟩
      · rw [← hcalls] at htracked
        exact htracked
      · rw [← hcalls, ← hadmissions] at hstored
        exact hstored
      · rw [← hcalls] at hagreed
        exact hagreed
  | @begun call request entry gate hfree hok hadmissions =>
      have hnew : entry.guard.reservationId ∉ J.reserved :=
        hfaithful entry (by rw [hok]; rfl)
      have hnone : entry.guard.pendingCapabilityId = none := by rw [beginAuthorize_guard hok]
      refine ⟨htracked.begun hnew hnone (fingerprint_of_begun hregistered hok), ?_, ?_⟩
      · have hbegun := hstored.begun htracked hfree hnew
        rw [← hadmissions] at hbegun
        exact hbegun
      · refine hagreed.mono fun check hcheck hlive => hlive.imp_left fun hflight => ?_
        rcases inFlight_insert hflight with hsame | hold
        · exact absurd (hsame ▸ htracked.checked check hcheck) hnew
        · exact hold
  | @checked call admission entry gate result guard hentry hchecked =>
      obtain ⟨hnow, hreport⟩ := hfaithful entry hentry
      exact ⟨htracked.check hentry hchecked hreport, hstored.check htracked hentry hchecked hreport,
        hagreed.check hstored hentry hchecked hnow⟩
  | @failed call entry gate result hentry hadmissions =>
      refine ⟨htracked.finish hentry, ?_, ?_⟩
      · have hfailed := hstored.fail htracked hentry
        rw [← hadmissions] at hfailed
        exact hfailed
      · refine hagreed.mono fun check _ hlive => hlive.imp_left fun hflight => ?_
        exact (inFlight_erase htracked hentry hflight).1
  | @granted call entry gate verified hentry hlive hadmissions =>
      have hreported := hfaithful entry hentry
      refine ⟨htracked.grant hentry hlive hreported, ?_, ?_⟩
      · have hgranted := hstored.grant htracked hentry hreported
        rw [← hadmissions] at hgranted
        exact hgranted
      · exact hagreed.mono fun check _ hlive => live_grant htracked hentry hlive

theorem exec_ordered {boundarySequence : Nat} {registry : CurrentSubscribeRegistry C}
    (hnew : CurrentSubscribeRegistry.new C boundarySequence = .ok registry) (ops : List (Op C))
    (hfaithful : ∀ e ∈ trace step (start registry) ops, Faithful e.1 e.2) :
    Ordered (exec step (start registry) ops) := by
  refine (exec_invariant_along step (fun J => Ordered J ∧ J.edge.gate.registry.Registered) Faithful
    ?_ ops (start registry) hfaithful
    ⟨start_ordered registry, CurrentSubscribeRegistry.new_registered hnew⟩).1
  rintro J op hfaithful ⟨h, hregistered⟩
  refine ⟨h.move hregistered hfaithful (step_move J op), ?_⟩
  show (EdgeState.step J.edge op).2.gate.registry.Registered
  rw [EdgeState.step_registry]
  exact exec_invariant _ _ CurrentSubscribeRegistry.step_registered _ hregistered

/-! ## §3. One connection. -/

/-- A check of the call came at or after an expiry that had been reported for its id. -/
def Late (J : Journal C) (reservationId : Nat) : Prop :=
  ∃ before check after, J.checks = before ++ check :: after ∧
    check.reservationId = reservationId ∧ ¬ InTime before check

section Leases

variable {J : Journal C} {grant grant' : Nat × SubscriptionLease C}

/-- The check behind a granted lease. -/
structure Backs (check : Check) (grant : Nat × SubscriptionLease C) : Prop where
  reservationId : check.reservationId = grant.1
  admitted : check.admitted = true
  capabilityId : check.admission.capabilityId = grant.2.capabilityId
  fingerprint : check.fingerprint = grant.2.fingerprint

theorem Ordered.exists_backs (h : Ordered J) (hgrant : grant ∈ J.grants) :
    ∃ check ∈ J.checks, Backs check grant := by
  obtain ⟨-, ⟨check, hcheck, hid, hadmitted, hadmission⟩, hall⟩ := h.tracked.granted grant hgrant
  refine ⟨check, hcheck, hid, hadmitted, ?_, (hall check hcheck hid).1⟩
  rw [hadmission]

/-- The later of two checks is of the same connection, or late. -/
theorem Ordered.leases_of_split (h : Ordered J) (hgrant : grant ∈ J.grants)
    (hgrant' : grant' ∈ J.grants) (hcapability : grant.2.capabilityId = grant'.2.capabilityId)
    {before after : List Check} {check earlier : Check}
    (hsplit : J.checks = before ++ check :: after) (hearlier : earlier ∈ before)
    (hbacks : Backs check grant) (hbacks' : Backs earlier grant') :
    grant.2.fingerprint = grant'.2.fingerprint ∨ Late J grant.1 := by
  by_cases hintime : InTime before check
  · refine .inl ?_
    rw [← hbacks.fingerprint, ← hbacks'.fingerprint]
    refine (h.agreed before check after hsplit hbacks.admitted (.inr ⟨grant.2, ?_⟩) hintime earlier
      hearlier hbacks'.admitted (.inr ⟨grant'.2, ?_⟩) ?_).symm
    · rw [hbacks.reservationId]
      exact hgrant
    · rw [hbacks'.reservationId]
      exact hgrant'
    · rw [hbacks'.capabilityId, hbacks.capabilityId, hcapability]
  · exact .inr ⟨before, check, after, hsplit, hbacks.reservationId, hintime⟩

theorem Ordered.leases (h : Ordered J) (hgrant : grant ∈ J.grants) (hgrant' : grant' ∈ J.grants)
    (hcapability : grant.2.capabilityId = grant'.2.capabilityId) :
    grant.2.fingerprint = grant'.2.fingerprint ∨ Late J grant.1 ∨ Late J grant'.1 := by
  obtain ⟨check, hcheck, hbacks⟩ := h.exists_backs hgrant
  obtain ⟨check', hcheck', hbacks'⟩ := h.exists_backs hgrant'
  obtain ⟨before, after, hsplit⟩ := List.append_of_mem hcheck
  rw [hsplit, List.mem_append, List.mem_cons] at hcheck'
  rcases hcheck' with hearlier | rfl | hlater
  · exact (h.leases_of_split hgrant hgrant' hcapability hsplit hearlier hbacks hbacks').imp_right
      .inl
  · exact .inl (hbacks.fingerprint.symm.trans hbacks'.fingerprint)
  · obtain ⟨middle, rest, rfl⟩ := List.append_of_mem hlater
    have hsplit' : J.checks = (before ++ check :: middle) ++ check' :: rest := by
      rw [hsplit, List.append_assoc, List.cons_append]
    rcases h.leases_of_split hgrant' hgrant hcapability.symm hsplit' (by simp) hbacks' hbacks with
      hsame | hlate
    · exact .inl hsame.symm
    · exact .inr (.inr hlate)

/-- An id that is always reported with one expiry is never granted late. -/
theorem Ordered.not_late (h : Ordered J) (hgrant : grant ∈ J.grants)
    (hone : ∀ check ∈ J.checks, ∀ check' ∈ J.checks,
      check.admission.capabilityId = grant.2.capabilityId →
      check'.admission.capabilityId = grant.2.capabilityId →
      check.admission.expiresAt = check'.admission.expiresAt) : ¬ Late J grant.1 := by
  rintro ⟨before, check, after, hsplit, hid, hlate⟩
  refine hlate fun report hreport _ hsame => ?_
  have hcheck : check ∈ J.checks := by
    rw [hsplit]
    simp
  have hreport : report ∈ J.checks := by
    rw [hsplit]
    exact List.mem_append_left _ hreport
  obtain ⟨-, ⟨own, hown, hownId, -, hadmission⟩, hall⟩ := h.tracked.granted grant hgrant
  have hchecked := h.tracked.reports check hcheck own hown (hid.trans hownId.symm)
  have hexpires : report.admission.expiresAt = grant.2.expiresAt := by
    have hownExpires : own.admission.expiresAt = grant.2.expiresAt := by rw [hadmission]
    rw [← hownExpires]
    refine hone report hreport own hown ?_ ?_
    · rw [hsame, hchecked, hadmission]
    · rw [hadmission]
  rw [hexpires]
  exact (hall check hcheck hid).2

end Leases

/-- What the gate does to the stored admissions, whatever calls are in flight. -/
structure OneConnection (J : Journal C) : Prop where
  /-- Leases of one capability are for one connection, unless one of their calls was checked at
  or after an expiry that had been reported for it. -/
  leases : ∀ grant ∈ J.grants, ∀ grant' ∈ J.grants,
    grant.2.capabilityId = grant'.2.capabilityId →
    grant.2.fingerprint = grant'.2.fingerprint ∨ Late J grant.1 ∨ Late J grant'.1
  /-- So they are when the capability is always reported with one expiry. -/
  oneExpiry : ∀ id, (∀ check ∈ J.checks, ∀ check' ∈ J.checks, check.admission.capabilityId = id →
      check'.admission.capabilityId = id →
      check.admission.expiresAt = check'.admission.expiresAt) →
    ∀ grant ∈ J.grants, ∀ grant' ∈ J.grants, grant.2.capabilityId = id →
      grant'.2.capabilityId = id → grant.2.fingerprint = grant'.2.fingerprint
  /-- Calls in flight have different reservation ids. -/
  distinct : ∀ call call' entry entry', J.edge.calls.lookup call = some entry →
    J.edge.calls.lookup call' = some entry' →
    entry.guard.reservationId = entry'.guard.reservationId → call = call'
  /-- A call that fails takes away its own reservation and nothing else. -/
  failed : ∀ call entry result error, J.edge.calls.lookup call = some entry →
    (J.edge.gate.finishAuthorize entry result).1 = .error error → ∀ id stored,
    (J.edge.gate.finishAuthorize entry result).2.admissions.lookup id = some stored ↔
      J.edge.gate.admissions.lookup id = some stored ∧
        stored.state ≠ .pending entry.guard.reservationId
  /-- A call that grants a lease commits its own reservation and nothing else. -/
  committed : ∀ call entry result lease, J.edge.calls.lookup call = some entry →
    (J.edge.gate.finishAuthorize entry result).1 = .ok lease → ∀ id,
    (J.edge.gate.finishAuthorize entry result).2.admissions.lookup id =
      (J.edge.gate.admissions.lookup id).map fun stored =>
        if stored.state = .pending entry.guard.reservationId then
          { stored with state := .committed }
        else stored
  /-- A check leaves what has not expired, but for the expiry of what the connection committed. -/
  checked : ∀ call entry admission, J.edge.calls.lookup call = some entry → ∀ id stored,
    J.edge.gate.admissions.lookup id = some stored → entry.guard.now < stored.expiresAt →
    (entry.guard.checkAndAdmit J.edge.gate.admissions admission).2.2.lookup id = some stored ∨
    (id = admission.capabilityId ∧ stored.fingerprint = entry.guard.fingerprint ∧
      stored.state = .committed ∧
      (entry.guard.checkAndAdmit J.edge.gate.admissions admission).2.2.lookup id =
        some { stored with expiresAt := admission.expiresAt })
  /-- A replay is of a lease granted to another connection, or of another call in flight. -/
  replayed : ∀ call entry admission, J.edge.calls.lookup call = some entry →
    (entry.guard.checkAndAdmit J.edge.gate.admissions admission).1 = .error .replay →
    ∃ stored, J.edge.gate.admissions.lookup admission.capabilityId = some stored ∧
      entry.guard.now < stored.expiresAt ∧
      ((stored.fingerprint ≠ entry.guard.fingerprint ∧ ∃ grant ∈ J.grants,
          grant.2.capabilityId = admission.capabilityId ∧
          grant.2.fingerprint = stored.fingerprint) ∨
        ∃ call' entry', call' ≠ call ∧ J.edge.calls.lookup call' = some entry' ∧
          stored.state = .pending entry'.guard.reservationId)

theorem Ordered.replayed {J : Journal C} (h : Ordered J) {call : Nat} {entry : AuthorizeCall C}
    {id : String} {stored : StoredAdmission} (hentry : J.edge.calls.lookup call = some entry)
    (hstored : J.edge.gate.admissions.lookup id = some stored)
    (hblocks : entry.guard.Blocks stored) :
    (stored.fingerprint ≠ entry.guard.fingerprint ∧ ∃ grant ∈ J.grants,
        grant.2.capabilityId = id ∧ grant.2.fingerprint = stored.fingerprint) ∨
      ∃ call' entry', call' ≠ call ∧ J.edge.calls.lookup call' = some entry' ∧
        stored.state = .pending entry'.guard.reservationId := by
  cases hstate : stored.state with
  | committed =>
      refine .inl ⟨?_, h.stored.committed id stored hstored hstate⟩
      rcases hblocks with hother | ⟨hne, -⟩
      · exact hother
      · exact absurd hstate hne
  | pending reservationId =>
      obtain ⟨call', entry', hentry', hid, -, hfingerprint⟩ :=
        h.stored.pending id stored reservationId hstored hstate
      refine .inr ⟨call', entry', ?_, hentry', by rw [hid]⟩
      rintro rfl
      cases hentry.symm.trans hentry'
      rcases hblocks with hother | ⟨-, hne⟩
      · exact hother hfingerprint
      · exact hne (by rw [hstate, hid])

/-- **ONE CAPABILITY, ONE CONNECTION.**  In every run in which reservation ids are handed out
once, the times of the checks do not go back, and the verifier returns what it reported. -/
theorem exec_one_connection {boundarySequence : Nat} {registry : CurrentSubscribeRegistry C}
    (hnew : CurrentSubscribeRegistry.new C boundarySequence = .ok registry) (ops : List (Op C))
    (hfaithful : ∀ e ∈ trace step (start registry) ops, Faithful e.1 e.2) :
    (exec step (start registry) ops).edge = exec EdgeState.step (.new registry) ops ∧
    OneConnection (exec step (start registry) ops) := by
  refine ⟨exec_edge _ ops, ?_⟩
  have h := exec_ordered hnew ops hfaithful
  generalize exec step (start registry) ops = J at h ⊢
  refine ⟨?_, ?_, h.tracked.distinct, ?_, ?_, ?_, ?_⟩
  · intro grant hgrant grant' hgrant' hcapability
    exact h.leases hgrant hgrant' hcapability
  · rintro id hone grant hgrant grant' hgrant' rfl hcapability
    rcases h.leases hgrant hgrant' hcapability.symm with hsame | hlate | hlate
    · exact hsame
    · exact absurd hlate (h.not_late hgrant hone)
    · rw [← hcapability] at hone
      exact absurd hlate (h.not_late hgrant' hone)
  · intro call entry result error hentry herror id stored
    unfold EdgeSubscribeGate.finishAuthorize at herror ⊢
    split at herror
    · show (entry.guard.rollback J.edge.gate.admissions).lookup id = some stored ↔ _
      rw [SubscribeAdmissionGuard.lookup_rollback_iff]
      refine and_congr_right fun hstored => ?_
      rw [h.stored.owns_iff h.tracked hentry hstored]
    · cases herror
  · intro call entry result lease hentry hok id
    unfold EdgeSubscribeGate.finishAuthorize at hok ⊢
    split at hok
    · cases hok
    · exact h.stored.lookup_commit h.tracked hentry id
  · intro call entry admission _ id stored hstored hnow
    exact (SubscribeAdmissionGuard.checkAndAdmit_checked entry.guard _ admission).kept id stored
      hstored hnow
  · intro call entry admission hentry hreplay
    obtain ⟨stored, hstored, hnow, hblocks⟩ :=
      (SubscribeAdmissionGuard.checkAndAdmit_checked entry.guard _ admission).replay hreplay
    exact ⟨stored, hstored, hnow, h.replayed hentry hstored hblocks⟩

/-- The connection renews its capability, and another connection is turned away. -/
def renewalRun : List (Op sampleMedia) :=
  [.registry (.install sampleBinding),
    .beginAuthorize 1 sampleRequest,
    .checkAndAdmit 1 ⟨"capability-1", 2000⟩,
    .finishAuthorize 1 (.ok sampleCapability),
    .beginAuthorize 2 { sampleRequest with connectionId := "connection-2", nowUnixSeconds := 1500 },
    .beginAuthorize 3 { sampleRequest with nowUnixSeconds := 1500 },
    .checkAndAdmit 2 ⟨"capability-1", 2000⟩,
    .checkAndAdmit 3 ⟨"capability-1", 3000⟩,
    .finishAuthorize 2 (.error ⟨.replayAdmissionRejected, false, "capability_id"⟩),
    .finishAuthorize 3 (.ok { sampleCapability with expiresAt := 3000 })]

theorem exec_one_connection_renewal :
    CurrentSubscribeRegistry.new sampleMedia 0 = .ok sampleRegistry ∧
    (∀ e ∈ trace step (start sampleRegistry) renewalRun, Faithful e.1 e.2) ∧
    (exec step (start sampleRegistry) renewalRun).grants.map (·.1) = [1, 3] ∧
    OneConnection (exec step (start sampleRegistry) renewalRun) := by
  have hnew : CurrentSubscribeRegistry.new sampleMedia 0 = .ok sampleRegistry := rfl
  have hfaithful : ∀ e ∈ trace step (start sampleRegistry) renewalRun, Faithful e.1 e.2 := by
    decide +kernel
  exact ⟨hnew, hfaithful, by decide +kernel, (exec_one_connection hnew renewalRun hfaithful).2⟩

/-- The capability comes again, with a later expiry, when the first has passed. -/
def reissuedRun : List (Op sampleMedia) :=
  [.registry (.install sampleBinding),
    .beginAuthorize 1 sampleRequest,
    .checkAndAdmit 1 ⟨"capability-1", 2000⟩,
    .finishAuthorize 1 (.ok sampleCapability),
    .beginAuthorize 2 { sampleRequest with connectionId := "connection-2", nowUnixSeconds := 2000 },
    .checkAndAdmit 2 ⟨"capability-1", 3000⟩,
    .finishAuthorize 2 (.ok { sampleCapability with expiresAt := 3000 })]

/-- Two connections get a lease of one capability. -/
theorem reissued_capability_two_connections :
    (∀ e ∈ trace step (start sampleRegistry) reissuedRun, Faithful e.1 e.2) ∧
    ∃ grant ∈ (exec step (start sampleRegistry) reissuedRun).grants,
      ∃ grant' ∈ (exec step (start sampleRegistry) reissuedRun).grants,
        grant.2.capabilityId = grant'.2.capabilityId ∧
        grant.2.fingerprint ≠ grant'.2.fingerprint := by
  decide +kernel

end Journal

end AvMesh.Subscribe
