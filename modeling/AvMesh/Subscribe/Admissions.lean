/-
  AvMesh.Subscribe.Admissions
  ───────────────────────────
  **THE STORED ADMISSIONS AND THEIR JOURNAL.**

  A call of `authorize` reserves the capability id it checks, and commits the
  reservation when it grants a lease or rolls it back when it fails.  Between
  these moments other calls check, commit and roll back.  `Checked`,
  `lookup_rollback_iff` and `lookup_commit` say what each of the three does to
  the stored admissions.

  A `Journal` is the edge with a record of the reservation ids it handed out,
  the checks its guards made and the leases it granted; `Move` lists what one
  operation can do to both.
-/
import AvMesh.Subscribe.Leases

namespace AvMesh.Subscribe

open AvMesh.Lib

variable {C : MediaCrates}

/-! ## §1. What the guard does to the stored admissions. -/

namespace SubscribeAdmissionGuard

variable {guard guard' : SubscribeAdmissionGuard} {admissions admissions' : Admissions}
  {admission : ReplayAdmissionV1} {result : Except ReplayAdmissionRejection Unit}

/-- The stored admission keeps other calls out: it is not this connection's. -/
def Blocks (guard : SubscribeAdmissionGuard) (stored : StoredAdmission) : Prop :=
  stored.fingerprint ≠ guard.fingerprint ∨
    (stored.state ≠ .committed ∧ stored.state ≠ .pending guard.reservationId)

/-- A check: what it finds, keeps and stores. -/
structure Checked (guard : SubscribeAdmissionGuard) (admissions : Admissions)
    (admission : ReplayAdmissionV1) (result : Except ReplayAdmissionRejection Unit)
    (guard' : SubscribeAdmissionGuard) (admissions' : Admissions) : Prop where
  /-- Only the reservation of the guard changes, to the id of an admitted check. -/
  reservation : guard' = guard ∨
    (result = .ok () ∧ guard' = { guard with pendingCapabilityId := some admission.capabilityId })
  /-- What has not expired stays; the connection's own committed admission is renewed. -/
  kept : ∀ id stored, admissions.lookup id = some stored → guard.now < stored.expiresAt →
    admissions'.lookup id = some stored ∨
    (id = admission.capabilityId ∧ stored.fingerprint = guard.fingerprint ∧
      stored.state = .committed ∧
      admissions'.lookup id = some { stored with expiresAt := admission.expiresAt })
  /-- What is stored was there, or is of this check. -/
  origin : ∀ id stored', admissions'.lookup id = some stored' →
    (admissions.lookup id = some stored' ∧ guard.now < stored'.expiresAt) ∨
    (result = .ok () ∧ id = admission.capabilityId ∧ stored'.fingerprint = guard.fingerprint ∧
      stored'.expiresAt = admission.expiresAt ∧
      ((stored'.state = .pending guard.reservationId ∧
          guard'.pendingCapabilityId = some admission.capabilityId) ∨
        (stored'.state = .committed ∧ ∃ stored, admissions.lookup id = some stored ∧
          stored.fingerprint = guard.fingerprint ∧ stored.state = .committed)))
  /-- An admitted check finds nothing live of another connection, and leaves its own. -/
  admitted : result = .ok () →
    (∀ stored, admissions.lookup admission.capabilityId = some stored →
      guard.now < stored.expiresAt → stored.fingerprint = guard.fingerprint) ∧
    ∃ stored', admissions'.lookup admission.capabilityId = some stored' ∧
      stored'.fingerprint = guard.fingerprint ∧
      (stored'.state = .committed ∨ stored'.state = .pending guard.reservationId)
  /-- A replay is one of a live admission that is not this connection's. -/
  replay : result = .error .replay → ∃ stored,
    admissions.lookup admission.capabilityId = some stored ∧ guard.now < stored.expiresAt ∧
    guard.Blocks stored

theorem lookup_live_iff {id : String} {stored : StoredAdmission} :
    (admissions.retain fun _ previous => decide (guard.now < previous.expiresAt)).lookup id =
        some stored ↔
      admissions.lookup id = some stored ∧ guard.now < stored.expiresAt := by
  rw [AList.lookup_retain_iff, decide_eq_true_iff]

theorem checkAndAdmit_checked (guard : SubscribeAdmissionGuard) (admissions : Admissions)
    (admission : ReplayAdmissionV1) :
    Checked guard admissions admission (guard.checkAndAdmit admissions admission).1
      (guard.checkAndAdmit admissions admission).2.1
      (guard.checkAndAdmit admissions admission).2.2 := by
  have hlive : ∀ id stored, (admissions.retain fun _ previous =>
      decide (guard.now < previous.expiresAt)).lookup id = some stored ↔
      admissions.lookup id = some stored ∧ guard.now < stored.expiresAt :=
    fun id stored => lookup_live_iff
  unfold checkAndAdmit
  generalize (admissions.retain fun _ previous => decide (guard.now < previous.expiresAt)) = live
    at hlive ⊢
  dsimp only
  have hkept : ∀ id stored, admissions.lookup id = some stored → guard.now < stored.expiresAt →
      live.lookup id = some stored := fun id stored h hnow => (hlive id stored).mpr ⟨h, hnow⟩
  split
  · -- no room for another id
    exact ⟨.inl rfl, fun id stored h hnow => .inl (hkept id stored h hnow),
      fun id stored h => .inl ((hlive id stored).mp h), nofun, nofun⟩
  · cases hfound : live.lookup admission.capabilityId with
    | none =>
        refine ⟨.inr ⟨rfl, rfl⟩, ?_, ?_, fun _ => ⟨?_, ?_⟩, nofun⟩
        · intro id stored h hnow
          have hold := hkept id stored h hnow
          refine .inl ?_
          rw [AList.lookup_insert_ne]
          · exact hold
          · rintro rfl
            rw [hfound] at hold
            cases hold
        · intro id stored' h
          rcases AList.lookup_of_insert h with ⟨rfl, rfl⟩ | ⟨-, hold⟩
          · exact .inr ⟨rfl, rfl, rfl, rfl, .inl ⟨rfl, rfl⟩⟩
          · exact .inl ((hlive id stored').mp hold)
        · intro stored h hnow
          rw [hkept _ stored h hnow] at hfound
          cases hfound
        · exact ⟨_, AList.lookup_insert _, rfl, .inr rfl⟩
    | some found =>
        obtain ⟨hstored, hnow⟩ := (hlive _ found).mp hfound
        have honly : ∀ stored, admissions.lookup admission.capabilityId = some stored →
            stored = found := fun stored h => Option.some.inj (h.symm.trans hstored)
        dsimp only
        split
        · -- renewed
          next hown =>
            refine ⟨.inl rfl, ?_, ?_, fun _ => ⟨?_, ?_⟩, nofun⟩
            · intro id stored h hnow
              by_cases hid : id = admission.capabilityId
              · subst hid
                cases honly stored h
                exact .inr ⟨rfl, hown.1, hown.2, AList.lookup_replace_self _ hfound⟩
              · refine .inl ?_
                rw [AList.lookup_replace_ne _ _ hid]
                exact hkept id stored h hnow
            · intro id stored' h
              rcases AList.lookup_of_replace hfound h with ⟨rfl, rfl⟩ | ⟨-, hold⟩
              · exact .inr ⟨rfl, rfl, hown.1, rfl, .inr ⟨hown.2, found, hstored, hown⟩⟩
              · exact .inl ((hlive id stored').mp hold)
            · intro stored h _
              rw [honly stored h]
              exact hown.1
            · exact ⟨_, AList.lookup_replace_self _ hfound, hown.1, .inl hown.2⟩
        · next hnot =>
            split
            · -- asked again
              next hown =>
                refine ⟨.inl rfl, fun id stored h hnow => .inl (hkept id stored h hnow),
                  fun id stored h => .inl ((hlive id stored).mp h), fun _ => ⟨?_, ?_⟩, nofun⟩
                · intro stored h _
                  rw [honly stored h]
                  exact hown.1
                · exact ⟨found, hfound, hown.1, .inr hown.2⟩
            · next hother =>
                refine ⟨.inl rfl, fun id stored h hnow => .inl (hkept id stored h hnow),
                  fun id stored h => .inl ((hlive id stored).mp h), nofun, fun _ => ?_⟩
                refine ⟨found, hstored, hnow, ?_⟩
                unfold Blocks
                by_cases hsame : found.fingerprint = guard.fingerprint
                · exact .inr ⟨fun h => hnot ⟨hsame, h⟩, fun h => hother ⟨hsame, h⟩⟩
                · exact .inl hsame

/-- The stored admission is the reservation of this guard. -/
def Owns (guard : SubscribeAdmissionGuard) (id : String) (stored : StoredAdmission) : Prop :=
  guard.pendingCapabilityId = some id ∧ stored.state = .pending guard.reservationId

instance (guard : SubscribeAdmissionGuard) (id : String) (stored : StoredAdmission) :
    Decidable (guard.Owns id stored) :=
  inferInstanceAs (Decidable (_ ∧ _))

theorem lookup_rollback_iff {id : String} {stored : StoredAdmission} :
    (guard.rollback admissions).lookup id = some stored ↔
      admissions.lookup id = some stored ∧ ¬ guard.Owns id stored := by
  unfold rollback Owns
  split
  · next hnone => simp [hnone]
  · next reserved hreserved =>
      rw [hreserved]
      split
      · next hmissing =>
          refine ⟨fun h => ⟨h, ?_⟩, And.left⟩
          rintro ⟨⟨⟩, -⟩
          rw [hmissing] at h
          cases h
      · next found hfound =>
          split
          · next hpending =>
              constructor
              · intro h
                obtain ⟨hne, hold⟩ := AList.lookup_of_erase h
                exact ⟨hold, fun hown => hne (Option.some.inj hown.1).symm⟩
              · rintro ⟨h, hother⟩
                rw [AList.lookup_erase_ne]
                · exact h
                · rintro rfl
                  cases hfound.symm.trans h
                  exact hother ⟨rfl, hpending⟩
          · next hpending =>
              refine ⟨fun h => ⟨h, ?_⟩, And.left⟩
              rintro ⟨⟨⟩, hown⟩
              cases hfound.symm.trans h
              exact hpending hown

theorem lookup_commit (id : String) :
    (guard.commit admissions).lookup id = (admissions.lookup id).map fun stored =>
      if guard.Owns id stored then { stored with state := .committed } else stored := by
  have hsame : (∀ stored, admissions.lookup id = some stored → ¬ guard.Owns id stored) →
      admissions.lookup id = (admissions.lookup id).map fun stored =>
        if guard.Owns id stored then { stored with state := .committed } else stored := by
    intro hother
    cases h : admissions.lookup id with
    | none => rfl
    | some stored => rw [Option.map_some, if_neg (hother stored h)]
  unfold commit
  split
  · next hnone => exact hsame fun _ _ hown => by cases hnone.symm.trans hown.1
  · next reserved hreserved =>
      split
      · next hmissing =>
          refine hsame fun stored h hown => ?_
          cases hreserved.symm.trans hown.1
          cases hmissing.symm.trans h
      · next found hfound =>
          split
          · next hpending =>
              by_cases hid : id = reserved
              · subst hid
                rw [AList.lookup_replace_self _ hfound, hfound, Option.map_some,
                  if_pos ⟨hreserved, hpending⟩]
              · rw [AList.lookup_replace_ne _ _ hid]
                refine hsame fun stored _ hown => hid ?_
                exact Option.some.inj (hown.1.symm.trans hreserved)
          · next hpending =>
              refine hsame fun stored h hown => hpending ?_
              cases hreserved.symm.trans hown.1
              cases hfound.symm.trans h
              exact hown.2

end SubscribeAdmissionGuard

/-! ## §2. The journal. -/

/-- A check that the verifier made with the guard of a call. -/
structure Check where
  reservationId : Nat
  fingerprint : SubscribeAdmissionFingerprint
  now : Int
  admission : ReplayAdmissionV1
  admitted : Bool
  deriving Repr, DecidableEq

/-- The connection a lease is for. -/
def SubscriptionLease.fingerprint (lease : SubscriptionLease C) : SubscribeAdmissionFingerprint :=
  ⟨C.endpointStr lease.binding.endpointId, lease.binding.mediaClass,
    lease.binding.bindingGeneration, lease.connectionId⟩

structure Journal (C : MediaCrates) where
  edge : EdgeState C
  reserved : List Nat := []
  checks : List Check := []
  grants : List (Nat × SubscriptionLease C) := []

namespace Journal

open EdgeState (Op Reply)

def start (registry : CurrentSubscribeRegistry C) : Journal C := { edge := .new registry }

/-- The check that the guard of the call makes. -/
def checkOf (guard : SubscribeAdmissionGuard) (admission : ReplayAdmissionV1)
    (result : Except ReplayAdmissionRejection Unit) : Check :=
  ⟨guard.reservationId, guard.fingerprint, guard.now, admission, result.isOk⟩

/-- The record of one operation, with the calls in flight before it. -/
def note (J : Journal C) : Op C → Reply C → Journal C
  | .beginAuthorize _ _, .begun (.ok _) =>
      { J with reserved := J.reserved ++ [J.edge.gate.nextReservationId] }
  | .checkAndAdmit call admission, .admission result =>
      match J.edge.calls.lookup call with
      | none => J
      | some entry => { J with checks := J.checks ++ [checkOf entry.guard admission result] }
  | .finishAuthorize call _, .finished (.ok lease) =>
      match J.edge.calls.lookup call with
      | none => J
      | some entry => { J with grants := J.grants ++ [(entry.guard.reservationId, lease)] }
  | _, _ => J

def step (J : Journal C) (op : Op C) : Reply C × Journal C :=
  let (reply, edge) := J.edge.step op
  (reply, { J.note op reply with edge })

/-- The record does not disturb the edge. -/
theorem exec_edge (J : Journal C) (ops : List (Op C)) :
    (exec step J ops).edge = exec EdgeState.step J.edge ops := by
  induction ops generalizing J with
  | nil => rfl
  | cons op ops ih =>
      rw [exec_cons, exec_cons]
      exact ih _

/-- What the operation must keep to: a reservation id is handed out once, the times of the
checks do not go back, the verifier reports one admission to the guard of a call, and it
returns a capability only when it reported it and the guard admitted it. -/
def Faithful (J : Journal C) : Op C → Prop
  | .beginAuthorize _ request => ∀ entry ∈ (J.edge.gate.beginAuthorize request).1.toOption,
      entry.guard.reservationId ∉ J.reserved
  | .checkAndAdmit call admission => ∀ entry ∈ J.edge.calls.lookup call,
      (∀ check ∈ J.checks, check.now ≤ entry.guard.now) ∧
      ∀ check ∈ J.checks, check.reservationId = entry.guard.reservationId →
        check.admission = admission
  | .finishAuthorize call (.ok verified) => ∀ entry ∈ J.edge.calls.lookup call,
      ∃ check ∈ J.checks, check.reservationId = entry.guard.reservationId ∧
        check.admitted = true ∧ check.admission = ⟨verified.capabilityId, verified.expiresAt⟩
  | _ => True

instance (J : Journal C) : (op : Op C) → Decidable (Faithful J op)
  | .beginAuthorize _ _ => inferInstanceAs (Decidable (∀ entry ∈ _, _))
  | .checkAndAdmit _ _ => inferInstanceAs (Decidable (∀ entry ∈ _, _))
  | .finishAuthorize _ (.ok _) => inferInstanceAs (Decidable (∀ entry ∈ _, _))
  | .finishAuthorize _ (.error _) => inferInstanceAs (Decidable True)
  | .registry _ => inferInstanceAs (Decidable True)
  | .revalidate _ _ => inferInstanceAs (Decidable True)

/-! ## §3. What one operation does. -/

theorem beginAuthorize_admissions (gate : EdgeSubscribeGate C) (request : EdgeSubscribeRequest C) :
    (gate.beginAuthorize request).2.admissions = gate.admissions := by
  unfold EdgeSubscribeGate.beginAuthorize
  split
  · rfl
  · split <;> rfl

theorem revalidate_admissions (gate : EdgeSubscribeGate C) (lease : SubscriptionLease C)
    (nowUnixSeconds : Int) :
    (gate.revalidate lease nowUnixSeconds).2.admissions = gate.admissions := by
  unfold EdgeSubscribeGate.revalidate
  split
  · rfl
  · split <;> rfl

/-- A call that begins has a guard of its request and of the next reservation id. -/
theorem beginAuthorize_guard {gate : EdgeSubscribeGate C} {request : EdgeSubscribeRequest C}
    {entry : AuthorizeCall C} (h : (gate.beginAuthorize request).1 = .ok entry) :
    entry.guard = ⟨⟨C.endpointStr request.endpointId, request.mediaClass,
        request.bindingGeneration, request.connectionId⟩,
      request.nowUnixSeconds, gate.nextReservationId, none⟩ := by
  unfold EdgeSubscribeGate.beginAuthorize at h
  split at h
  · cases h
  · split at h
    · cases h
    · cases h
      rfl

/-- A lease is granted for what the verifier returned, before it expires. -/
theorem checkVerified_eq_ok {request : EdgeSubscribeRequest C}
    {result : Except CapabilityVerifierError (VerifiedSubscribeCapability C)}
    {verified : VerifiedSubscribeCapability C}
    (h : EdgeSubscribeGate.checkVerified request result = .ok verified) :
    result = .ok verified ∧ request.nowUnixSeconds < verified.expiresAt := by
  unfold EdgeSubscribeGate.checkVerified at h
  split at h
  · cases h
  · split at h
    · cases h
    · next hlive =>
        split at h
        · cases h
        · split at h
          · cases h
          · cases h
            exact ⟨rfl, by omega⟩
        · cases h
          exact ⟨rfl, by omega⟩

inductive Move (J : Journal C) : Op C → Journal C → Prop
  | idle {op : Op C} {edge : EdgeState C}
      (hadmissions : edge.gate.admissions = J.edge.gate.admissions)
      (hcalls : edge.calls = J.edge.calls) : Move J op { J with edge }
  | begun {call : Nat} {request : EdgeSubscribeRequest C} {entry : AuthorizeCall C}
      {gate : EdgeSubscribeGate C} (hfree : call ∉ J.edge.calls)
      (hok : (J.edge.gate.beginAuthorize request).1 = .ok entry)
      (hadmissions : gate.admissions = J.edge.gate.admissions) :
      Move J (.beginAuthorize call request) { J with
        edge := ⟨gate, J.edge.calls.insert call entry⟩
        reserved := J.reserved ++ [entry.guard.reservationId] }
  | checked {call : Nat} {admission : ReplayAdmissionV1} {entry : AuthorizeCall C}
      {gate : EdgeSubscribeGate C} {result : Except ReplayAdmissionRejection Unit}
      {guard : SubscribeAdmissionGuard} (hentry : J.edge.calls.lookup call = some entry)
      (hchecked : entry.guard.Checked J.edge.gate.admissions admission result guard
        gate.admissions) :
      Move J (.checkAndAdmit call admission) { J with
        edge := ⟨gate, J.edge.calls.replace call { entry with guard }⟩
        checks := J.checks ++ [checkOf entry.guard admission result] }
  | failed {call : Nat} {entry : AuthorizeCall C} {gate : EdgeSubscribeGate C}
      {result : Except CapabilityVerifierError (VerifiedSubscribeCapability C)}
      (hentry : J.edge.calls.lookup call = some entry)
      (hadmissions : gate.admissions = entry.guard.rollback J.edge.gate.admissions) :
      Move J (.finishAuthorize call result) { J with edge := ⟨gate, J.edge.calls.erase call⟩ }
  | granted {call : Nat} {entry : AuthorizeCall C} {gate : EdgeSubscribeGate C}
      {verified : VerifiedSubscribeCapability C} (hentry : J.edge.calls.lookup call = some entry)
      (hlive : entry.request.nowUnixSeconds < verified.expiresAt)
      (hadmissions : gate.admissions = entry.guard.commit J.edge.gate.admissions) :
      Move J (.finishAuthorize call (.ok verified)) { J with
        edge := ⟨gate, J.edge.calls.erase call⟩
        grants := J.grants ++
          [(entry.guard.reservationId, EdgeSubscribeGate.leaseFor entry verified)] }

theorem step_move (J : Journal C) (op : Op C) : Move J op (step J op).2 := by
  cases op with
  | registry op => exact .idle rfl rfl
  | revalidate lease nowUnixSeconds =>
      exact .idle (revalidate_admissions J.edge.gate lease nowUnixSeconds) rfl
  | beginAuthorize call request =>
      have hadmissions := beginAuthorize_admissions J.edge.gate request
      by_cases hflight : call ∈ J.edge.calls
      · simp only [step, EdgeState.step, if_pos hflight, note]
        exact .idle rfl rfl
      · cases hok : (J.edge.gate.beginAuthorize request).1 with
        | error error =>
            simp only [step, EdgeState.step, if_neg hflight, hok, note]
            exact .idle hadmissions rfl
        | ok entry =>
            simp only [step, EdgeState.step, if_neg hflight, hok, note]
            have hid : entry.guard.reservationId = J.edge.gate.nextReservationId := by
              rw [beginAuthorize_guard hok]
            rw [← hid]
            exact .begun hflight hok hadmissions
  | checkAndAdmit call admission =>
      cases hentry : J.edge.calls.lookup call with
      | none =>
          simp only [step, EdgeState.step, hentry, note]
          exact .idle rfl rfl
      | some entry =>
          simp only [step, EdgeState.step, hentry, note]
          exact .checked hentry
            (SubscribeAdmissionGuard.checkAndAdmit_checked entry.guard _ admission)
  | finishAuthorize call result =>
      cases hentry : J.edge.calls.lookup call with
      | none =>
          simp only [step, EdgeState.step, hentry, note]
          exact .idle rfl rfl
      | some entry =>
          cases hverified : EdgeSubscribeGate.checkVerified entry.request result with
          | error error =>
              simp only [step, EdgeState.step, hentry, EdgeSubscribeGate.finishAuthorize,
                hverified, note]
              exact .failed hentry rfl
          | ok verified =>
              obtain ⟨rfl, hlive⟩ := checkVerified_eq_ok hverified
              simp only [step, EdgeState.step, hentry, EdgeSubscribeGate.finishAuthorize,
                hverified, note]
              exact .granted hentry hlive rfl

end Journal

end AvMesh.Subscribe
