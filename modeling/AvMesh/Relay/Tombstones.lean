/-
  AvMesh.Relay.Tombstones
  ───────────────────────
  **AN OBJECT IS DELIVERED AT MOST ONCE PER TOMBSTONE LIFETIME.**

  A completed object leaves a tombstone behind.  The tombstones form a bounded
  first-in first-out memory:

    • moves leave the eviction order alone, and completing an object is
      `pushBounded` on it (`TableConsistent.complete_order`),
    • so every operation pushes exactly the object it delivers
      (`step_pushes`), and `mem_exec_of_pushes` says how long a tombstone
      stays,
    • while it stays, the object is refused (`TableConsistent.refusesAgain`):
      its symbols are duplicates or errors, its announcements start and join
      nothing, and its logical identity admits no other content.
-/
import AvMesh.Relay.Tables
import AvMesh.Lib.BoundedFifo

namespace AvMesh.Relay.RelayObjectReceiver

open AvMesh.Lib

variable {C : RelayCrates} {config : RelayObjectReceiverConfig C} {r r' : RelayObjectReceiver C}

/-! ## §1. The eviction order is a bounded memory. -/

theorem Move.completedOrder_eq (h : Move r r') : r'.completedOrder = r.completedOrder := by
  cases h with
  | dropObject key state hstate =>
      rw [removeActiveObject_eq true hstate]
  | start _ sessionId session announcement nowUs _ _ _ _ _ hstart =>
      obtain ⟨_, _, _, _, rfl⟩ := startObject_started hstart
      rfl
  | bookkeep | addSession | joinActive | joinCompleted | refuseSymbol | recordSymbol
  | takeEnvelope => rfl

theorem Quiet.completedOrder_eq (h : Quiet r r') : r'.completedOrder = r.completedOrder := by
  induction h with
  | refl => rfl
  | tail _ hlast ih => rw [hlast.completedOrder_eq, ih]

theorem Quiet.tableConsistent (hb : ConfigBounds config) (h : Quiet r r')
    (hr : TableConsistent config r) : TableConsistent config r' := by
  induction h with
  | refl => exact hr
  | tail _ hlast ih => exact hlast.tableConsistent hb ih

theorem TableConsistent.order_length (h : TableConsistent config r) :
    r.completedOrder.length = r.completed.size := by
  have hperm : r.completedOrder.Perm r.completed.keys := by
    rw [List.perm_ext_iff_of_nodup h.order_nodup r.completed.keys_nodup]
    intro key
    rw [h.mem_order, AList.mem_keys]
  rw [AList.size_eq_length_keys, hperm.length_eq]

/-- Completing an object pushes it onto the bounded memory of tombstones. -/
theorem TableConsistent.complete_order (h : TableConsistent config r) (hb : ConfigBounds config)
    {key : ObjectKey} {active : ActiveObject C} (hactive : r.objects.lookup key = some active) :
    (r.complete key active).completedOrder
      = pushBounded config.maxCompletedObjects r.completedOrder key := by
  have hlen := h.order_length
  have hstate : (r.complete key active).completedOrder
      = (evictCompleted config.maxCompletedObjects r.completedOrder r.completed r.logicalKeys).1
        ++ [key] := by
    unfold RelayObjectReceiver.complete
    rw [removeActiveObject_eq false hactive]
    unfold insertCompleted
    simp only [h.config_eq, Bool.false_eq_true, if_false]
  rw [hstate, ← drop_append_eq_pushBounded hb.completedObjects.1]
  rcases evictCompleted_cases r.logicalKeys h.mem_order h.completed_le hb.completedObjects.1 with
    ⟨hlt, heq⟩ | ⟨oldest, rest, horder, hfull, heq⟩
  · -- room for one more: nothing is dropped
    rw [heq, show r.completedOrder.length + 1 - config.maxCompletedObjects = 0 by omega]
    rfl
  · rw [heq, show r.completedOrder.length + 1 - config.maxCompletedObjects = 1 by omega, horder]
    rfl

/-- The object an operation delivers. -/
def delivered (r : RelayObjectReceiver C) (op : Op C) : Option ObjectKey :=
  (step r op).1.decodedKey

/-- **One operation pushes exactly the object it delivers**, which has no
tombstone yet. -/
theorem step_pushes (hb : ConfigBounds config) (h : TableConsistent config r) (op : Op C) :
    PushesEmitted step delivered config.maxCompletedObjects completedOrder r op := by
  have heffect := step_effect r op
  unfold PushesEmitted
  unfold delivered
  cases hdelivered : (step r op).1.decodedKey with
  | none =>
      rw [hdelivered] at heffect
      exact Quiet.completedOrder_eq heffect
  | some key =>
      rw [hdelivered] at heffect
      obtain ⟨r₁, active, hbefore, hactive, hafter⟩ := heffect
      have h₁ := hbefore.tableConsistent hb h
      -- the delivered object was active until now
      have hnot : key ∉ r₁.completedOrder := fun hk =>
        h₁.disjoint key (AList.mem_of_lookup hactive) ((h₁.mem_order key).mp hk)
      refine ⟨hbefore.completedOrder_eq ▸ hnot, ?_⟩
      rw [hafter.completedOrder_eq, h₁.complete_order hb hactive, hbefore.completedOrder_eq]

/-! ## §2. What a tombstone refuses. -/

/-- A symbol of another object with the logical identity of a live one is
refused. -/
theorem TableConsistent.logicalConflict_of_live (h : TableConsistent config r)
    {key other : ObjectKey} (hkey : r.Live key) (hne : other ≠ key)
    (hfrom : LogicalObjectIdentity.from other = LogicalObjectIdentity.from key) :
    r.logicalConflict other = true := by
  have hlookup := (h.logical (LogicalObjectIdentity.from other) key).mpr ⟨hfrom.symm, hkey⟩
  unfold logicalConflict
  rw [hlookup]
  simpa using hne.symm

/-- An announcement of a completed object is answered `AlreadyComplete` or
refused. -/
theorem announceScanned_completed {announcement : C.Announcement} (sessionId nowUs : Nat)
    (hdone : announcement.key ∈ r.completed) :
    (r.announceScanned sessionId announcement nowUs).1 = .ok .alreadyComplete
      ∨ ∃ stop, (r.announceScanned sessionId announcement nowUs).1 = .error stop := by
  obtain ⟨done, hdone⟩ := AList.exists_lookup_of_mem hdone
  unfold announceScanned
  cases hcheck : r.checkAnnouncement sessionId announcement with
  | error stop => exact .inr ⟨stop, rfl⟩
  | ok session =>
      dsimp only
      rw [hdone]
      dsimp only
      unfold rejoinCompleted
      split
      · exact .inr ⟨_, rfl⟩
      · split
        next stop _ => exact .inr ⟨stop, rfl⟩
        next => exact .inl rfl

/-- What the receiver answers about an object it remembers as completed. -/
structure RefusesAgain (config : RelayObjectReceiverConfig C) (r : RelayObjectReceiver C)
    (key : ObjectKey) : Prop where
  /-- Any datagram that carries a symbol of the object, from any session, at any
  time: `Duplicate` or an error. -/
  symbol : ∀ sessionId wire nowUs symbol, C.decodeDatagram wire config.relayLimits = .ok symbol →
    symbol.objectKey = key →
      (∃ role deadline, (r.pushWireDatagram sessionId wire nowUs).1
          = .ok (.duplicate key role deadline))
        ∨ ∃ error, (r.pushWireDatagram sessionId wire nowUs).1 = .error (.err error)
  /-- Any announcement of the object: neither `Started` nor `Joined`. -/
  announcement : ∀ sessionId announcement nowUs, announcement.key = key →
    (r.announceObject sessionId announcement nowUs).1 ≠ .ok .started
      ∧ (r.announceObject sessionId announcement nowUs).1 ≠ .ok .joined
  /-- Any datagram of another content under the same logical identity: an
  error. -/
  sibling : ∀ sessionId wire nowUs symbol, C.decodeDatagram wire config.relayLimits = .ok symbol →
    symbol.objectKey ≠ key →
    LogicalObjectIdentity.from symbol.objectKey = LogicalObjectIdentity.from key →
      ∃ error, (r.pushWireDatagram sessionId wire nowUs).1 = .error (.err error)

/-- The scans of a call keep the tombstones. -/
theorem TableConsistent.mem_completed_of_quiet (h : TableConsistent config r)
    (hb : ConfigBounds config) (hquiet : Quiet r r') {key : ObjectKey}
    (hkey : key ∈ r.completedOrder) : key ∈ r'.completed := by
  rw [← (hquiet.tableConsistent hb h).mem_order, hquiet.completedOrder_eq]
  exact hkey

theorem TableConsistent.refusesAgain (h : TableConsistent config r) (hb : ConfigBounds config)
    {key : ObjectKey} (hkey : key ∈ r.completedOrder) : RefusesAgain config r key := by
  have hpushed : ∀ nowUs, Quiet r (r.countReceived.expireIfDue nowUs) := fun nowUs =>
    (quiet_counters r _).trans (expireIfDue_quiet _ nowUs)
  refine ⟨?_, ?_, ?_⟩
  · -- the tombstone answers before the deadline and the active objects are asked
    intro sessionId wire nowUs symbol hdecode hsymbol
    rw [← h.config_eq] at hdecode
    rcases pushWireDatagram_cases r sessionId wire nowUs with
      hrefused | ⟨session, pushed, _, hpushed', _, _, heq⟩
    · exact .inr hrefused
    · cases Except.ok.inj (hdecode.symm.trans hpushed')
      rw [heq]
      obtain ⟨done, hdone⟩ :=
        AList.exists_lookup_of_mem (h.mem_completed_of_quiet hb (hpushed nowUs) hkey)
      unfold pushChecked
      rw [hsymbol, hdone]
      dsimp only
      unfold pushCompleted validateCompletedSymbol rejectIf
      split
      next stop hstop =>
        split at hstop
        · cases hstop
          exact .inr ⟨_, rfl⟩
        · cases hstop
      next => exact .inl ⟨symbol.role, symbol.deadline, by rw [← hsymbol]; rfl⟩
  · intro sessionId announcement nowUs hannounced
    have hdone := h.mem_completed_of_quiet hb (expireIfDue_quiet r nowUs) hkey
    rw [← hannounced] at hdone
    unfold announceObject
    rw [recordIfRejected_fst]
    unfold tryAnnounceObject
    rcases announceScanned_completed sessionId nowUs hdone with hdone | ⟨stop, hrefused⟩
    · rw [hdone]
      exact ⟨by decide, by decide⟩
    · rw [hrefused]
      exact ⟨nofun, nofun⟩
  · intro sessionId wire nowUs symbol hdecode hne hfrom
    rw [← h.config_eq] at hdecode
    rcases pushWireDatagram_cases r sessionId wire nowUs with
      hrefused | ⟨session, pushed, _, hpushed', _, hlogical, _⟩
    · exact hrefused
    · cases Except.ok.inj (hdecode.symm.trans hpushed')
      -- the tombstone holds the logical identity, so the conflict check cannot pass
      have hscanned := (hpushed nowUs).tableConsistent hb h
      have hlive : (r.countReceived.expireIfDue nowUs).Live key :=
        .inr (h.mem_completed_of_quiet hb (hpushed nowUs) hkey)
      rw [hscanned.logicalConflict_of_live hlive hne hfrom] at hlogical
      cases hlogical

/-! ## §3. Every run. -/

/-- **AT MOST ONE DELIVERY PER TOMBSTONE LIFETIME.**  After an operation that
delivered `key`, and as long as fewer than `maxCompletedObjects` other objects
have been delivered since, the receiver refuses the object. -/
theorem exec_delivers_once {config : RelayObjectReceiverConfig C} {r : RelayObjectReceiver C}
    (h : RelayObjectReceiver.new config = .ok r) (before : List (Op C)) (op : Op C)
    (after : List (Op C)) {key : ObjectKey}
    (hdecoded : delivered (exec step r before) op = some key)
    (hfew : ((emitted step delivered (step (exec step r before) op).2 after).toFinset.erase
      key).card < config.maxCompletedObjects) :
    RefusesAgain config (exec step r (before ++ op :: after)) key := by
  have hb := (new_ok h).1
  have hbefore := exec_tableConsistent h before
  have hfirst := step_pushes hb hbefore op
  unfold PushesEmitted at hfirst
  rw [hdecoded] at hfirst
  -- every later operation starts in a consistent state, so it pushes what it delivers
  have hpushes : ∀ e ∈ trace step (step (exec step r before) op).2 after,
      PushesEmitted step delivered config.maxCompletedObjects completedOrder e.1 e.2 := by
    intro e he
    obtain ⟨ops, _, _, hstate⟩ := exists_exec_of_mem_trace step he
    rw [hstate]
    refine step_pushes hb ?_ e.2
    exact exec_invariant step _ (step_tableConsistent hb) ops (step_tableConsistent hb _ op hbefore)
  have hkey := mem_exec_of_pushes hbefore.order_nodup hfirst.1 hfirst.2 hpushes hfew
  rw [← exec_cons, ← exec_append] at hkey
  exact (exec_tableConsistent h _).refusesAgain hb hkey

/-- Object 1 is delivered by its second symbol; a scan past its deadline later,
the receiver still refuses it. -/
theorem exec_delivers_once_sample :
    delivered (exec step (initial sampleConfig) (sampleRun.take 3))
        (.pushWireDatagram 1 (sampleWire 1 1) 1100) = some (sampleKey 1)
      ∧ RefusesAgain sampleConfig (exec step (initial sampleConfig)
          (sampleRun.take 3 ++ .pushWireDatagram 1 (sampleWire 1 1) 1100 :: [.expire 2000000]))
        (sampleKey 1) :=
  ⟨by decide, exec_delivers_once rfl _ _ _ (by decide) (by decide)⟩

end AvMesh.Relay.RelayObjectReceiver
