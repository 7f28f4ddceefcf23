/-
  AvMesh.Edge.Sessions
  ────────────────────
  **PLAYBACK SESSIONS SURVIVE OVERLOAD.**

  The session table is a bounded least-recently-used map.  A session that was
  answered stays until it is idle or until the table evicts it, and the table
  evicts only its oldest entry: then every other entry is younger, so as many
  other sessions as the table holds were answered since.

    • `sessions_survive` — the table never exceeds `maxSessions`, and a session
      is answered `existing` at its next request unless it was idle or that
      many others came in between.

  `idleMs` saturates, so no session is kept for all of a 64-bit clock
  (`saturated_idle_forgets`).
-/
import AvMesh.Edge.Overload
import Mathlib.Data.List.Dedup
import Mathlib.Data.List.Perm.Subperm

namespace AvMesh.Edge.EdgeAdmission

open AvMesh.Lib

variable {e : EdgeAdmission} {op : Op} {ops : List Op} {config : EdgeAdmissionConfig}
  {sessionId : String} {overloaded : Bool} {elapsedMs : UInt64} {favoured : String}

/-! ## §1. Answers. -/

/-- The time an operation reads the session clock at. -/
def Op.elapsed : Op → Option Nat
  | .snapshotAt _ elapsedMs => some elapsedMs.toNat
  | .admitPlaybackAt _ _ elapsedMs _ => some elapsedMs.toNat
  | _ => none

/-- The session an operation asks for. -/
def Op.session : Op → Option String
  | .admitPlaybackAt sessionId _ _ _ => sessionId
  | _ => none

def ElapsedOrdered (ops : List Op) : Prop := (ops.filterMap Op.elapsed).Pairwise (· ≤ ·)

instance (ops : List Op) : Decidable (ElapsedOrdered ops) :=
  inferInstanceAs (Decidable (List.Pairwise _ _))

/-- The session was answered `admitted` or `existing`. -/
def Reply.isAnswer : Reply → Bool
  | .admission .admitted => true
  | .admission .existing => true
  | _ => false

/-- The session a step answers, and when. -/
def answeredBy (entry : EdgeAdmission × Op) : Option (String × Nat) :=
  match entry.2 with
  | .admitPlaybackAt (some sessionId) _ elapsedMs _ =>
      if (step entry.1 entry.2).1.isAnswer then some (sessionId, elapsedMs.toNat) else none
  | _ => none

/-- All answers of a run. -/
def answered (config : EdgeAdmissionConfig) (ops : List Op) : List (String × Nat) :=
  (trace step (new config) ops).filterMap answeredBy

/-- The distinct other sessions answered from `t` to `t'`. -/
def othersAnswered (config : EdgeAdmissionConfig) (ops : List Op) (sessionId : String)
    (t t' : Nat) : List String :=
  (((answered config ops).filter fun entry =>
    entry.1 ≠ sessionId ∧ t ≤ entry.2 ∧ entry.2 ≤ t').map (·.1)).dedup

theorem mem_answered_append {entry : String × Nat} :
    entry ∈ answered config (ops ++ [op]) ↔
      entry ∈ answered config ops ∨
        answeredBy (exec step (new config) ops, op) = some entry := by
  unfold answered
  rw [filterMap_trace_append_singleton, List.mem_append, Option.mem_toList]

/-- A longer run has at least the answers of a shorter one. -/
theorem answered_subset (ops rest : List Op) :
    answered config ops ⊆ answered config (ops ++ rest) := by
  unfold answered
  rw [trace_append, List.filterMap_append]
  exact List.subset_append_left _ _

theorem mem_othersAnswered {other : String} {t t' : Nat} :
    other ∈ othersAnswered config ops sessionId t t' ↔
      other ≠ sessionId ∧ ∃ at_, (other, at_) ∈ answered config ops ∧ t ≤ at_ ∧ at_ ≤ t' := by
  unfold othersAnswered
  rw [List.mem_dedup, List.mem_map]
  constructor
  · rintro ⟨⟨other, at_⟩, hmem, rfl⟩
    rw [List.mem_filter, decide_eq_true_eq] at hmem
    obtain ⟨hmem, hne, hfrom, hto⟩ := hmem
    exact ⟨hne, at_, hmem, hfrom, hto⟩
  · rintro ⟨hne, at_, hmem, hfrom, hto⟩
    exact ⟨(other, at_), List.mem_filter.mpr ⟨hmem, by simp [hne, hfrom, hto]⟩, rfl⟩

/-! ## §2. What an operation does to the table. -/

/-- The table after the entries idle at `now` have left. -/
def pruned (e : EdgeAdmission) (now : Nat) : Table String Nat :=
  pruneSessions e.sessions now e.config.sessionIdleSeconds.toNat

def idleMs (config : EdgeAdmissionConfig) : Nat := satMul config.normalized.sessionIdleSeconds.toNat 1000

theorem lookup_pruned_iff {now t : Nat} (h : e.config = config.normalized) :
    (e.pruned now).lookup sessionId = some t ↔
      e.sessions.lookup sessionId = some t ∧ now - t < idleMs config := by
  unfold pruned pruneSessions idleMs
  rw [AList.lookup_retain_iff, decide_eq_true_eq, h]

theorem admit_of_lookup {t : Nat} (h : (e.pruned elapsedMs.toNat).lookup sessionId = some t) :
    step e (.admitPlaybackAt (some sessionId) overloaded elapsedMs favoured) =
      (.admission .existing, { e with
        sessions := (e.pruned elapsedMs.toNat).replace sessionId elapsedMs.toNat }) := by
  unfold step admitPlaybackAt
  unfold pruned at h ⊢
  simp only [h]

theorem admit_of_overloaded (h : (e.pruned elapsedMs.toNat).lookup sessionId = none) :
    step e (.admitPlaybackAt (some sessionId) true elapsedMs favoured) =
      (.admission .rejected, { e with sessions := e.pruned elapsedMs.toNat }) := by
  unfold step admitPlaybackAt
  unfold pruned at h ⊢
  simp only [h, if_true]

theorem admit_of_room (h : (e.pruned elapsedMs.toNat).lookup sessionId = none) :
    step e (.admitPlaybackAt (some sessionId) false elapsedMs favoured) =
      (.admission .admitted, { e with
        sessions := (e.evictOldest (e.pruned elapsedMs.toNat) favoured).insert sessionId
          elapsedMs.toNat
        admittedSessions := fetchAddOne e.admittedSessions }) := by
  unfold step admitPlaybackAt
  unfold pruned at h ⊢
  simp only [h, Bool.false_eq_true, if_false]

/-- **The operations on the session table.** -/
theorem sessions_step (e : EdgeAdmission) (op : Op) :
    (answeredBy (e, op) = none ∧ (step e op).2.sessions = e.sessions) ∨
    (∃ now, op.elapsed = some now ∧ answeredBy (e, op) = none ∧
      (step e op).2.sessions = e.pruned now) ∨
    (∃ sessionId now t, op.elapsed = some now ∧ op.session = some sessionId ∧
      answeredBy (e, op) = some (sessionId, now) ∧ (e.pruned now).lookup sessionId = some t ∧
      (step e op).2.sessions = (e.pruned now).replace sessionId now) ∨
    (∃ sessionId now favoured, op.elapsed = some now ∧ op.session = some sessionId ∧
      answeredBy (e, op) = some (sessionId, now) ∧ (e.pruned now).lookup sessionId = none ∧
      (step e op).2.sessions =
        (e.evictOldest (e.pruned now) favoured).insert sessionId now) := by
  cases op with
  | recordBytesAt second bytes => exact .inl ⟨rfl, rfl⟩
  | snapshotAt second elapsedMs => exact .inr (.inl ⟨elapsedMs.toNat, rfl, rfl, rfl⟩)
  | recordRejection => exact .inl ⟨rfl, rfl⟩
  | admitPlaybackAt session overloaded elapsedMs favoured =>
      cases session with
      | none => exact .inl ⟨rfl, rfl⟩
      | some sessionId =>
          cases hlookup : (e.pruned elapsedMs.toNat).lookup sessionId with
          | some t =>
              have hstep := @admit_of_lookup e sessionId overloaded elapsedMs favoured t hlookup
              refine .inr (.inr (.inl ⟨sessionId, elapsedMs.toNat, t, rfl, rfl, ?_, hlookup, ?_⟩))
              · unfold answeredBy
                rw [hstep]
                rfl
              · rw [hstep]
          | none =>
              cases overloaded with
              | true =>
                  have hstep := @admit_of_overloaded e sessionId elapsedMs favoured hlookup
                  refine .inr (.inl ⟨elapsedMs.toNat, rfl, ?_, ?_⟩)
                  · unfold answeredBy
                    rw [hstep]
                    rfl
                  · rw [hstep]
              | false =>
                  have hstep := @admit_of_room e sessionId elapsedMs favoured hlookup
                  refine .inr (.inr (.inr ⟨sessionId, elapsedMs.toNat, favoured, rfl, rfl, ?_,
                    hlookup, ?_⟩))
                  · unfold answeredBy
                    rw [hstep]
                    rfl
                  · rw [hstep]

theorem size_pruned_le (now : Nat) : (e.pruned now).size ≤ e.sessions.size :=
  AList.size_retain_le _ _

/-- What the eviction leaves was there before. -/
theorem lookup_of_evictOldest {sessions : Table String Nat} {t : Nat}
    (h : (e.evictOldest sessions favoured).lookup sessionId = some t) :
    sessions.lookup sessionId = some t := by
  unfold evictOldest at h
  split at h
  · split at h
    · exact (AList.lookup_of_erase h).2
    · exact h
  · exact h

/-- An eviction makes room for one entry. -/
theorem size_evictOldest {sessions : Table String Nat} (hpos : 1 ≤ e.config.maxSessions.toNat)
    (h : sessions.size ≤ e.config.maxSessions.toNat) :
    (e.evictOldest sessions favoured).size < e.config.maxSessions.toNat := by
  unfold evictOldest
  split
  next hfull =>
    obtain ⟨oldest, holdest⟩ := AList.exists_oldest favoured (show 0 < sessions.size by omega)
    obtain ⟨t, hlookup, -⟩ := AList.lookup_oldest holdest
    have hsize := AList.size_erase hlookup
    rw [holdest]
    show (sessions.erase oldest).size < _
    omega
  next hroom => omega

/-- An entry that an eviction removes is a least one of a full table. -/
theorem evictOldest_removes {sessions : Table String Nat} {t : Nat}
    (hlookup : sessions.lookup sessionId = some t)
    (hgone : (e.evictOldest sessions favoured).lookup sessionId ≠ some t) :
    e.config.maxSessions.toNat ≤ sessions.size ∧
      ∀ other t', sessions.lookup other = some t' → t ≤ t' := by
  unfold evictOldest at hgone
  split at hgone
  next hfull =>
    split at hgone
    next oldest holdest =>
      obtain ⟨least, hleast, hall⟩ := AList.lookup_oldest holdest
      have hsame : sessionId = oldest := by
        by_contra hne
        exact hgone (by rw [AList.lookup_erase_ne hne, hlookup])
      subst hsame
      rw [hlookup] at hleast
      cases hleast
      exact ⟨hfull, hall⟩
    next => exact absurd hlookup hgone
  next => exact absurd hlookup hgone

/-! ## §3. The table of a run. -/

/-- The table is bounded, and its entries are answers of the run. -/
structure SessionsOf (config : EdgeAdmissionConfig) (ops : List Op) (e : EdgeAdmission) : Prop where
  config_eq : e.config = config.normalized
  bounded : e.sessions.size ≤ config.normalized.maxSessions.toNat
  answers : ∀ sessionId t, e.sessions.lookup sessionId = some t →
    (sessionId, t) ∈ answered config ops

theorem sessionsOf_exec (config : EdgeAdmissionConfig) (ops : List Op) :
    SessionsOf config ops (exec step (new config) ops) := by
  refine exec_history step (SessionsOf config) (new config) ?_ ?_ ops
  · refine ⟨rfl, Nat.zero_le _, ?_⟩
    intro sessionId t h
    cases h
  intro ops op ih
  refine ⟨config_step.trans ih.config_eq, ?_, ?_⟩
  · rcases sessions_step (exec step (new config) ops) op with
      ⟨-, h⟩ | ⟨now, -, -, h⟩ | ⟨id, now, t, -, -, -, hlookup, h⟩ | ⟨id, now, fav, -, -, -, hnone, h⟩
    · rw [h]
      exact ih.bounded
    · rw [h]
      exact (size_pruned_le now).trans ih.bounded
    · rw [h, AList.size_replace]
      exact (size_pruned_le now).trans ih.bounded
    · rw [h]
      have hpos := config.maxSessions_pos
      have hroom : ((exec step (new config) ops).evictOldest
          ((exec step (new config) ops).pruned now) fav).size
            < (exec step (new config) ops).config.maxSessions.toNat := by
        apply size_evictOldest
        · rw [ih.config_eq]
          exact hpos
        · rw [ih.config_eq]
          exact (size_pruned_le now).trans ih.bounded
      rw [ih.config_eq] at hroom
      rw [AList.size_insert_of_notMem]
      · omega
      · intro hmem
        obtain ⟨t, ht⟩ := AList.exists_lookup_of_mem hmem
        rw [lookup_of_evictOldest ht] at hnone
        cases hnone
  · have hkept : ∀ now sessionId t,
        ((exec step (new config) ops).pruned now).lookup sessionId = some t →
          (sessionId, t) ∈ answered config ops :=
      fun now sessionId t ht => ih.answers _ _ ((lookup_pruned_iff ih.config_eq).mp ht).1
    intro sessionId t hlookup
    rw [mem_answered_append]
    rcases sessions_step (exec step (new config) ops) op with
      ⟨-, h⟩ | ⟨now, -, -, h⟩ | ⟨id, now, t', -, -, hanswer, hlookup', h⟩ |
        ⟨id, now, fav, -, -, hanswer, hnone, h⟩
    · rw [h] at hlookup
      exact .inl (ih.answers _ _ hlookup)
    · rw [h] at hlookup
      exact .inl (hkept now _ _ hlookup)
    · rw [h] at hlookup
      rcases AList.lookup_of_replace hlookup' hlookup with ⟨rfl, rfl⟩ | ⟨-, hold⟩
      · exact .inr hanswer
      · exact .inl (hkept now _ _ hold)
    · rw [h] at hlookup
      rcases AList.lookup_of_insert hlookup with ⟨rfl, rfl⟩ | ⟨-, hold⟩
      · exact .inr hanswer
      · exact .inl (hkept now _ _ (lookup_of_evictOldest hold))

/-! ## §4. Survival. -/

/-- Whoever evicts a session has as many other sessions behind it as the table holds. -/
theorem maxSessions_le_othersAnswered {now t t' : Nat} {newcomer : String}
    (h : SessionsOf config ops e) (he : e = exec step (new config) ops)
    (hanswer : answeredBy (e, op) = some (newcomer, now)) (hne : newcomer ≠ sessionId)
    (hnone : (e.pruned now).lookup newcomer = none)
    (hlookup : (e.pruned now).lookup sessionId = some t)
    (hgone : (e.evictOldest (e.pruned now) favoured).lookup sessionId ≠ some t)
    (hpast : ∀ other at_, e.sessions.lookup other = some at_ → at_ ≤ now) (hnow : now ≤ t')
    (hfrom : t ≤ now) :
    config.normalized.maxSessions.toNat
      ≤ (othersAnswered config (ops ++ [op]) sessionId t t').length := by
  obtain ⟨hfull, hleast⟩ := evictOldest_removes hlookup hgone
  rw [h.config_eq] at hfull
  -- the entries of the full table but for the session itself, and the newcomer
  have hnodup : (newcomer :: (e.pruned now).keys.erase sessionId).Nodup := by
    refine List.nodup_cons.mpr ⟨?_, (AList.keys_nodup _).erase _⟩
    intro hmem
    obtain ⟨t, ht⟩ := AList.exists_lookup_of_mem (List.mem_of_mem_erase hmem)
    rw [ht] at hnone
    cases hnone
  have hsubset : newcomer :: (e.pruned now).keys.erase sessionId
      ⊆ othersAnswered config (ops ++ [op]) sessionId t t' := by
    intro other hother
    rw [mem_othersAnswered]
    rcases List.mem_cons.mp hother with rfl | hother
    · refine ⟨hne, now, mem_answered_append.mpr (.inr ?_), hfrom, hnow⟩
      rw [← he]
      exact hanswer
    · obtain ⟨hother, hmem⟩ := ((AList.keys_nodup _).mem_erase_iff).mp hother
      obtain ⟨at_, hat⟩ := AList.exists_lookup_of_mem hmem
      have hold := ((lookup_pruned_iff h.config_eq).mp hat).1
      refine ⟨hother, at_, mem_answered_append.mpr (.inl (h.answers _ _ hold)),
        hleast other at_ hat, ?_⟩
      exact (hpast other at_ hold).trans hnow
  have hlength := (List.subperm_of_subset hnodup hsubset).length_le
  have herase : ((e.pruned now).keys.erase sessionId).length = (e.pruned now).keys.length - 1 :=
    List.length_erase_of_mem (AList.mem_of_lookup hlookup)
  rw [List.length_cons, herase, ← AList.size_eq_length_keys] at hlength
  omega

/-- The time of an answer is read by the operation that gave it. -/
theorem elapsed_of_answeredBy {now : Nat} (h : answeredBy (e, op) = some (sessionId, now)) :
    op.elapsed = some now := by
  rcases sessions_step e op with
    ⟨hno, -⟩ | ⟨_, -, hno, -⟩ | ⟨_, _, _, helapsed, -, hanswer, -⟩ | ⟨_, _, _, helapsed, -, hanswer, -⟩
  · rw [hno] at h
    cases h
  · rw [hno] at h
    cases h
  · rw [hanswer] at h
    cases h
    exact helapsed
  · rw [hanswer] at h
    cases h
    exact helapsed

theorem elapsed_of_mem_answered {now : Nat} (h : (sessionId, now) ∈ answered config ops) :
    now ∈ ops.filterMap Op.elapsed := by
  obtain ⟨⟨e, op⟩, hmem, hanswer⟩ := List.mem_filterMap.mp h
  obtain ⟨before, after, hops, -⟩ := exists_exec_of_mem_trace step hmem
  refine List.mem_filterMap.mpr ⟨op, ?_, elapsed_of_answeredBy hanswer⟩
  rw [hops]
  exact List.mem_append_right _ List.mem_cons_self

/-- **One step**: an entry that is neither idle nor outnumbered stays. -/
theorem lookup_step {t t' : Nat} (hlookup : (exec step (new config) ops).sessions.lookup sessionId = some t)
    (hordered : ElapsedOrdered (ops ++ [op])) (hother : op.session ≠ some sessionId)
    (htime : ∀ now, op.elapsed = some now → t ≤ now ∧ now ≤ t' ∧ now - t < idleMs config)
    (hfew : (othersAnswered config (ops ++ [op]) sessionId t t').length
      < config.normalized.maxSessions.toNat) :
    (exec step (new config) (ops ++ [op])).sessions.lookup sessionId = some t := by
  have hstate := sessionsOf_exec config ops
  have hkept : ∀ now, op.elapsed = some now →
      ((exec step (new config) ops).pruned now).lookup sessionId = some t :=
    fun now hnow => (lookup_pruned_iff hstate.config_eq).mpr ⟨hlookup, (htime now hnow).2.2⟩
  rw [exec_append, exec_cons, exec_nil]
  rcases sessions_step (exec step (new config) ops) op with
    ⟨-, h⟩ | ⟨now, hnow, -, h⟩ | ⟨id, now, t'', hnow, hid, -, hlookup', h⟩ |
      ⟨id, now, fav, hnow, hid, hanswer, hnone, h⟩
  · rw [h]
    exact hlookup
  · rw [h]
    exact hkept now hnow
  · have hne : sessionId ≠ id := by
      rintro rfl
      exact hother hid
    rw [h, AList.lookup_replace_ne _ _ hne]
    exact hkept now hnow
  · have hne : sessionId ≠ id := by
      rintro rfl
      exact hother hid
    rw [h, AList.lookup_insert_ne hne]
    by_contra hgone
    obtain ⟨hfrom, hto, -⟩ := htime now hnow
    refine absurd hfew (Nat.not_lt.mpr ?_)
    refine maxSessions_le_othersAnswered hstate rfl hanswer hne.symm hnone (hkept now hnow) hgone ?_
      hto hfrom
    intro other at_ hat
    have hmem := elapsed_of_mem_answered (hstate.answers other at_ hat)
    unfold ElapsedOrdered at hordered
    rw [List.filterMap_append, List.filterMap_cons_some hnow] at hordered
    exact (List.pairwise_append.mp hordered).2.2 at_ hmem now List.mem_cons_self

/-- An answered session is in the table with the time of its answer. -/
theorem lookup_of_answeredBy {now : Nat} (h : answeredBy (e, op) = some (sessionId, now)) :
    (step e op).2.sessions.lookup sessionId = some now := by
  rcases sessions_step e op with
    ⟨hno, -⟩ | ⟨_, -, hno, -⟩ | ⟨_, _, _, -, -, hanswer, hlookup, hstep⟩ |
      ⟨_, _, _, -, -, hanswer, -, hstep⟩
  · rw [hno] at h
    cases h
  · rw [hno] at h
    cases h
  · rw [hanswer] at h
    cases h
    rw [hstep]
    exact AList.lookup_replace_self _ hlookup
  · rw [hanswer] at h
    cases h
    rw [hstep]
    exact AList.lookup_insert _

theorem othersAnswered_length_le (ops rest : List Op) (sessionId : String) (t t' : Nat) :
    (othersAnswered config ops sessionId t t').length
      ≤ (othersAnswered config (ops ++ rest) sessionId t t').length := by
  refine (List.subperm_of_subset (List.nodup_dedup _) ?_).length_le
  intro other hother
  obtain ⟨hne, at_, hmem, htimes⟩ := mem_othersAnswered.mp hother
  exact mem_othersAnswered.mpr ⟨hne, at_, answered_subset ops rest hmem, htimes⟩

theorem ElapsedOrdered.left {rest : List Op} (h : ElapsedOrdered (ops ++ rest)) :
    ElapsedOrdered ops := by
  unfold ElapsedOrdered at h ⊢
  rw [List.filterMap_append] at h
  exact (List.pairwise_append.mp h).1

/-- **The run**: the entry stays until the next request of its session. -/
theorem lookup_between {t t' : Nat} (between : List Op)
    (hlookup : (exec step (new config) ops).sessions.lookup sessionId = some t)
    (hordered : ElapsedOrdered (ops ++ between))
    (hother : ∀ op ∈ between, op.session ≠ some sessionId)
    (htime : ∀ op ∈ between, ∀ now, op.elapsed = some now →
      t ≤ now ∧ now ≤ t' ∧ now - t < idleMs config)
    (hfew : (othersAnswered config (ops ++ between) sessionId t t').length
      < config.normalized.maxSessions.toNat) :
    (exec step (new config) (ops ++ between)).sessions.lookup sessionId = some t := by
  -- from the end of the run, so that the answers counted are those so far
  induction between using List.reverseRecOn with
  | nil =>
      rw [List.append_nil]
      exact hlookup
  | append_singleton between op ih =>
      rw [← List.append_assoc] at hordered hfew ⊢
      have hbefore := ih hordered.left
        (fun op hop => hother op (List.mem_append_left _ hop))
        (fun op hop => htime op (List.mem_append_left _ hop))
        ((othersAnswered_length_le _ [op] sessionId t t').trans_lt hfew)
      have hmem : op ∈ between ++ [op] := List.mem_append_right _ List.mem_cons_self
      exact lookup_step hbefore hordered (hother op hmem) (htime op hmem) hfew

/-- **The session table is bounded, and answered sessions survive.**  A session answered at `t`
is answered `existing` at its next request at `t'`, overloaded or not, if it was not idle and
fewer than `maxSessions` others were answered from `t` to `t'`. -/
theorem sessions_survive (config : EdgeAdmissionConfig) :
    (∀ ops, (exec step (new config) ops).sessions.size ≤ config.normalized.maxSessions.toNat) ∧
    ∀ (before between : List Op) (sessionId : String) (overloaded overloaded' : Bool)
      (t t' : UInt64) (favoured favoured' : String),
      ElapsedOrdered (before ++ .admitPlaybackAt (some sessionId) overloaded t favoured ::
        between ++ [.admitPlaybackAt (some sessionId) overloaded' t' favoured']) →
      (step (exec step (new config) before)
        (.admitPlaybackAt (some sessionId) overloaded t favoured)).1.isAnswer = true →
      (∀ op ∈ between, op.session ≠ some sessionId) →
      t'.toNat - t.toNat < idleMs config →
      (othersAnswered config
        (before ++ .admitPlaybackAt (some sessionId) overloaded t favoured :: between)
        sessionId t.toNat t'.toNat).length < config.normalized.maxSessions.toNat →
      (step (exec step (new config)
        (before ++ .admitPlaybackAt (some sessionId) overloaded t favoured :: between))
        (.admitPlaybackAt (some sessionId) overloaded' t' favoured')).1 = .admission .existing := by
  refine ⟨fun ops => (sessionsOf_exec config ops).bounded, ?_⟩
  intro before between sessionId overloaded overloaded' t t' favoured favoured' hordered hanswer
    hnext hidle hfew
  have hanswered : answeredBy (exec step (new config) before,
      .admitPlaybackAt (some sessionId) overloaded t favoured) = some (sessionId, t.toNat) := by
    unfold answeredBy
    exact if_pos hanswer
  have hfirst : (exec step (new config)
      (before ++ [.admitPlaybackAt (some sessionId) overloaded t favoured])).sessions.lookup
        sessionId = some t.toNat := by
    rw [exec_append, exec_cons, exec_nil]
    exact lookup_of_answeredBy hanswered
  have hsplit : before ++ Op.admitPlaybackAt (some sessionId) overloaded t favoured :: between =
      before ++ [.admitPlaybackAt (some sessionId) overloaded t favoured] ++ between := by
    rw [List.append_assoc, List.singleton_append]
  rw [hsplit] at hordered hfew ⊢
  have htimes : ∀ op ∈ between, ∀ now, op.elapsed = some now →
      t.toNat ≤ now ∧ now ≤ t'.toNat ∧ now - t.toNat < idleMs config := by
    intro op hop now hnow
    have hmem : now ∈ between.filterMap Op.elapsed := List.mem_filterMap.mpr ⟨op, hop, hnow⟩
    unfold ElapsedOrdered at hordered
    rw [List.filterMap_append, List.filterMap_append, List.filterMap_append] at hordered
    have hto := (List.pairwise_append.mp hordered).2.2 now
      (List.mem_append_right _ hmem) t'.toNat List.mem_cons_self
    have hfrom := (List.pairwise_append.mp (List.pairwise_append.mp hordered).1).2.2 t.toNat
      (List.mem_append_right _ List.mem_cons_self) now hmem
    exact ⟨hfrom, hto, by omega⟩
  have hkept := lookup_between between hfirst hordered.left hnext htimes hfew
  have hpruned := (lookup_pruned_iff (sessionsOf_exec config _).config_eq).mpr ⟨hkept, hidle⟩
  rw [admit_of_lookup hpruned]

/-- Two sessions fit a table of two, so the first is still there while the edge is overloaded. -/
theorem sessions_survive_sample :
    (step (exec step (new { maxSessions := 2, sessionIdleSeconds := 5 })
      ([] ++ .admitPlaybackAt (some "one") false 0 "" ::
        [.admitPlaybackAt (some "two") false 1000 "one"]))
      (.admitPlaybackAt (some "one") true 4999 "")).1 = .admission .existing :=
  (sessions_survive { maxSessions := 2, sessionIdleSeconds := 5 }).2 []
    [.admitPlaybackAt (some "two") false 1000 "one"] "one" false true 0 4999 "" ""
    (by decide +kernel) (by decide +kernel) (by decide +kernel) (by decide +kernel)
    (by decide +kernel)

/-- An idle time of about 18 quintillion milliseconds saturates one short of the last reading of
the clock: a session is forgotten although it was idle for less. -/
theorem saturated_idle_forgets :
    let config : EdgeAdmissionConfig := { sessionIdleSeconds := 18446744073709552 }
    let first : Op := .admitPlaybackAt (some "one") false 0 ""
    let next : Op := .admitPlaybackAt (some "one") true 18446744073709551615 ""
    ElapsedOrdered [first, next] ∧
      (step (new config) first).1.isAnswer = true ∧
      18446744073709551615 - 0 < config.normalized.sessionIdleSeconds.toNat * 1000 ∧
      (othersAnswered config [first] "one" 0 18446744073709551615).length
        < config.normalized.maxSessions.toNat ∧
      (step (exec step (new config) [first]) next).1 = .admission .rejected := by
  decide +kernel

end AvMesh.Edge.EdgeAdmission
