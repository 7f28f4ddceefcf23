/-
  AvMesh.Edge.Overload
  ────────────────────
  **WHEN AN OVERLOADED EDGE RECOVERS.**

  The flag rises only on a sustained rate at or above admission and falls only
  on a rate below recovery.  After a silence longer than the window the rate is
  zero, and zero is below recovery unless `recoveryBps` rounds down to zero:

    • `recovers_iff` — an idle edge recovers in every run exactly when
      `recoveryBps` is positive, or no rate reaches admission, or the window
      never ends.
-/
import AvMesh.Edge.Admission

namespace AvMesh.Edge

open AvMesh.Lib

/-! ## §1. Normalized configurations. -/

namespace EdgeAdmissionConfig

variable (c : EdgeAdmissionConfig)

theorem minSustained_pos : 1 ≤ c.normalized.minSustainedSeconds.toNat := by
  show 1 ≤ (max 1 (min c.minSustainedSeconds (max c.windowSeconds 1))).toNat
  rw [u64_toNat_max]
  exact Nat.le_max_left _ _

theorem window_pos : 1 ≤ c.normalized.windowSeconds.toNat := by
  show 1 ≤ (max c.windowSeconds 1).toNat
  rw [u64_toNat_max]
  exact Nat.le_max_right _ _

theorem minSustained_le_window :
    c.normalized.minSustainedSeconds.toNat ≤ c.normalized.windowSeconds.toNat := by
  have hwindow := c.window_pos
  show (max 1 (min c.minSustainedSeconds (max c.windowSeconds 1))).toNat ≤ _
  rw [u64_toNat_max, u64_toNat_min]
  show max 1 (min c.minSustainedSeconds.toNat c.normalized.windowSeconds.toNat) ≤ _
  omega

theorem maxSessions_pos : 1 ≤ c.normalized.maxSessions.toNat := by
  show 1 ≤ (max c.maxSessions 1).toNat
  rw [u64_toNat_max]
  exact Nat.le_max_right _ _

/-- `recovery_percent` is clamped by the percentage below `admission_percent`. -/
theorem recoveryPercent_le :
    c.normalized.recoveryPercent.toNat ≤ c.normalized.admissionPercent.toNat := by
  have hone : 1 ≤ c.normalized.admissionPercent.toNat := by
    show 1 ≤ (max 1 (min c.admissionPercent 100)).toNat
    rw [u8_toNat_max]
    exact Nat.le_max_left _ _
  have hsub : (c.normalized.admissionPercent - 1).toNat = c.normalized.admissionPercent.toNat - 1 :=
    UInt8.toNat_sub_of_le _ _ (UInt8.le_iff_toNat_le.mpr hone)
  show (max 1 (min c.recoveryPercent (max (c.normalized.admissionPercent - 1) 1))).toNat ≤ _
  rw [u8_toNat_max, u8_toNat_min, u8_toNat_max, hsub]
  show max 1 (min c.recoveryPercent.toNat (max (c.normalized.admissionPercent.toNat - 1) 1)) ≤ _
  omega

theorem recoveryBps_le : c.normalized.recoveryBps ≤ c.normalized.admissionBps := by
  unfold recoveryBps admissionBps percentOf satMul
  have hmul := Nat.mul_le_mul_left c.normalized.capacityBps.toNat c.recoveryPercent_le
  exact Nat.div_le_div_right (by omega)

end EdgeAdmissionConfig

/-! ## §2. The window. -/

namespace RollingEgressWindow

variable {w : RollingEgressWindow} {second bytes windowSeconds : Nat} {bucket : EgressBucket}

/-- Buckets in the order of their seconds. -/
def Sorted (w : RollingEgressWindow) : Prop :=
  w.buckets.Pairwise fun a b => a.second ≤ b.second

theorem mem_of_mem_prune (h : bucket ∈ (w.prune second windowSeconds).buckets) :
    bucket ∈ w.buckets :=
  (List.dropWhile_sublist _).subset h

theorem Sorted.prune (h : w.Sorted) : (w.prune second windowSeconds).Sorted :=
  h.sublist (List.dropWhile_sublist _)

/-- Pruning pops from the front, which is enough because the buckets are sorted. -/
theorem le_of_mem_prune (h : w.Sorted) (hmem : bucket ∈ (w.prune second windowSeconds).buckets) :
    second - (windowSeconds - 1) ≤ bucket.second := by
  obtain ⟨buckets⟩ := w
  unfold Sorted at h
  unfold prune at hmem
  dsimp only at h hmem
  induction buckets with
  | nil => cases hmem
  | cons first rest ih =>
      rw [List.pairwise_cons] at h
      rw [List.dropWhile_cons] at hmem
      split at hmem
      next => exact ih h.2 hmem
      next hfirst =>
        rw [decide_eq_true_eq] at hfirst
        rcases List.mem_cons.mp hmem with rfl | hrest
        · omega
        · have hle := h.1 bucket hrest
          omega

/-- A bucket after a record was there before, or is the one of this second. -/
theorem mem_of_mem_record (h : bucket ∈ (w.record second bytes windowSeconds).buckets) :
    bucket ∈ w.buckets ∨
      bucket.second = second ∧
        (0 < bucket.bytes → 0 < bytes ∨ ∃ old ∈ w.buckets, old.second = second ∧ 0 < old.bytes) := by
  unfold record at h
  dsimp only at h
  split at h
  next last hlast =>
    have hold := mem_of_mem_prune (List.mem_of_getLast? hlast)
    split at h
    next hsecond =>
      rcases List.mem_append.mp h with h | h
      · exact .inl (mem_of_mem_prune ((List.dropLast_sublist _).subset h))
      · rw [List.mem_singleton] at h
        subst h
        refine .inr ⟨hsecond, ?_⟩
        intro hpos
        by_cases hbytes : 0 < bytes
        · exact .inl hbytes
        · refine .inr ⟨last, hold, hsecond, ?_⟩
          change 0 < satAdd last.bytes bytes at hpos
          unfold satAdd at hpos
          omega
    next =>
      rcases List.mem_append.mp h with h | h
      · exact .inl (mem_of_mem_prune h)
      · rw [List.mem_singleton] at h
        subst h
        exact .inr ⟨rfl, .inl⟩
  next =>
    rcases List.mem_append.mp h with h | h
    · exact .inl (mem_of_mem_prune h)
    · rw [List.mem_singleton] at h
      subst h
      exact .inr ⟨rfl, .inl⟩

theorem Sorted.append (h : w.Sorted) (hpast : ∀ b ∈ w.buckets, b.second ≤ bucket.second) :
    Sorted { buckets := w.buckets ++ [bucket] } := by
  refine List.pairwise_append.mpr ⟨h, List.pairwise_singleton _ _, ?_⟩
  intro a ha b hb
  rw [List.mem_singleton.mp hb]
  exact hpast a ha

theorem Sorted.record (h : w.Sorted) (hpast : ∀ b ∈ w.buckets, b.second ≤ second) :
    (w.record second bytes windowSeconds).Sorted := by
  have hprune : (w.prune second windowSeconds).Sorted := h.prune
  have hpruned : ∀ b ∈ (w.prune second windowSeconds).buckets, b.second ≤ second :=
    fun b hb => hpast b (mem_of_mem_prune hb)
  unfold RollingEgressWindow.record
  dsimp only
  split
  next last hlast =>
    split
    next hsecond =>
      have hdrop : Sorted { buckets := (w.prune second windowSeconds).buckets.dropLast } :=
        hprune.sublist (List.dropLast_sublist _)
      refine hdrop.append ?_
      intro b hb
      show b.second ≤ last.second
      have hle := hpruned b ((List.dropLast_sublist _).subset hb)
      omega
    next => exact hprune.append hpruned
  next => exact hprune.append hpruned

/-! ## §3. The rate. -/

theorem buckets_rate : (w.rate second windowSeconds).2 = w.prune second windowSeconds := by
  unfold rate
  dsimp only
  split
  · rfl
  · rfl

theorem rate_le (w : RollingEgressWindow) (second windowSeconds : Nat) :
    (w.rate second windowSeconds).1.1 ≤ u64Max / max (w.rate second windowSeconds).1.2 1 := by
  unfold rate
  dsimp only
  split
  · exact Nat.zero_le _
  · exact Nat.div_le_div_right (satMul_le _ _)

theorem foldl_satAdd_eq_zero {buckets : List EgressBucket} (h : ∀ b ∈ buckets, b.bytes = 0) :
    buckets.foldl (fun total bucket => satAdd total bucket.bytes) 0 = 0 := by
  induction buckets with
  | nil => rfl
  | cons first rest ih =>
      rw [List.foldl_cons, h first List.mem_cons_self]
      exact ih fun b hb => h b (List.mem_cons_of_mem _ hb)

/-- A window without bytes has rate zero. -/
theorem rate_eq_zero (h : ∀ b ∈ (w.prune second windowSeconds).buckets, b.bytes = 0) :
    (w.rate second windowSeconds).1.1 = 0 := by
  unfold rate
  dsimp only
  split
  · rfl
  · show satMul (List.foldl _ 0 _) 8 / _ = 0
    rw [foldl_satAdd_eq_zero h]
    show min (0 * 8) u64Max / _ = 0
    rw [Nat.zero_mul, Nat.min_eq_left (Nat.zero_le _), Nat.zero_div]

end RollingEgressWindow

/-! ## §4. Runs. -/

namespace EdgeAdmission

/-- The second an operation works at. -/
def Op.second : Op → Option Nat
  | .recordBytesAt second _ => some second.toNat
  | .snapshotAt second _ => some second.toNat
  | _ => none

/-- The second of an operation that records a byte. -/
def Op.recordedSecond : Op → Option Nat
  | .recordBytesAt second bytes => if bytes = 0 then none else some second.toNat
  | _ => none

def SecondsOrdered (ops : List Op) : Prop := (ops.filterMap Op.second).Pairwise (· ≤ ·)

instance (ops : List Op) : Decidable (SecondsOrdered ops) :=
  inferInstanceAs (Decidable (List.Pairwise _ _))

/-- The second of the last recorded byte. -/
def lastRecorded (ops : List Op) : Option Nat := (ops.filterMap Op.recordedSecond).getLast?

variable {e : EdgeAdmission} {op : Op} {ops : List Op}

theorem config_step : (step e op).2.config = e.config := by
  cases op with
  | recordBytesAt second bytes => rfl
  | snapshotAt second elapsedMs => rfl
  | recordRejection => rfl
  | admitPlaybackAt sessionId overloaded elapsedMs favoured =>
      cases sessionId with
      | none => rfl
      | some sessionId =>
          show (admitPlaybackAt e (some sessionId) overloaded elapsedMs.toNat favoured).2.config = _
          unfold admitPlaybackAt
          dsimp only
          split
          · rfl
          · split
            · rfl
            · rfl

theorem config_exec (config : EdgeAdmissionConfig) (ops : List Op) :
    (exec step (new config) ops).config = config.normalized :=
  exec_invariant step (fun e => e.config = config.normalized)
    (fun _ _ h => config_step.trans h) ops rfl

/-- What an operation does to the window and the flag. -/
theorem window_step (e : EdgeAdmission) (op : Op) :
    (∃ second bytes, op = .recordBytesAt second bytes ∧
      (step e op).2.window =
        e.window.record second.toNat bytes.toNat e.config.windowSeconds.toNat ∧
      (step e op).2.overloaded = e.overloaded) ∨
    (∃ second elapsedMs, op = .snapshotAt second elapsedMs ∧
      (step e op).2.window = e.window.prune second.toNat e.config.windowSeconds.toNat) ∨
    (op.second = none ∧ (step e op).2.window = e.window ∧
      (step e op).2.overloaded = e.overloaded) := by
  cases op with
  | recordBytesAt second bytes => exact .inl ⟨second, bytes, rfl, rfl, rfl⟩
  | snapshotAt second elapsedMs =>
      exact .inr (.inl ⟨second, elapsedMs, rfl, RollingEgressWindow.buckets_rate⟩)
  | recordRejection => exact .inr (.inr ⟨rfl, rfl, rfl⟩)
  | admitPlaybackAt sessionId overloaded elapsedMs favoured =>
      refine .inr (.inr ⟨rfl, ?_⟩)
      cases sessionId with
      | none => exact ⟨rfl, rfl⟩
      | some sessionId =>
          show (admitPlaybackAt e (some sessionId) overloaded elapsedMs.toNat favoured).2.window = _ ∧
            (admitPlaybackAt e (some sessionId) overloaded elapsedMs.toNat favoured).2.overloaded = _
          unfold admitPlaybackAt
          dsimp only
          split
          · exact ⟨rfl, rfl⟩
          · split
            · exact ⟨rfl, rfl⟩
            · exact ⟨rfl, rfl⟩

/-- The window of a run: sorted, and a bucket holds bytes only of a second that recorded some. -/
structure WindowOf (ops : List Op) (e : EdgeAdmission) : Prop where
  sorted : e.window.Sorted
  past : ∀ b ∈ e.window.buckets, b.second ∈ ops.filterMap Op.second
  recorded : ∀ b ∈ e.window.buckets, 0 < b.bytes → b.second ∈ ops.filterMap Op.recordedSecond

theorem WindowOf.of_sub {e' : EdgeAdmission} (h : WindowOf ops e) (hsorted : e'.window.Sorted)
    (hsub : ∀ b ∈ e'.window.buckets, b ∈ e.window.buckets) : WindowOf (ops ++ [op]) e' where
  sorted := hsorted
  past b hb := by
    rw [List.filterMap_append]
    exact List.mem_append_left _ (h.past b (hsub b hb))
  recorded b hb hpos := by
    rw [List.filterMap_append]
    exact List.mem_append_left _ (h.recorded b (hsub b hb) hpos)

theorem WindowOf.step (h : WindowOf ops e) (hordered : SecondsOrdered (ops ++ [op])) :
    WindowOf (ops ++ [op]) (step e op).2 := by
  rcases window_step e op with
    ⟨second, bytes, rfl, hwindow, -⟩ | ⟨second, elapsedMs, rfl, hwindow⟩ | ⟨-, hwindow, -⟩
  · have hpast : ∀ b ∈ e.window.buckets, b.second ≤ second.toNat := by
      intro b hb
      unfold SecondsOrdered at hordered
      rw [List.filterMap_append] at hordered
      exact (List.pairwise_append.mp hordered).2.2 _ (h.past b hb) _ List.mem_cons_self
    constructor
    case sorted =>
      rw [hwindow]
      exact h.sorted.record hpast
    case past =>
      intro b hb
      rw [hwindow] at hb
      rw [List.filterMap_append, List.mem_append]
      rcases RollingEgressWindow.mem_of_mem_record hb with hold | ⟨hsecond, -⟩
      · exact .inl (h.past b hold)
      · rw [hsecond]
        exact .inr List.mem_cons_self
    case recorded =>
      intro b hb hpos
      rw [hwindow] at hb
      rw [List.filterMap_append, List.mem_append]
      rcases RollingEgressWindow.mem_of_mem_record hb with hold | ⟨hsecond, hbytes⟩
      · exact .inl (h.recorded b hold hpos)
      · rw [hsecond]
        rcases hbytes hpos with hbytes | ⟨old, hold, hsame, hposOld⟩
        · have hne : bytes ≠ 0 := by
            rintro rfl
            exact absurd hbytes (by decide)
          refine .inr ?_
          simp [Op.recordedSecond, hne]
        · rw [← hsame]
          exact .inl (h.recorded old hold hposOld)
  · refine h.of_sub ?_ ?_
    · rw [hwindow]
      exact h.sorted.prune
    · intro b hb
      rw [hwindow] at hb
      exact RollingEgressWindow.mem_of_mem_prune hb
  · refine h.of_sub ?_ ?_
    · rw [hwindow]
      exact h.sorted
    · intro b hb
      rwa [hwindow] at hb

theorem windowOf_exec (config : EdgeAdmissionConfig) (ops : List Op)
    (hordered : SecondsOrdered ops) : WindowOf ops (exec EdgeAdmission.step (new config) ops) := by
  refine exec_history EdgeAdmission.step (fun ops e => SecondsOrdered ops → WindowOf ops e) (new config) ?_ ?_
    ops hordered
  · intro _
    exact ⟨List.Pairwise.nil, nofun, nofun⟩
  · intro ops op ih hordered
    refine (ih ?_).step hordered
    unfold SecondsOrdered at hordered ⊢
    rw [List.filterMap_append] at hordered
    exact (List.pairwise_append.mp hordered).1

/-! ## §5. Recovery. -/

/-- What is asked of the flag in every run of a configuration. -/
structure Recovers (config : EdgeAdmissionConfig) : Prop where
  /-- It rises only at a snapshot of a sustained rate at or above admission. -/
  rises : ∀ ops op, SecondsOrdered (ops ++ [op]) →
    (exec step (new config) ops).overloaded = false →
    (step (exec step (new config) ops) op).2.overloaded = true →
    ∃ second elapsedMs snapshot, op = .snapshotAt second elapsedMs ∧
      (step (exec step (new config) ops) op).1 = .snapshot snapshot ∧ snapshot.overloaded = true ∧
      config.normalized.minSustainedSeconds.toNat ≤ snapshot.observationSeconds ∧
      config.normalized.admissionBps ≤ snapshot.observedBps
  /-- It falls only at a snapshot of a rate below recovery. -/
  falls : ∀ ops op, SecondsOrdered (ops ++ [op]) →
    (exec step (new config) ops).overloaded = true →
    (step (exec step (new config) ops) op).2.overloaded = false →
    ∃ second elapsedMs snapshot, op = .snapshotAt second elapsedMs ∧
      (step (exec step (new config) ops) op).1 = .snapshot snapshot ∧
      snapshot.overloaded = false ∧ snapshot.observedBps < config.normalized.recoveryBps
  /-- A snapshot more than a window after the last byte reports an edge that is not overloaded. -/
  idle : ∀ ops second elapsedMs last, SecondsOrdered (ops ++ [.snapshotAt second elapsedMs]) →
    lastRecorded ops = some last →
    last + config.normalized.windowSeconds.toNat < second.toNat →
    ((exec step (new config) ops).snapshotAt second.toNat elapsedMs.toNat).1.overloaded = false

/-- The flag a snapshot reports, which is also the one it leaves. -/
theorem overloaded_snapshotAt (e : EdgeAdmission) (second elapsedMs : Nat) :
    (e.snapshotAt second elapsedMs).1.overloaded =
      e.nextOverloaded (e.window.rate second e.config.windowSeconds.toNat).1.1
        (e.window.rate second e.config.windowSeconds.toNat).1.2 := rfl

theorem nextOverloaded_rises {observedBps observationSeconds : Nat} (h : e.overloaded = false) :
    e.nextOverloaded observedBps observationSeconds = true ↔
      e.config.minSustainedSeconds.toNat ≤ observationSeconds ∧
        e.config.admissionBps ≤ observedBps := by
  unfold nextOverloaded
  rw [h]
  simp

theorem nextOverloaded_falls {observedBps observationSeconds : Nat} (h : e.overloaded = true) :
    e.nextOverloaded observedBps observationSeconds = false ↔
      observedBps < e.config.recoveryBps := by
  unfold nextOverloaded
  rw [h]
  simp

/-- The flag changes at a snapshot only. -/
theorem snapshot_of_overloaded_ne (h : (step e op).2.overloaded ≠ e.overloaded) :
    ∃ second elapsedMs, op = .snapshotAt second elapsedMs := by
  rcases window_step e op with ⟨_, _, _, _, hsame⟩ | ⟨second, elapsedMs, hop, _⟩ | ⟨_, _, hsame⟩
  · exact absurd hsame h
  · exact ⟨second, elapsedMs, hop⟩
  · exact absurd hsame h

theorem le_of_getLast? {l : List Nat} {last x : Nat} (h : l.Pairwise (· ≤ ·))
    (hlast : l.getLast? = some last) (hx : x ∈ l) : x ≤ last := by
  obtain ⟨front, rfl⟩ := List.getLast?_eq_some_iff.mp hlast
  rcases List.mem_append.mp hx with hx | hx
  · exact (List.pairwise_append.mp h).2.2 x hx last List.mem_cons_self
  · rw [List.mem_singleton.mp hx]

/-- Recorded seconds are among the seconds of a run, so they are in order too. -/
theorem recordedSecond_ordered (h : SecondsOrdered ops) :
    (ops.filterMap Op.recordedSecond).Pairwise (· ≤ ·) := by
  unfold SecondsOrdered at h
  rw [List.pairwise_filterMap] at h ⊢
  refine h.imp ?_
  intro a b hab x hx y hy
  have hsecond : ∀ (op : Op) (n : Nat), op.recordedSecond = some n → op.second = some n := by
    intro op n hn
    cases op with
    | recordBytesAt second bytes =>
        unfold Op.recordedSecond at hn
        dsimp only at hn
        split at hn
        · cases hn
        · exact hn
    | _ => cases hn
  exact hab x (hsecond a x hx) y (hsecond b y hy)

/-- After a silence longer than the window the rate is zero. -/
theorem rate_of_idle {config : EdgeAdmissionConfig} {second last : Nat}
    (h : WindowOf ops e) (hconfig : e.config = config.normalized) (hordered : SecondsOrdered ops)
    (hlast : lastRecorded ops = some last)
    (hidle : last + config.normalized.windowSeconds.toNat < second) :
    (e.window.rate second e.config.windowSeconds.toNat).1.1 = 0 := by
  rw [hconfig]
  apply RollingEgressWindow.rate_eq_zero
  intro b hb
  by_contra hbytes
  have hge := RollingEgressWindow.le_of_mem_prune h.sorted hb
  have hmem := h.recorded b (RollingEgressWindow.mem_of_mem_prune hb) (Nat.pos_of_ne_zero hbytes)
  have hle := le_of_getLast? (recordedSecond_ordered hordered) hlast hmem
  omega

/-- Where no rate reaches admission the flag never rises. -/
theorem overloaded_eq_false {config : EdgeAdmissionConfig}
    (hreach : u64Max / config.normalized.minSustainedSeconds.toNat
      < config.normalized.admissionBps) (ops : List Op) :
    (exec step (new config) ops).overloaded = false := by
  have hboth : (exec step (new config) ops).config = config.normalized ∧
      (exec step (new config) ops).overloaded = false := by
    refine exec_invariant step (fun e => e.config = config.normalized ∧ e.overloaded = false)
      ?_ ops ⟨rfl, rfl⟩
    intro e op h
    obtain ⟨hconfig, hflag⟩ := h
    refine ⟨config_step.trans hconfig, ?_⟩
    by_contra hrises
    rw [Bool.not_eq_false] at hrises
    obtain ⟨second, elapsedMs, rfl⟩ := snapshot_of_overloaded_ne (by rw [hrises, hflag]; decide)
    change (e.snapshotAt second.toNat elapsedMs.toNat).1.overloaded = true at hrises
    rw [overloaded_snapshotAt] at hrises
    obtain ⟨hsustained, hrate⟩ := (nextOverloaded_rises hflag).mp hrises
    rw [hconfig] at hsustained hrate
    have hbound := RollingEgressWindow.rate_le e.window second.toNat
      config.normalized.windowSeconds.toNat
    have hdiv : u64Max / max (e.window.rate second.toNat
        config.normalized.windowSeconds.toNat).1.2 1
          ≤ u64Max / config.normalized.minSustainedSeconds.toNat :=
      Nat.div_le_div_left (Nat.le_trans hsustained (Nat.le_max_left _ _)) config.minSustained_pos
    omega
  exact hboth.2

/-- The flag rises and falls as asked, whatever the configuration. -/
theorem recovers_of_idle (config : EdgeAdmissionConfig)
    (hidle : ∀ ops second elapsedMs last, SecondsOrdered (ops ++ [.snapshotAt second elapsedMs]) →
      lastRecorded ops = some last →
      last + config.normalized.windowSeconds.toNat < second.toNat →
      ((exec step (new config) ops).snapshotAt second.toNat elapsedMs.toNat).1.overloaded = false) :
    Recovers config where
  rises ops op _ hbefore hafter := by
    obtain ⟨second, elapsedMs, rfl⟩ := snapshot_of_overloaded_ne (by rw [hbefore, hafter]; decide)
    change ((exec step (new config) ops).snapshotAt second.toNat elapsedMs.toNat).1.overloaded = true
      at hafter
    have hrises := hafter
    rw [overloaded_snapshotAt] at hrises
    obtain ⟨hsustained, hrate⟩ := (nextOverloaded_rises hbefore).mp hrises
    rw [← config_exec config ops]
    exact ⟨second, elapsedMs, _, rfl, rfl, hafter, hsustained, hrate⟩
  falls ops op _ hbefore hafter := by
    obtain ⟨second, elapsedMs, rfl⟩ := snapshot_of_overloaded_ne (by rw [hbefore, hafter]; decide)
    change ((exec step (new config) ops).snapshotAt second.toNat elapsedMs.toNat).1.overloaded = false
      at hafter
    have hfalls := hafter
    rw [overloaded_snapshotAt] at hfalls
    have hrate := (nextOverloaded_falls hbefore).mp hfalls
    rw [← config_exec config ops]
    exact ⟨second, elapsedMs, _, rfl, rfl, hafter, hrate⟩
  idle := hidle

/-- The seconds of the run that keeps the flag up: one burst, then silence. -/
def burst (config : EdgeAdmissionConfig) : List Op :=
  [.recordBytesAt 0 (UInt64.ofNat u64Max),
    .snapshotAt (config.normalized.minSustainedSeconds - 1) 0]

theorem toNat_minSustained_sub_one (config : EdgeAdmissionConfig) :
    (config.normalized.minSustainedSeconds - 1).toNat =
      config.normalized.minSustainedSeconds.toNat - 1 :=
  UInt64.toNat_sub_of_le _ _ (UInt64.le_iff_toNat_le.mpr config.minSustained_pos)

/-- A burst that is observed for exactly the sustained time raises the flag. -/
theorem overloaded_burst {config : EdgeAdmissionConfig}
    (hreach : config.normalized.admissionBps
      ≤ u64Max / config.normalized.minSustainedSeconds.toNat) :
    (exec step (new config) (burst config)).overloaded = true := by
  have hpos := config.minSustained_pos
  have hwindow := config.minSustained_le_window
  have hmax := toNat_le_u64Max config.normalized.minSustainedSeconds
  have hrecord : (new config).recordBytesAt 0 u64Max =
      { new config with window := { buckets := [⟨0, u64Max⟩] } } := rfl
  have hrate : (RollingEgressWindow.rate { buckets := [⟨0, u64Max⟩] }
      (config.normalized.minSustainedSeconds.toNat - 1) config.normalized.windowSeconds.toNat).1 =
        (u64Max / config.normalized.minSustainedSeconds.toNat,
          config.normalized.minSustainedSeconds.toNat) := by
    have hprune : RollingEgressWindow.prune { buckets := [⟨0, u64Max⟩] }
        (config.normalized.minSustainedSeconds.toNat - 1) config.normalized.windowSeconds.toNat =
          { buckets := [⟨0, u64Max⟩] } := by
      unfold RollingEgressWindow.prune
      dsimp only
      rw [List.dropWhile_cons_of_neg]
      rw [decide_eq_true_eq]
      omega
    unfold RollingEgressWindow.rate
    rw [hprune]
    have hseconds : min (satAdd (config.normalized.minSustainedSeconds.toNat - 1 - 0) 1)
        config.normalized.windowSeconds.toNat = config.normalized.minSustainedSeconds.toNat := by
      unfold satAdd
      omega
    have hbytes : satMul (satAdd 0 u64Max) 8 = u64Max := by decide
    show (satMul (satAdd 0 u64Max) 8 / max (min _ _) 1, min _ _) = _
    rw [hseconds, hbytes, Nat.max_eq_left hpos]
  show ((new config).recordBytesAt 0 u64Max).nextOverloaded
    (RollingEgressWindow.rate _ (config.normalized.minSustainedSeconds - 1).toNat _).1.1
    (RollingEgressWindow.rate _ (config.normalized.minSustainedSeconds - 1).toNat _).1.2 = true
  rw [toNat_minSustained_sub_one, hrecord]
  rw [nextOverloaded_rises rfl]
  show _ ≤ (RollingEgressWindow.rate { buckets := [⟨0, u64Max⟩] } _
    config.normalized.windowSeconds.toNat).1.2 ∧ _ ≤ (RollingEgressWindow.rate
      { buckets := [⟨0, u64Max⟩] } _ config.normalized.windowSeconds.toNat).1.1
  rw [hrate]
  exact ⟨le_rfl, hreach⟩

/-- **An idle edge recovers exactly when its recovery rate is positive**, apart from
configurations that never overload and windows that never end. -/
theorem recovers_iff (config : EdgeAdmissionConfig) :
    Recovers config ↔
      0 < config.normalized.recoveryBps ∨
      u64Max / config.normalized.minSustainedSeconds.toNat < config.normalized.admissionBps ∨
      config.normalized.windowSeconds.toNat = u64Max := by
  constructor
  · intro h
    by_contra hnot
    push Not at hnot
    obtain ⟨hrecovery, hreach, hend⟩ := hnot
    have hwindow := toNat_le_u64Max config.normalized.windowSeconds
    have hsustained := config.minSustained_le_window
    have hpos := config.minSustained_pos
    have hsecond : (UInt64.ofNat (config.normalized.windowSeconds.toNat + 1)).toNat =
        config.normalized.windowSeconds.toNat + 1 := by
      rw [UInt64.toNat_ofNat']
      refine Nat.mod_eq_of_lt ?_
      unfold u64Max at hwindow hend
      omega
    -- one snapshot past the window: the rate is zero, and so is the recovery rate
    have hidle := h.idle (burst config) (UInt64.ofNat (config.normalized.windowSeconds.toNat + 1)) 0 0
      (by
        show List.Pairwise _ [_, _, _]
        rw [toNat_minSustained_sub_one, hsecond]
        simp
        omega)
      rfl (by rw [hsecond]; omega)
    have hup := overloaded_burst hreach
    rw [overloaded_snapshotAt, nextOverloaded_falls hup, config_exec] at hidle
    omega
  · intro h
    apply recovers_of_idle
    intro ops second elapsedMs last hordered hlast hlong
    have hordered' : SecondsOrdered ops := by
      unfold SecondsOrdered at hordered ⊢
      rw [List.filterMap_append] at hordered
      exact (List.pairwise_append.mp hordered).1
    have hrate := rate_of_idle (windowOf_exec config ops hordered') (config_exec config ops)
      hordered' hlast hlong
    rw [overloaded_snapshotAt, hrate]
    rcases h with hrecovery | hunreached | hendless
    · cases hflag : (exec step (new config) ops).overloaded with
      | true =>
          rw [nextOverloaded_falls hflag, config_exec]
          exact hrecovery
      | false =>
          rw [← Bool.not_eq_true, nextOverloaded_rises hflag, config_exec]
          have hle := config.recoveryBps_le
          omega
    · have hflag := overloaded_eq_false hunreached ops
      rw [← Bool.not_eq_true, nextOverloaded_rises hflag, config_exec]
      intro hboth
      exact absurd (Nat.lt_of_lt_of_le hunreached hboth.2) (Nat.not_lt_zero _)
    · have hmax := toNat_le_u64Max second
      omega

/-- A capacity below one hundred bits per second rounds its recovery rate to zero. -/
def smallEdge : EdgeAdmissionConfig :=
  { capacityBps := 1, admissionPercent := 80, recoveryPercent := 60, windowSeconds := 4 }

theorem smallEdge_stays_overloaded : ¬ Recovers smallEdge := by
  intro h
  have hidle := h.idle [.recordBytesAt 0 100, .recordBytesAt 1 100, .recordBytesAt 2 100,
    .snapshotAt 2 2000] 1000 1000000 2 (by decide +kernel) (by decide +kernel) (by decide +kernel)
  revert hidle
  decide +kernel

end EdgeAdmission

end AvMesh.Edge
