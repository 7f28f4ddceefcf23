/-
  AvMesh.Failover.ControllerRuns
  ──────────────────────────────
  **EVERY RUN OF THE FAILOVER CONTROLLER.**

  `Sound` is the invariant of the state machine; `History` says what the
  remembered instants are in terms of the operations so far:

    • `lastPrimarySource`, `lastSecondaryRepair` — the last such observation,
    • `recoveredSince` — the instant of a tick from which on EVERY tick found
      the primary within `silence`.

  The second is what makes a demotion a statement about a whole window: the
  tick that demotes is at least `recovery` after that first one.
-/
import AvMesh.Failover.Controller

namespace AvMesh.Failover

open AvMesh.Lib

namespace RelayFailoverController

/-! ## §1. The state machine. -/

structure Sound (c : RelayFailoverController) : Prop where
  mode : c.desiredMode = .sourceAndRepair ↔ Active c
  since : c.recoveredSince.isSome → c.state = .recovering
  seen : c.state = .arming ∨ c.lastPrimarySource.isSome
  promotions_le : c.snapshot.promotions ≤ u64Max
  ahead : Active c →
    c.snapshot.promotions = c.snapshot.demotions + 1 ∨ c.snapshot.promotions = u64Max
  level : ¬ Active c →
    c.snapshot.promotions = c.snapshot.demotions ∨ c.snapshot.promotions = u64Max
  id_le : c.transitionId ≤ u64Max

section Invariant

variable {c c' : RelayFailoverController} {clock : TickClock} {K : CommandCrate}

theorem bind_sound (args : FailoverArgs) (unixUs unixMs : UInt64) :
    Sound (bind args unixUs unixMs) where
  mode := by simp [bind, Active]
  since := nofun
  seen := .inl rfl
  promotions_le := Nat.zero_le _
  ahead := by simp [bind, Active]
  level := fun _ => .inl rfl
  id_le := by
    have hreading := toNat_le_u64Max unixUs
    show max unixUs.toNat 1 ≤ u64Max
    have hone : 1 ≤ u64Max := by decide
    omega

theorem active_congr (h : c'.state = c.state) : Active c' ↔ Active c := by
  simp only [Active, h]

/-- Nothing the machine reads changes. -/
theorem Sound.of_same (hs : Sound c) (hstate : c'.state = c.state)
    (hsince : c'.recoveredSince = c.recoveredSince) (hkeep : SameTransition c c')
    (hseen : c.lastPrimarySource.isSome → c'.lastPrimarySource.isSome) : Sound c' where
  mode := by rw [hkeep.desiredMode, active_congr hstate]; exact hs.mode
  since := by rw [hsince, hstate]; exact hs.since
  seen := by rw [hstate]; exact hs.seen.imp_right hseen
  promotions_le := by rw [hkeep.promotions]; exact hs.promotions_le
  ahead := by
    rw [active_congr hstate, hkeep.promotions, hkeep.demotions]
    exact hs.ahead
  level := by
    rw [active_congr hstate, hkeep.promotions, hkeep.demotions]
    exact hs.level
  id_le := by rw [hkeep.transitionId]; exact hs.id_le

/-- The counters and the id when no transition happens and activity stays as it is. -/
theorem Sound.of_active_iff (hs : Sound c) (hactive : Active c' ↔ Active c)
    (hkeep : SameTransition c c') (hsince : c'.recoveredSince.isSome → c'.state = .recovering)
    (hseen : c'.state = .arming ∨ c'.lastPrimarySource.isSome) : Sound c' where
  mode := by rw [hkeep.desiredMode, hactive]; exact hs.mode
  since := hsince
  seen := hseen
  promotions_le := by rw [hkeep.promotions]; exact hs.promotions_le
  ahead := by rw [hactive, hkeep.promotions, hkeep.demotions]; exact hs.ahead
  level := by rw [hactive, hkeep.promotions, hkeep.demotions]; exact hs.level
  id_le := by rw [hkeep.transitionId]; exact hs.id_le

theorem advanced_le (unixUs : UInt64) (id : Nat) : max unixUs.toNat (satAdd id 1) ≤ u64Max := by
  have hreading := toNat_le_u64Max unixUs
  simp only [satAdd]
  omega

/-- Outside the promoted states nothing is being recovered from. -/
theorem Sound.since_none (hs : Sound c) (hinactive : ¬ Active c) : c.recoveredSince = none := by
  cases hsince : c.recoveredSince with
  | none => rfl
  | some since => exact absurd (.inr (hs.since (by simp [hsince]))) hinactive

/-- A state that is not `arming` has seen the primary. -/
theorem Sound.isSome_of_active (hs : Sound c) (hactive : Active c) :
    c.lastPrimarySource.isSome := by
  rcases hs.seen with harming | hseen
  · rcases hactive with h | h
    · rw [harming] at h
      cases h
    · rw [harming] at h
      cases h
  · exact hseen

theorem Sound.isSome_of_seen (hs : Sound c)
    (hseen : c.state = .healthy ∨ c.lastPrimarySource.isSome) : c.lastPrimarySource.isSome := by
  rcases hseen with hhealthy | hseen
  · rcases hs.seen with harming | hseen
    · rw [hhealthy] at harming
      cases harming
    · exact hseen
  · exact hseen

/-- Each turn of the machine keeps it sound. -/
theorem Sound.turn (hs : Sound c) (hturn : Turn clock c c') (hinputs : SameInputs c c') :
    Sound c' := by
  have hprimary := hinputs.lastPrimarySource
  cases hturn with
  | rest hstate hsince hinactive hkeep =>
      exact hs.of_same hstate hsince hkeep (by rw [hprimary]; exact id)
  | settle hstate hsince hinactive hseen hkeep =>
      have hinactive' : ¬ Active c' := by
        rintro (h | h)
        · rcases hstate with h' | h' <;> rw [h'] at h <;> cases h
        · rcases hstate with h' | h' <;> rw [h'] at h <;> cases h
      refine hs.of_active_iff (iff_of_false hinactive' hinactive) hkeep ?_ (.inr ?_)
      · rw [hsince, hs.since_none hinactive]
        nofun
      · rw [hprimary]
        exact hs.isSome_of_seen hseen
  | recover hstate hsince hactive hrecent hkeep =>
      exact hs.of_active_iff (iff_of_true (.inr hstate) hactive) hkeep (fun _ => hstate)
        (.inr (hprimary ▸ hs.isSome_of_active hactive))
  | relapse hstate hsince hactive hkeep =>
      refine hs.of_active_iff (iff_of_true (.inl hstate) hactive) hkeep ?_
        (.inr (hprimary ▸ hs.isSome_of_active hactive))
      rw [hsince]
      nofun
  | promote hstate hsince hinactive hseen hsilent hwarm hmode hid hpromotions hdemotions =>
      have hactive' : Active c' := .inl hstate
      have hle := hs.promotions_le
      have hlevel := hs.level hinactive
      refine ⟨iff_of_true hmode hactive', ?_, .inr ?_, ?_, fun _ => ?_, fun h => absurd hactive' h,
        ?_⟩
      · rw [hsince]
        nofun
      · rw [hprimary]
        exact hs.isSome_of_seen hseen
      · rw [hpromotions, satAdd]
        omega
      · rw [hpromotions, hdemotions, satAdd]
        omega
      · rw [hid]
        exact advanced_le _ _
  | demote hstate hsince hactive hrecent hwindow hmode hid hpromotions hdemotions =>
      have hinactive' : ¬ Active c' := by
        rintro (h | h) <;> rw [hstate] at h <;> cases h
      have hle := hs.promotions_le
      have hahead := hs.ahead hactive
      refine ⟨iff_of_false (by rw [hmode]; nofun) hinactive', ?_,
        .inr (hprimary ▸ hs.isSome_of_active hactive), ?_, fun h => absurd h hinactive', fun _ => ?_,
        ?_⟩
      · rw [hsince]
        nofun
      · rw [hpromotions]
        exact hle
      · rw [hpromotions, hdemotions, satAdd]
        omega
      · rw [hid]
        exact advanced_le _ _

theorem step_sound (op : Op) (hs : Sound c) : Sound (step K c op).2 := by
  cases op with
  | tick clock =>
      obtain ⟨hturn, hinputs⟩ := @tick_turn c clock K
      exact hs.turn hturn hinputs
  | observe path observation now =>
      obtain ⟨hsame, hprimary, -⟩ := @observe_spec c path observation now
      refine hs.of_same hsame.state hsame.recoveredSince hsame.keep ?_
      intro hseen
      show (c.observe path observation now).lastPrimarySource.isSome
      rw [hprimary]
      unfold primarySeen
      split
      · rfl
      · exact hseen

theorem exec_sound (args : FailoverArgs) (unixUs unixMs : UInt64) (ops : List Op) :
    Sound (exec (step K) (bind args unixUs unixMs) ops) :=
  exec_invariant (step K) Sound (fun _ op => step_sound op) ops (bind_sound args unixUs unixMs)

end Invariant

/-! ## §2. What the remembered instants say about the run. -/

/-- The instants at which a source symbol of the primary was observed. -/
def primaryTimes (ops : List Op) : List Nat :=
  ops.filterMap fun op => match op with
    | .observe .primary ⟨.source, _⟩ now => some now
    | _ => none

/-- The instants at which a repair symbol of the secondary was observed. -/
def secondaryTimes (ops : List Op) : List Nat :=
  ops.filterMap fun op => match op with
    | .observe .secondary ⟨.repair, _⟩ now => some now
    | _ => none

theorem primaryTimes_append (ops ops' : List Op) :
    primaryTimes (ops ++ ops') = primaryTimes ops ++ primaryTimes ops' :=
  List.filterMap_append

theorem secondaryTimes_append (ops ops' : List Op) :
    secondaryTimes (ops ++ ops') = secondaryTimes ops ++ secondaryTimes ops' :=
  List.filterMap_append

section Runs

variable {K : CommandCrate} {c₀ : RelayFailoverController}

/-- Every tick of `ops`, run from `c`, finds the primary within `silence`. -/
def RecentThroughout (K : CommandCrate) (c : RelayFailoverController) (ops : List Op) : Prop :=
  ∀ e ∈ trace (step K) c ops, ∀ clock, e.2 = .tick clock → e.1.primaryRecent clock.now = true

theorem RecentThroughout.append {c : RelayFailoverController} {ops ops' : List Op}
    (h : RecentThroughout K c ops) (h' : RecentThroughout K (exec (step K) c ops) ops') :
    RecentThroughout K c (ops ++ ops') := by
  intro e he
  rw [trace_append] at he
  rcases List.mem_append.mp he with he | he
  · exact h e he
  · exact h' e he

/-- What the remembered instants are, in terms of the operations so far. -/
structure History (K : CommandCrate) (c₀ : RelayFailoverController) (ops : List Op)
    (c : RelayFailoverController) : Prop where
  silence : c.silence = c₀.silence
  recovery : c.recovery = c₀.recovery
  secondaryWarm : c.secondaryWarm = c₀.secondaryWarm
  primary : c.lastPrimarySource = (primaryTimes ops).getLast?
  secondary : c.lastSecondaryRepair = (secondaryTimes ops).getLast?
  recovered : ∀ r, c.recoveredSince = some r → ∃ before clock after,
    ops = before ++ .tick clock :: after ∧ clock.now = r ∧
    RecentThroughout K (exec (step K) c₀ before) (.tick clock :: after)

/-- One more operation at the end of the recovery so far. -/
theorem History.recovered_snoc {ops : List Op} {op : Op} {r : Nat}
    (hh : History K c₀ ops (exec (step K) c₀ ops))
    (hop : RecentThroughout K (exec (step K) c₀ ops) [op])
    (hr : (exec (step K) c₀ ops).recoveredSince = some r) :
    ∃ before clock after, ops ++ [op] = before ++ .tick clock :: after ∧ clock.now = r ∧
      RecentThroughout K (exec (step K) c₀ before) (.tick clock :: after) := by
  obtain ⟨before, clock, after, hops, hnow, hrecent⟩ := hh.recovered r hr
  refine ⟨before, clock, after ++ [op], by rw [hops]; simp, hnow, ?_⟩
  have hexec : exec (step K) c₀ ops =
      exec (step K) (exec (step K) c₀ before) (.tick clock :: after) := by
    rw [hops, exec_append]
  rw [hexec] at hop
  exact hrecent.append hop

theorem recentThroughout_observe (c : RelayFailoverController) (path : RelayIngressParentPath)
    (observation : RelayDatagramObservation) (now : Nat) :
    RecentThroughout K c [.observe path observation now] := by
  intro e he clock hclock
  simp only [trace_cons, trace_nil, List.mem_singleton] at he
  rw [he] at hclock
  cases hclock

theorem recentThroughout_tick {c : RelayFailoverController} {clock : TickClock}
    (h : c.primaryRecent clock.now = true) : RecentThroughout K c [.tick clock] := by
  intro e he clock' hclock
  simp only [trace_cons, trace_nil, List.mem_singleton] at he
  subst he
  cases hclock
  exact h

theorem History.observe {ops : List Op} (path : RelayIngressParentPath)
    (observation : RelayDatagramObservation) (now : Nat)
    (hh : History K c₀ ops (exec (step K) c₀ ops)) :
    History K c₀ (ops ++ [.observe path observation now])
      ((exec (step K) c₀ ops).observe path observation now) := by
  obtain ⟨hsame, hprimary, hsecondary⟩ :=
    @observe_spec (exec (step K) c₀ ops) path observation now
  refine ⟨hsame.silence.trans hh.silence, hsame.recovery.trans hh.recovery,
    hsame.secondaryWarm.trans hh.secondaryWarm, ?_, ?_, fun r hr => ?_⟩
  · rw [hprimary, primaryTimes_append]
    obtain ⟨role, decoded⟩ := observation
    cases path <;> cases role <;> simp [primarySeen, primaryTimes, hh.primary]
  · rw [hsecondary, secondaryTimes_append]
    obtain ⟨role, decoded⟩ := observation
    cases path <;> cases role <;> simp [secondarySeen, secondaryTimes, hh.secondary]
  · rw [hsame.recoveredSince] at hr
    exact hh.recovered_snoc (recentThroughout_observe _ path observation now) hr

theorem History.tick {ops : List Op} {clock : TickClock} (hs : Sound (exec (step K) c₀ ops))
    (hh : History K c₀ ops (exec (step K) c₀ ops)) :
    History K c₀ (ops ++ [.tick clock]) ((exec (step K) c₀ ops).tick K clock).2 := by
  obtain ⟨hturn, hinputs⟩ := @tick_turn (exec (step K) c₀ ops) clock K
  refine ⟨hinputs.silence.trans hh.silence, hinputs.recovery.trans hh.recovery,
    hinputs.secondaryWarm.trans hh.secondaryWarm, ?_, ?_, fun r hr => ?_⟩
  · rw [hinputs.lastPrimarySource, hh.primary, primaryTimes_append]
    simp [primaryTimes]
  · rw [hinputs.lastSecondaryRepair, hh.secondary, secondaryTimes_append]
    simp [secondaryTimes]
  -- only a tick that finds the primary keeps or starts a recovery
  · cases hturn with
    | rest hstate hsince hinactive hkeep =>
        rw [hsince, hs.since_none hinactive] at hr
        cases hr
    | settle hstate hsince hinactive hseen hkeep =>
        rw [hsince, hs.since_none hinactive] at hr
        cases hr
    | recover hstate hsince hactive hrecent hkeep =>
        rw [hsince] at hr
        cases hbefore : (exec (step K) c₀ ops).recoveredSince with
        | none =>
            simp only [hbefore, Option.getD_none, Option.some.injEq] at hr
            exact ⟨ops, clock, [], rfl, hr, recentThroughout_tick hrecent⟩
        | some since =>
            simp only [hbefore, Option.getD_some] at hr
            exact hh.recovered_snoc (recentThroughout_tick hrecent) (hbefore.trans hr)
    | relapse hstate hsince hactive hkeep =>
        rw [hsince] at hr
        cases hr
    | promote hstate hsince hinactive hseen hsilent hwarm hmode hid hpromotions hdemotions =>
        rw [hsince] at hr
        cases hr
    | demote hstate hsince hactive hrecent hwindow hmode hid hpromotions hdemotions =>
        rw [hsince] at hr
        cases hr

theorem exec_controllerHistory (args : FailoverArgs) (unixUs unixMs : UInt64) (ops : List Op) :
    History K (bind args unixUs unixMs) ops (exec (step K) (bind args unixUs unixMs) ops) := by
  refine exec_history (step K) (History K (bind args unixUs unixMs)) _
    ⟨rfl, rfl, rfl, rfl, rfl, nofun⟩ ?_ ops
  intro ops op hh
  cases op with
  | observe path observation now => exact hh.observe path observation now
  | tick clock => exact hh.tick (exec_sound args unixUs unixMs ops)

/-! ## §3. Transitions. -/

/-- A promotion at `now`, after `ops`: the primary was seen but not within `silence`, the
secondary within `secondaryWarm`. -/
structure PromotionDue (c₀ : RelayFailoverController) (ops : List Op) (now : Nat) : Prop where
  seen : primaryTimes ops ≠ []
  silent : ∀ t ∈ primaryTimes ops, c₀.silence ≤ now - t
  warm : ∃ t ∈ secondaryTimes ops, now - t < c₀.secondaryWarm

/-- Every tick of `ops` less than `recovery` before `now` found a primary source symbol within
`silence`. -/
def RecoveredFor (c₀ : RelayFailoverController) (ops : List Op) (now : Nat) : Prop :=
  ∀ before tk after, ops = before ++ Op.tick tk :: after → now - tk.now < c₀.recovery →
    ∃ t ∈ primaryTimes before, tk.now - t < c₀.silence

theorem History.primary_mem {c : RelayFailoverController} {ops : List Op} {now : Nat}
    (hh : History K c₀ ops c) (h : c.primaryRecent now = true) :
    ∃ t ∈ primaryTimes ops, now - t < c₀.silence := by
  unfold primaryRecent at h
  rw [hh.primary, hh.silence, Option.any_eq_true] at h
  obtain ⟨t, hlast, hage⟩ := h
  exact ⟨t, List.mem_of_getLast? hlast, of_decide_eq_true hage⟩

theorem History.secondary_mem {c : RelayFailoverController} {ops : List Op} {now : Nat}
    (hh : History K c₀ ops c) (h : c.secondaryRecent now = true) :
    ∃ t ∈ secondaryTimes ops, now - t < c₀.secondaryWarm := by
  unfold secondaryRecent at h
  rw [hh.secondary, hh.secondaryWarm, Option.any_eq_true] at h
  obtain ⟨t, hlast, hage⟩ := h
  exact ⟨t, List.mem_of_getLast? hlast, of_decide_eq_true hage⟩

/-- Instants that do not decrease along the run put the last observation last. -/
theorem primaryTimes_pairwise {ops : List Op} (h : (ops.map Op.now).Pairwise (· ≤ ·)) :
    (primaryTimes ops).Pairwise (· ≤ ·) := by
  rw [List.pairwise_map] at h
  refine List.Pairwise.filterMap _ ?_ h
  intro op op' hle t ht t' ht'
  split at ht
  · split at ht'
    · cases ht
      cases ht'
      exact hle
    · cases ht'
  · cases ht

theorem History.silent {c : RelayFailoverController} {ops : List Op} {now : Nat}
    (hh : History K c₀ ops c) (hordered : (ops.map Op.now).Pairwise (· ≤ ·))
    (h : c.primaryRecent now = false) : ∀ t ∈ primaryTimes ops, c₀.silence ≤ now - t := by
  intro t ht
  have hne : primaryTimes ops ≠ [] := List.ne_nil_of_mem ht
  have hlast := List.getLast?_eq_some_getLast hne
  have hage : c₀.silence ≤ now - (primaryTimes ops).getLast hne := by
    unfold primaryRecent at h
    rw [hh.primary, hh.silence, hlast] at h
    simpa using h
  have hle : t ≤ (primaryTimes ops).getLast hne := by
    have hsplit := List.dropLast_append_getLast hne
    have hpairwise := primaryTimes_pairwise hordered
    rw [← hsplit] at ht hpairwise
    rcases List.mem_append.mp ht with ht | ht
    · exact (List.pairwise_append.mp hpairwise).2.2 t ht _ (List.mem_singleton.mpr rfl)
    · rw [List.mem_singleton.mp ht]
  omega

theorem RecentThroughout.at_split {c : RelayFailoverController} {before after : List Op}
    {tk : TickClock} (h : RecentThroughout K c (before ++ .tick tk :: after)) :
    (exec (step K) c before).primaryRecent tk.now = true := by
  refine h (exec (step K) c before, .tick tk) ?_ tk rfl
  rw [trace_append, trace_cons]
  exact List.mem_append_right _ List.mem_cons_self

theorem now_le_of_split {before after : List Op} {op op' : Op}
    (hordered : ((before ++ op :: after).map Op.now).Pairwise (· ≤ ·))
    (hmem : op' ∈ before) : op'.now ≤ op.now := by
  rw [List.pairwise_map] at hordered
  exact (List.pairwise_append.mp hordered).2.2 op' hmem op List.mem_cons_self

/-- A recovery that began at least `recovery` ago covers the whole window. -/
theorem recoveredFor_of_recentThroughout (args : FailoverArgs) (unixUs unixMs : UInt64)
    {begun rest : List Op} {start : TickClock} {now : Nat}
    (hordered : ((begun ++ .tick start :: rest).map Op.now).Pairwise (· ≤ ·))
    (hwindow : (bind args unixUs unixMs).recovery ≤ now - start.now)
    (hrecent : RecentThroughout K (exec (step K) (bind args unixUs unixMs) begun)
      (.tick start :: rest)) :
    RecoveredFor (bind args unixUs unixMs) (begun ++ .tick start :: rest) now := by
  intro before tk after hsplit hin
  -- the tick is not before the one that began the recovery: it would be too old
  have hlate : ∃ mid, before = begun ++ mid ∧ .tick start :: rest = mid ++ .tick tk :: after := by
    rcases List.append_eq_append_iff.mp hsplit with ⟨mid, hbefore, hrest⟩ | ⟨mid, hbegun, hrest⟩
    · exact ⟨mid, hbefore, hrest⟩
    · cases mid with
      | nil =>
          simp only [List.append_nil, List.nil_append] at hbegun hrest
          exact ⟨[], by rw [hbegun, List.append_nil], hrest.symm⟩
      | cons op mid =>
          simp only [List.cons_append, List.cons.injEq] at hrest
          have hmem : Op.tick tk ∈ begun := by rw [hbegun, hrest.1]; simp
          have hle : tk.now ≤ start.now := now_le_of_split hordered hmem
          omega
  obtain ⟨mid, rfl, hrest⟩ := hlate
  rw [hrest] at hrecent
  have hfound := hrecent.at_split
  rw [← exec_append] at hfound
  exact (exec_controllerHistory args unixUs unixMs (begun ++ mid)).primary_mem hfound

/-- A step without a transition, a promotion or a demotion. -/
theorem step_transition {c : RelayFailoverController} (hs : Sound c) (op : Op) :
    SameTransition c (step K c op).2 ∨
    (∃ clock, op = .tick clock ∧ c.desiredMode = .repairOnly ∧
      (step K c op).2.desiredMode = .sourceAndRepair ∧
      (step K c op).2.transitionId = max clock.unixUs.toNat (satAdd c.transitionId 1) ∧
      c.lastPrimarySource.isSome ∧ c.primaryRecent clock.now = false ∧
      c.secondaryRecent clock.now = true) ∨
    (∃ clock, op = .tick clock ∧ c.desiredMode = .sourceAndRepair ∧
      (step K c op).2.desiredMode = .repairOnly ∧
      (step K c op).2.transitionId = max clock.unixUs.toNat (satAdd c.transitionId 1) ∧
      c.primaryRecent clock.now = true ∧
      c.recovery ≤ clock.now - c.recoveredSince.getD clock.now) := by
  cases op with
  | observe path observation now => exact .inl (observe_spec path observation now).1.keep
  | tick clock =>
      cases (@tick_turn c clock K).1 with
      | rest hstate hsince hinactive hkeep => exact .inl hkeep
      | settle hstate hsince hinactive hseen hkeep => exact .inl hkeep
      | recover hstate hsince hactive hrecent hkeep => exact .inl hkeep
      | relapse hstate hsince hactive hkeep => exact .inl hkeep
      | promote hstate hsince hinactive hseen hsilent hwarm hmode hid hpromotions hdemotions =>
          have hbefore : c.desiredMode = .repairOnly := by
            cases hdesired : c.desiredMode with
            | repairOnly => rfl
            | sourceAndRepair => exact absurd (hs.mode.mp hdesired) hinactive
          exact .inr (.inl ⟨clock, rfl, hbefore, hmode, hid, hs.isSome_of_seen hseen, hsilent,
            hwarm⟩)
      | demote hstate hsince hactive hrecent hwindow hmode hid hpromotions hdemotions =>
          exact .inr (.inr ⟨clock, rfl, hs.mode.mpr hactive, hmode, hid, hrecent, hwindow⟩)

theorem lt_advanced {id : Nat} (unixUs : UInt64) (h : id < u64Max) :
    id < max unixUs.toNat (satAdd id 1) := by
  simp only [satAdd]
  omega

/-- The id moves with the mode, and only with it. -/
theorem step_transitionId {c : RelayFailoverController} (hs : Sound c) (op : Op) :
    ((step K c op).2.desiredMode ≠ c.desiredMode → c.transitionId < u64Max →
      c.transitionId < (step K c op).2.transitionId) ∧
    ((step K c op).2.desiredMode = c.desiredMode →
      (step K c op).2.transitionId = c.transitionId) := by
  rcases @step_transition K c hs op with hkeep |
    ⟨clock, -, hmode, hmode', hid, -⟩ | ⟨clock, -, hmode, hmode', hid, -⟩
  · exact ⟨fun h => absurd hkeep.desiredMode h, fun _ => hkeep.transitionId⟩
  · rw [hmode, hmode', hid]
    exact ⟨fun _ => lt_advanced clock.unixUs, nofun⟩
  · rw [hmode, hmode', hid]
    exact ⟨fun _ => lt_advanced clock.unixUs, nofun⟩

theorem promotionDue {ops : List Op} {op : Op} (args : FailoverArgs) (unixUs unixMs : UInt64)
    (hordered : (ops.map Op.now).Pairwise (· ≤ ·))
    (hmode : (exec (step K) (bind args unixUs unixMs) ops).desiredMode = .repairOnly)
    (hmode' : (step K (exec (step K) (bind args unixUs unixMs) ops) op).2.desiredMode =
      .sourceAndRepair) :
    ∃ clock, op = .tick clock ∧ PromotionDue (bind args unixUs unixMs) ops clock.now := by
  have hh := @exec_controllerHistory K args unixUs unixMs ops
  rcases @step_transition K _ (exec_sound args unixUs unixMs ops) op with hkeep |
    ⟨clock, rfl, -, -, -, hseen, hsilent, hwarm⟩ | ⟨clock, -, hactive, -⟩
  · rw [hkeep.desiredMode, hmode] at hmode'
    cases hmode'
  · refine ⟨clock, rfl, ?_, hh.silent hordered hsilent, hh.secondary_mem hwarm⟩
    rw [hh.primary] at hseen
    intro hnil
    simp [hnil] at hseen
  · rw [hmode] at hactive
    cases hactive

theorem recoveredFor {ops : List Op} {op : Op} (args : FailoverArgs) (unixUs unixMs : UInt64)
    (hordered : ((ops ++ [op]).map Op.now).Pairwise (· ≤ ·))
    (hmode : (exec (step K) (bind args unixUs unixMs) ops).desiredMode = .sourceAndRepair)
    (hmode' : (step K (exec (step K) (bind args unixUs unixMs) ops) op).2.desiredMode =
      .repairOnly) :
    ∃ clock, op = .tick clock ∧
      RecoveredFor (bind args unixUs unixMs) (ops ++ [op]) clock.now := by
  have hh := @exec_controllerHistory K args unixUs unixMs ops
  rcases @step_transition K _ (exec_sound args unixUs unixMs ops) op with hkeep |
    ⟨clock, -, hinactive, -⟩ | ⟨clock, rfl, -, -, -, hrecent, hwindow⟩
  · rw [hkeep.desiredMode, hmode] at hmode'
    cases hmode'
  · rw [hmode] at hinactive
    cases hinactive
  · refine ⟨clock, rfl, ?_⟩
    have htick := @recentThroughout_tick K _ clock hrecent
    rw [hh.recovery] at hwindow
    cases hsince : (exec (step K) (bind args unixUs unixMs) ops).recoveredSince with
    | none =>
        -- the demoting tick is the first that found the primary: `recovery` is zero
        rw [hsince, Option.getD_none] at hwindow
        exact recoveredFor_of_recentThroughout args unixUs unixMs hordered hwindow htick
    | some since =>
        rw [hsince, Option.getD_some] at hwindow
        obtain ⟨begun, start, rest, hops, rfl, hall⟩ := hh.recovered_snoc htick hsince
        rw [hops] at hordered ⊢
        exact recoveredFor_of_recentThroughout args unixUs unixMs hordered hwindow hall

/-- **THE CONTROLLER'S STATE MACHINE**, over every run with instants that do not decrease and the
operation after it: mode and state go together, the counters pair up and the transition id grows
with every change of mode until they reach `u64::MAX`, and a promotion or a demotion happens only
on the evidence of the whole run. -/
theorem exec_controller_sound (K : CommandCrate) (args : FailoverArgs) (unixUs unixMs : UInt64)
    (ops : List Op) (op : Op) (hordered : ((ops ++ [op]).map Op.now).Pairwise (· ≤ ·)) :
    let c := exec (step K) (bind args unixUs unixMs) ops
    let c' := (step K c op).2
    (c.desiredMode = .sourceAndRepair ↔ c.state = .promoted ∨ c.state = .recovering) ∧
    (c.snapshot.promotions < u64Max → c.snapshot.promotions =
      c.snapshot.demotions + if c.state = .promoted ∨ c.state = .recovering then 1 else 0) ∧
    (c.recoveredSince.isSome → c.state = .recovering) ∧
    (c'.desiredMode ≠ c.desiredMode → c.transitionId < u64Max →
      c.transitionId < c'.transitionId) ∧
    (c'.desiredMode = c.desiredMode → c'.transitionId = c.transitionId) ∧
    (c.desiredMode = .repairOnly → c'.desiredMode = .sourceAndRepair →
      ∃ clock, op = .tick clock ∧ PromotionDue (bind args unixUs unixMs) ops clock.now) ∧
    (c.desiredMode = .sourceAndRepair → c'.desiredMode = .repairOnly →
      ∃ clock, op = .tick clock ∧
        RecoveredFor (bind args unixUs unixMs) (ops ++ [op]) clock.now) := by
  intro c c'
  have hs : Sound c := exec_sound args unixUs unixMs ops
  obtain ⟨hmoved, hstill⟩ := @step_transitionId K c hs op
  have hearlier : (ops.map Op.now).Pairwise (· ≤ ·) := by
    rw [List.map_append] at hordered
    exact (List.pairwise_append.mp hordered).1
  refine ⟨hs.mode, ?_, hs.since, hmoved, hstill, promotionDue args unixUs unixMs hearlier,
    recoveredFor args unixUs unixMs hordered⟩
  intro hlt
  split
  · next hactive =>
      have hahead := hs.ahead hactive
      omega
  · next hinactive =>
      have hlevel := hs.level hinactive
      omega

/-- The defaults of the arguments. -/
def sampleArgs : FailoverArgs := ⟨1, 1, 250, 2000, 750, 1000⟩

/-- A crate that takes every command. -/
def sampleCrate : CommandCrate := ⟨some, fun _ => none, 64⟩

/-- A tick at `now` under a wall clock that stands still. -/
def sampleTick (now : Nat) : Op := .tick ⟨now, 5, 0, 5, true⟩

/-- Both parents are seen at once, then the primary falls silent. -/
def sampleOutage : List Op :=
  [.observe .primary ⟨.source, false⟩ 0, .observe .secondary ⟨.repair, false⟩ 0, sampleTick 0]

theorem exec_controller_sound_outage :
    let c := exec (step sampleCrate) (bind sampleArgs 5 0) sampleOutage
    let c' := (step sampleCrate c (sampleTick 250000000)).2
    c.state = .healthy ∧ c'.state = .promoted ∧ c'.transitionId = 6 ∧
      ∃ clock, sampleTick 250000000 = .tick clock ∧
        PromotionDue (bind sampleArgs 5 0) sampleOutage clock.now := by
  refine ⟨by decide, by decide, by decide, ?_⟩
  exact (exec_controller_sound sampleCrate sampleArgs 5 0 sampleOutage (sampleTick 250000000)
    (by decide)).2.2.2.2.2.1 (by decide) (by decide)

/-- Under a wall clock at its last reading `u64::MAX` a promotion leaves the transition id as it
is. -/
theorem saturated_promotion :
    let c := exec (step sampleCrate) (bind sampleArgs 18446744073709551615 0) sampleOutage
    let c' := (step sampleCrate c (sampleTick 250000000)).2
    ((sampleOutage ++ [sampleTick 250000000]).map Op.now).Pairwise (· ≤ ·) ∧
      c.desiredMode = .repairOnly ∧ c'.desiredMode = .sourceAndRepair ∧
      c'.transitionId = c.transitionId := by
  refine ⟨by decide, by decide, by decide, by decide⟩

end Runs

end RelayFailoverController

end AvMesh.Failover
