/-
  AvMesh.Failover.PromotionRace
  ─────────────────────────────
  **SOURCE DATAGRAMS AGAINST ONE PROMOTION** (`forward`,
  `apply_failover_mode` and `replay_warm_sources`, src/main.rs).

  On a repair-only path the ingest task and the failover listener share the
  `promoted` flag and the warm buffer, without one lock over both.  Each side
  takes two atomic steps:

      forward     load     — read `promoted`
                  finish   — send, or push into the buffer
      promotion   swap     — `promoted := true`
                  drain    — take the live datagrams and send them

  What happens to ONE datagram depends only on its own two steps and the two
  of the promotion: `Fate` is that four-step machine, `Tracks` the simulation
  by the path.  Of the six orders one loses the datagram.
-/
import AvMesh.Failover.WarmSources
import AvMesh.Lib.StepSystem

namespace AvMesh.Failover

open AvMesh.Lib

/-! ## §1. The path. -/

/-- A `forward` call for a source datagram. -/
structure SourceForward (κ : Type) where
  objectKey : Option κ
  expiresAtUs : Option Nat
  wire : Bytes
  deriving Repr, DecidableEq

/-- One atomic step of a `forward` call or of the promotion. -/
inductive RaceStep where
  | load (call : Nat)
  | finish (call nowUs : Nat)
  | swap
  | drain (nowUs : Nat)
  deriving Repr, DecidableEq

/-- A repair-only path, the flags its `forward` calls have read and the calls whose datagram
went to the child. -/
structure WarmPath (κ : Type) where
  promoted : Bool := false
  warmSources : WarmSourceReplayBuffer κ := {}
  loaded : Nat → Option Bool := fun _ => none
  drained : Bool := false
  sent : List Nat := []

namespace WarmPath

variable {κ : Type} [DecidableEq κ]

def step (F : Nat → SourceForward κ) (s : WarmPath κ) : RaceStep → Unit × WarmPath κ
  | .load call => ((), { s with loaded := Function.update s.loaded call (some s.promoted) })
  | .finish call nowUs =>
      match s.loaded call with
      | some true => ((), { s with sent := s.sent ++ [call] })
      | some false =>
          match (F call).objectKey, (F call).expiresAtUs with
          | some objectKey, some expiresAtUs =>
              let datagram := ⟨objectKey, expiresAtUs, (F call).wire, call⟩
              ((), { s with warmSources := (s.warmSources.push datagram nowUs).1 })
          | _, _ => ((), s)
      | none => ((), s)
  | .swap => ((), { s with promoted := true })
  | .drain nowUs =>
      let (batch, warmSources) := s.warmSources.takeLive nowUs
      ((), { s with
        warmSources
        drained := true
        sent := s.sent ++ batch.datagrams.map (·.call) })

/-- The calls whose datagram is in the buffer. -/
def buffered (s : WarmPath κ) : List Nat := s.warmSources.datagrams.map (·.call)

end WarmPath

namespace RaceStep

def isPromotion : RaceStep → Bool
  | .swap | .drain _ => true
  | .load _ | .finish _ _ => false

def ofCall (call : Nat) : RaceStep → Bool
  | .load c | .finish c _ => c == call
  | .swap | .drain _ => false

/-- One promotion, and every call runs its two steps in order or not at all. -/
structure Interleaving (steps : List RaceStep) : Prop where
  promotion : ∃ nowUs, steps.filter isPromotion = [.swap, .drain nowUs]
  forward : ∀ call, steps.filter (ofCall call) = [] ∨
    ∃ nowUs, steps.filter (ofCall call) = [.load call, .finish call nowUs]

/-- The call reads the flag before the promotion sets it and buffers after the promotion has
drained. -/
def Straddles (steps : List RaceStep) (call : Nat) : Prop :=
  ∃ drainUs nowUs, [.load call, .swap, .drain drainUs, .finish call nowUs].Sublist steps

end RaceStep

/-! ## §2. The fate of one datagram. -/

structure Fate where
  promoted : Bool := false
  loaded : Option Bool := none
  buffered : Bool := false
  sent : Nat := 0
  deriving Repr, DecidableEq

/-- The four steps that concern the datagram of `call`. -/
def Fate.step (call : Nat) (f : Fate) : RaceStep → Fate
  | .load c => if c = call then { f with loaded := some f.promoted } else f
  | .finish c _ =>
      if c = call then
        match f.loaded with
        | some true => { f with sent := f.sent + 1 }
        | some false => { f with buffered := true }
        | none => f
      else f
  | .swap => { f with promoted := true }
  | .drain _ => { f with buffered := false, sent := f.sent + f.buffered.toNat }

namespace WarmPath

section Simulation

variable {κ : Type} [DecidableEq κ] {F : Nat → SourceForward κ} {call deadline : Nat}
  {s : WarmPath κ} {f : Fate}

/-- The path and the fate of the datagram of `call`; once drained, the buffer may hold less. -/
structure Tracks (call deadline : Nat) (s : WarmPath κ) (f : Fate) : Prop where
  promoted : s.promoted = f.promoted
  loaded : s.loaded call = f.loaded
  sent : s.sent.count call = f.sent
  buffered_le : s.buffered.count call ≤ f.buffered.toNat
  buffered_eq : s.drained = false → s.buffered.count call = f.buffered.toNat
  deadline : ∀ datagram ∈ s.warmSources.datagrams, datagram.call = call →
    datagram.expiresAtUs = deadline
  wellFormed : s.warmSources.WellFormed

/-- What the simulation needs of a step: clock readings before the deadline and no displacement
until the buffer is drained, which happens once; the datagram itself is pushed once. -/
def Regular (F : Nat → SourceForward κ) (call deadline : Nat) (s : WarmPath κ) :
    RaceStep → Prop
  | .finish c nowUs =>
      (c = call → s.buffered.count call = 0 ∧ (s.drained = false → nowUs < deadline)) ∧
      (c ≠ call → s.drained = false → call ∈ s.buffered →
        call ∈ (step F s (.finish c nowUs)).2.buffered)
  | .drain nowUs => s.drained = false ∧ nowUs < deadline
  | .load _ | .swap => True

omit [DecidableEq κ] in
theorem tracks_start : Tracks call deadline ({} : WarmPath κ) {} where
  promoted := rfl
  loaded := rfl
  sent := rfl
  buffered_le := Nat.le_refl _
  buffered_eq := fun _ => rfl
  deadline := nofun
  wellFormed := ⟨rfl, Nat.zero_le _, Nat.zero_le _⟩

omit [DecidableEq κ] in
theorem count_map_le_of_sublist {kept datagrams : List (WarmSourceDatagram κ)}
    (h : kept.Sublist datagrams) :
    (kept.map (·.call)).count call ≤ (datagrams.map (·.call)).count call :=
  (h.map _).count_le _

/-- Another call's push. -/
theorem Tracks.push_other (h : Tracks call deadline s f) {datagram : WarmSourceDatagram κ}
    {nowUs : Nat} (hother : datagram.call ≠ call)
    (hkeep : s.drained = false → call ∈ s.buffered →
      call ∈ ((s.warmSources.push datagram nowUs).1.datagrams.map (·.call))) :
    Tracks call deadline { s with warmSources := (s.warmSources.push datagram nowUs).1 } f := by
  obtain ⟨hwell, kept, hsub, hshape⟩ :=
    WarmSourceReplayBuffer.push_shape datagram nowUs h.wellFormed
  have hcount : ((s.warmSources.push datagram nowUs).1.datagrams.map (·.call)).count call =
      (kept.map (·.call)).count call := by
    rcases hshape with hshape | hshape
    · rw [hshape, List.map_append, List.count_append, List.map_singleton,
        List.count_singleton, beq_false_of_ne hother]
      rfl
    · rw [hshape]
  have hle : ((s.warmSources.push datagram nowUs).1.datagrams.map (·.call)).count call ≤
      s.buffered.count call := by
    rw [hcount]
    exact count_map_le_of_sublist hsub
  refine ⟨h.promoted, h.loaded, h.sent, Nat.le_trans hle h.buffered_le, ?_, ?_, hwell⟩
  · intro hdrained
    have hbefore := h.buffered_eq hdrained
    show ((s.warmSources.push datagram nowUs).1.datagrams.map (·.call)).count call = _
    by_cases hmem : call ∈ s.buffered
    · have hpos := List.count_pos_iff.mpr (hkeep hdrained hmem)
      have hone := Bool.toNat_le f.buffered
      have hposBefore := List.count_pos_iff.mpr hmem
      omega
    · have hzero := List.count_eq_zero.mpr hmem
      omega
  · intro entry hentry hcall
    rcases hshape with hshape | hshape
    · rw [hshape] at hentry
      rcases List.mem_append.mp hentry with hentry | hentry
      · exact h.deadline entry (hsub.subset hentry) hcall
      · rw [List.mem_singleton.mp hentry] at hcall
        exact absurd hcall hother
    · rw [hshape] at hentry
      exact h.deadline entry (hsub.subset hentry) hcall

/-- The push of the datagram itself. -/
theorem Tracks.push_self (h : Tracks call deadline s f) {datagram : WarmSourceDatagram κ}
    {nowUs : Nat} (hcall : datagram.call = call) (hdeadline : datagram.expiresAtUs = deadline)
    (hsize : datagram.wire.length ≤ relayWarmSourceReplayMaxBytesPerChild)
    (hfirst : s.buffered.count call = 0) (hlive : s.drained = false → nowUs < deadline) :
    Tracks call deadline { s with warmSources := (s.warmSources.push datagram nowUs).1 }
      { f with buffered := true } := by
  obtain ⟨hwell, kept, hsub, hshape⟩ :=
    WarmSourceReplayBuffer.push_shape datagram nowUs h.wellFormed
  have hkept : ∀ kept : List (WarmSourceDatagram κ), kept.Sublist s.warmSources.datagrams →
      (kept.map (·.call)).count call = 0 := fun kept hsub =>
    Nat.le_zero.mp (hfirst ▸ count_map_le_of_sublist hsub)
  constructor
  case promoted => exact h.promoted
  case loaded => exact h.loaded
  case sent => exact h.sent
  case buffered_le =>
    show List.count call (List.map _ (s.warmSources.push datagram nowUs).1.datagrams) ≤ 1
    rcases hshape with hshape | hshape
    · rw [hshape, List.map_append, List.count_append, hkept kept hsub, Nat.zero_add]
      exact List.count_le_length
    · rw [hshape, hkept kept hsub]
      exact Nat.zero_le _
  case buffered_eq =>
    intro hdrained
    obtain ⟨kept', hsub', hpushed, -⟩ := WarmSourceReplayBuffer.push_spec h.wellFormed
      (hdeadline ▸ hlive hdrained) hsize
    show List.count call (List.map _ (s.warmSources.push datagram nowUs).1.datagrams) = 1
    rw [hpushed, List.map_append, List.count_append, hkept kept' hsub']
    simp [hcall]
  case deadline =>
    intro entry hentry hentryCall
    rcases hshape with hshape | hshape
    · rw [hshape] at hentry
      rcases List.mem_append.mp hentry with hentry | hentry
      · exact h.deadline entry (hsub.subset hentry) hentryCall
      · rw [List.mem_singleton.mp hentry, hdeadline]
    · rw [hshape] at hentry
      exact h.deadline entry (hsub.subset hentry) hentryCall
  case wellFormed => exact hwell

omit [DecidableEq κ] in
/-- The drain sends every copy, none of which has expired. -/
theorem Tracks.drain (h : Tracks call deadline s f) {nowUs : Nat} (hdrained : s.drained = false)
    (hlive : nowUs < deadline) :
    (((s.warmSources.takeLive nowUs).1.datagrams).map (·.call)).count call = f.buffered.toNat := by
  rw [← h.buffered_eq hdrained, WarmSourceReplayBuffer.takeLive_datagrams]
  unfold buffered
  rw [List.count_eq_countP, List.count_eq_countP, List.countP_map, List.countP_map,
    List.countP_filter]
  refine List.countP_congr ?_
  intro datagram hmem
  have hdeadline := h.deadline datagram hmem
  simp only [Function.comp_apply, Bool.and_eq_true, beq_iff_eq, Bool.not_eq_eq_eq_not,
    Bool.not_true, decide_eq_false_iff_not, Nat.not_le, and_iff_left_iff_imp]
  intro hcall
  rw [hdeadline hcall]
  exact hlive

/-- **The simulation step.** -/
theorem Tracks.step (h : Tracks call deadline s f) {objectKey : κ}
    (hkey : (F call).objectKey = some objectKey) (hdeadline : (F call).expiresAtUs = some deadline)
    (hsize : (F call).wire.length ≤ relayWarmSourceReplayMaxBytesPerChild) (step : RaceStep)
    (hregular : Regular F call deadline s step) :
    Tracks call deadline (WarmPath.step F s step).2 (f.step call step) := by
  cases step with
  | load c =>
      by_cases hcall : c = call
      · subst hcall
        simp only [WarmPath.step, Fate.step, if_true]
        exact ⟨h.promoted, by simp [h.promoted], h.sent, h.buffered_le, h.buffered_eq, h.deadline,
          h.wellFormed⟩
      · simp only [WarmPath.step, Fate.step, if_neg hcall]
        refine ⟨h.promoted, ?_, h.sent, h.buffered_le, h.buffered_eq, h.deadline, h.wellFormed⟩
        rw [← h.loaded]
        exact Function.update_of_ne (Ne.symm hcall) _ _
  | finish c nowUs =>
      by_cases hcall : c = call
      · subst hcall
        obtain ⟨hfirst, hlive⟩ := hregular.1 rfl
        have hread := h.loaded
        rcases hloaded : f.loaded with _ | (_ | _) <;> rw [hloaded] at hread
        · have hsame : f.step c (.finish c nowUs) = f := by simp [Fate.step, hloaded]
          rw [hsame]
          simp only [WarmPath.step, hread]
          exact h
        · have hbuffer : f.step c (.finish c nowUs) = { f with buffered := true } := by
            simp [Fate.step, hloaded]
          rw [hbuffer]
          simp only [WarmPath.step, hread, hkey, hdeadline]
          exact @Tracks.push_self _ _ _ _ _ _ h ⟨objectKey, deadline, (F c).wire, c⟩ nowUs rfl rfl
            hsize hfirst hlive
        · have hsend : f.step c (.finish c nowUs) = { f with sent := f.sent + 1 } := by
            simp [Fate.step, hloaded]
          rw [hsend]
          simp only [WarmPath.step, hread]
          refine ⟨h.promoted, h.loaded, ?_, h.buffered_le, h.buffered_eq, h.deadline,
            h.wellFormed⟩
          simp [List.count_append, h.sent]
      · have hkeep := hregular.2 hcall
        simp only [WarmPath.step, Fate.step, if_neg hcall] at hkeep ⊢
        split
        · refine ⟨h.promoted, h.loaded, ?_, h.buffered_le, h.buffered_eq, h.deadline,
            h.wellFormed⟩
          simp [List.count_append, h.sent, hcall]
        · next hloaded =>
            simp only [hloaded] at hkeep
            split
            · next hkey' hdeadline' =>
                simp only [hkey', hdeadline'] at hkeep
                exact h.push_other hcall hkeep
            · exact h
        · exact h
  | swap =>
      exact ⟨rfl, h.loaded, h.sent, h.buffered_le, h.buffered_eq, h.deadline, h.wellFormed⟩
  | drain nowUs =>
      obtain ⟨hdrained, hlive⟩ := hregular
      refine ⟨h.promoted, h.loaded, ?_, Nat.zero_le _, nofun, nofun,
        ⟨rfl, Nat.zero_le _, Nat.zero_le _⟩⟩
      show (s.sent ++ (s.warmSources.takeLive nowUs).1.datagrams.map (·.call)).count call =
        f.sent + f.buffered.toNat
      rw [List.count_append, h.sent, h.drain hdrained hlive]

/-- **The simulation**, over a whole run. -/
theorem exec_tracks {objectKey : κ} (hkey : (F call).objectKey = some objectKey)
    (hdeadline : (F call).expiresAtUs = some deadline)
    (hsize : (F call).wire.length ≤ relayWarmSourceReplayMaxBytesPerChild)
    (steps : List RaceStep) (s : WarmPath κ) (f : Fate) (h : Tracks call deadline s f)
    (hregular : ∀ e ∈ trace (WarmPath.step F) s steps, Regular F call deadline e.1 e.2) :
    Tracks call deadline (exec (WarmPath.step F) s steps) (steps.foldl (Fate.step call) f) := by
  induction steps generalizing s f with
  | nil => exact h
  | cons step steps ih =>
      simp only [trace_cons, List.mem_cons, forall_eq_or_imp] at hregular
      exact ih _ _ (h.step hkey hdeadline hsize step hregular.1) hregular.2

end Simulation

/-! ## §3. Interleavings. -/

section Race

variable {κ : Type} [DecidableEq κ] {F : Nat → SourceForward κ} {call deadline : Nat}
  {steps : List RaceStep}

/-- Every clock reading up to the drain is before `deadline`. -/
def LiveUntilDrain (steps : List RaceStep) (deadline : Nat) : Prop :=
  ∀ before drainUs after, steps = before ++ .drain drainUs :: after →
    drainUs < deadline ∧ ∀ c nowUs, RaceStep.finish c nowUs ∈ before → nowUs < deadline

/-- Until the drain, no push of another datagram displaces that of `call`. -/
def Fits (F : Nat → SourceForward κ) (steps : List RaceStep) (call : Nat) : Prop :=
  ∀ e ∈ trace (step F) {} steps, e.1.drained = false → ∀ c nowUs, e.2 = .finish c nowUs →
    c ≠ call → call ∈ e.1.buffered → call ∈ (step F e.1 e.2).2.buffered

theorem drained_iff (steps : List RaceStep) :
    (exec (step F) {} steps).drained = true ↔ ∃ nowUs, .drain nowUs ∈ steps := by
  refine exec_history (step F) (fun steps s => s.drained = true ↔ ∃ nowUs, .drain nowUs ∈ steps)
    {} (by simp) ?_ steps
  intro steps next ih
  cases next with
  | load c => simpa [step] using ih
  | swap => simpa [step] using ih
  | drain nowUs => simp [step]
  | finish c nowUs =>
      have hsame : (step F (exec (step F) {} steps) (.finish c nowUs)).2.drained =
          (exec (step F) {} steps).drained := by
        simp only [step]
        split
        · rfl
        · split <;> rfl
        · rfl
      rw [hsame]
      simpa using ih

/-- What is in the buffer was pushed. -/
theorem buffered_finished (steps : List RaceStep) :
    (exec (step F) {} steps).warmSources.WellFormed ∧
    ∀ datagram ∈ (exec (step F) {} steps).warmSources.datagrams,
      ∃ nowUs, .finish datagram.call nowUs ∈ steps := by
  refine exec_history (step F) (fun steps s => s.warmSources.WellFormed ∧
    ∀ datagram ∈ s.warmSources.datagrams, ∃ nowUs, .finish datagram.call nowUs ∈ steps)
    {} ⟨⟨rfl, Nat.zero_le _, Nat.zero_le _⟩, nofun⟩ ?_ steps
  rintro steps next ⟨hwell, ih⟩
  have hold : ∀ datagram ∈ (exec (step F) {} steps).warmSources.datagrams,
      ∃ nowUs, .finish datagram.call nowUs ∈ steps ++ [next] := by
    intro datagram hmem
    obtain ⟨nowUs, hfinish⟩ := ih datagram hmem
    exact ⟨nowUs, List.mem_append_left _ hfinish⟩
  cases next with
  | load c => exact ⟨hwell, hold⟩
  | swap => exact ⟨hwell, hold⟩
  | drain nowUs => exact ⟨⟨rfl, Nat.zero_le _, Nat.zero_le _⟩, nofun⟩
  | finish c nowUs =>
      simp only [step]
      split
      · exact ⟨hwell, hold⟩
      · split
        · next objectKey expiresAtUs _ _ =>
            obtain ⟨hwell', kept, hsub, hshape⟩ := WarmSourceReplayBuffer.push_shape
              ⟨objectKey, expiresAtUs, (F c).wire, c⟩ nowUs hwell
            refine ⟨hwell', ?_⟩
            intro datagram hmem
            rcases hshape with hshape | hshape
            · rw [hshape] at hmem
              rcases List.mem_append.mp hmem with hmem | hmem
              · exact hold datagram (hsub.subset hmem)
              · rw [List.mem_singleton.mp hmem]
                exact ⟨nowUs, by simp⟩
            · rw [hshape] at hmem
              exact hold datagram (hsub.subset hmem)
        · exact ⟨hwell, hold⟩
      · exact ⟨hwell, hold⟩

/-- The second of two steps has the first before it and nothing after it. -/
theorem second_of_two {α : Type} {front back : List α} {a b x : α}
    (h : front ++ x :: back = [a, b]) (hx : x ≠ a) : front = [a] ∧ x = b ∧ back = [] := by
  rcases front with _ | ⟨y, _ | ⟨z, front⟩⟩
  · simp only [List.nil_append, List.cons.injEq] at h
    exact absurd h.1 hx
  · simp only [List.cons_append, List.nil_append, List.cons.injEq] at h
    exact ⟨by rw [h.1], h.2⟩
  · simp at h

/-- The buffer is drained once. -/
theorem not_drained_before (h : RaceStep.Interleaving steps)
    {before after : List RaceStep} {nowUs : Nat} (hsplit : steps = before ++ .drain nowUs :: after) :
    (exec (step F) {} before).drained = false := by
  obtain ⟨drainUs, hpromotion⟩ := h.promotion
  rw [hsplit, List.filter_append, List.filter_cons] at hpromotion
  have hbefore := (second_of_two hpromotion nofun).1
  rw [Bool.eq_false_iff]
  intro hdrained
  obtain ⟨drainUs', hmem⟩ := (drained_iff before).mp hdrained
  have hfiltered := List.mem_filter.mpr ⟨hmem, (rfl : RaceStep.isPromotion (.drain drainUs') = true)⟩
  rw [hbefore] at hfiltered
  simp at hfiltered

/-- A datagram is pushed once. -/
theorem not_buffered_before (h : RaceStep.Interleaving steps)
    {before after : List RaceStep} {nowUs : Nat}
    (hsplit : steps = before ++ .finish call nowUs :: after) :
    (exec (step F) {} before).buffered.count call = 0 := by
  rw [List.count_eq_zero]
  intro hmem
  obtain ⟨datagram, hdatagram, hcall⟩ := List.mem_map.mp hmem
  obtain ⟨pushedUs, hpushed⟩ := (buffered_finished before).2 datagram hdatagram
  rw [hcall] at hpushed
  have hfiltered := List.mem_filter.mpr
    ⟨hpushed, (by simp [RaceStep.ofCall] : RaceStep.ofCall call (.finish call pushedUs) = true)⟩
  rcases h.forward call with hnone | ⟨finishUs, hboth⟩
  · rw [hsplit, List.filter_append] at hnone
    rw [(List.append_eq_nil_iff.mp hnone).1] at hfiltered
    cases hfiltered
  · rw [hsplit, List.filter_append, List.filter_cons,
      if_pos (by simp [RaceStep.ofCall])] at hboth
    rw [(second_of_two hboth nofun).1] at hfiltered
    simp at hfiltered

/-- Every step of an interleaving is regular for a datagram that lives until the drain and
fits. -/
theorem regular_of_interleaving (h : RaceStep.Interleaving steps)
    (hlive : LiveUntilDrain steps deadline) (hfits : Fits F steps call) :
    ∀ e ∈ trace (step F) {} steps, Regular F call deadline e.1 e.2 := by
  intro e he
  obtain ⟨before, after, hsplit, hstate⟩ := exists_exec_of_mem_trace (step F) he
  obtain ⟨s, next⟩ := e
  dsimp only at hsplit hstate
  cases next with
  | load c => trivial
  | swap => trivial
  | drain nowUs =>
      refine ⟨?_, (hlive before nowUs after hsplit).1⟩
      show s.drained = false
      rw [hstate]
      exact not_drained_before h hsplit
  | finish c nowUs =>
      constructor
      · rintro rfl
        refine ⟨?_, ?_⟩
        · show s.buffered.count c = 0
          rw [hstate]
          exact not_buffered_before h hsplit
        · -- the drain is still to come, so this reading is one of those before it
          intro hdrained
          change s.drained = false at hdrained
          obtain ⟨drainUs, hpromotion⟩ := h.promotion
          have hdrain : RaceStep.drain drainUs ∈ steps := by
            have hmem : RaceStep.drain drainUs ∈ steps.filter RaceStep.isPromotion := by
              rw [hpromotion]
              simp
            exact (List.mem_filter.mp hmem).1
          rw [hsplit] at hdrain
          rcases List.mem_append.mp hdrain with hdrain | hdrain
          · have hdone := (@drained_iff κ _ F before).mpr ⟨drainUs, hdrain⟩
            rw [← hstate] at hdone
            rw [hdone] at hdrained
            cases hdrained
          · rcases List.mem_cons.mp hdrain with hdrain | hdrain
            · cases hdrain
            · obtain ⟨mid, rest, hafter⟩ := List.append_of_mem hdrain
              rw [hafter] at hsplit
              exact (hlive (before ++ .finish c nowUs :: mid) drainUs rest
                (by rw [hsplit]; simp)).2 c nowUs (by simp)
      · intro hother hdrained hmem
        exact hfits _ he hdrained c nowUs rfl hother hmem

/-- The steps that decide the fate of the datagram of `call`. -/
def relevant (call : Nat) (step : RaceStep) : Bool :=
  step.isPromotion || step.ofCall call

theorem fate_relevant (call : Nat) (steps : List RaceStep) (f : Fate) :
    (steps.filter (relevant call)).foldl (Fate.step call) f = steps.foldl (Fate.step call) f := by
  rw [List.foldl_filter]
  congr 1
  funext f step
  cases step with
  | load c => by_cases h : c = call <;> simp [relevant, RaceStep.isPromotion, RaceStep.ofCall, Fate.step, h]
  | finish c nowUs =>
      by_cases h : c = call <;> simp [relevant, RaceStep.isPromotion, RaceStep.ofCall, Fate.step, h]
  | swap => rfl
  | drain nowUs => rfl

/-- The six orders of the call and the promotion. -/
theorem relevant_orders (h : RaceStep.Interleaving steps) (hcall : .load call ∈ steps) :
    ∃ drainUs nowUs, let r := steps.filter (relevant call)
      r = [.swap, .drain drainUs, .load call, .finish call nowUs] ∨
      r = [.swap, .load call, .drain drainUs, .finish call nowUs] ∨
      r = [.swap, .load call, .finish call nowUs, .drain drainUs] ∨
      r = [.load call, .swap, .drain drainUs, .finish call nowUs] ∨
      r = [.load call, .swap, .finish call nowUs, .drain drainUs] ∨
      r = [.load call, .finish call nowUs, .swap, .drain drainUs] := by
  obtain ⟨drainUs, hpromotion⟩ := h.promotion
  have hforward : ∃ nowUs, steps.filter (RaceStep.ofCall call) =
      [.load call, .finish call nowUs] := by
    rcases h.forward call with hnone | hboth
    · have hfalse := List.filter_eq_nil_iff.mp hnone _ hcall
      simp [RaceStep.ofCall] at hfalse
    · exact hboth
  obtain ⟨nowUs, hforward⟩ := hforward
  refine ⟨drainUs, nowUs, interleaving_two_two (p := RaceStep.isPromotion) ?_ ?_⟩
  · rw [List.filter_filter, ← hpromotion]
    refine List.filter_congr ?_
    intro step _
    cases step <;> rfl
  · rw [List.filter_filter, ← hforward]
    refine List.filter_congr ?_
    intro step _
    cases step <;> simp [relevant, RaceStep.isPromotion, RaceStep.ofCall]

/-- A straddling call has only one order. -/
theorem Straddles.order (h : RaceStep.Straddles steps call)
    (hlength : (steps.filter (relevant call)).length = 4) :
    ∃ drainUs nowUs, steps.filter (relevant call) =
      [.load call, .swap, .drain drainUs, .finish call nowUs] := by
  obtain ⟨drainUs, nowUs, hsub⟩ := h
  refine ⟨drainUs, nowUs, ?_⟩
  have hfiltered := hsub.filter (relevant call)
  have hall : [RaceStep.load call, .swap, .drain drainUs, .finish call nowUs].filter
      (relevant call) = [.load call, .swap, .drain drainUs, .finish call nowUs] := by
    simp [relevant, RaceStep.isPromotion, RaceStep.ofCall]
  rw [hall] at hfiltered
  exact (hfiltered.eq_of_length (by rw [hlength]; rfl)).symm

/-- **NO LOSS AT PROMOTION, EXACTLY.**  In every interleaving of `forward` calls with one
promotion, a source datagram that lives until the drain and fits the buffer is sent exactly once
and does not stay behind, if and only if its call does not straddle the promotion. -/
theorem sent_once_iff (F : Nat → SourceForward κ) (steps : List RaceStep) (call : Nat)
    (objectKey : κ) (deadline : Nat) (hinterleaving : RaceStep.Interleaving steps)
    (hcall : .load call ∈ steps) (hkey : (F call).objectKey = some objectKey)
    (hdeadline : (F call).expiresAtUs = some deadline)
    (hsize : (F call).wire.length ≤ relayWarmSourceReplayMaxBytesPerChild)
    (hlive : LiveUntilDrain steps deadline) (hfits : Fits F steps call) :
    let s := exec (step F) {} steps
    (s.sent.count call = 1 ∧ call ∉ s.buffered) ↔ ¬ RaceStep.Straddles steps call := by
  intro s
  have htracks : Tracks call deadline s
      ((steps.filter (relevant call)).foldl (Fate.step call) {}) := by
    rw [fate_relevant]
    exact exec_tracks hkey hdeadline hsize steps {} {} tracks_start
      (regular_of_interleaving hinterleaving hlive hfits)
  obtain ⟨drainUs, nowUs, horders⟩ := relevant_orders hinterleaving hcall
  -- where the fate is `sent` once, the order is not the straddling one
  have hgood : ∀ {r : List RaceStep}, steps.filter (relevant call) = r → r.length = 4 →
      (r.foldl (Fate.step call) {}).sent = 1 → (r.foldl (Fate.step call) {}).buffered = false →
      (∀ drainUs nowUs, r ≠ [.load call, .swap, .drain drainUs, .finish call nowUs]) →
      ((s.sent.count call = 1 ∧ call ∉ s.buffered) ↔ ¬ RaceStep.Straddles steps call) := by
    intro r hr hlength hsent hbuffered hother
    rw [hr] at htracks
    have hle := htracks.buffered_le
    rw [hbuffered] at hle
    refine iff_of_true ⟨htracks.sent.trans hsent, ?_⟩ ?_
    · exact List.count_eq_zero.mp (Nat.le_zero.mp hle)
    · intro hstraddles
      obtain ⟨drainUs', nowUs', horder⟩ := Straddles.order hstraddles (by rw [hr]; exact hlength)
      exact hother drainUs' nowUs' (hr.symm.trans horder)
  rcases horders with hr | hr | hr | hr | hr | hr
  · exact hgood hr rfl (by simp [Fate.step]) (by simp [Fate.step]) (by simp)
  · exact hgood hr rfl (by simp [Fate.step]) (by simp [Fate.step]) (by simp)
  · exact hgood hr rfl (by simp [Fate.step]) (by simp [Fate.step]) (by simp)
  · -- read before the swap, pushed after the drain: never sent
    have hzero : s.sent.count call = 0 := by
      rw [htracks.sent, hr]
      simp [Fate.step]
    refine iff_of_false ?_ (not_not_intro ⟨drainUs, nowUs, ?_⟩)
    · rintro ⟨hone, -⟩
      omega
    · rw [← hr]
      exact List.filter_sublist
  · exact hgood hr rfl (by simp [Fate.step]) (by simp [Fate.step]) (by simp)
  · exact hgood hr rfl (by simp [Fate.step]) (by simp [Fate.step]) (by simp)

end Race

/-- Calls whose datagrams belong to one object and live for a second. -/
def sampleForwards : Nat → SourceForward Nat := fun _ => ⟨some 7, some 1000000, [1]⟩

/-- One call, one promotion and readings before a second has passed: all that is asked of an
interleaving. -/
theorem sample_interleaving {steps : List RaceStep} {drainUs nowUs : Nat}
    (hpromotion : steps.filter RaceStep.isPromotion = [.swap, .drain drainUs])
    (hforward : steps.filter (RaceStep.ofCall 0) = [.load 0, .finish 0 nowUs])
    (honly : ∀ step ∈ steps, step = .load 0 ∨ step = .finish 0 nowUs ∨ step = .swap ∨
      step = .drain drainUs)
    (hreadings : drainUs < 1000000 ∧ nowUs < 1000000) :
    RaceStep.Interleaving steps ∧ LiveUntilDrain steps 1000000 ∧ Fits sampleForwards steps 0 := by
  refine ⟨⟨⟨drainUs, hpromotion⟩, fun call => ?_⟩, ?_, ?_⟩
  · by_cases hcall : call = 0
    · rw [hcall]
      exact .inr ⟨nowUs, hforward⟩
    · refine .inl (List.filter_eq_nil_iff.mpr ?_)
      intro step hstep
      rcases honly step hstep with rfl | rfl | rfl | rfl <;> simp [RaceStep.ofCall, Ne.symm hcall]
  · rintro before drainUs' after rfl
    constructor
    · have hdrain := honly (.drain drainUs') (by simp)
      simp only [RaceStep.drain.injEq, reduceCtorEq, false_or] at hdrain
      omega
    · intro c nowUs' hmem
      have hfinish := honly (.finish c nowUs') (List.mem_append_left _ hmem)
      simp only [RaceStep.finish.injEq, reduceCtorEq, false_or, or_false] at hfinish
      omega
  · intro e he _ c nowUs' hstep hother
    obtain ⟨before, after, hsplit, -⟩ := exists_exec_of_mem_trace _ he
    have hfinish := honly (.finish c nowUs') (by rw [hsplit, hstep]; simp)
    simp only [RaceStep.finish.injEq, reduceCtorEq, false_or, or_false] at hfinish
    exact absurd hfinish.1 hother

/-- Read before the swap and buffered before the drain: the replay sends it. -/
theorem sent_once_iff_replayed :
    let s := exec (step sampleForwards) {} [.load 0, .swap, .finish 0 3, .drain 5]
    s.sent.count 0 = 1 ∧ 0 ∉ s.buffered := by
  obtain ⟨hinterleaving, hlive, hfits⟩ :=
    @sample_interleaving [.load 0, .swap, .finish 0 3, .drain 5] 5 3 rfl rfl (by simp) (by decide)
  refine (sent_once_iff sampleForwards _ 0 7 1000000 hinterleaving (by simp) rfl rfl (by decide)
    hlive hfits).mpr ?_
  rintro ⟨drainUs, nowUs, hsub⟩
  have heq := hsub.eq_of_length rfl
  simp at heq

/-- Read before the swap and buffered after the drain: the datagram stays behind. -/
theorem straddling_source_lost :
    let steps : List RaceStep := [.load 0, .swap, .drain 5, .finish 0 6]
    let s := exec (step sampleForwards) {} steps
    RaceStep.Interleaving steps ∧ LiveUntilDrain steps 1000000 ∧ Fits sampleForwards steps 0 ∧
      s.sent.count 0 = 0 ∧ 0 ∈ s.buffered := by
  obtain ⟨hinterleaving, hlive, hfits⟩ :=
    @sample_interleaving [.load 0, .swap, .drain 5, .finish 0 6] 5 6 rfl rfl (by simp) (by decide)
  exact ⟨hinterleaving, hlive, hfits, by decide, by decide⟩

end WarmPath

end AvMesh.Failover
