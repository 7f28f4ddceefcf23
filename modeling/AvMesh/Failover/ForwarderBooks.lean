/-
  AvMesh.Failover.ForwarderBooks
  ──────────────────────────────
  **THE BOOKS OF THE DOWNSTREAM FORWARDER.**

  Over every run of `forwarder`, whatever its tasks interleave:

    • a call visits each path once, and a datagram goes to a child at most
      once, sent or replayed (`forward_at_most_once`),
    • once no task is under way, every counter but the two gauges says what
      happened (`forward_accounting`): each visit of a path and each replay is
      in exactly one of the source, repair, error and filtered datagrams, and
      the promotions are the demotions and the paths that are promoted now.

  The counters are updated after the fact, each by one atomic operation, and
  wrap at 2^64; so the books are kept in the integers modulo 2^64.
-/
import AvMesh.Failover.Forwarder
import AvMesh.Lib.Wrapping

namespace AvMesh.Failover

open AvMesh.Lib
open AvMesh.Relay (MediaDatagramRole)
open AvMesh.Telemetry (BucketIndex bound)

variable {κ : Type}

/-! ## §1. What an event counts for. -/

namespace Note

/-- The event is about this call and this path. -/
def at' (call path call' path' : Nat) : Nat := if call' = call ∧ path' = path then 1 else 0

/-- The call sent its datagram on the path. -/
def sends (call path : Nat) : Note κ → Nat
  | .sent c p _ _ _ _ | .unsent c p _ _ _ => at' call path c p
  | _ => 0

/-- The call kept its datagram for the path. -/
def keeps (call path : Nat) : Note κ → Nat
  | .buffered c p _ => at' call path c p
  | _ => 0

/-- The datagram of the call was replayed on the path. -/
def replays (call path : Nat) : Note κ → Nat
  | .replayed c p _ _ | .unreplayed c p _ => at' call path c p
  | _ => 0

/-- The call is through with the path. -/
def visits (call path : Nat) : Note κ → Nat
  | .filtered c p | .buffered c p _ | .sent c p _ _ _ _ | .unsent c p _ _ _ => at' call path c p
  | _ => 0

/-- Some call is through with some path. -/
def isVisit : Note κ → Nat
  | .filtered _ _ | .buffered _ _ _ | .sent _ _ _ _ _ _ | .unsent _ _ _ _ _ => 1
  | _ => 0

def isReplay : Note κ → Nat
  | .replayed _ _ _ _ | .unreplayed _ _ _ => 1
  | _ => 0

def isPromotion : Note κ → Nat
  | .switched _ true _ _ => 1
  | _ => 0

def isDemotion : Note κ → Nat
  | .switched _ false _ _ => 1
  | _ => 0

theorem sends_add_keeps_le (call path : Nat) (n : Note κ) :
    n.sends call path + n.keeps call path ≤ n.visits call path := by
  cases n <;> simp [sends, keeps, visits]

end Note

/-- The sum of a measure over the events. -/
def logged {M : Type*} [AddCommMonoid M] (f : Note κ → M) (log : List (Note κ)) : M :=
  (log.map f).sum

theorem logged_append {M : Type*} [AddCommMonoid M] (f : Note κ → M) (log : List (Note κ))
    (n : Option (Note κ)) : logged f (log ++ n.toList) = logged f log + n.elim 0 f := by
  unfold logged
  rw [List.map_append, List.sum_append]
  cases n with
  | none => rfl
  | some n => rw [Option.toList_some, List.map_singleton, List.sum_singleton]; rfl

namespace DataPlane

variable [DecidableEq κ]

/-- The invariant of a run on these paths. -/
def On (endpoints : List (SocketAddr × RelayForwardRole)) (s : DataPlane κ) : Prop :=
  s.Sound ∧ s.endpoints = endpoints

theorem after_on (endpoints : List (SocketAddr × RelayForwardRole)) (ops : List (ForwardOp κ)) :
    TaskProgram.Holds (On endpoints) Ready AtomicOp.Lawful
      (exec (forwarder κ).step ⟨bind endpoints, []⟩ ops) := by
  obtain ⟨hshared, hstage, hpending⟩ := after_holds endpoints ops
  exact ⟨⟨hshared, after_endpoints endpoints ops⟩, hstage, hpending⟩

variable {s s₁ : DataPlane κ} {stage stage' : ForwardStage κ} {n : Option (Note κ)}

/-- Books kept on the events, with a part that is read off the state. -/
theorem keeps_of_advance {M : Type*} [AddCommMonoid M] {rel : M → M → Prop}
    {I : DataPlane κ → Prop} {f g : Note κ → M} (read due : DataPlane κ → M)
    {weight : Task (ForwardStage κ) AtomicOp → M} {O : AtomicOp → Prop}
    (henter : ∀ s request, I s →
      rel (read (enter s request).2 + weight ⟨[], (enter s request).1⟩ + due s)
        (read s + due (enter s request).2))
    (hadd : ∀ a b c : M, rel a b → rel (a + c) (b + c))
    (happly : ∀ s op pending stage, I s → O op →
      rel (read (applyOp s op) + weight ⟨pending, stage⟩ + due s)
        (read s + weight ⟨op :: pending, stage⟩ + due (applyOp s op)))
    (hadvance : ∀ s stage stage' n s₁, I s → s.Ready stage → Advance s stage stage' n s₁ →
      rel (n.elim 0 f + read s₁ + weight ⟨n.elim [] Note.ops, stage'⟩ + due s)
        (read s + weight ⟨[], stage⟩ + n.elim 0 g + due s₁))
    (hread : ∀ s log, read { s with log } = read s) (hdue : ∀ s log, due { s with log } = due s) :
    (forwarder κ).Keeps rel I Ready O (fun s => logged f s.log + read s)
      (fun s => logged g s.log + due s) weight where
  enter := by
    intro s request hs
    have hlog : (enter s request).2.log = s.log := by cases request <;> rfl
    have hrel := hadd _ _ (logged f s.log + logged g s.log) (henter s request hs)
    show rel (logged f (enter s request).2.log + read (enter s request).2
        + weight ⟨[], (enter s request).1⟩ + (logged g s.log + due s))
      (logged f s.log + read s + (logged g (enter s request).2.log + due (enter s request).2))
    rw [hlog]
    convert hrel using 1 <;> ac_rfl
  apply := by
    intro s op pending stage hs hop
    have hlog : (applyOp s op).log = s.log := (s.applyOp_paths op).2.2
    have hrel := hadd _ _ (logged f s.log + logged g s.log) (happly s op pending stage hs hop)
    show rel (logged f (applyOp s op).log + read (applyOp s op) + weight ⟨pending, stage⟩
        + (logged g s.log + due s))
      (logged f s.log + read s + weight ⟨op :: pending, stage⟩
        + (logged g (applyOp s op).log + due (applyOp s op)))
    rw [hlog]
    convert hrel using 1 <;> ac_rfl
  advance := by
    intro s stage env hs hready
    obtain ⟨n, s₁, hadvanced⟩ := s.advance_spec stage env
    have hrel := hadd _ _ (logged f s.log + logged g s.log)
      (hadvance s stage _ n s₁ hs hready hadvanced.stage)
    have hlog := hadvanced.stage.log_eq
    show rel (logged f (s.advance stage env).2.2.log + read (s.advance stage env).2.2
        + weight ⟨(s.advance stage env).1, (s.advance stage env).2.1⟩ + (logged g s.log + due s))
      (logged f s.log + read s + weight ⟨[], stage⟩
        + (logged g (s.advance stage env).2.2.log + due (s.advance stage env).2.2))
    rw [hadvanced.state, hadvanced.ops, hread s₁, hdue s₁]
    show rel (logged f (s₁.log ++ n.toList) + _ + _ + _)
      (_ + (logged g (s₁.log ++ n.toList) + _))
    rw [hlog, logged_append, logged_append]
    convert hrel using 1 <;> ac_rfl

/-! ## §2. Visits. -/

end DataPlane

/-- The call has the path still ahead of it. -/
def ForwardStage.ahead (call path : Nat) : ForwardStage κ → Nat
  | .visit c _ p | .buffer c _ p _ _ | .send c _ p _ => if c = call ∧ p ≤ path then 1 else 0
  | _ => 0

/-- How many paths the call has still ahead of it. -/
def ForwardStage.left (paths : Nat) : ForwardStage κ → Nat
  | .visit _ _ p | .buffer _ _ p _ _ | .send _ _ p _ => paths - p
  | _ => 0

namespace DataPlane

section Visits

variable [DecidableEq κ] {s s₁ : DataPlane κ} {stage stage' : ForwardStage κ} {n : Option (Note κ)}

omit [DecidableEq κ] in
theorem length_endpoints (s : DataPlane κ) : s.endpoints.length = s.paths.length :=
  List.length_map _

omit [DecidableEq κ] in
theorem lt_of_path {path : Nat} {p : WarmForwardPath κ} (h : s.paths[path]? = some p) :
    path < s.endpoints.length := by
  rw [length_endpoints]
  exact (List.getElem?_eq_some_iff.mp h).1

omit [DecidableEq κ] in
theorem le_of_no_path {path : Nat} (h : s.paths[path]? = none) : s.endpoints.length ≤ path := by
  rw [length_endpoints]
  exact List.getElem?_eq_none_iff.mp h

omit [DecidableEq κ] in
/-- A stage that visits a path is on one. -/
theorem Ready.lt {call path : Nat} {datagram : ForwardDatagram κ} {objectKey : κ}
    {expiresAtUs : Nat} (h : s.Ready (.buffer call datagram path objectKey expiresAtUs)) :
    path < s.endpoints.length := by
  obtain ⟨-, ⟨target, hpath⟩, -⟩ := h
  exact (List.getElem?_eq_some_iff.mp hpath).1

omit [DecidableEq κ] in
theorem Ready.lt_send {call path loaded : Nat} {datagram : ForwardDatagram κ}
    (h : s.Ready (.send call datagram path loaded)) : path < s.endpoints.length := by
  obtain ⟨-, -, target, r, hpath, -⟩ := h
  exact (List.getElem?_eq_some_iff.mp hpath).1

/-- **A stage takes the call to its next path, or leaves it where it is.** -/
theorem Advance.visits_eq (h : Advance s stage stage' n s₁) (hready : s.Ready stage) (call : Nat)
    {path : Nat} (hpath : path < s.endpoints.length) :
    n.elim 0 (Note.visits call path) + stage'.ahead call path = stage.ahead call path := by
  have hnext : ∀ c p : Nat, Note.at' call path c p + (if c = call ∧ p + 1 ≤ path then 1 else 0)
      = if c = call ∧ p ≤ path then 1 else 0 := by
    intro c p
    unfold Note.at'
    by_cases hc : c = call
    · by_cases hp : p = path
      · rw [if_pos ⟨hc, hp⟩, if_neg (by omega), if_pos ⟨hc, by omega⟩]
      · by_cases hle : p ≤ path
        · rw [if_neg (by tauto), if_pos ⟨hc, by omega⟩, if_pos ⟨hc, hle⟩]
        · rw [if_neg (by tauto), if_neg (by omega), if_neg (by tauto)]
    · rw [if_neg (by tauto), if_neg (by tauto), if_neg (by tauto)]
  cases h with
  | @visited c datagram p hnone =>
      have hge := le_of_no_path hnone
      exact (if_neg (by omega)).symm
  | permitted | keep => exact Nat.zero_add _
  | @filter c datagram p _ _ => exact hnext c p
  | @push c datagram p _ _ _ _ _ => exact hnext c p
  | @sent c datagram p _ _ => exact hnext c p
  | @unsent c datagram p _ => exact hnext c p
  | @accept target path mode leaseExpired p => cases leaseExpired <;> rfl
  | @switch target path mode leaseExpired p => split <;> rfl
  | gone hnone =>
      have hlt := hready.lt
      have hge := le_of_no_path hnone
      omega
  | refuse | unchanged | undrained | drain | drained | replayed | unreplayed | finished => rfl

theorem Advance.left_eq (h : Advance s stage stage' n s₁) (hready : s.Ready stage) :
    n.elim 0 Note.isVisit + stage'.left s.endpoints.length = stage.left s.endpoints.length := by
  cases h with
  | visited hnone =>
      have hge := le_of_no_path hnone
      exact (Nat.sub_eq_zero_of_le hge).symm
  | permitted | keep => exact Nat.zero_add _
  | @filter c datagram p _ hpath =>
      have hlt := lt_of_path hpath
      show 1 + (_ - (p + 1)) = _ - p
      omega
  | @push c datagram p _ _ _ _ hpath =>
      have hlt := lt_of_path hpath
      show 1 + (_ - (p + 1)) = _ - p
      omega
  | @sent c datagram p _ _ =>
      have hlt := hready.lt_send
      show 1 + (_ - (p + 1)) = _ - p
      omega
  | @unsent c datagram p _ =>
      have hlt := hready.lt_send
      show 1 + (_ - (p + 1)) = _ - p
      omega
  | @accept target path mode leaseExpired p => cases leaseExpired <;> rfl
  | @switch target path mode leaseExpired p => split <;> rfl
  | gone hnone =>
      have hlt := hready.lt
      have hge := le_of_no_path hnone
      omega
  | refuse | unchanged | undrained | drain | drained | replayed | unreplayed | finished => rfl

theorem visits_keeps (endpoints : List (SocketAddr × RelayForwardRole)) (call : Nat) {path : Nat}
    (hpath : path < endpoints.length) :
    (forwarder κ).Keeps (· = ·) (On endpoints) Ready AtomicOp.Lawful
      (fun s => logged (Note.visits call path) s.log + 0)
      (fun s => logged (fun _ => 0) s.log + if call < s.offered.length then 1 else 0)
      (fun t => t.stage.ahead call path) := by
  refine keeps_of_advance (fun _ => 0)
    (fun s => if call < s.offered.length then 1 else 0) ?_ ?_ ?_ ?_ ?_ ?_
  · intro s request _
    cases request with
    | failover target mode leaseExpired => rfl
    | forward datagram =>
        show 0 + (if s.offered.length = call ∧ 0 ≤ path then 1 else 0)
          + (if call < s.offered.length then 1 else 0)
            = 0 + if call < (s.offered ++ [datagram]).length then 1 else 0
        rw [List.length_append, List.length_singleton]
        split <;> split <;> split <;> omega
  · exact fun a b c h => congrArg (· + c) h
  · intro s op pending stage _ _
    show _ + _ + (if call < s.offered.length then 1 else 0)
      = _ + _ + if call < (applyOp s op).offered.length then 1 else 0
    rw [(s.applyOp_paths op).2.1]
  · intro s stage stage' n s₁ hs hready h
    have hvisits := h.visits_eq hready call (hs.2.symm ▸ hpath)
    have hzero : n.elim 0 (fun _ : Note κ => 0) = 0 := by cases n <;> rfl
    show n.elim 0 _ + 0 + stage'.ahead call path + (if call < s.offered.length then 1 else 0)
      = 0 + stage.ahead call path + n.elim 0 _ + if call < s₁.offered.length then 1 else 0
    rw [h.offered_eq, hzero]
    omega
  · exact fun _ _ => rfl
  · exact fun _ _ => rfl

/-- **Each call visits each path once**, or has it still ahead. -/
theorem after_visits (endpoints : List (SocketAddr × RelayForwardRole)) (ops : List (ForwardOp κ))
    {path : Nat} (hpath : path < endpoints.length) (call : Nat) :
    logged (Note.visits call path) (after endpoints ops).shared.log
        + TaskProgram.total (fun t => t.stage.ahead call path) (after endpoints ops).tasks
      = if call < (after endpoints ops).shared.offered.length then 1 else 0 := by
  have hbooks := TaskProgram.exec_balance (visits_keeps endpoints call hpath)
    (after_on endpoints) rfl ops
  have hzero : logged (fun _ : Note κ => 0) (after endpoints ops).shared.log = 0 :=
    List.sum_eq_zero (by simp)
  rw [Nat.add_zero] at hbooks
  refine hbooks.trans ?_
  show logged _ (after endpoints ops).shared.log + _ = _
  rw [hzero, Nat.zero_add]
  rfl

theorem left_keeps (endpoints : List (SocketAddr × RelayForwardRole)) :
    (forwarder κ).Keeps (· = ·) (On endpoints) Ready AtomicOp.Lawful
      (fun s => logged Note.isVisit s.log + 0)
      (fun s => logged (fun _ => 0) s.log + s.offered.length * endpoints.length)
      (fun t => t.stage.left endpoints.length) := by
  refine keeps_of_advance (fun _ => 0)
    (fun s => s.offered.length * endpoints.length) ?_ ?_ ?_ ?_ ?_ ?_
  · intro s request _
    cases request with
    | failover target mode leaseExpired => rfl
    | forward datagram =>
        show 0 + (endpoints.length - 0) + s.offered.length * endpoints.length
          = 0 + (s.offered ++ [datagram]).length * endpoints.length
        rw [List.length_append, List.length_singleton, Nat.add_mul]
        omega
  · exact fun a b c h => congrArg (· + c) h
  · intro s op pending stage _ _
    show _ + _ + s.offered.length * _ = _ + _ + (applyOp s op).offered.length * _
    rw [(s.applyOp_paths op).2.1]
  · intro s stage stage' n s₁ hs hready h
    have hleft := h.left_eq hready
    rw [hs.2] at hleft
    have hzero : n.elim 0 (fun _ : Note κ => 0) = 0 := by cases n <;> rfl
    show n.elim 0 _ + 0 + stage'.left endpoints.length + s.offered.length * _
      = 0 + stage.left endpoints.length + n.elim 0 _ + s₁.offered.length * _
    rw [h.offered_eq, hzero]
    omega
  · exact fun _ _ => rfl
  · exact fun _ _ => rfl

theorem after_left (endpoints : List (SocketAddr × RelayForwardRole)) (ops : List (ForwardOp κ)) :
    logged Note.isVisit (after endpoints ops).shared.log
        + TaskProgram.total (fun t => t.stage.left endpoints.length) (after endpoints ops).tasks
      = (after endpoints ops).shared.offered.length * endpoints.length := by
  have hbooks := TaskProgram.exec_balance (left_keeps (κ := κ) endpoints) (after_on endpoints)
    (show 0 + 0 + 0 = 0 + 0 * endpoints.length by omega) ops
  have hzero : logged (fun _ : Note κ => 0) (after endpoints ops).shared.log = 0 :=
    List.sum_eq_zero (by simp)
  rw [Nat.add_zero] at hbooks
  refine hbooks.trans ?_
  show logged _ (after endpoints ops).shared.log + _ = _
  rw [hzero, Nat.zero_add]
  rfl

end Visits

/-! ## §3. Replays. -/

end DataPlane

/-- How often the datagram of the call is about to be replayed on the path. -/
def ForwardStage.queued (call path : Nat) : ForwardStage κ → Nat
  | .replay p rest => if p = path then (rest.map (·.call)).count call else 0
  | _ => 0

namespace DataPlane

/-- How often the datagram of the call is in the buffer of the path. -/
def bufferedCount (call path : Nat) (s : DataPlane κ) : Nat :=
  s.paths[path]?.elim 0 fun p => (p.warmSources.datagrams.map (·.call)).count call

section Replays

variable [DecidableEq κ] {s s₁ : DataPlane κ} {stage stage' : ForwardStage κ} {n : Option (Note κ)}

omit [DecidableEq κ] in
theorem bufferedCount_setPath {call path q : Nat} {p p' : WarmForwardPath κ}
    (hpath : s.paths[q]? = some p) :
    (s.setPath q p').bufferedCount call path =
      if q = path then (p'.warmSources.datagrams.map (·.call)).count call
      else s.bufferedCount call path := by
  unfold bufferedCount setPath
  dsimp only
  rw [List.getElem?_set]
  by_cases hq : q = path
  · rw [if_pos hq, if_pos hq, if_pos (List.getElem?_eq_some_iff.mp hpath).1]
    rfl
  · rw [if_neg hq, if_neg hq]

omit [DecidableEq κ] in
theorem bufferedCount_of_path {call path : Nat} {p : WarmForwardPath κ}
    (hpath : s.paths[path]? = some p) :
    s.bufferedCount call path = (p.warmSources.datagrams.map (·.call)).count call := by
  unfold bufferedCount
  rw [hpath]
  rfl

/-- **What is replayed was kept, once.** -/
theorem Advance.replays_le (h : Advance s stage stage' n s₁) (hs : s.Sound) (call path : Nat) :
    n.elim 0 (Note.replays call path) + s₁.bufferedCount call path + stage'.queued call path
      ≤ s.bufferedCount call path + stage.queued call path
        + n.elim 0 (Note.keeps call path) := by
  have hone : ∀ (w : WarmSourceDatagram κ) (rest : List (WarmSourceDatagram κ)) (p : Nat),
      Note.at' call path w.call p + (if p = path then (rest.map (·.call)).count call else 0)
        = if p = path then ((w :: rest).map (·.call)).count call else 0 := by
    intro w rest p
    unfold Note.at'
    rw [List.map_cons, List.count_cons]
    by_cases hp : p = path
    · rw [if_pos hp, if_pos hp]
      by_cases hc : w.call = call
      · rw [if_pos ⟨hc, hp⟩, if_pos (beq_iff_eq.mpr hc), Nat.add_comm]
      · rw [if_neg (by tauto), if_neg (by rw [beq_iff_eq]; exact hc), Nat.zero_add, Nat.add_zero]
    · rw [if_neg (by tauto), if_neg hp, if_neg hp]
  cases h with
  | visited | permitted | keep | unchanged | undrained | gone | finished =>
      simp only [Option.elim_none, ForwardStage.queued]
      omega
  | filter | sent | unsent | refuse =>
      simp only [Option.elim_some, ForwardStage.queued, Note.replays, Note.keeps]
      omega
  | drained =>
      simp only [Option.elim_none, ForwardStage.queued]
      omega
  | @accept target p mode leaseExpired q =>
      cases leaseExpired <;>
        simp [ForwardStage.queued, Note.replays, Note.keeps]
  | @switch target q mode leaseExpired p unixMs hpath hchange =>
      have hqueued : (if (mode == .sourceAndRepair) && !leaseExpired then
          ForwardStage.drain target else .finished : ForwardStage κ).queued call path = 0 := by
        split <;> rfl
      rw [hqueued, bufferedCount_setPath hpath]
      simp only [Option.elim_some, Note.replays, Note.keeps, ForwardStage.queued]
      by_cases hq : q = path
      · subst hq
        rw [if_pos rfl, bufferedCount_of_path hpath]
        omega
      · rw [if_neg hq]
        omega
  | @push c datagram q p objectKey expiresAtUs nowUs hpath =>
      have hold := (hs.paths q p hpath).intact.wellFormed
      obtain ⟨-, kept, hsub, hshape⟩ := WarmSourceReplayBuffer.push_shape
        ⟨objectKey, expiresAtUs, datagram.wire, c⟩ nowUs hold
      have hle : (kept.map (·.call)).count call ≤
          (p.warmSources.datagrams.map (·.call)).count call := (hsub.map _).count_le call
      rw [bufferedCount_setPath hpath]
      simp only [Option.elim_some, Note.replays, Note.keeps, ForwardStage.queued]
      unfold Note.at'
      by_cases hq : q = path
      · subst hq
        rw [if_pos rfl, bufferedCount_of_path hpath]
        rcases hshape with hshape | hshape
        · rw [hshape, List.map_append, List.count_append, List.map_singleton,
            List.count_singleton]
          by_cases hc : c = call
          · rw [if_pos (beq_iff_eq.mpr hc), if_pos ⟨hc, rfl⟩]
            omega
          · rw [if_neg (by rw [beq_iff_eq]; exact hc)]
            omega
        · rw [hshape]
          omega
      · rw [if_neg hq]
        omega
  | @drain target q p nowUs hfind hpath =>
      have hle : ((p.warmSources.datagrams.filter fun datagram =>
          !decide (datagram.expiresAtUs ≤ nowUs)).map (·.call)).count call ≤
          (p.warmSources.datagrams.map (·.call)).count call :=
        (List.filter_sublist.map _).count_le call
      rw [bufferedCount_setPath hpath]
      simp only [Option.elim_some, Note.replays, Note.keeps, ForwardStage.queued]
      by_cases hq : q = path
      · subst hq
        rw [if_pos rfl, if_pos rfl, bufferedCount_of_path hpath,
          WarmSourceReplayBuffer.takeLive_datagrams]
        show 0 + 0 + _ ≤ _
        omega
      · rw [if_neg hq, if_neg hq]
        omega
  | @replayed q w rest elapsedUs =>
      have hcount := hone w rest q
      simp only [Option.elim_some, Note.replays, Note.keeps, ForwardStage.queued]
      omega
  | @unreplayed q w rest =>
      have hcount := hone w rest q
      simp only [Option.elim_some, Note.replays, Note.keeps, ForwardStage.queued]
      omega

theorem replays_keeps (endpoints : List (SocketAddr × RelayForwardRole)) (call path : Nat) :
    (forwarder κ).Keeps (· ≤ ·) (On endpoints) Ready AtomicOp.Lawful
      (fun s => logged (Note.replays call path) s.log + s.bufferedCount call path)
      (fun s => logged (Note.keeps call path) s.log + 0)
      (fun t => t.stage.queued call path) := by
  refine keeps_of_advance (bufferedCount call path) (fun _ => 0)
    ?_ ?_ ?_ ?_ ?_ ?_
  · intro s request _
    cases request <;> exact Nat.le_refl _
  · exact fun a b c h => Nat.add_le_add_right h c
  · intro s op pending stage _ _
    show bufferedCount call path (applyOp s op) + _ + 0 ≤ bufferedCount call path s + _ + 0
    unfold bufferedCount
    rw [(s.applyOp_paths op).1]
  · intro s stage stage' n s₁ hs hready h
    exact h.replays_le hs.1 call path
  · exact fun _ _ => rfl
  · exact fun _ _ => rfl

/-- **No datagram is replayed more often than it was kept.** -/
theorem after_replays (endpoints : List (SocketAddr × RelayForwardRole)) (ops : List (ForwardOp κ))
    (call path : Nat) :
    logged (Note.replays call path) (after endpoints ops).shared.log
      ≤ logged (Note.keeps call path) (after endpoints ops).shared.log := by
  have hstart : (bind endpoints : DataPlane κ).bufferedCount call path = 0 := by
    unfold bufferedCount
    cases hpath : (bind endpoints : DataPlane κ).paths[path]? with
    | none => rfl
    | some p =>
        obtain ⟨endpoint, -, rfl⟩ := List.mem_map.mp (List.mem_of_getElem? hpath)
        rfl
  have hbooks := TaskProgram.exec_bound (replays_keeps (κ := κ) endpoints call path)
    (after_on endpoints) (show 0 + bufferedCount call path _ + 0 ≤ 0 + 0 by
      rw [hstart]) ops
  unfold after
  omega

/-- How often the datagram of the call went out on the path, whole or not. -/
def attempts (s : DataPlane κ) (call path : Nat) : Nat :=
  logged (Note.sends call path) s.log + logged (Note.replays call path) s.log

omit [DecidableEq κ] in
theorem logged_sends_add_keeps_le (call path : Nat) (log : List (Note κ)) :
    logged (Note.sends call path) log + logged (Note.keeps call path) log
      ≤ logged (Note.visits call path) log := by
  unfold logged
  induction log with
  | nil => exact Nat.le_refl _
  | cons n log ih =>
      have hn := n.sends_add_keeps_le call path
      rw [List.map_cons, List.map_cons, List.map_cons, List.sum_cons, List.sum_cons, List.sum_cons]
      omega

/-- **A DATAGRAM GOES TO A CHILD AT MOST ONCE**, sent or replayed, whatever the calls, the
promotions, the demotions and the replays interleave; and a call that has done its work is through
with each path exactly once. -/
theorem forward_at_most_once (endpoints : List (SocketAddr × RelayForwardRole))
    (ops : List (ForwardOp κ)) (call : Nat) {path : Nat} (hpath : path < endpoints.length) :
    (after endpoints ops).shared.attempts call path ≤ 1 ∧
      ((∀ t ∈ (after endpoints ops).tasks, t.stage = .finished) →
        logged (Note.visits call path) (after endpoints ops).shared.log
          = if call < (after endpoints ops).shared.offered.length then 1 else 0) := by
  have hvisits := after_visits endpoints ops hpath call
  have hreplays := after_replays endpoints ops call path
  have hparts := logged_sends_add_keeps_le call path (after endpoints ops).shared.log
  constructor
  · unfold attempts
    split at hvisits <;> omega
  · intro hdone
    have hnone : TaskProgram.total (fun t => t.stage.ahead call path) (after endpoints ops).tasks
        = 0 := by
      refine List.sum_eq_zero ?_
      intro ahead hmem
      obtain ⟨t, ht, rfl⟩ := List.mem_map.mp hmem
      rw [hdone t ht]
      rfl
    omega

end Replays

end DataPlane

/-! ## §4. Counters. -/

def AtomicOp.adds (k : ForwardCounter) : AtomicOp → Nat
  | .update u => u.adds k
  | _ => 0

/-- What a list of operations adds to a counter. -/
def opsAdd (k : ForwardCounter) (ops : List AtomicOp) : Nat := (ops.map (AtomicOp.adds k)).sum

namespace Note

/-- A datagram of this role went out whole. -/
def wentOut (role : MediaDatagramRole) : Note κ → Nat
  | .sent _ _ _ r _ _ => if r = role then 1 else 0
  | .replayed _ _ _ _ => if MediaDatagramRole.source = role then 1 else 0
  | _ => 0

/-- What the histogram is told: the duration of a datagram that went out whole. -/
def observed (f : Nat → Nat) : Note κ → Nat
  | .sent _ _ _ _ _ elapsedUs | .replayed _ _ _ elapsedUs => f (min elapsedUs u64Max)
  | _ => 0

/-- What each counter counts; the two gauges are left to `WarmForwarder`. -/
def tally : ForwardCounter → Note κ → Nat
  | .sourceDatagrams, n => n.wentOut .source
  | .repairDatagrams, n => n.wentOut .repair
  | .bytes, .sent _ _ _ _ wire _ | .bytes, .replayed _ _ wire _ => wire.length
  | .errors, .unsent _ _ _ _ _ | .errors, .unreplayed _ _ _ => 1
  | .filteredDatagrams, .filtered _ _ | .filteredDatagrams, .buffered _ _ _ => 1
  | .warm .warmSourceExpiredDatagrams, .buffered _ _ mutation => mutation.expiredDatagrams
  | .warm .warmSourceExpiredDatagrams, .drained _ batch => batch.expiredDatagrams
  | .warm .warmSourceRetiredDatagrams, .buffered _ _ mutation => mutation.retiredDatagrams
  | .warm .warmSourceEvictedDatagrams, .buffered _ _ mutation => mutation.evictedDatagrams
  | .warmSourceReplayedDatagrams, .replayed _ _ _ _ => 1
  | .warmSourceReplayedBytes, .replayed _ _ wire _ => wire.length
  | .durationCount, n => n.observed fun _ => 1
  | .durationSumUs, n => n.observed fun durationUs => durationUs
  | .durationBucket index, n => n.observed fun durationUs => if durationUs ≤ bound index then 1 else 0
  | .failoverCommandsReceived, .received => 1
  | .failoverCommandsRejected, .rejected => 1
  | .failoverLeaseExpirations, .switched _ _ leaseExpired _ => leaseExpired.toNat
  | .failoverPromotionsApplied, n => n.isPromotion
  | .failoverDemotionsApplied, n => n.isDemotion
  | _, _ => 0

end Note

theorem opsAdd_append (k : ForwardCounter) (ops ops' : List AtomicOp) :
    opsAdd k (ops ++ ops') = opsAdd k ops + opsAdd k ops' := by
  unfold opsAdd
  rw [List.map_append, List.sum_append]

theorem opsAdd_cons (k : ForwardCounter) (op : AtomicOp) (ops : List AtomicOp) :
    opsAdd k (op :: ops) = op.adds k + opsAdd k ops := by
  unfold opsAdd
  rw [List.map_cons, List.sum_cons]

/-- The buckets a duration is counted in. -/
theorem opsAdd_buckets (k : ForwardCounter) (durationUs : Nat) :
    opsAdd k ((List.finRange _).filterMap fun index =>
      if durationUs ≤ bound index then some (.update (.add (.durationBucket index) 1)) else none)
      = match k with
        | .durationBucket index => if durationUs ≤ bound index then 1 else 0
        | _ => 0 := by
  have hsum : ∀ l : List BucketIndex, opsAdd k (l.filterMap fun index =>
      if durationUs ≤ bound index then some (.update (.add (.durationBucket index) 1)) else none)
      = (l.map fun index => if durationUs ≤ bound index ∧ .durationBucket index = k then 1 else 0).sum := by
    intro l
    induction l with
    | nil => rfl
    | cons index l ih =>
        rw [List.filterMap_cons, List.map_cons, List.sum_cons, ← ih]
        by_cases hle : durationUs ≤ bound index
        · rw [if_pos hle]
          dsimp only
          rw [opsAdd_cons]
          simp only [AtomicOp.adds, Update.adds, hle, true_and]
        · rw [if_neg hle, if_neg (by tauto), Nat.zero_add]
  rw [hsum, ← Fin.sum_univ_def]
  cases k with
  | durationBucket index =>
      simp only [ForwardCounter.durationBucket.injEq]
      rw [Finset.sum_eq_single index]
      · simp only [and_true]
      · exact fun other _ hother => if_neg fun h => hother h.2
      · exact fun hnot => absurd (Finset.mem_univ index) hnot
  | _ => simp

theorem opsAdd_observeDuration (k : ForwardCounter) (elapsedUs : Nat) :
    opsAdd k (observeDuration elapsedUs) = match k with
      | .durationCount => 1
      | .durationSumUs => min elapsedUs u64Max
      | .durationBucket index => if min elapsedUs u64Max ≤ bound index then 1 else 0
      | _ => 0 := by
  unfold observeDuration
  dsimp only
  rw [opsAdd_append, opsAdd_buckets]
  cases k <;> simp [opsAdd, AtomicOp.adds, Update.adds]

theorem opsAdd_recordForwardSuccess (k : ForwardCounter) (role : MediaDatagramRole)
    (sent elapsedUs : Nat) :
    opsAdd k (recordForwardSuccess role sent elapsedUs) = (match k with
      | .sourceDatagrams => if role = .source then 1 else 0
      | .repairDatagrams => if role = .repair then 1 else 0
      | .bytes => sent
      | _ => 0) + opsAdd k (observeDuration elapsedUs) := by
  unfold recordForwardSuccess
  rw [opsAdd_cons, opsAdd_cons, ← Nat.add_assoc]
  congr 1
  cases k <;> cases role <;> simp [AtomicOp.adds, Update.adds]

/-- **The operations of an event add what the event counts for.** -/
theorem Note.opsAdd_ops (n : Note κ) {k : ForwardCounter}
    (hk : ∀ gauge, k ≠ .warm (.warmSourceBuffered gauge)) : opsAdd k n.ops = n.tally k := by
  cases n with
  | sent call path loaded role wire elapsedUs =>
      show opsAdd k (recordForwardSuccess role wire.length elapsedUs) = _
      rw [opsAdd_recordForwardSuccess, opsAdd_observeDuration]
      cases k <;> simp [tally, wentOut, observed, isPromotion, isDemotion]
  | replayed call path wire elapsedUs =>
      show opsAdd k (recordForwardSuccess .source wire.length elapsedUs ++ _) = _
      rw [opsAdd_append, opsAdd_recordForwardSuccess, opsAdd_observeDuration]
      cases k <;> simp [tally, wentOut, observed, isPromotion, isDemotion, opsAdd, count,
        AtomicOp.adds, Update.adds]
  | buffered call path mutation =>
      cases k with
      | warm counter =>
          cases counter with
          | warmSourceBuffered gauge => exact absurd rfl (hk gauge)
          | _ => simp [opsAdd, ops, warmOps, bufferUpdates, Update.mapCounter, count, AtomicOp.adds,
              Update.adds, tally]
      | _ => simp [opsAdd, ops, warmOps, bufferUpdates, Update.mapCounter, count, AtomicOp.adds,
          Update.adds, tally, wentOut, observed, isPromotion, isDemotion]
  | drained path batch =>
      cases k with
      | warm counter =>
          cases counter with
          | warmSourceBuffered gauge => exact absurd rfl (hk gauge)
          | _ => simp [opsAdd, ops, warmOps, replayUpdates, Update.mapCounter, AtomicOp.adds,
              Update.adds, tally]
      | _ => simp [opsAdd, ops, warmOps, replayUpdates, Update.mapCounter, AtomicOp.adds,
          Update.adds, tally, wentOut, observed, isPromotion, isDemotion]
  | switched path promoted leaseExpired unixMs =>
      cases promoted <;> cases leaseExpired <;> cases k <;>
        simp [opsAdd, ops, count, AtomicOp.adds, Update.adds, tally, wentOut, observed, isPromotion,
          isDemotion]
  | filtered | unsent | unreplayed | rejected | received =>
      cases k <;> simp [opsAdd, ops, count, AtomicOp.adds, Update.adds, tally, wentOut, observed,
        isPromotion, isDemotion]

namespace DataPlane

section Counters

variable [DecidableEq κ] {s s₁ : DataPlane κ} {stage stage' : ForwardStage κ} {n : Option (Note κ)}

omit [DecidableEq κ] in
/-- An operation on a counter that is no gauge adds its amount, modulo 2^64. -/
theorem applyOp_counter (s : DataPlane κ) {op : AtomicOp} (hop : op.Lawful) {k : ForwardCounter}
    (hk : ∀ gauge, k ≠ .warm (.warmSourceBuffered gauge)) :
    (((applyOp s op).counters k : Nat) : Wrapping) = s.counters k + op.adds k := by
  cases op with
  | durationMax | lastTransition => exact (add_zero _).symm
  | update u =>
      cases u with
      | add counter amount =>
          have hadd : (Update.add counter amount).IsAdd := trivial
          exact Update.apply_wrapping s.counters hadd k
      | sub counter amount =>
          obtain ⟨gauge, rfl⟩ := hop
          have hsame : Update.apply s.counters (.sub (.warm (.warmSourceBuffered gauge)) amount) k
              = s.counters k := Update.apply_of_ne _ (Ne.symm (hk gauge))
          show ((Update.apply s.counters (.sub _ amount) k : Nat) : Wrapping) = _ + ((0 : Nat) : Wrapping)
          rw [hsame, Nat.cast_zero, add_zero]

theorem Advance.counters_eq (h : Advance s stage stage' n s₁) : s₁.counters = s.counters := by
  cases h <;> rfl

/-- The operations a task has left on a counter. -/
def pendingAdds (k : ForwardCounter) (t : Task (ForwardStage κ) AtomicOp) : Wrapping :=
  (opsAdd k t.pending : Nat)

theorem counters_keeps (endpoints : List (SocketAddr × RelayForwardRole)) {k : ForwardCounter}
    (hk : ∀ gauge, k ≠ .warm (.warmSourceBuffered gauge)) :
    (forwarder κ).Keeps (· = ·) (On endpoints) Ready AtomicOp.Lawful
      (fun s => logged (fun _ => (0 : Wrapping)) s.log + (s.counters k : Wrapping))
      (fun s => logged (fun n => (n.tally k : Wrapping)) s.log + 0)
      (pendingAdds k) := by
  refine keeps_of_advance (fun s => (s.counters k : Wrapping)) (fun _ => 0)
    ?_ ?_ ?_ ?_ ?_ ?_
  · intro s request _
    have hcounters : (enter s request).2.counters = s.counters := by cases request <;> rfl
    show ((enter s request).2.counters k : Wrapping) + ((0 : Nat) : Wrapping) + 0
      = (s.counters k : Wrapping) + 0
    rw [hcounters, Nat.cast_zero, add_zero]
  · exact fun a b c h => congrArg (· + c) h
  · intro s op pending stage _ hop
    show (((applyOp s op).counters k : Nat) : Wrapping) + (opsAdd k pending : Nat) + 0
      = (s.counters k : Nat) + (opsAdd k (op :: pending) : Nat) + 0
    rw [applyOp_counter s hop hk, opsAdd_cons, Nat.cast_add, add_assoc (s.counters k : Wrapping)]
  · intro s stage stage' n s₁ hs hready h
    show n.elim 0 (fun _ => 0) + (s₁.counters k : Wrapping) + (opsAdd k (n.elim [] Note.ops) : Nat) + 0
      = (s.counters k : Wrapping) + (opsAdd k [] : Nat) + n.elim 0 (fun n => (n.tally k : Wrapping)) + 0
    rw [h.counters_eq]
    cases n with
    | none =>
        show 0 + (s.counters k : Wrapping) + (0 : Nat) + 0 = (s.counters k : Wrapping) + (0 : Nat) + 0 + 0
        rw [zero_add, add_zero ((s.counters k : Wrapping) + (0 : Nat))]
        exact (add_zero _).symm
    | some n =>
        show 0 + (s.counters k : Wrapping) + (opsAdd k n.ops : Nat) + 0
          = (s.counters k : Wrapping) + (0 : Nat) + (n.tally k : Nat) + 0
        rw [n.opsAdd_ops hk, zero_add, Nat.cast_zero, add_zero (s.counters k : Wrapping)]
  · exact fun _ _ => rfl
  · exact fun _ _ => rfl

omit [DecidableEq κ] in
theorem logged_zero {M : Type*} [AddCommMonoid M] (log : List (Note κ)) :
    logged (fun _ => (0 : M)) log = 0 := List.sum_eq_zero (by simp)

omit [DecidableEq κ] in
theorem logged_cast (f : Note κ → Nat) (log : List (Note κ)) :
    logged (fun n => (f n : Wrapping)) log = (logged f log : Nat) := by
  unfold logged
  induction log with
  | nil => exact Nat.cast_zero.symm
  | cons n log ih =>
      rw [List.map_cons, List.map_cons, List.sum_cons, List.sum_cons, ih, Nat.cast_add]

/-- No task is under way. -/
def Settled (s : Tasks (DataPlane κ) (ForwardStage κ) AtomicOp) : Prop :=
  ∀ t ∈ s.tasks, t.pending = [] ∧ t.stage = .finished

omit [DecidableEq κ] in
theorem Settled.total {M : Type*} [AddCommMonoid M]
    {s : Tasks (DataPlane κ) (ForwardStage κ) AtomicOp} (h : Settled s)
    {weight : Task (ForwardStage κ) AtomicOp → M} (hweight : weight ⟨[], .finished⟩ = 0) :
    TaskProgram.total weight s.tasks = 0 := by
  refine List.sum_eq_zero ?_
  intro w hw
  obtain ⟨t, ht, rfl⟩ := List.mem_map.mp hw
  obtain ⟨pending, stage⟩ := t
  obtain ⟨rfl, rfl⟩ := h _ ht
  exact hweight

theorem counters_lt (endpoints : List (SocketAddr × RelayForwardRole)) (ops : List (ForwardOp κ))
    (k : ForwardCounter) : (after endpoints ops).shared.counters k < 2 ^ 64 := by
  refine exec_invariant (forwarder κ).step (fun s => s.shared.counters k < 2 ^ 64) ?_ ops
    (show 0 < 2 ^ 64 by decide)
  intro s op h
  rcases (forwarder κ).step_cases s op with hstep | ⟨request, -, hstep⟩ |
    ⟨i, a, pending, stage, -, hstep⟩ | ⟨i, env, stage, -, hstep⟩
  · rw [hstep]
    exact h
  · rw [hstep]
    cases request <;> exact h
  · rw [hstep]
    cases a with
    | durationMax | lastTransition => exact h
    | update u => exact u.apply_lt h
  · rw [hstep]
    obtain ⟨n, s₁, hadvanced⟩ := s.shared.advance_spec stage env
    show (s.shared.advance stage env).2.2.counters k < _
    rw [hadvanced.state]
    exact (congrFun hadvanced.stage.counters_eq k).trans_lt h

/-- **Once no task is under way, a counter is what it counts.** -/
theorem counter_eq (endpoints : List (SocketAddr × RelayForwardRole)) (ops : List (ForwardOp κ))
    (hdone : Settled (after endpoints ops)) {k : ForwardCounter}
    (hk : ∀ gauge, k ≠ .warm (.warmSourceBuffered gauge)) :
    (after endpoints ops).shared.counters k
      = logged (Note.tally k) (after endpoints ops).shared.log % 2 ^ 64 := by
  have hstart : logged (fun _ => (0 : Wrapping)) ([] : List (Note κ)) + ((0 : Nat) : Wrapping) + 0
      = logged (fun n : Note κ => (n.tally k : Wrapping)) [] + 0 := by
    show 0 + ((0 : Nat) : Wrapping) + 0 = 0 + 0
    rw [Nat.cast_zero, add_zero, add_zero]
  have hbooks := TaskProgram.exec_balance (counters_keeps (κ := κ) endpoints hk)
    (after_on endpoints) hstart ops
  have hnone : TaskProgram.total (pendingAdds k) (exec (forwarder κ).step ⟨bind endpoints, []⟩ ops).tasks
      = 0 := hdone.total (Nat.cast_zero : ((0 : Nat) : Wrapping) = 0)
  rw [hnone, logged_zero, zero_add, add_zero, add_zero, logged_cast] at hbooks
  exact eq_mod_of_wrapping (counters_lt endpoints ops k) hbooks

/-! ## §5. What the counters say together. -/

/-- `failover_promoted_children`. -/
def promotedChildren (s : DataPlane κ) : Nat := (s.paths.map fun p => p.promoted.toNat).sum

omit [DecidableEq κ] in
theorem promotedChildren_setPath {path : Nat} {p : WarmForwardPath κ} (p' : WarmForwardPath κ)
    (hpath : s.paths[path]? = some p) :
    (s.setPath path p').promotedChildren + p.promoted.toNat
      = s.promotedChildren + p'.promoted.toNat :=
  sum_map_set (fun p : WarmForwardPath κ => p.promoted.toNat) p' hpath

/-- A change of a flag is a promotion or a demotion. -/
theorem Advance.promotions_eq (h : Advance s stage stage' n s₁) :
    n.elim 0 Note.isDemotion + s₁.promotedChildren
      = s.promotedChildren + n.elim 0 Note.isPromotion := by
  have hsame : ∀ {path : Nat} {p : WarmForwardPath κ} (warmSources : WarmSourceReplayBuffer κ),
      s.paths[path]? = some p →
      (s.setPath path { p with warmSources }).promotedChildren = s.promotedChildren := by
    intro path p warmSources hpath
    have hset := promotedChildren_setPath { p with warmSources } hpath
    dsimp only at hset
    omega
  cases h with
  | @push call datagram path p objectKey expiresAtUs nowUs hpath =>
      rw [hsame _ hpath]
      exact Nat.zero_add _
  | @drain target path p nowUs hfind hpath =>
      rw [hsame _ hpath]
      exact Nat.zero_add _
  | @accept target path mode leaseExpired p =>
      cases leaseExpired <;> exact Nat.zero_add _
  | @switch target path mode leaseExpired p unixMs hpath hchange =>
      have hset := promotedChildren_setPath { p with promoted := mode == .sourceAndRepair } hpath
      rw [hchange] at hset
      cases hmode : (mode == .sourceAndRepair) with
      | true =>
          rw [hmode] at hset
          show 0 + _ = s.promotedChildren + 1
          simpa using hset
      | false =>
          rw [hmode] at hset
          show 1 + _ = s.promotedChildren + 0
          simp only [Bool.not_false, Bool.toNat_true, Bool.toNat_false] at hset
          omega
  | _ => exact Nat.zero_add _

theorem promotions_keeps (endpoints : List (SocketAddr × RelayForwardRole)) :
    (forwarder κ).Keeps (· = ·) (On endpoints) Ready AtomicOp.Lawful
      (fun s => logged Note.isDemotion s.log + s.promotedChildren)
      (fun s => logged Note.isPromotion s.log + 0)
      (fun _ => 0) := by
  refine keeps_of_advance promotedChildren (fun _ => 0) ?_ ?_ ?_ ?_ ?_ ?_
  · intro s request _
    cases request <;> rfl
  · exact fun a b c h => congrArg (· + c) h
  · intro s op pending stage _ _
    show promotedChildren (applyOp s op) + 0 + 0 = s.promotedChildren + 0 + 0
    unfold promotedChildren
    rw [(s.applyOp_paths op).1]
  · intro s stage stage' n s₁ hs hready h
    exact h.promotions_eq
  · exact fun _ _ => rfl
  · exact fun _ _ => rfl

theorem after_promotions (endpoints : List (SocketAddr × RelayForwardRole))
    (ops : List (ForwardOp κ)) :
    logged Note.isPromotion (after endpoints ops).shared.log
      = logged Note.isDemotion (after endpoints ops).shared.log
        + (after endpoints ops).shared.promotedChildren := by
  have hstart : (bind endpoints : DataPlane κ).promotedChildren = 0 := by
    refine List.sum_eq_zero ?_
    intro flag hflag
    obtain ⟨p, hp, rfl⟩ := List.mem_map.mp hflag
    obtain ⟨endpoint, -, rfl⟩ := List.mem_map.mp hp
    rfl
  have hbooks := TaskProgram.exec_balance (promotions_keeps (κ := κ) endpoints) (after_on endpoints)
    (show 0 + promotedChildren _ + 0 = 0 + 0 by rw [hstart]) ops
  have hnone : TaskProgram.total (fun _ : Task (ForwardStage κ) AtomicOp => 0)
      (exec (forwarder κ).step ⟨bind endpoints, []⟩ ops).tasks = 0 :=
    List.sum_eq_zero (by simp)
  unfold after
  omega

omit [DecidableEq κ] in
/-- Each visit and each replay is counted in one of four counters. -/
theorem logged_outcomes (log : List (Note κ)) :
    logged (Note.tally .sourceDatagrams) log + logged (Note.tally .repairDatagrams) log
        + logged (Note.tally .errors) log + logged (Note.tally .filteredDatagrams) log
      = logged Note.isVisit log + logged Note.isReplay log := by
  have hone : ∀ n : Note κ, n.tally .sourceDatagrams + n.tally .repairDatagrams
      + n.tally .errors + n.tally .filteredDatagrams = n.isVisit + n.isReplay := by
    intro n
    cases n with
    | sent call path loaded role wire elapsedUs => cases role <;> rfl
    | _ => rfl
  unfold logged
  induction log with
  | nil => rfl
  | cons n log ih =>
      have hn := hone n
      simp only [List.map_cons, List.sum_cons]
      omega

/-- **THE COUNTERS ONCE NO TASK IS UNDER WAY.**  Each counter but the two gauges is, modulo 2^64,
what it counts of the events; the source, repair, error and filtered datagrams together are the
calls times the paths and the replays; and the promotions applied are the demotions applied and the
children that are promoted now. -/
theorem forward_accounting (endpoints : List (SocketAddr × RelayForwardRole))
    (ops : List (ForwardOp κ)) (hdone : Settled (after endpoints ops)) :
    let s := (after endpoints ops).shared
    (∀ k, (∀ gauge, k ≠ .warm (.warmSourceBuffered gauge)) →
      s.counters k = logged (Note.tally k) s.log % 2 ^ 64) ∧
    (s.counters .sourceDatagrams + s.counters .repairDatagrams + s.counters .errors
        + s.counters .filteredDatagrams) % 2 ^ 64
      = (s.offered.length * endpoints.length + logged Note.isReplay s.log) % 2 ^ 64 ∧
    s.counters .failoverPromotionsApplied
      = (s.counters .failoverDemotionsApplied + s.promotedChildren) % 2 ^ 64 := by
  intro s
  have hcounter : ∀ k, (∀ gauge, k ≠ .warm (.warmSourceBuffered gauge)) →
      s.counters k = logged (Note.tally k) s.log % 2 ^ 64 :=
    fun k hk => counter_eq endpoints ops hdone hk
  refine ⟨hcounter, ?_, ?_⟩
  · have hleft := after_left endpoints ops
    rw [hdone.total (show (⟨[], .finished⟩ : Task (ForwardStage κ) AtomicOp).stage.left _ = 0
      from rfl), Nat.add_zero] at hleft
    have houtcomes := logged_outcomes s.log
    rw [hcounter .sourceDatagrams nofun, hcounter .repairDatagrams nofun, hcounter .errors nofun,
      hcounter .filteredDatagrams nofun]
    show _ = (s.offered.length * _ + _) % _
    rw [← hleft, ← houtcomes]
    simp only [Nat.add_mod, Nat.mod_mod]
  · have hpromotions := after_promotions endpoints ops
    rw [hcounter .failoverPromotionsApplied nofun, hcounter .failoverDemotionsApplied nofun,
      Nat.mod_add_mod]
    exact congrArg (· % 2 ^ 64) hpromotions

end Counters

/-! ## §6. A sample run. -/

def sampleEndpoints : List (SocketAddr × RelayForwardRole) :=
  [(⟨"10.0.0.2", 5000⟩, .all), (⟨"10.0.0.3", 5000⟩, .repair)]

def sampleEnv : ForwardEnv := ⟨1000, 1, some 2, 2000000⟩

/-- A source datagram is sent to the first child and kept for the second, which is then promoted
and gets it by replay. -/
def sampleForwarding : List (ForwardOp Nat) :=
  .enter (.forward ⟨[1, 2], .source, some 7, some 5000⟩) :: List.replicate 18 (.run 0 sampleEnv)
    ++ .enter (.failover ⟨"10.0.0.3", 5000⟩ .sourceAndRepair false)
      :: List.replicate 18 (.run 1 sampleEnv)

theorem sampleForwarding_settled : Settled (after sampleEndpoints sampleForwarding) := by
  intro t ht
  have htasks : (after sampleEndpoints sampleForwarding).tasks
      = [⟨[], .finished⟩, ⟨[], .finished⟩] := by rfl
  rw [htasks] at ht
  simp only [List.mem_cons, List.not_mem_nil, or_false, or_self] at ht
  rw [ht]
  exact ⟨rfl, rfl⟩

theorem forward_at_most_once_sample :
    (after sampleEndpoints sampleForwarding).shared.attempts 0 1 ≤ 1 ∧
      (after sampleEndpoints sampleForwarding).shared.attempts 0 1 = 1 :=
  ⟨(forward_at_most_once sampleEndpoints sampleForwarding 0 (show 1 < 2 by decide)).1, by rfl⟩

theorem forward_accounting_sample :
    (after sampleEndpoints sampleForwarding).shared.counters .failoverPromotionsApplied
      = ((after sampleEndpoints sampleForwarding).shared.counters .failoverDemotionsApplied
        + (after sampleEndpoints sampleForwarding).shared.promotedChildren) % 2 ^ 64 :=
  (forward_accounting sampleEndpoints sampleForwarding sampleForwarding_settled).2.2

end DataPlane

end AvMesh.Failover
