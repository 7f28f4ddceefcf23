/-
  AvMesh.Edge.GatewayRuns
  ───────────────────────
  **WHAT THE FRONT OF AN EDGE KEEPS, IN EVERY RUN.**

  The handlers of AvMesh.Edge.Gateway interleave between any two atomic
  operations, and each may be dropped where it waits.

    • `gateway_gated`      — media leaves only with a decision of the admission,
                             and each request is answered at most once,
    • `gateway_accounting` — once no operation is left over, each counter is
                             what it counts, modulo 2^64; the active readers are
                             the handlers that hold a guard,
    • `recent_responses`   — the details that are kept of responses are few, far
                             apart, and name no playback session.
-/
import AvMesh.Edge.Gateway

namespace AvMesh.Edge

open AvMesh.Lib AvMesh.LiveCache
open AvMesh.Telemetry (BucketIndex bound inBucket)

/-! ## §1. Stages and events. -/

/-- The request a handler is about, until it has answered. -/
def HandlerStage.asking : HandlerStage → Option Handler
  | .arrived h => some h
  | .admitting h => some h
  | .session h _ => some h
  | .rejected h => some h
  | .dispatch h => some h
  | .reading h => some h
  | .stream _ _ _ _ _ => none
  | .retain _ _ => none
  | .finished => none

/-- The handler holds a guard. -/
def HandlerStage.holdsGuard : HandlerStage → Bool
  | .reading _ => true
  | .stream _ _ _ _ _ => true
  | _ => false

/-- The response an event sends, with its handler. -/
def EdgeEvent.answer : EdgeEvent → Option (Handler × HandlerResponse)
  | .responded h response _ => some (h, response)
  | .streamRefused h response => some (h, response)
  | _ => none

def EdgeEvent.begins : EdgeEvent → Nat
  | .readBegan => 1
  | _ => 0

def EdgeEvent.ends : EdgeEvent → Nat
  | .readFinished _ => 1
  | .readDropped => 1
  | _ => 0

namespace EdgeGateway

variable {config : RouterConfig} {admission : EdgeAdmissionConfig}
variable {s : EdgeGateway} {stage : HandlerStage} {env : HandlerEnv}

/-! ## §2. What a stage does. -/

/-- The answers, and the guards taken and dropped, of some events. -/
def answers (events : List EdgeEvent) : List (Handler × HandlerResponse) :=
  events.filterMap EdgeEvent.answer

def begun (events : List EdgeEvent) : Nat := (events.map EdgeEvent.begins).sum

def ended (events : List EdgeEvent) : Nat := (events.map EdgeEvent.ends).sum

/-- **What a stage writes**: the window of the admission, and at `retain` the mark. -/
theorem react_shared (config : RouterConfig) (s : EdgeGateway) (stage : HandlerStage)
    (env : HandlerEnv) :
    ∃ egress last, (react config s stage env).2
        = { s with egress := egress, lastRecentSuccessUnixMs := last } ∧
      (last = s.lastRecentSuccessUnixMs ∨ ∃ snapshot opens, stage = .retain snapshot opens) := by
  have hsame : ∃ egress last, s = { s with egress := egress, lastRecentSuccessUnixMs := last } ∧
      (last = s.lastRecentSuccessUnixMs ∨ ∃ snapshot opens, stage = .retain snapshot opens) :=
    ⟨s.egress, s.lastRecentSuccessUnixMs, rfl, .inl rfl⟩
  have hobserve : ∀ h, ∃ egress last,
      s.observe h env = { s with egress := egress, lastRecentSuccessUnixMs := last } ∧
      (last = s.lastRecentSuccessUnixMs ∨ ∃ snapshot opens, stage = .retain snapshot opens) := by
    intro h
    unfold observe
    split
    · exact ⟨_, s.lastRecentSuccessUnixMs, rfl, .inl rfl⟩
    · exact hsame
  cases stage with
  | arrived h =>
      unfold react
      dsimp only
      split
      · exact hsame
      · split <;> exact hsame
  | admitting h => exact ⟨_, s.lastRecentSuccessUnixMs, rfl, .inl rfl⟩
  | session h observed => exact ⟨_, s.lastRecentSuccessUnixMs, rfl, .inl rfl⟩
  | rejected h =>
      unfold react
      dsimp only
      split
      · exact hsame
      · exact hobserve h
  | dispatch h =>
      unfold react
      dsimp only
      split
      · exact hsame
      · exact hobserve h
  | reading h =>
      unfold react
      dsimp only
      split <;> exact hsame
  | stream h bytesServed bytesRecorded nextSequence partCount =>
      unfold react
      dsimp only
      split <;> exact hsame
  | retain snapshot opens =>
      unfold react
      dsimp only
      split
      · exact hsame
      · split
        · exact ⟨s.egress, snapshot.unixMs, rfl, .inr ⟨snapshot, opens, rfl⟩⟩
        · exact hsame
  | finished => exact hsame

/-- A stage leaves alone what its operations are about. -/
theorem react_frame (config : RouterConfig) (s : EdgeGateway) (stage : HandlerStage)
    (env : HandlerEnv) :
    (react config s stage env).2.counters = s.counters ∧
    (react config s stage env).2.recentResponses = s.recentResponses ∧
    (react config s stage env).2.arrivals = s.arrivals ∧
    (react config s stage env).2.events = s.events := by
  obtain ⟨egress, last, hshared, -⟩ := react_shared config s stage env
  rw [hshared]
  exact ⟨rfl, rfl, rfl, rfl⟩

/-- The admission has decided for the request, and not against it. -/
def Cleared (events : List EdgeEvent) (h : Handler) : Prop :=
  h.request.gated = true →
    ∃ entry, EdgeEvent.admission entry ∈ events ∧ entry.handler = h ∧ entry.admission ≠ .rejected

/-- The details are those of a response that was sent. -/
def FromResponse (events : List EdgeEvent) (snapshot : EdgeResponseSnapshot) : Prop :=
  ∃ h response clock, EdgeEvent.responded h response clock ∈ events ∧
    snapshot = responseSnapshot h.request response clock

/-- What a stage relies on. -/
def StageReady (events : List EdgeEvent) : HandlerStage → Prop
  | .dispatch h => Cleared events h
  | .reading h => Cleared events h
  | .retain snapshot _ => FromResponse events snapshot
  | _ => True

theorem Cleared.append {events : List EdgeEvent} {h : Handler} (hc : Cleared events h)
    (new : List EdgeEvent) : Cleared (events ++ new) h := by
  intro hgated
  obtain ⟨entry, hentry, hhandler, hadmission⟩ := hc hgated
  exact ⟨entry, List.mem_append_left _ hentry, hhandler, hadmission⟩

theorem FromResponse.append {events : List EdgeEvent} {snapshot : EdgeResponseSnapshot}
    (hf : FromResponse events snapshot) (new : List EdgeEvent) :
    FromResponse (events ++ new) snapshot := by
  obtain ⟨h, response, clock, hresponded, hsnapshot⟩ := hf
  exact ⟨h, response, clock, List.mem_append_left _ hresponded, hsnapshot⟩

theorem StageReady.append {events : List EdgeEvent} (hr : StageReady events stage)
    (new : List EdgeEvent) : StageReady (events ++ new) stage := by
  cases stage with
  | dispatch h => exact Cleared.append hr new
  | reading h => exact Cleared.append hr new
  | retain snapshot opens => exact FromResponse.append hr new
  | arrived h => exact trivial
  | admitting h => exact trivial
  | session h observed => exact trivial
  | rejected h => exact trivial
  | stream h bytesServed bytesRecorded nextSequence partCount => exact trivial
  | finished => exact trivial

/-- What the admission said is what it says of that session at that moment. -/
def Decided (entry : AdmissionRecord) : Prop :=
  ∃ favoured, entry.admission = (entry.before.admitPlaybackAt entry.handler.request.sessionId
    entry.observed.overloaded entry.elapsedMs favoured).1

/-- No details of a response are kept. -/
def Plain : EdgeEvent → Prop
  | .admission entry => Decided entry
  | .retained _ => False
  | _ => True

/-- How the handler of a request goes on: it answers, or it still holds the request. -/
structure Follows (h : Handler) (guard : Nat) (result : List EdgeEvent × HandlerStage) : Prop where
  /-- It answers once, and then no longer, or it goes on with the same request. -/
  answered : (answers result.1 = [] ∧ (result.2.asking = some h ∨ result.2.asking = none)) ∨
    ∃ response, answers result.1 = [(h, response)] ∧ result.2.asking = none
  guards : ended result.1 + (if result.2.holdsGuard then 1 else 0) = begun result.1 + guard
  plain : ∀ event ∈ result.1, Plain event
  ready : ∀ events, Cleared events h → StageReady (events ++ result.1) result.2

theorem follows_respond (h : Handler) (response : HandlerResponse) (clock : ResponseClock) :
    Follows h 0 (respond h response clock) := by
  unfold respond
  constructor
  · refine .inr ⟨response, rfl, ?_⟩
    dsimp only
    split <;> rfl
  · dsimp only
    split <;> rfl
  · intro event hevent
    rw [List.mem_singleton.mp hevent]
    exact trivial
  · intro events _
    dsimp only
    split
    · exact ⟨h, response, clock, List.mem_append_right _ List.mem_cons_self, rfl⟩
    · exact trivial

/-- Events that are no answer come before a response. -/
theorem Follows.before {h : Handler} {guard guard' : Nat}
    {result : List EdgeEvent × HandlerStage} (hr : Follows h guard' result)
    (events : List EdgeEvent)
    (hanswers : answers events = [])
    (hguards : ended events + guard' = begun events + guard)
    (hplain : ∀ event ∈ events, Plain event) :
    Follows h guard (events ++ result.1, result.2) := by
  have hsame : answers (events ++ result.1) = answers result.1 := by
    unfold answers at hanswers ⊢
    rw [List.filterMap_append, hanswers, List.nil_append]
  constructor
  · show (answers (events ++ result.1) = [] ∧ _) ∨ _
    rw [hsame]
    exact hr.answered
  · have hrest := hr.guards
    show ended (events ++ result.1) + (if result.2.holdsGuard then 1 else 0)
      = begun (events ++ result.1) + guard
    unfold ended begun at hrest hguards ⊢
    rw [List.map_append, List.map_append, List.sum_append, List.sum_append]
    omega
  · intro event hevent
    rcases List.mem_append.mp hevent with hevent | hevent
    · exact hplain event hevent
    · exact hr.plain event hevent
  · intro earlier hcleared
    show StageReady (earlier ++ (events ++ result.1)) result.2
    rw [← List.append_assoc]
    exact hr.ready (earlier ++ events) (hcleared.append events)

theorem follows_dispatch (config : RouterConfig) (h : Handler) (env : HandlerEnv) :
    Follows h 0 (dispatch config h env) := by
  have hrespond := fun response => follows_respond h response env.clock
  have hreads : Follows h 0 ([.readBegan], .reading h) := by
    constructor
    · exact .inl ⟨rfl, .inl rfl⟩
    · rfl
    · simp [Plain]
    · exact fun _ hcleared => hcleared.append _
  have hfailover : Follows h 0 (failoverResponse h env) := by
    unfold failoverResponse
    split
    · exact hrespond _
    · exact (hrespond _).before [.refused] rfl rfl (by simp [Plain])
  have hbundle : Follows h 0 (tailBundle config h env) := by
    unfold tailBundle
    split
    · exact hrespond _
    · split
      · exact hrespond _
      · split
        · exact hrespond _
        · exact hreads
  have hopen : Follows h 0 (openStream config h env) := by
    unfold openStream
    split
    · constructor
      · exact .inr ⟨_, rfl, rfl⟩
      · rfl
      · simp [Plain]
      · exact fun _ _ => ⟨h, _, _, List.mem_append_right _ List.mem_cons_self, rfl⟩
    · constructor
      · exact .inr ⟨_, rfl, rfl⟩
      · rfl
      · simp [Plain]
      · exact fun _ _ => trivial
  have htail : Follows h 0 (tail config h env) := by
    unfold tail
    split
    · exact (hrespond _).before [.readBegan, .readFinished 0] rfl rfl (by simp [Plain])
    · exact hreads
  unfold dispatch
  cases routeLive h.request.path with
  | none =>
      dsimp only
      split
      · exact hrespond _
      · exact hrespond _
  | some target =>
      -- every other branch answers at once
      cases target with
      | failover mediaPath => exact hfailover
      | tailBundle => exact hbundle
      | tailBundleStream => exact hopen
      | tail streamId => exact htail
      | defaultPlaylist => exact hrespond _
      | playlist streamId => exact hrespond _
      | streamInit streamId => exact hrespond _
      | mediaUnit streamId sequence => exact hrespond _
      | streamPart streamId seq requestedKind => exact hrespond _
      | streamSegment streamId seq requestedKind => exact hrespond _
      | init => exact hrespond _
      | part seq requestedKind => exact hrespond _
      | segment seq requestedKind => exact hrespond _

/-- **How a handler goes on** from a stage at which it has not answered. -/
theorem follows_react (config : RouterConfig) (s : EdgeGateway) (env : HandlerEnv) {h : Handler}
    (hasking : stage.asking = some h) :
    Follows h (if stage.holdsGuard then 1 else 0) (react config s stage env).1 := by
  have hover : Follows h 0 ([], .finished) :=
    ⟨.inl ⟨rfl, .inr rfl⟩, rfl, List.forall_mem_nil _, fun _ _ => trivial⟩
  have hgate : Follows h 0 (gate h) := by
    unfold gate
    constructor
    · refine .inl ⟨rfl, .inl ?_⟩
      dsimp only
      split <;> rfl
    · dsimp only
      split <;> rfl
    · exact List.forall_mem_nil _
    · intro events hcleared
      dsimp only
      split
      · exact trivial
      · exact hcleared.append _
  cases stage with
  | arrived h' =>
      cases hasking
      show Follows h 0 (react config s (.arrived h) env).1
      unfold react
      dsimp only
      split
      · exact hgate
      · split
        · exact hgate
        · exact hgate
        · exact follows_respond h _ _
        · exact follows_respond h _ _
  | admitting h' =>
      cases hasking
      exact ⟨.inl ⟨rfl, .inl rfl⟩, rfl, List.forall_mem_nil _, fun _ _ => trivial⟩
  | session h' observed =>
      cases hasking
      show Follows h 0 (react config s (.session h observed) env).1
      unfold react
      dsimp only
      constructor
      · refine .inl ⟨rfl, .inl ?_⟩
        dsimp only
        split <;> rfl
      · dsimp only
        split <;> rfl
      · intro event hevent
        rw [List.mem_singleton.mp hevent]
        exact ⟨env.favoured, rfl⟩
      · intro events hcleared
        dsimp only
        split
        · exact trivial
        · exact hcleared.append _
  | rejected h' =>
      cases hasking
      show Follows h 0 (react config s (.rejected h) env).1
      unfold react
      dsimp only
      split
      · exact hover
      · exact (follows_respond h _ _).before [.refused] rfl rfl (by simp [Plain])
  | dispatch h' =>
      cases hasking
      show Follows h 0 (react config s (.dispatch h) env).1
      unfold react
      dsimp only
      split
      · exact hover
      · exact follows_dispatch config h env
  | reading h' =>
      cases hasking
      show Follows h 1 (react config s (.reading h) env).1
      unfold react
      dsimp only
      split
      · exact ⟨.inl ⟨rfl, .inr rfl⟩, rfl, by simp [Plain], fun _ _ => trivial⟩
      · exact (follows_respond h _ _).before [.readFinished _] rfl rfl (by simp [Plain])
  | stream h' bytesServed bytesRecorded nextSequence partCount => cases hasking
  | retain snapshot opens => cases hasking
  | finished => cases hasking

/-- A handler that has answered streams, records its response, or is done. -/
theorem stage_of_not_asking (hasking : stage.asking = none) :
    (∃ h bytesServed bytesRecorded nextSequence partCount,
      stage = .stream h bytesServed bytesRecorded nextSequence partCount) ∨
    (∃ snapshot opens, stage = .retain snapshot opens) ∨ stage = .finished := by
  cases stage with
  | stream h bytesServed bytesRecorded nextSequence partCount =>
      exact .inl ⟨h, bytesServed, bytesRecorded, nextSequence, partCount, rfl⟩
  | retain snapshot opens => exact .inr (.inl ⟨snapshot, opens, rfl⟩)
  | finished => exact .inr (.inr rfl)
  | arrived h => cases hasking
  | admitting h => cases hasking
  | session h observed => cases hasking
  | rejected h => cases hasking
  | dispatch h => cases hasking
  | reading h => cases hasking

/-- A handler that has answered answers no more, and keeps its guard or drops it. -/
theorem quiet_react (config : RouterConfig) (s : EdgeGateway) (env : HandlerEnv)
    (hasking : stage.asking = none) :
    answers (react config s stage env).1.1 = [] ∧
    (react config s stage env).1.2.asking = none ∧
    ended (react config s stage env).1.1
        + (if (react config s stage env).1.2.holdsGuard then 1 else 0)
      = begun (react config s stage env).1.1 + (if stage.holdsGuard then 1 else 0) := by
  rcases stage_of_not_asking hasking with
    ⟨h, bytesServed, bytesRecorded, nextSequence, partCount, rfl⟩ | ⟨snapshot, opens, rfl⟩ | rfl
  · show _ ∧ _ ∧ _ = _ + 1
    unfold react
    dsimp only
    split
    · exact ⟨rfl, rfl, rfl⟩
    · unfold streamTurn
      split
      · exact ⟨rfl, rfl, rfl⟩
      · exact ⟨rfl, rfl, rfl⟩
      · dsimp only
        split <;> exact ⟨rfl, rfl, rfl⟩
  · have hnext : answers (afterRecord opens).1 = [] ∧ (afterRecord opens).2.asking = none ∧
        ended (afterRecord opens).1 + (if (afterRecord opens).2.holdsGuard then 1 else 0)
          = begun (afterRecord opens).1 := by
      unfold afterRecord
      split <;> exact ⟨rfl, rfl, rfl⟩
    obtain ⟨hanswers, hstage, hguards⟩ := hnext
    have hmore : answers (.retained snapshot :: (afterRecord opens).1) = [] ∧
        (afterRecord opens).2.asking = none ∧
        ended (.retained snapshot :: (afterRecord opens).1)
            + (if (afterRecord opens).2.holdsGuard then 1 else 0)
          = begun (.retained snapshot :: (afterRecord opens).1) := by
      refine ⟨hanswers, hstage, ?_⟩
      unfold ended begun at hguards ⊢
      rw [List.map_cons, List.map_cons, List.sum_cons, List.sum_cons]
      show 0 + _ + _ = 0 + _
      omega
    show _ ∧ _ ∧ _ = _ + 0
    unfold react
    dsimp only
    split
    · exact hmore
    · split
      · exact hmore
      · exact ⟨hanswers, hstage, hguards⟩
  · exact ⟨rfl, rfl, rfl⟩

/-- **Guards**: those a stage takes and those it held are dropped or still held. -/
theorem guards_react (config : RouterConfig) (s : EdgeGateway) (stage : HandlerStage)
    (env : HandlerEnv) :
    ended (react config s stage env).1.1
        + (if (react config s stage env).1.2.holdsGuard then 1 else 0)
      = begun (react config s stage env).1.1 + (if stage.holdsGuard then 1 else 0) := by
  cases hasking : stage.asking with
  | none => exact (quiet_react config s env hasking).2.2
  | some h => exact (follows_react config s env hasking).guards

/-! ## §3. What a stage relies on, and what it leaves. -/

theorem ready_respond {events : List EdgeEvent} {h : Handler} {response : HandlerResponse}
    {clock : ResponseClock} (hresponded : EdgeEvent.responded h response clock ∈ events) :
    StageReady events (respond h response clock).2 := by
  unfold respond
  dsimp only
  split
  · exact ⟨h, response, clock, hresponded, rfl⟩
  · exact trivial

/-- **The next stage** finds what it relies on. -/
theorem ready_react (config : RouterConfig) (s : EdgeGateway) (env : HandlerEnv)
    (hready : StageReady s.events stage) :
    StageReady (s.events ++ (react config s stage env).1.1) (react config s stage env).1.2 := by
  cases stage with
  | arrived h =>
      have hgate : ∀ events, StageReady events (gate h).2 := by
        intro events
        unfold gate
        dsimp only
        split
        · exact trivial
        next hungated => exact fun hgated => absurd hgated hungated
      unfold react
      dsimp only
      split
      · exact hgate _
      · split
        · exact hgate _
        · exact hgate _
        · exact ready_respond (List.mem_append_right _ List.mem_cons_self)
        · exact ready_respond (List.mem_append_right _ List.mem_cons_self)
  | admitting h => exact trivial
  | session h observed =>
      unfold react
      dsimp only
      split
      · exact trivial
      next hadmission =>
        exact fun _ => ⟨_, List.mem_append_right _ List.mem_cons_self, rfl, hadmission⟩
  | rejected h =>
      unfold react
      dsimp only
      split
      · exact trivial
      · exact ready_respond (List.mem_append_right _ (List.mem_cons_of_mem _ List.mem_cons_self))
  | dispatch h => exact (follows_react config s env rfl).ready _ hready
  | reading h => exact (follows_react config s env rfl).ready _ hready
  | stream h bytesServed bytesRecorded nextSequence partCount =>
      unfold react
      dsimp only
      split
      · exact trivial
      · unfold streamTurn
        split
        · exact trivial
        · exact trivial
        · dsimp only
          split <;> exact trivial
  | retain snapshot opens =>
      have hnext : ∀ events, StageReady events (afterRecord opens).2 := by
        intro events
        unfold afterRecord
        split <;> exact trivial
      unfold react
      dsimp only
      split
      · exact hnext _
      · split <;> exact hnext _
  | finished => exact trivial

/-- **Who is answered with 200** has been cleared. -/
theorem cleared_react (config : RouterConfig) (s : EdgeGateway) (env : HandlerEnv)
    (hready : StageReady s.events stage) {h : Handler} {response : HandlerResponse}
    (hanswer : (h, response) ∈ answers (react config s stage env).1.1)
    (hstatus : response.status = 200) : Cleared s.events h := by
  have hother : ∀ {h' : Handler} {refusal : HandlerResponse}, refusal.status ≠ 200 →
      (h, response) ∉ [(h', refusal)] := by
    intro h' refusal hrefusal hmem
    cases List.mem_singleton.mp hmem
    exact hrefusal hstatus
  cases hasking : stage.asking with
  | none =>
      rw [(quiet_react config s env hasking).1] at hanswer
      cases hanswer
  | some h' =>
      have hsame : h = h' := by
        rcases (follows_react config s env hasking).answered with ⟨hnone, -⟩ | ⟨_, hone, -⟩
        · rw [hnone] at hanswer
          cases hanswer
        · rw [hone] at hanswer
          exact (Prod.mk.inj (List.mem_singleton.mp hanswer)).1
      subst hsame
      -- only these two stages may answer with 200, and both rely on the decision
      cases stage with
      | dispatch h' =>
          cases hasking
          exact hready
      | reading h' =>
          cases hasking
          exact hready
      | arrived h' =>
          unfold react at hanswer
          dsimp only at hanswer
          split at hanswer
          · cases hanswer
          · split at hanswer
            · cases hanswer
            · cases hanswer
            · exact absurd hanswer (hother (by decide))
            · exact absurd hanswer (hother (by decide))
      | rejected h' =>
          unfold react at hanswer
          dsimp only at hanswer
          split at hanswer
          · cases hanswer
          · exact absurd hanswer (hother (show (429 : Nat) ≠ 200 by decide))
      | admitting h' => cases hanswer
      | session h' observed => cases hanswer
      | stream h' bytesServed bytesRecorded nextSequence partCount => cases hasking
      | retain snapshot opens => cases hasking
      | finished => cases hasking

/-- The decisions are decisions, and the details are those of responses. -/
def Genuine (events : List EdgeEvent) : EdgeEvent → Prop
  | .admission entry => Decided entry
  | .retained snapshot => FromResponse events snapshot
  | _ => True

theorem Genuine.append {events : List EdgeEvent} {event : EdgeEvent} (hg : Genuine events event)
    (new : List EdgeEvent) : Genuine (events ++ new) event := by
  cases event with
  | admission entry => exact hg
  | retained snapshot => exact FromResponse.append hg new
  | _ => exact trivial

theorem genuine_react (config : RouterConfig) (s : EdgeGateway) (env : HandlerEnv)
    (hready : StageReady s.events stage) :
    ∀ event ∈ (react config s stage env).1.1, Genuine s.events event := by
  cases hasking : stage.asking with
  -- while it asks, its decisions are the admission's and it keeps no details
  | some h =>
      intro event hevent
      have hplain := (follows_react config s env hasking).plain event hevent
      cases event with
      | admission entry => exact hplain
      | retained snapshot => exact hplain.elim
      | _ => exact trivial
  | none =>
      rcases stage_of_not_asking hasking with
        ⟨h, bytesServed, bytesRecorded, nextSequence, partCount, rfl⟩ | ⟨snapshot, opens, rfl⟩ | rfl
      · unfold react
        dsimp only
        split
        · simp [Genuine]
        · unfold streamTurn
          split
          · simp
          · simp [Genuine]
          · dsimp only
            split <;> simp [Genuine]
      · have hnext : ∀ event ∈ (afterRecord opens).1, Genuine s.events event := by
          unfold afterRecord
          split <;> simp [Genuine]
        have hmore : ∀ event ∈ .retained snapshot :: (afterRecord opens).1,
            Genuine s.events event := by
          intro event hevent
          rcases List.mem_cons.mp hevent with rfl | hevent
          · exact hready
          · exact hnext event hevent
        unfold react
        dsimp only
        split
        · exact hmore
        · split
          · exact hmore
          · exact hnext
      · exact List.forall_mem_nil _

/-- The moments of the successes whose details are kept. -/
def successes (events : List EdgeEvent) : List Nat :=
  events.filterMap fun event =>
    match event with
    | .retained snapshot => if isError snapshot.status then none else some snapshot.unixMs
    | _ => none

/-- **A success that is kept** moves the mark on. -/
theorem successes_react (config : RouterConfig) (s : EdgeGateway) (stage : HandlerStage)
    (env : HandlerEnv) :
    (successes (react config s stage env).1.1 = [] ∧
      (react config s stage env).2.lastRecentSuccessUnixMs = s.lastRecentSuccessUnixMs) ∨
    ∃ t, successes (react config s stage env).1.1 = [t] ∧
      (react config s stage env).2.lastRecentSuccessUnixMs = t ∧
      (s.lastRecentSuccessUnixMs = 0 ∨
        s.lastRecentSuccessUnixMs + edgeRecentSuccessIntervalMs ≤ t) := by
  cases hasking : stage.asking with
  | some h =>
      refine .inl ⟨?_, ?_⟩
      · unfold successes
        rw [List.filterMap_eq_nil_iff]
        intro event hevent
        have hplain := (follows_react config s env hasking).plain event hevent
        cases event with
        | retained snapshot => exact hplain.elim
        | _ => rfl
      · obtain ⟨egress, last, hshared, hlast | ⟨snapshot, opens, rfl⟩⟩ :=
          react_shared config s stage env
        · rw [hshared]
          exact hlast
        · cases hasking
  | none =>
      rcases stage_of_not_asking hasking with
        ⟨h, bytesServed, bytesRecorded, nextSequence, partCount, rfl⟩ | ⟨snapshot, opens, rfl⟩ | rfl
      · left
        unfold react
        dsimp only
        split
        · exact ⟨rfl, rfl⟩
        · unfold streamTurn
          split
          · exact ⟨rfl, rfl⟩
          · exact ⟨rfl, rfl⟩
          · dsimp only
            split <;> exact ⟨rfl, rfl⟩
      · have hnext : successes (afterRecord opens).1 = [] := by
          unfold afterRecord
          split <;> rfl
        have hcons : successes (.retained snapshot :: (afterRecord opens).1)
            = (if isError snapshot.status then none else some snapshot.unixMs).toList := by
          unfold successes at hnext ⊢
          rw [List.filterMap_cons]
          dsimp only
          split
          next hnone => rw [hnext, hnone]; rfl
          next t hsome => rw [hnext, hsome]; rfl
        unfold react
        dsimp only
        split
        next herror =>
          refine .inl ⟨?_, rfl⟩
          -- an error is always kept, and does not move the mark
          rw [hcons, if_pos herror]
          rfl
        next hsuccess =>
          split
          next hlate =>
            refine .inr ⟨snapshot.unixMs, ?_, rfl, ?_⟩
            · rw [hcons, if_neg hsuccess]
              rfl
            · unfold edgeRecentSuccessIntervalMs at hlate ⊢
              omega
          next => exact .inl ⟨hnext, rfl⟩
      · exact .inl ⟨rfl, rfl⟩

/-! ## §4. Invariants of a run. -/

/-- What an operation adds to a counter. -/
def EdgeOp.adds (k : EdgeCounter) : EdgeOp → Nat
  | .count update => update.adds k
  | _ => 0

/-- Counters are only added to. -/
def LawfulOp : EdgeOp → Prop
  | .count update => update.IsAdd
  | _ => True

/-- The details an operation pushes. -/
def pushedBy : EdgeOp → Option EdgeResponseSnapshot
  | .pushRecent snapshot => some snapshot
  | _ => none

/-- To record a response is to add to counters; no details are pushed. -/
theorem lawful_recordResponse (request : EdgeRequest) (response : HandlerResponse)
    (clock : ResponseClock) :
    ∀ op ∈ recordResponse request response clock, LawfulOp op ∧ pushedBy op = none := by
  intro op hop
  unfold recordResponse at hop
  simp only [List.mem_append] at hop
  rcases hop with (((((hop | hop) | hop) | hop) | hop) | hop) | hop
  · split at hop
    · cases hop
    · rw [List.mem_singleton.mp hop]
      exact ⟨trivial, rfl⟩
  · simp only [List.mem_cons, List.not_mem_nil, or_false] at hop
    rcases hop with rfl | rfl | rfl <;> exact ⟨trivial, rfl⟩
  · obtain ⟨index, -, rfl⟩ := Option.map_eq_some_iff.mp (Option.mem_toList.mp hop)
    exact ⟨trivial, rfl⟩
  · rw [List.mem_singleton.mp hop]
    exact ⟨trivial, rfl⟩
  · split at hop
    · rw [List.mem_singleton.mp hop]
      exact ⟨trivial, rfl⟩
    · cases hop
  · split at hop
    · rw [List.mem_singleton.mp hop]
      exact ⟨trivial, rfl⟩
    · cases hop
  · rw [List.mem_singleton.mp hop]
    exact ⟨trivial, rfl⟩

theorem lawful_ops (event : EdgeEvent) : ∀ op ∈ event.ops, LawfulOp op := by
  cases event with
  | admission entry => exact List.forall_mem_nil _
  | streamRefused handler response => exact List.forall_mem_nil _
  | retained snapshot =>
      intro op hop
      rw [List.mem_singleton.mp hop]
      exact trivial
  | responded handler response clock =>
      show ∀ op ∈ ite _ _ _, LawfulOp op
      split
      · exact fun op hop => (lawful_recordResponse _ _ _ op hop).1
      · exact List.forall_mem_nil _
  | refused => simp [EdgeEvent.ops, LawfulOp]
  | readBegan => simp [EdgeEvent.ops, LawfulOp, Update.IsAdd]
  | readFinished remaining => simp [EdgeEvent.ops, LawfulOp, Update.IsAdd, fetchSubOne]
  | readDropped => simp [EdgeEvent.ops, LawfulOp, Update.IsAdd, fetchSubOne]
  | frame second bytes => simp [EdgeEvent.ops, LawfulOp, Update.IsAdd]

/-- **What every run keeps.** -/
structure Kept (s : EdgeGateway) : Prop where
  below : ∀ k, s.counters k < 2 ^ 64
  cleared : ∀ h response, (h, response) ∈ answers s.events → response.status = 200 →
    Cleared s.events h
  genuine : ∀ event ∈ s.events, Genuine s.events event
  few : s.recentResponses.length ≤ edgeRecentResponseLimit
  apart : (successes s.events).Pairwise fun a b => 0 < a → a + edgeRecentSuccessIntervalMs ≤ b
  latest : ∀ t ∈ successes s.events, t ≤ s.lastRecentSuccessUnixMs

theorem kept_new (admission : EdgeAdmissionConfig) : Kept (new admission) where
  below := fun _ => Nat.two_pow_pos 64
  cleared := fun _ _ h => absurd h List.not_mem_nil
  genuine := List.forall_mem_nil _
  few := Nat.zero_le _
  apart := List.Pairwise.nil
  latest := List.forall_mem_nil _

theorem Kept.apply (h : Kept s) {op : EdgeOp} (hop : LawfulOp op) : Kept (s.apply op) := by
  obtain ⟨hbelow, hcleared, hgenuine, hfew, hapart, hlatest⟩ := h
  cases op with
  | count update =>
      exact ⟨fun k => Update.apply_lt (hbelow k) update, hcleared, hgenuine, hfew, hapart, hlatest⟩
  | pushRecent snapshot =>
      exact ⟨hbelow, hcleared, hgenuine, List.length_take_le _ _, hapart, hlatest⟩
  | recordBytes second bytes => exact ⟨hbelow, hcleared, hgenuine, hfew, hapart, hlatest⟩
  | recordRejection => exact ⟨hbelow, hcleared, hgenuine, hfew, hapart, hlatest⟩
  | maxDuration us => exact ⟨hbelow, hcleared, hgenuine, hfew, hapart, hlatest⟩
  | storeLastResponse unixMs => exact ⟨hbelow, hcleared, hgenuine, hfew, hapart, hlatest⟩

theorem Kept.react (h : Kept s) (config : RouterConfig) (env : HandlerEnv)
    (hready : StageReady s.events stage) :
    Kept ((program config).advance s stage env).2.2 := by
  obtain ⟨hcounters, hrecents, -, hevents⟩ := react_frame config s stage env
  show Kept { (EdgeGateway.react config s stage env).2 with
    events := (EdgeGateway.react config s stage env).2.events
      ++ (EdgeGateway.react config s stage env).1.1 }
  constructor
  case below =>
    intro k
    dsimp only
    rw [hcounters]
    exact h.below k
  case cleared =>
    intro handler response hanswer hstatus
    dsimp only at hanswer ⊢
    rw [hevents] at hanswer ⊢
    unfold answers at hanswer
    rw [List.filterMap_append] at hanswer
    rcases List.mem_append.mp hanswer with hold | hnew
    · exact (h.cleared handler response hold hstatus).append _
    · exact (cleared_react config s env hready hnew hstatus).append _
  case genuine =>
    intro event hevent
    dsimp only at hevent ⊢
    rw [hevents] at hevent ⊢
    rcases List.mem_append.mp hevent with hold | hnew
    · exact (h.genuine event hold).append _
    · exact (genuine_react config s env hready event hnew).append _
  case few =>
    dsimp only
    rw [hrecents]
    exact h.few
  case apart =>
    dsimp only
    rw [hevents]
    unfold successes
    rw [List.filterMap_append]
    rcases successes_react config s stage env with ⟨hnone, -⟩ | ⟨t, hone, -, hlate⟩
    · unfold successes at hnone
      rw [hnone, List.append_nil]
      exact h.apart
    · unfold successes at hone
      rw [hone]
      refine List.pairwise_append.mpr ⟨h.apart, List.pairwise_singleton _ _, ?_⟩
      intro a ha b hb hpos
      rw [List.mem_singleton.mp hb]
      have hle := h.latest a ha
      rcases hlate with hzero | hlate
      · omega
      · omega
  case latest =>
    dsimp only
    rw [hevents]
    unfold successes
    intro u hu
    rw [List.filterMap_append] at hu
    rcases successes_react config s stage env with ⟨hnone, hsame⟩ | ⟨t, hone, hnew, hlate⟩
    · unfold successes at hnone
      rw [hnone, List.append_nil] at hu
      rw [hsame]
      exact h.latest u hu
    · unfold successes at hone
      rw [hone] at hu
      rw [hnew]
      rcases List.mem_append.mp hu with hold | hlast
      · have hle := h.latest u hold
        rcases hlate with hzero | hlate
        · omega
        · omega
      · exact Nat.le_of_eq (List.mem_singleton.mp hlast)

/-- The history grows. -/
def Grows (s s' : EdgeGateway) : Prop := s.events <+: s'.events

theorem sound (config : RouterConfig) :
    TaskProgram.Sound (program config) Kept (fun s stage => StageReady s.events stage) LawfulOp
      Grows where
  stable := by
    intro s s' stage hgrows hready
    obtain ⟨new, hnew⟩ := hgrows
    rw [← hnew]
    exact hready.append new
  enter := by
    intro s request h
    exact ⟨⟨h.below, h.cleared, h.genuine, h.few, h.apart, h.latest⟩,
      List.prefix_rfl, trivial⟩
  apply := by
    intro s op h hop
    refine ⟨h.apply hop, ?_⟩
    cases op <;> exact List.prefix_rfl
  advance := by
    intro s stage env h hready
    obtain ⟨-, -, -, hevents⟩ := react_frame config s stage env
    have hlog : ((program config).advance s stage env).2.2.events
        = s.events ++ (EdgeGateway.react config s stage env).1.1 :=
      congrArg (· ++ (EdgeGateway.react config s stage env).1.1) hevents
    refine ⟨h.react config env hready, ?_, ?_, ?_⟩
    · show s.events <+: ((program config).advance s stage env).2.2.events
      rw [hlog]
      exact List.prefix_append _ _
    · rw [hlog]
      exact ready_react config s env hready
    · intro op hop
      obtain ⟨event, -, hin⟩ := List.mem_flatMap.mp hop
      exact lawful_ops event op hin

theorem holds_after (config : RouterConfig) (admission : EdgeAdmissionConfig)
    (ops : List (TaskOp EdgeRequest HandlerEnv)) :
    TaskProgram.Holds Kept (fun s stage => StageReady s.events stage) LawfulOp
      (after config admission ops) :=
  (sound config).exec ops ⟨kept_new admission, List.forall_mem_nil _, List.forall_mem_nil _⟩

/-! ## §5. Admission. -/

/-- What the front serves of the live URLs is behind the admission, but for failover playlists and
media units. -/
theorem gated_of_routeLive {request : EdgeRequest} {target : LiveTarget}
    (h : routeLive request.path = some target) :
    (∃ mediaPath, target = .failover mediaPath) ∨
    (∃ streamId sequence, target = .mediaUnit streamId sequence) ∨ request.gated = true := by
  obtain ⟨t, -, hrun⟩ := List.exists_of_findSome?_eq_some h
  by_cases hfailover : t = .failover
  · subst hfailover
    obtain ⟨mediaPath, -, rfl⟩ := Option.map_eq_some_iff.mp hrun
    exact .inl ⟨mediaPath, rfl⟩
  · by_cases hunit : t = .mediaUnit
    · subst hunit
      obtain ⟨found, -, rfl⟩ := Option.map_eq_some_iff.mp hrun
      exact .inr (.inl ⟨found.1, found.2, rfl⟩)
    · refine .inr (.inr ?_)
      have hlive : (stripPrefix "/live/".toList request.path).isSome = true := by
        have htest := testFor_of_run hrun
        unfold testFor at htest
        split at htest
        · exact absurd (Option.some.inj htest).symm hunit
        next rest hrest =>
          rw [hrest]
          rfl
      have hnone : hlsFailoverMediaPath request.path = none := by
        cases hmedia : hlsFailoverMediaPath request.path with
        | none => rfl
        | some mediaPath =>
            -- two tests do not accept one path
            have hother : LiveTest.failover.run request.path = some (.failover mediaPath) :=
              Option.map_eq_some_iff.mpr ⟨mediaPath, hmedia, rfl⟩
            exact absurd (run_unique (by rw [hrun]; rfl) (by rw [hother]; rfl)) hfailover
      unfold EdgeRequest.gated isPlaybackMediaPath
      rw [hlive, hnone, Bool.or_true]
      rfl

/-- The session was known, and not idle for too long. -/
def Remembered (entry : AdmissionRecord) : Prop :=
  ∃ sessionId, entry.handler.request.sessionId = some sessionId ∧
    sessionId ∈ pruneSessions entry.before.sessions entry.elapsedMs
      entry.before.config.sessionIdleSeconds.toNat

/-- **Who is not rejected** came when the edge was not overloaded, or was known. -/
theorem admitted_of_decided {entry : AdmissionRecord} (h : Decided entry)
    (hadmission : entry.admission ≠ .rejected) :
    entry.observed.overloaded = false ∨ Remembered entry := by
  obtain ⟨favoured, hdecided⟩ := h
  rw [hdecided] at hadmission
  cases hover : entry.observed.overloaded with
  | false => exact .inl rfl
  | true =>
      right
      unfold EdgeAdmission.admitPlaybackAt at hadmission
      rw [hover] at hadmission
      cases hsession : entry.handler.request.sessionId with
      | none =>
          rw [hsession] at hadmission
          exact absurd rfl hadmission
      | some sessionId =>
          rw [hsession] at hadmission
          dsimp only at hadmission
          cases hlookup : (pruneSessions entry.before.sessions entry.elapsedMs
              entry.before.config.sessionIdleSeconds.toNat).lookup sessionId with
          | none =>
              rw [hlookup] at hadmission
              exact absurd rfl hadmission
          | some lastSeen =>
              refine ⟨sessionId, hsession, ?_⟩
              rw [← AList.lookup_isSome, hlookup]
              rfl

/-- How often a request has been answered. -/
def answered (i : Nat) (s : EdgeGateway) : Nat := ((answers s.events).map fun a => a.1.id).count i

/-- It has come in, and it has not been answered yet. -/
def arrived (i : Nat) (s : EdgeGateway) : Nat := if i < s.arrivals then 1 else 0

def asks (i : Nat) (t : Task HandlerStage EdgeOp) : Nat :=
  if t.stage.asking.map Handler.id = some i then 1 else 0

theorem answers_keeps (config : RouterConfig) (i : Nat) :
    TaskProgram.Keeps (program config) (· ≤ ·) Kept (fun s stage => StageReady s.events stage)
      LawfulOp (answered i) (arrived i) (asks i) where
  enter := by
    -- the new request has the next number: it arrives and asks at once
    intro s request _
    show answered i s + (if some s.arrivals = some i then 1 else 0) + (if i < s.arrivals then 1 else 0)
      ≤ answered i s + (if i < s.arrivals + 1 then 1 else 0)
    split
    next hsame =>
      rw [Option.some.inj hsame, if_neg (Nat.lt_irrefl i), if_pos (Nat.lt_succ_self i)]
    next hother =>
      split
      next hlt => rw [if_pos (Nat.lt_succ_of_lt hlt)]
      next => omega
  apply := by
    intro s op pending stage _ _
    show answered i (s.apply op) + asks i ⟨pending, stage⟩ + arrived i s
      ≤ answered i s + asks i ⟨op :: pending, stage⟩ + arrived i (s.apply op)
    cases op <;> exact Nat.le_refl _
  advance := by
    intro s stage env _ _
    obtain ⟨-, -, harrivals, hevents⟩ := react_frame config s stage env
    have hanswered : answered i ((program config).advance s stage env).2.2
        = answered i s
          + ((answers (react config s stage env).1.1).map fun a => a.1.id).count i := by
      show ((answers ((react config s stage env).2.events
        ++ (react config s stage env).1.1)).map _).count i = _
      rw [hevents]
      unfold answered answers
      rw [List.filterMap_append, List.map_append, List.count_append]
    have harrived : arrived i ((program config).advance s stage env).2.2 = arrived i s := by
      show (if i < (react config s stage env).2.arrivals then 1 else 0) = _
      rw [harrivals]
      rfl
    rw [hanswered, harrived]
    have hasks : ((answers (react config s stage env).1.1).map fun a => a.1.id).count i
        + asks i ⟨((program config).advance s stage env).1, (react config s stage env).1.2⟩
        ≤ asks i ⟨[], stage⟩ := by
      unfold asks
      dsimp only
      cases hasking : stage.asking with
      | none =>
          obtain ⟨hnone, hnext, -⟩ := quiet_react config s env hasking
          rw [hnone, hnext]
          exact Nat.le_refl _
      | some h =>
          rcases (follows_react config s env hasking).answered with ⟨hnone, hnext⟩ |
            ⟨response, hone, hnext⟩
          · rw [hnone]
            rcases hnext with hnext | hnext
            · rw [hnext]
              simp
            · rw [hnext]
              simp
          · rw [hone, hnext]
            by_cases hid : h.id = i
            · simp [hid]
            · simp [hid]
    show answered i s + _ + asks i ⟨((program config).advance s stage env).1,
      (react config s stage env).1.2⟩ + arrived i s ≤ _
    omega

/-- **NO MEDIA WITHOUT ADMISSION.**  In every run, whatever the handlers' operations are
interleaved with and whichever handlers are dropped: a live URL is answered with 200 only if it is
a failover playlist or a media unit, or the admission had let the request pass, when the edge was
not overloaded or knew the session; and no request is answered twice. -/
theorem gateway_gated (config : RouterConfig) (admission : EdgeAdmissionConfig)
    (ops : List (TaskOp EdgeRequest HandlerEnv)) :
    let s := (after config admission ops).shared
    (∀ h response target, (h, response) ∈ answers s.events → response.status = 200 →
      routeLive h.request.path = some target →
      (∃ mediaPath, target = .failover mediaPath) ∨
      (∃ streamId sequence, target = .mediaUnit streamId sequence) ∨
      ∃ entry, EdgeEvent.admission entry ∈ s.events ∧ entry.handler = h ∧
        entry.admission ≠ .rejected ∧
        (entry.observed.overloaded = false ∨ Remembered entry)) ∧
    ((answers s.events).map fun a => a.1.id).Nodup := by
  intro s
  have hholds := holds_after config admission ops
  constructor
  · intro h response target hanswer hstatus htarget
    rcases gated_of_routeLive htarget with hfailover | hunit | hgated
    · exact .inl hfailover
    · exact .inr (.inl hunit)
    · obtain ⟨entry, hentry, hhandler, hadmission⟩ :=
        hholds.shared.cleared h response hanswer hstatus hgated
      have hdecided : Decided entry := hholds.shared.genuine _ hentry
      exact .inr (.inr ⟨entry, hentry, hhandler, hadmission,
        admitted_of_decided hdecided hadmission⟩)
  · rw [List.nodup_iff_count_le_one]
    intro i
    have hbound := TaskProgram.exec_bound (answers_keeps config i) (holds_after config admission)
      (Nat.zero_le _) ops
    have harrived : arrived i (after config admission ops).shared ≤ 1 := by
      unfold arrived
      split <;> omega
    show answered i (after config admission ops).shared ≤ 1
    exact Nat.le_trans (Nat.le_trans (Nat.le_add_right _ _) hbound) harrived

/-! ## §6. The counters. -/

/-- What the operations of some events add to a counter. -/
def booked (k : EdgeCounter) (events : List EdgeEvent) : Nat :=
  (events.map fun event => (event.ops.map (EdgeOp.adds k)).sum).sum

theorem sum_flatMap_ops (k : EdgeCounter) (events : List EdgeEvent) :
    ((events.flatMap EdgeEvent.ops).map (EdgeOp.adds k)).sum = booked k events := by
  unfold booked
  induction events with
  | nil => rfl
  | cons event events ih =>
      rw [List.flatMap_cons, List.map_append, List.sum_append, ih, List.map_cons, List.sum_cons]

theorem booked_append (k : EdgeCounter) (events new : List EdgeEvent) :
    booked k (events ++ new) = booked k events + booked k new := by
  unfold booked
  rw [List.map_append, List.sum_append]

/-- What a handler has still to add to a counter. -/
def leftOver (k : EdgeCounter) (t : Task HandlerStage EdgeOp) : Wrapping :=
  ((t.pending.map (EdgeOp.adds k)).sum : Nat)

theorem books_keep (config : RouterConfig) (k : EdgeCounter) :
    TaskProgram.Keeps (program config) (· = ·) Kept (fun s stage => StageReady s.events stage)
      LawfulOp (fun s => ((s.counters k : Nat) : Wrapping)) (fun s => (booked k s.events : Nat))
      (leftOver k) where
  enter := by
    intro s request _
    show ((s.counters k : Nat) : Wrapping) + ((0 : Nat) : Wrapping) + (booked k s.events : Nat)
      = (s.counters k : Nat) + (booked k s.events : Nat)
    rw [Nat.cast_zero, add_zero]
  apply := by
    intro s op pending stage _ hop
    have hevents : (s.apply op).events = s.events := by cases op <;> rfl
    have hcount : (((s.apply op).counters k : Nat) : Wrapping)
        = (s.counters k : Nat) + (EdgeOp.adds k op : Nat) := by
      cases op with
      | count update => exact Update.apply_wrapping s.counters hop k
      | recordBytes second bytes => exact (add_zero _).symm.trans (by rw [← Nat.cast_zero]; rfl)
      | recordRejection => exact (add_zero _).symm.trans (by rw [← Nat.cast_zero]; rfl)
      | maxDuration us => exact (add_zero _).symm.trans (by rw [← Nat.cast_zero]; rfl)
      | storeLastResponse unixMs => exact (add_zero _).symm.trans (by rw [← Nat.cast_zero]; rfl)
      | pushRecent snapshot => exact (add_zero _).symm.trans (by rw [← Nat.cast_zero]; rfl)
    show (((s.apply op).counters k : Nat) : Wrapping) + leftOver k ⟨pending, stage⟩
        + (booked k s.events : Nat)
      = (s.counters k : Nat) + leftOver k ⟨op :: pending, stage⟩ + (booked k (s.apply op).events : Nat)
    rw [hevents, hcount]
    unfold leftOver
    rw [List.map_cons, List.sum_cons, Nat.cast_add]
    ring
  advance := by
    intro s stage env _ _
    obtain ⟨hcounters, -, -, hevents⟩ := react_frame config s stage env
    have hbooked : booked k ((program config).advance s stage env).2.2.events
        = booked k s.events + booked k (react config s stage env).1.1 := by
      show booked k ((react config s stage env).2.events ++ (react config s stage env).1.1) = _
      rw [hevents, booked_append]
    have hpending : leftOver k ⟨((program config).advance s stage env).1,
        ((program config).advance s stage env).2.1⟩
          = (booked k (react config s stage env).1.1 : Nat) :=
      congrArg (Nat.cast : Nat → Wrapping) (sum_flatMap_ops k _)
    have hsame : ((program config).advance s stage env).2.2.counters k = s.counters k :=
      congrFun hcounters k
    rw [hbooked, hpending, hsame, Nat.cast_add]
    show _ = (s.counters k : Wrapping) + ((0 : Nat) : Wrapping) + _
    rw [Nat.cast_zero]
    ring

theorem guards_keep (config : RouterConfig) :
    TaskProgram.Keeps (program config) (· = ·) Kept (fun s stage => StageReady s.events stage)
      LawfulOp (fun s => ended s.events) (fun s => begun s.events)
      (fun t => if t.stage.holdsGuard then 1 else 0) where
  enter := by
    intro s request _
    rfl
  apply := by
    intro s op pending stage _ _
    cases op <;> rfl
  advance := by
    intro s stage env _ _
    obtain ⟨-, -, -, hevents⟩ := react_frame config s stage env
    have hguards := guards_react config s stage env
    show ended ((react config s stage env).2.events ++ (react config s stage env).1.1)
        + (if (react config s stage env).1.2.holdsGuard then 1 else 0) + begun s.events
      = ended s.events + (if stage.holdsGuard then 1 else 0)
        + begun ((react config s stage env).2.events ++ (react config s stage env).1.1)
    rw [hevents]
    unfold ended begun at hguards ⊢
    rw [List.map_append, List.map_append, List.sum_append, List.sum_append]
    omega

/-- A response that is recorded. -/
structure Recorded where
  request : EdgeRequest
  response : HandlerResponse
  clock : ResponseClock

def Recorded.us (r : Recorded) : Nat := min r.clock.durationUs u64Max

def recordedBy : EdgeEvent → Option Recorded
  | .responded h response clock =>
      if isPlaybackMediaPath h.request.path then some ⟨h.request, response, clock⟩ else none
  | _ => none

/-- The bytes an event serves. -/
def bytesServedBy : EdgeEvent → Nat
  | .readFinished remaining => remaining
  | .frame _ bytes => bytes
  | _ => 0

/-- What a recorded response adds to a counter. -/
def Recorded.adds (r : Recorded) : EdgeCounter → Nat
  | .responsesTotal => 1
  | .durationCount => 1
  | .durationSumUs => r.us
  | .responseErrors => if isError r.response.status then 1 else 0
  | .responseNotFound => if r.response.status = 404 then 1 else 0
  | .durationBucket index => if cell bound r.us = some index then 1 else 0
  | _ => 0

theorem adds_recordResponse (r : Recorded) (k : EdgeCounter) :
    ((recordResponse r.request r.response r.clock).map (EdgeOp.adds k)).sum = r.adds k := by
  unfold recordResponse
  dsimp only
  have hbytes : ((if r.request.method = .head then []
      else [EdgeOp.recordBytes r.clock.second (responseBytes r.response)]).map
        (EdgeOp.adds k)).sum = 0 := by
    split <;> rfl
  have herror : ((if isError r.response.status then [EdgeOp.count (.add .responseErrors 1)]
      else []).map (EdgeOp.adds k)).sum
        = if isError r.response.status ∧ k = .responseErrors then 1 else 0 := by
    by_cases h : isError r.response.status = true
    · by_cases hk : k = .responseErrors
      · simp [EdgeOp.adds, Update.adds, h, hk]
      · simp [EdgeOp.adds, Update.adds, h, hk, Ne.symm hk]
    · simp [h]
  have hmissing : ((if r.response.status = 404 then [EdgeOp.count (.add .responseNotFound 1)]
      else []).map (EdgeOp.adds k)).sum
        = if r.response.status = 404 ∧ k = .responseNotFound then 1 else 0 := by
    by_cases h : r.response.status = 404
    · by_cases hk : k = .responseNotFound
      · simp [EdgeOp.adds, Update.adds, h, hk]
      · simp [EdgeOp.adds, Update.adds, h, hk, Ne.symm hk]
    · simp [h]
  have hbucket : ((((cell bound r.us).map fun index =>
      EdgeOp.count (.add (.durationBucket index) 1)).toList).map (EdgeOp.adds k)).sum
        = if (cell bound r.us).map EdgeCounter.durationBucket = some k then 1 else 0 := by
    cases cell bound r.us with
    | none => rfl
    | some index =>
        by_cases hk : .durationBucket index = k
        · simp [EdgeOp.adds, Update.adds, hk]
        · simp [EdgeOp.adds, Update.adds, hk]
  unfold Recorded.us at hbucket
  rw [List.map_append, List.map_append, List.map_append, List.map_append, List.map_append,
    List.map_append, List.sum_append, List.sum_append, List.sum_append, List.sum_append,
    List.sum_append, List.sum_append, hbytes, herror, hmissing, hbucket]
  cases k with
  | durationBucket index =>
      simp [EdgeOp.adds, Update.adds, Recorded.adds, Recorded.us, Option.map_eq_some_iff]
      congr
  | _ => simp [EdgeOp.adds, Update.adds, Recorded.adds, Recorded.us]

/-- What an event adds to a counter. -/
theorem adds_event (event : EdgeEvent) (k : EdgeCounter) :
    (event.ops.map (EdgeOp.adds k)).sum
      = ((recordedBy event).map fun r => r.adds k).getD 0
        + (if k = .requestsServed ∨ k = .llhlsTailRequests then event.begins else 0)
        + (if k = .activeReaders then event.begins + (2 ^ 64 - 1) * event.ends else 0)
        + (if k = .bytesServed then bytesServedBy event else 0) := by
  cases event with
  | responded h response clock =>
      have hquiet : EdgeEvent.begins (.responded h response clock) = 0 ∧
          EdgeEvent.ends (.responded h response clock) = 0 ∧
          bytesServedBy (.responded h response clock) = 0 := ⟨rfl, rfl, rfl⟩
      obtain ⟨hbegins, hends, hserved⟩ := hquiet
      rw [hbegins, hends, hserved]
      have hrecord := adds_recordResponse ⟨h.request, response, clock⟩ k
      unfold EdgeEvent.ops recordedBy
      by_cases hlive : isPlaybackMediaPath h.request.path = true
      · simp [hlive, hrecord]
      · simp [hlive]
  | readBegan =>
      cases k <;> simp [EdgeEvent.ops, EdgeOp.adds, Update.adds, recordedBy, EdgeEvent.begins,
        EdgeEvent.ends, bytesServedBy]
  | readFinished remaining =>
      cases k <;> simp [EdgeEvent.ops, EdgeOp.adds, Update.adds, recordedBy, EdgeEvent.begins,
        EdgeEvent.ends, bytesServedBy, fetchSubOne]
  | readDropped =>
      cases k <;> simp [EdgeEvent.ops, EdgeOp.adds, Update.adds, recordedBy, EdgeEvent.begins,
        EdgeEvent.ends, bytesServedBy, fetchSubOne]
  | frame second bytes =>
      cases k <;> simp [EdgeEvent.ops, EdgeOp.adds, Update.adds, recordedBy, EdgeEvent.begins,
        EdgeEvent.ends, bytesServedBy]
  | admission entry =>
      simp [EdgeEvent.ops, recordedBy, EdgeEvent.begins, EdgeEvent.ends, bytesServedBy]
  | refused =>
      simp [EdgeEvent.ops, EdgeOp.adds, recordedBy, EdgeEvent.begins, EdgeEvent.ends, bytesServedBy]
  | streamRefused h response =>
      simp [EdgeEvent.ops, recordedBy, EdgeEvent.begins, EdgeEvent.ends, bytesServedBy]
  | retained snapshot =>
      simp [EdgeEvent.ops, EdgeOp.adds, recordedBy, EdgeEvent.begins, EdgeEvent.ends, bytesServedBy]

/-- The bytes that some events serve. -/
def served (events : List EdgeEvent) : Nat := (events.map bytesServedBy).sum

/-- The responses of some events that are recorded. -/
def recorded (events : List EdgeEvent) : List Recorded := events.filterMap recordedBy

theorem booked_eq (k : EdgeCounter) (events : List EdgeEvent) :
    booked k events = ((recorded events).map fun r => r.adds k).sum
      + (if k = .requestsServed ∨ k = .llhlsTailRequests then begun events else 0)
      + (if k = .activeReaders then begun events + (2 ^ 64 - 1) * ended events else 0)
      + (if k = .bytesServed then served events else 0) := by
  unfold booked recorded begun ended served
  induction events with
  | nil => simp
  | cons event events ih =>
      have hrecorded : (((event :: events).filterMap recordedBy).map fun r => r.adds k).sum
          = ((recordedBy event).map fun r => r.adds k).getD 0
            + ((events.filterMap recordedBy).map fun r => r.adds k).sum := by
        cases hevent : recordedBy event with
        | none => simp [hevent]
        | some r => simp [hevent]
      rw [List.map_cons, List.sum_cons, ih, adds_event, hrecorded]
      simp only [List.map_cons, List.sum_cons]
      split_ifs <;> omega

/-- The counters of the responses. -/
theorem booked_response {k : EdgeCounter} (hread : ¬(k = .requestsServed ∨ k = .llhlsTailRequests))
    (hactive : k ≠ .activeReaders) (hbytes : k ≠ .bytesServed) (events : List EdgeEvent) :
    booked k events = ((recorded events).map fun r => r.adds k).sum := by
  rw [booked_eq, if_neg hread, if_neg hactive, if_neg hbytes]
  rfl

/-- The counters of the guards. -/
theorem booked_read {k : EdgeCounter} (hread : k = .requestsServed ∨ k = .llhlsTailRequests)
    (events : List EdgeEvent) : booked k events = begun events := by
  have hnothing : ((recorded events).map fun r => r.adds k).sum = 0 := by
    rcases hread with rfl | rfl <;> simp [Recorded.adds]
  rw [booked_eq, hnothing, if_pos hread]
  rcases hread with rfl | rfl <;> simp

theorem sum_indicator {α : Type*} (p : α → Bool) (l : List α) :
    (l.map fun a => if p a then 1 else 0).sum = l.countP p := by
  induction l with
  | nil => rfl
  | cons a l ih =>
      rw [List.map_cons, List.sum_cons, ih, List.countP_cons]
      omega

/-- How many handlers hold a guard. -/
def guards (tasks : List (Task HandlerStage EdgeOp)) : Nat :=
  tasks.countP fun t => t.stage.holdsGuard

/-- No handler has an operation left. -/
def Resting (s : Tasks EdgeGateway HandlerStage EdgeOp) : Prop := ∀ t ∈ s.tasks, t.pending = []

theorem ended_add_guards (config : RouterConfig) (admission : EdgeAdmissionConfig)
    (ops : List (TaskOp EdgeRequest HandlerEnv)) :
    let s := after config admission ops
    ended s.shared.events + guards s.tasks = begun s.shared.events := by
  intro s
  have hbalance := TaskProgram.exec_balance (guards_keep config) (holds_after config admission)
    rfl ops
  have htotal : TaskProgram.total (fun t => if t.stage.holdsGuard then 1 else 0) s.tasks
      = guards s.tasks := sum_indicator _ s.tasks
  rw [← htotal]
  exact hbalance

/-- **A counter** holds what the events of the run have added to it. -/
theorem counter_eq_booked (config : RouterConfig) (admission : EdgeAdmissionConfig)
    (ops : List (TaskOp EdgeRequest HandlerEnv)) (hresting : Resting (after config admission ops))
    (k : EdgeCounter) :
    (after config admission ops).shared.counters k
      = booked k (after config admission ops).shared.events % 2 ^ 64 := by
  have hbalance := TaskProgram.exec_balance (books_keep config k) (holds_after config admission)
    (by
      show ((0 : Nat) : Wrapping) + 0 = ((0 : Nat) : Wrapping)
      rw [add_zero]) ops
  -- nothing is left over, so what is booked has been done
  have hnothing : TaskProgram.total (leftOver k) (after config admission ops).tasks = 0 := by
    refine List.sum_eq_zero fun w hw => ?_
    obtain ⟨t, ht, rfl⟩ := List.mem_map.mp hw
    unfold leftOver
    rw [hresting t ht]
    exact Nat.cast_zero
  rw [hnothing, add_zero] at hbalance
  exact eq_mod_of_wrapping ((holds_after config admission ops).shared.below k) hbalance

/-- **THE COUNTERS OF AN EDGE.**  When no handler is inside an operation, whatever they were
interleaved with and whichever handlers were dropped: `active_readers` is the number of guards held,
each guard was one request served, and the response counters and the histogram are those of the
responses recorded. -/
theorem gateway_accounting (config : RouterConfig) (admission : EdgeAdmissionConfig)
    (ops : List (TaskOp EdgeRequest HandlerEnv)) :
    let s := after config admission ops
    let responses := recorded s.shared.events
    Resting s →
      s.shared.counters .activeReaders = guards s.tasks % 2 ^ 64 ∧
      s.shared.counters .requestsServed = begun s.shared.events % 2 ^ 64 ∧
      s.shared.counters .llhlsTailRequests = begun s.shared.events % 2 ^ 64 ∧
      s.shared.counters .bytesServed = served s.shared.events % 2 ^ 64 ∧
      s.shared.counters .responsesTotal = responses.length % 2 ^ 64 ∧
      s.shared.counters .durationCount = responses.length % 2 ^ 64 ∧
      s.shared.counters .durationSumUs = (responses.map Recorded.us).sum % 2 ^ 64 ∧
      s.shared.counters .responseErrors
        = (responses.countP fun r => isError r.response.status) % 2 ^ 64 ∧
      s.shared.counters .responseNotFound
        = (responses.countP fun r => r.response.status = 404) % 2 ^ 64 ∧
      ∀ index, s.shared.counters (.durationBucket index)
        = inBucket (responses.map Recorded.us) index % 2 ^ 64 := by
  intro s responses hresting
  have hcounter : ∀ k, s.shared.counters k = booked k s.shared.events % 2 ^ 64 :=
    counter_eq_booked config admission ops hresting
  have hguards : ended s.shared.events + guards s.tasks = begun s.shared.events :=
    ended_add_guards config admission ops
  have hone : (responses.map fun _ => 1).sum = responses.length := by simp
  refine ⟨?_, ?_, ?_, ?_, ?_, ?_, ?_, ?_, ?_, fun index => ?_⟩
  · -- a guard that has ended has added 1 and 2^64 - 1
    have hbooked : booked .activeReaders s.shared.events
        = guards s.tasks + 2 ^ 64 * ended s.shared.events := by
      rw [booked_eq, if_neg (by decide), if_pos rfl, if_neg (by decide), ← hguards]
      simp only [Recorded.adds, List.map_const', List.sum_replicate, smul_zero]
      omega
    rw [hcounter, hbooked, Nat.add_mul_mod_self_left]
  · rw [hcounter, booked_read (.inl rfl)]
  · rw [hcounter, booked_read (.inr rfl)]
  · rw [hcounter, booked_eq, if_neg (by decide), if_neg (by decide), if_pos rfl]
    simp [Recorded.adds]
  · rw [hcounter, booked_response (by decide) (by decide) (by decide)]
    exact congrArg (· % 2 ^ 64) hone
  · rw [hcounter, booked_response (by decide) (by decide) (by decide)]
    exact congrArg (· % 2 ^ 64) hone
  · rw [hcounter, booked_response (by decide) (by decide) (by decide)]
    rfl
  · rw [hcounter, booked_response (by decide) (by decide) (by decide)]
    exact congrArg (· % 2 ^ 64) (sum_indicator (fun r : Recorded => isError r.response.status) _)
  · rw [hcounter, booked_response (by decide) (by decide) (by decide), ← sum_indicator]
    simp [Recorded.adds, responses]
  · rw [hcounter, booked_response (by simp) (by simp) (by simp)]
    unfold inBucket
    rw [List.countP_map, ← sum_indicator]
    simp [Recorded.adds, responses]

/-- The cache has three bytes. -/
def sampleEnv : HandlerEnv where
  dropped := false
  clock := ⟨1000, 1, 700⟩
  elapsedMs := 1000
  favoured := ""
  observes := false
  body := some [1, 2, 3]
  contentType := "video/mp4"
  renditions := false
  otherwise := emptyResponse 404
  frame := .pending

def sampleTail : EdgeRequest := ⟨.get, "/live/7/tail".toList, none, ⟨[], none⟩⟩

/-- Two readers take their guards in turns; one of them gets its parts. -/
def sampleReads : List (TaskOp EdgeRequest HandlerEnv) :=
  [.enter sampleTail, .enter sampleTail]
    ++ (List.replicate 7 [.run 0 sampleEnv, .run 1 sampleEnv]).flatten
    ++ List.replicate 10 (.run 0 sampleEnv)

theorem gateway_accounting_sample :
    let s := after ⟨128, 4, 16⟩ {} sampleReads
    s.shared.counters .activeReaders = guards s.tasks % 2 ^ 64 ∧ guards s.tasks = 1 ∧
      (recorded s.shared.events).length = 1 :=
  ⟨(gateway_accounting ⟨128, 4, 16⟩ {} sampleReads (by unfold Resting; decide +kernel)).1,
    by decide +kernel, by decide +kernel⟩

/-! ## §7. The details of recent responses. -/

/-- No part of a split text has the separator. -/
theorem not_mem_of_mem_splitOn (separator : Char) (text : List Char) :
    ∀ part ∈ text.splitOn separator, separator ∉ part := by
  rw [List.splitOn_eq_splitOnP]
  induction text with
  | nil => simp
  | cons c text ih =>
      intro part hpart
      rw [List.splitOnP_cons_eq_if_modifyHead] at hpart
      by_cases hc : (c == separator) = true
      · rw [if_pos hc] at hpart
        rcases List.mem_cons.mp hpart with rfl | hpart
        · exact List.not_mem_nil
        · exact ih part hpart
      · rw [if_neg hc] at hpart
        have hne : separator ≠ c := fun h => hc (beq_iff_eq.mpr h.symm)
        cases hparts : text.splitOnP (· == separator) with
        | nil => exact absurd hparts (List.splitOnP_ne_nil _ _)
        | cons head tail =>
            rw [hparts] at hpart ih
            rcases List.mem_cons.mp hpart with rfl | hpart
            · exact fun h => (List.mem_cons.mp h).elim hne (ih head List.mem_cons_self)
            · exact ih part (List.mem_cons_of_mem _ hpart)

/-- The key of a parameter. -/
def keyOf (part : List Char) : List Char := ((splitOnce '=' part).getD (part, [])).1

theorem redactedPart_of_cmcd {part : List Char} (h : (keyOf part).map Char.toLower = "cmcd".toList) :
    redactedPart part = "CMCD=[redacted]".toList := if_pos h

theorem redactedPart_of_not_cmcd {part : List Char}
    (h : (keyOf part).map Char.toLower ≠ "cmcd".toList) : redactedPart part = part := if_neg h

/-- The parameters of a sanitized query are those of the query, redacted. -/
theorem splitOn_sanitized (query : List Char) :
    (['&'].intercalate ((query.splitOn '&').map redactedPart)).splitOn '&'
      = (query.splitOn '&').map redactedPart := by
  refine List.splitOn_intercalate '&' ?_ (by simp)
  intro redacted hredacted
  obtain ⟨part, hpart, rfl⟩ := List.mem_map.mp hredacted
  by_cases hcmcd : (keyOf part).map Char.toLower = "cmcd".toList
  · rw [redactedPart_of_cmcd hcmcd]
    decide
  · rw [redactedPart_of_not_cmcd hcmcd]
    exact not_mem_of_mem_splitOn '&' query part hpart

/-- What `query_value` reads of a parameter. -/
def valueFor (key : String) (part : List Char) : Option String :=
  let parts := (splitOnce '=' part).getD (part, [])
  if parts.1 = key.toList then some (String.ofList parts.2) else none

theorem queryValue_sanitized (query : Option String) (key : String) :
    queryValue (sanitizedResponseQuery query) key
      = query.bind fun query => (query.toList.splitOn '&').findSome?
          fun part => valueFor key (redactedPart part) := by
  cases query with
  | none => rfl
  | some query =>
      unfold queryValue sanitizedResponseQuery
      rw [Option.map_some, Option.bind_some, Option.bind_some, String.toList_ofList,
        splitOn_sanitized, List.findSome?_map]
      rfl

/-- **Only the session is taken out**: every other parameter keeps its value. -/
theorem queryValue_sanitized_of_ne {key : String}
    (hkey : key.toList.map Char.toLower ≠ "cmcd".toList) (query : Option String) :
    queryValue (sanitizedResponseQuery query) key = queryValue query key := by
  have hpart : ∀ part, valueFor key (redactedPart part) = valueFor key part := by
    intro part
    by_cases hcmcd : (keyOf part).map Char.toLower = "cmcd".toList
    · have hother : keyOf part ≠ key.toList := fun h => hkey (h ▸ hcmcd)
      have hredacted : "CMCD".toList ≠ key.toList := fun h => hkey (h ▸ by decide)
      rw [redactedPart_of_cmcd hcmcd]
      exact (if_neg hredacted).trans (if_neg hother).symm
    · rw [redactedPart_of_not_cmcd hcmcd]
  rw [queryValue_sanitized]
  simp only [hpart]
  rfl

/-- A sanitized query says of its session only that it is redacted. -/
theorem queryValue_sanitized_cmcd (query : Option String) :
    queryValue (sanitizedResponseQuery query) "CMCD" = none ∨
    queryValue (sanitizedResponseQuery query) "CMCD" = some "[redacted]" := by
  cases hvalue : queryValue (sanitizedResponseQuery query) "CMCD" with
  | none => exact .inl rfl
  | some value =>
      right
      rw [queryValue_sanitized] at hvalue
      obtain ⟨query, -, hfound⟩ := Option.bind_eq_some_iff.mp hvalue
      obtain ⟨part, -, hpart⟩ := List.exists_of_findSome?_eq_some hfound
      by_cases hcmcd : (keyOf part).map Char.toLower = "cmcd".toList
      · rw [redactedPart_of_cmcd hcmcd] at hpart
        exact hpart.symm.trans (by decide)
      · rw [redactedPart_of_not_cmcd hcmcd] at hpart
        have hkey : keyOf part ≠ "CMCD".toList := fun h => hcmcd (h ▸ by decide)
        exact absurd (hpart.symm.trans (if_neg hkey)) (by simp)

theorem no_session_sanitized (query : Option String) :
    playbackSessionId ⟨[], none⟩ (sanitizedResponseQuery query) = none := by
  unfold playbackSessionId
  rcases queryValue_sanitized_cmcd query with h | h
  · rw [h]
    rfl
  · rw [h]
    decide +kernel

/-- The details that some events keep. -/
def retained (events : List EdgeEvent) : List EdgeResponseSnapshot :=
  events.filterMap fun event =>
    match event with
    | .retained snapshot => some snapshot
    | _ => none

/-- The details that some operations push. -/
def pushed (ops : List EdgeOp) : List EdgeResponseSnapshot := ops.filterMap pushedBy

theorem pushed_flatMap_ops (events : List EdgeEvent) :
    pushed (events.flatMap EdgeEvent.ops) = retained events := by
  induction events with
  | nil => rfl
  | cons event events ih =>
      have happend : pushed ((event :: events).flatMap EdgeEvent.ops)
          = pushed event.ops ++ pushed (events.flatMap EdgeEvent.ops) := by
        unfold pushed
        rw [List.flatMap_cons, List.filterMap_append]
      rw [happend, ih]
      cases event with
      | responded h response clock =>
          have hnone : pushed (EdgeEvent.responded h response clock).ops = [] := by
            show pushed (ite _ _ _) = []
            split
            · exact List.filterMap_eq_nil_iff.mpr fun op hop =>
                (lawful_recordResponse h.request response clock op hop).2
            · rfl
          rw [hnone]
          rfl
      | _ => rfl

/-- **No details are kept** that were not retained. -/
theorem recents_keep (config : RouterConfig) (snapshot : EdgeResponseSnapshot) :
    TaskProgram.Keeps (program config) (· ≤ ·) Kept (fun s stage => StageReady s.events stage)
      LawfulOp (fun s => s.recentResponses.count snapshot)
      (fun s => (retained s.events).count snapshot) (fun t => (pushed t.pending).count snapshot) where
  enter := by
    intro s request _
    exact Nat.le_refl _
  apply := by
    intro s op pending stage _ _
    cases op with
    | pushRecent kept =>
        -- what falls off the end of the list is not kept any more
        have htake : ((kept :: s.recentResponses).take edgeRecentResponseLimit).count snapshot
            ≤ (kept :: s.recentResponses).count snapshot :=
          (List.take_sublist _ _).count_le snapshot
        have hpushed : pushed (.pushRecent kept :: pending) = kept :: pushed pending := rfl
        show ((kept :: s.recentResponses).take edgeRecentResponseLimit).count snapshot
            + (pushed pending).count snapshot + (retained s.events).count snapshot
          ≤ s.recentResponses.count snapshot + (pushed (.pushRecent kept :: pending)).count snapshot
            + (retained s.events).count snapshot
        rw [List.count_cons] at htake
        rw [hpushed, List.count_cons]
        omega
    | _ => exact Nat.le_refl _
  advance := by
    intro s stage env _ _
    obtain ⟨-, hrecents, -, hevents⟩ := react_frame config s stage env
    have hpending : pushed ((program config).advance s stage env).1
        = retained (react config s stage env).1.1 := pushed_flatMap_ops _
    have hretained : retained ((program config).advance s stage env).2.2.events
        = retained s.events ++ retained (react config s stage env).1.1 := by
      show retained ((react config s stage env).2.events ++ (react config s stage env).1.1) = _
      unfold retained
      rw [hevents, List.filterMap_append]
    show (react config s stage env).2.recentResponses.count snapshot
        + (pushed ((program config).advance s stage env).1).count snapshot
        + (retained s.events).count snapshot
      ≤ s.recentResponses.count snapshot + 0
        + (retained ((program config).advance s stage env).2.2.events).count snapshot
    rw [hrecents, hpending, hretained, List.count_append]
    omega

theorem recent_retained (config : RouterConfig) (admission : EdgeAdmissionConfig)
    (ops : List (TaskOp EdgeRequest HandlerEnv)) {snapshot : EdgeResponseSnapshot}
    (hrecent : snapshot ∈ (after config admission ops).shared.recentResponses) :
    EdgeEvent.retained snapshot ∈ (after config admission ops).shared.events := by
  have hbound := TaskProgram.exec_bound (recents_keep config snapshot) (holds_after config admission)
    (Nat.zero_le _) ops
  have hretained : snapshot ∈ retained (after config admission ops).shared.events :=
    List.count_pos_iff.mp (Nat.lt_of_lt_of_le (List.count_pos_iff.mpr hrecent)
      (Nat.le_trans (Nat.le_add_right _ _) hbound))
  obtain ⟨event, hevent, hsnapshot⟩ := List.mem_filterMap.mp hretained
  cases event with
  | retained kept =>
      cases hsnapshot
      exact hevent
  | _ => cases hsnapshot

/-- **THE RECENT RESPONSES.**  In every run at most 32 are kept.  Each has the details of a response
of the run, and what its request asked for, with no playback session that could be taken from it.
Two successes whose details are kept are 100 ms apart, unless the clock of the earlier one read 0:
the code takes 0 for no success yet. -/
theorem recent_responses (config : RouterConfig) (admission : EdgeAdmissionConfig)
    (ops : List (TaskOp EdgeRequest HandlerEnv)) :
    let s := (after config admission ops).shared
    s.recentResponses.length ≤ edgeRecentResponseLimit ∧
    (∀ snapshot ∈ s.recentResponses, ∃ h response clock,
      EdgeEvent.responded h response clock ∈ s.events ∧
      snapshot = responseSnapshot h.request response clock ∧
      playbackSessionId ⟨[], none⟩ snapshot.query = none ∧
      ∀ key : String, key.toList.map Char.toLower ≠ "cmcd".toList →
        queryValue snapshot.query key = queryValue h.request.query key) ∧
    (successes s.events).Pairwise fun a b => 0 < a → a + edgeRecentSuccessIntervalMs ≤ b := by
  intro s
  have hkept : Kept s := (holds_after config admission ops).shared
  refine ⟨hkept.few, ?_, hkept.apart⟩
  intro snapshot hsnapshot
  have hretained : EdgeEvent.retained snapshot ∈ s.events :=
    recent_retained config admission ops hsnapshot
  obtain ⟨h, response, clock, hresponded, rfl⟩ := hkept.genuine _ hretained
  exact ⟨h, response, clock, hresponded, rfl, no_session_sanitized h.request.query,
    fun _ hkey => queryValue_sanitized_of_ne hkey h.request.query⟩

end EdgeGateway

end AvMesh.Edge
