/-
  AvMesh.Control.Log
  ──────────────────
  **THE LOG OF CONTROL COMMANDS** (`ControlPlane`, src/main.rs).

  A command is recorded when it is accepted and replaced, once its outcome is
  known, by a copy with another status.  Between the two other commands are
  recorded and replaced.  An entry is found again by its id, and the id is the
  millisecond of the record: two commands of one millisecond share it, and the
  first of their entries takes the statuses of both.

  A run is one call of `execute_control_internal_with_targets`, of
  `ingest_control_payload` around it, or of `request_replica_for_stream`.  It
  holds its command in a local variable.  `ControlHistory` is the log with the
  run of every entry and the local variables of the runs; forgetting the runs
  gives the log of the source (`record_plane`, `rewrite_plane`).

  Main result: `log_integrity_iff`.  Every entry shows its own run throughout
  exactly when every replacement meets the entry of its own run.
-/
import AvMesh.Lib.StepSystem
import Mathlib.Data.List.Nodup

namespace AvMesh.Control

open AvMesh.Lib

/-! ## §1. Commands. -/

inductive ControlKind where
  | provisionNode
  | closeNode
  | warmStream
  | replicaRequest
  deriving Repr, DecidableEq

structure ControlRequest where
  nodeId : Option String
  region : Option String
  streamId : Option UInt64
  deriving DecidableEq

structure ControlCommand where
  id : Nat
  kind : ControlKind
  nodeId : Option String
  region : Option String
  streamId : Option UInt64
  streamIdText : Option String
  targetText : String
  createdUnixMs : Nat
  status : String
  deriving DecidableEq

def streamIdText (streamId : UInt64) : String := toString streamId.toNat

/-- The parts of the target that the request names. -/
def targetParts (request : ControlRequest) : List String :=
  ((request.nodeId.filter fun value => !value.isEmpty).map fun nodeId => "node " ++ nodeId).toList
    ++ ((request.region.filter fun value => !value.isEmpty).map
        fun region => "region " ++ region).toList
    ++ (request.streamId.map fun streamId => "stream " ++ streamIdText streamId).toList

def controlRequestTargetText (request : ControlRequest) : String :=
  if targetParts request = [] then "global" else " / ".intercalate (targetParts request)

/-- The command `record` appends, with its two readings of the clock. -/
def acceptedCommand (kind : ControlKind) (request : ControlRequest) (idMs createdMs : Nat) :
    ControlCommand where
  id := idMs
  kind := kind
  nodeId := request.nodeId
  region := request.region
  streamId := request.streamId
  streamIdText := request.streamId.map streamIdText
  targetText := controlRequestTargetText request
  createdUnixMs := createdMs
  status := "accepted"

/-! ## §2. The control plane. -/

section Lists

variable {α β : Type}

/-- The last 128 of the elements: `drain` takes the others from the front. -/
def keepRecent (xs : List α) : List α :=
  if 128 < xs.length then xs.drop (xs.length - 128) else xs

/-- `iter_mut().find(p)` and an assignment to what it finds. -/
def replaceFirst (p : α → Bool) (f : α → α) : List α → List α
  | [] => []
  | x :: xs => if p x then f x :: xs else x :: replaceFirst p f xs

theorem map_keepRecent (g : α → β) (xs : List α) :
    (keepRecent xs).map g = keepRecent (xs.map g) := by
  unfold keepRecent
  rw [List.length_map]
  split
  · rw [List.map_drop]
  · rfl

theorem mem_of_mem_keepRecent {xs : List α} {x : α} (h : x ∈ keepRecent xs) : x ∈ xs := by
  unfold keepRecent at h
  split at h
  · exact List.mem_of_mem_drop h
  · exact h

theorem keepRecent_sublist (xs : List α) : (keepRecent xs).Sublist xs := by
  unfold keepRecent
  split
  · exact List.drop_sublist _ _
  · exact List.Sublist.refl _

/-- An assignment that a projection sees as another one. -/
theorem map_replaceFirst (p : β → Bool) {f : α → α} (f' : β → β) (g : α → β)
    (h : ∀ x, g (f x) = f' (g x)) (xs : List α) :
    (replaceFirst (fun x => p (g x)) f xs).map g = replaceFirst p f' (xs.map g) := by
  induction xs with
  | nil => rfl
  | cons x xs ih =>
      rw [replaceFirst, List.map_cons, replaceFirst]
      by_cases hp : p (g x) = true
      · rw [if_pos hp, if_pos hp, List.map_cons, h]
      · rw [if_neg hp, if_neg hp, List.map_cons, ih]

variable {p : α → Bool} {f : α → α} {xs : List α} {x : α}

theorem replaceFirst_of_find?_none (h : xs.find? p = none) : replaceFirst p f xs = xs := by
  induction xs with
  | nil => rfl
  | cons x xs ih =>
      have hx := List.find?_eq_none.1 h
      rw [replaceFirst, if_neg (hx x List.mem_cons_self),
        ih (List.find?_eq_none.2 fun y hy => hx y (List.mem_cons_of_mem _ hy))]

/-- An assignment to an element that has the value already. -/
theorem replaceFirst_of_fixed (h : xs.find? p = some x) (hfixed : f x = x) :
    replaceFirst p f xs = xs := by
  induction xs with
  | nil => rfl
  | cons y xs ih =>
      rw [replaceFirst]
      by_cases hy : p y = true
      · rw [List.find?_cons_of_pos hy] at h
        rw [if_pos hy, Option.some.inj h, hfixed]
      · rw [List.find?_cons_of_neg hy] at h
        rw [if_neg hy, ih h]

theorem mem_of_mem_replaceFirst (h : xs.find? p = some x) {y : α} (hy : y ∈ replaceFirst p f xs) :
    y = f x ∨ y ∈ xs := by
  induction xs with
  | nil => exact Or.inr hy
  | cons z xs ih =>
      rw [replaceFirst] at hy
      by_cases hz : p z = true
      · rw [if_pos hz] at hy
        rw [List.find?_cons_of_pos hz] at h
        rcases List.mem_cons.1 hy with rfl | hrest
        · exact Or.inl (congrArg f (Option.some.inj h))
        · exact Or.inr (List.mem_cons_of_mem _ hrest)
      · rw [if_neg hz] at hy
        rw [List.find?_cons_of_neg hz] at h
        rcases List.mem_cons.1 hy with rfl | hrest
        · exact Or.inr List.mem_cons_self
        · exact (ih h hrest).imp_right (List.mem_cons_of_mem _)

theorem mem_replaceFirst_self (h : xs.find? p = some x) : f x ∈ replaceFirst p f xs := by
  induction xs with
  | nil => cases h
  | cons z xs ih =>
      rw [replaceFirst]
      by_cases hz : p z = true
      · rw [List.find?_cons_of_pos hz] at h
        rw [if_pos hz, Option.some.inj h]
        exact List.mem_cons_self
      · rw [List.find?_cons_of_neg hz] at h
        rw [if_neg hz]
        exact List.mem_cons_of_mem _ (ih h)

theorem mem_replaceFirst_of_ne (h : xs.find? p = some x) {y : α} (hy : y ∈ xs) (hne : y ≠ x) :
    y ∈ replaceFirst p f xs := by
  induction xs with
  | nil => exact hy
  | cons z xs ih =>
      rw [replaceFirst]
      by_cases hz : p z = true
      · rw [List.find?_cons_of_pos hz] at h
        rw [if_pos hz]
        rcases List.mem_cons.1 hy with rfl | hrest
        · exact absurd (Option.some.inj h) hne
        · exact List.mem_cons_of_mem _ hrest
      · rw [List.find?_cons_of_neg hz] at h
        rw [if_neg hz]
        rcases List.mem_cons.1 hy with rfl | hrest
        · exact List.mem_cons_self
        · exact List.mem_cons_of_mem _ (ih h hrest)

end Lists

structure ControlPlane where
  commands : List ControlCommand

namespace ControlPlane

def record (plane : ControlPlane) (kind : ControlKind) (request : ControlRequest)
    (idMs createdMs : Nat) : ControlCommand × ControlPlane :=
  let command := acceptedCommand kind request idMs createdMs
  (command, ⟨keepRecent (plane.commands ++ [command])⟩)

def recent (plane : ControlPlane) : List ControlCommand := plane.commands.reverse.take 16

def replace (plane : ControlPlane) (command : ControlCommand) : ControlPlane :=
  ⟨replaceFirst (fun existing => existing.id = command.id) (fun _ => command) plane.commands⟩

end ControlPlane

/-! ## §3. Runs. -/

/-- The steps of the runs on the log. -/
inductive Op where
  /-- A run records its command. -/
  | record (run : Nat) (kind : ControlKind) (request : ControlRequest) (idMs createdMs : Nat)
  /-- The replacement at the end of `execute_control_internal_with_targets`. -/
  | execute (run : Nat) (statuses : List String)
  /-- The replacement at the end of `ingest_control_payload`. -/
  | ingest (run : Nat) (originNodeId : String) (envelopeId : Nat)
  /-- The replacement of `request_replica_for_stream`. -/
  | requestReplica (run : Nat) (status : String)

namespace Op

def run : Op → Nat
  | .record run _ _ _ _ | .execute run _ | .ingest run _ _ | .requestReplica run _ => run

/-- What a step makes of its run's command; a run records once. -/
def command : Op → Option ControlCommand → Option ControlCommand
  | .record _ kind request idMs createdMs, none =>
      some (acceptedCommand kind request idMs createdMs)
  | .record _ _ _ _ _, some command => some command
  | .execute _ statuses, command =>
      command.map fun command => { command with status := "; ".intercalate statuses }
  | .ingest _ originNodeId envelopeId, command =>
      command.map fun command =>
        { command with
          status := "received from " ++ originNodeId ++ " command " ++ toString envelopeId ++ "; "
            ++ command.status }
  | .requestReplica _ status, command => command.map fun command => { command with status := status }

def isRecord : Op → Bool
  | .record _ _ _ _ _ => true
  | _ => false

end Op

/-- The log with the run of every entry, and the command each run holds. -/
structure ControlHistory where
  entries : List (Nat × ControlCommand)
  commands : Nat → Option ControlCommand

namespace ControlHistory

def empty : ControlHistory := ⟨[], fun _ => none⟩

/-- The log of the source. -/
def plane (h : ControlHistory) : ControlPlane := ⟨h.entries.map Prod.snd⟩

/-- A run appends its command. -/
def append (h : ControlHistory) (run : Nat) (command : ControlCommand) : ControlHistory where
  entries := keepRecent (h.entries ++ [(run, command)])
  commands := Function.update h.commands run (some command)

/-- A run rewrites the first entry with the id of its command. -/
def rewrite (h : ControlHistory) (run : Nat) (command : ControlCommand) : ControlHistory where
  entries := replaceFirst (fun entry => entry.2.id = command.id) (fun entry => (entry.1, command))
    h.entries
  commands := Function.update h.commands run (some command)

/-- One step; the reply is the command the run holds after it. -/
def step (h : ControlHistory) (op : Op) : Option ControlCommand × ControlHistory :=
  match op.command (h.commands op.run) with
  | none => (none, h)
  | some command =>
      if op.isRecord then
        if (h.commands op.run).isSome then (some command, h)
        else (some command, h.append op.run command)
      else (some command, h.rewrite op.run command)

theorem record_plane (h : ControlHistory) (run : Nat) (kind : ControlKind)
    (request : ControlRequest) (idMs createdMs : Nat) :
    (h.append run (acceptedCommand kind request idMs createdMs)).plane =
      (h.plane.record kind request idMs createdMs).2 := by
  show (⟨(keepRecent (h.entries ++ _)).map Prod.snd⟩ : ControlPlane) = _
  rw [map_keepRecent, List.map_append]
  rfl

theorem rewrite_plane (h : ControlHistory) (run : Nat) (command : ControlCommand) :
    (h.rewrite run command).plane = h.plane.replace command := by
  show (⟨(replaceFirst _ _ h.entries).map Prod.snd⟩ : ControlPlane) = _
  rw [map_replaceFirst (fun existing : ControlCommand => existing.id = command.id)
    (fun _ => command) Prod.snd (fun _ => rfl)]
  rfl

/-! ## §4. What a run holds. -/

variable {h : ControlHistory} {op : Op} {ops : List Op} {run : Nat} {command : ControlCommand}

/-- The command of a run by its own steps alone: the recorded one with the
status of its last replacement. -/
def ownCommand (run : Nat) (ops : List Op) : Option ControlCommand :=
  (ops.filter fun op => op.run = run).foldl (fun command op => op.command command) none

theorem command_eq_none {held : Option ControlCommand} (hop : op.command held = none) :
    held = none := by
  cases op with
  | record run kind request idMs createdMs => cases held <;> cases hop
  | execute run statuses => exact Option.map_eq_none_iff.1 hop
  | ingest run originNodeId envelopeId => exact Option.map_eq_none_iff.1 hop
  | requestReplica run status => exact Option.map_eq_none_iff.1 hop

/-- A replacement keeps the id. -/
theorem command_id (hrecord : op.isRecord = false) {held : Option ControlCommand}
    (hop : op.command held = some command) : ∃ old, held = some old ∧ command.id = old.id := by
  cases op with
  | record run kind request idMs createdMs => cases hrecord
  | execute run statuses =>
      obtain ⟨old, hold, rfl⟩ := Option.map_eq_some_iff.1 hop
      exact ⟨old, hold, rfl⟩
  | ingest run originNodeId envelopeId =>
      obtain ⟨old, hold, rfl⟩ := Option.map_eq_some_iff.1 hop
      exact ⟨old, hold, rfl⟩
  | requestReplica run status =>
      obtain ⟨old, hold, rfl⟩ := Option.map_eq_some_iff.1 hop
      exact ⟨old, hold, rfl⟩

/-- What one step does: nothing, an append of a first command, or a rewrite. -/
theorem step_cases (h : ControlHistory) (op : Op) :
    ((step h op).2 = h ∧ op.command (h.commands op.run) = h.commands op.run
        ∧ (op.isRecord = true ∨ h.commands op.run = none))
      ∨ (op.isRecord = true ∧ h.commands op.run = none
        ∧ ∃ command, op.command (h.commands op.run) = some command
          ∧ (step h op).2 = h.append op.run command)
      ∨ (op.isRecord = false
        ∧ ∃ command, op.command (h.commands op.run) = some command
          ∧ (step h op).2 = h.rewrite op.run command) := by
  cases hcommand : op.command (h.commands op.run) with
  | none =>
      refine Or.inl ⟨?_, (command_eq_none hcommand).symm, Or.inr (command_eq_none hcommand)⟩
      simp only [step, hcommand]
  | some command =>
      by_cases hrecord : op.isRecord = true
      · cases hheld : h.commands op.run with
        | none =>
            refine Or.inr (Or.inl ⟨hrecord, rfl, command, by rw [← hcommand, hheld], ?_⟩)
            unfold step
            rw [hcommand]
            dsimp only
            rw [if_pos hrecord, if_neg (by rw [hheld]; exact Bool.false_ne_true)]
        | some old =>
            -- a run that has recorded keeps its command, and a second record is ignored
            refine Or.inl ⟨?_, ?_, Or.inl hrecord⟩
            · unfold step
              rw [hcommand]
              dsimp only
              rw [if_pos hrecord, if_pos (by rw [hheld]; rfl)]
            · cases op with
              | record run kind request idMs createdMs =>
                  rw [← hcommand, hheld]
                  rfl
              | execute run statuses => cases hrecord
              | ingest run originNodeId envelopeId => cases hrecord
              | requestReplica run status => cases hrecord
      · refine Or.inr (Or.inr ⟨Bool.eq_false_iff.2 hrecord, command, rfl, ?_⟩)
        simp only [step, hcommand, if_neg hrecord]

theorem commands_step (h : ControlHistory) (op : Op) (run : Nat) :
    (step h op).2.commands run =
      if op.run = run then op.command (h.commands run) else h.commands run := by
  rcases step_cases h op with ⟨hsame, hheld, -⟩ | ⟨-, -, command, hcommand, hstep⟩
      | ⟨-, command, hcommand, hstep⟩
  · rw [hsame]
    by_cases hrun : op.run = run
    · rw [if_pos hrun, ← hrun, hheld]
    · rw [if_neg hrun]
  all_goals
    rw [hstep]
    show Function.update h.commands op.run (some command) run = _
    by_cases hrun : op.run = run
    · rw [if_pos hrun, ← hrun, hcommand, Function.update_self]
    · rw [if_neg hrun, Function.update_of_ne (Ne.symm hrun)]

/-- **The command a run holds is decided by its own steps.** -/
theorem commands_exec (ops : List Op) (run : Nat) :
    (exec step empty ops).commands run = ownCommand run ops := by
  refine exec_history step (fun ops h => h.commands run = ownCommand run ops) empty rfl
    (fun ops op ih => ?_) ops
  rw [commands_step, ih]
  unfold ownCommand
  rw [List.filter_append]
  by_cases hrun : op.run = run
  · have hone : [op].filter (fun op => op.run = run) = [op] := by simp [hrun]
    rw [if_pos hrun, hone, List.foldl_append]
    rfl
  · have hnone : [op].filter (fun op => op.run = run) = [] := by simp [hrun]
    rw [if_neg hrun, hnone, List.append_nil]

/-! ## §5. One replacement. -/

/-- A run has one entry, and holds a command once it has one. -/
structure Tagged (h : ControlHistory) : Prop where
  nodup : (h.entries.map Prod.fst).Nodup
  held : ∀ entry ∈ h.entries, (h.commands entry.1).isSome

theorem runs_rewrite (h : ControlHistory) (run : Nat) (command : ControlCommand) :
    (h.rewrite run command).entries.map Prod.fst = h.entries.map Prod.fst := by
  unfold rewrite
  dsimp only
  induction h.entries with
  | nil => rfl
  | cons entry entries ih =>
      rw [replaceFirst]
      split
      · rfl
      · rw [List.map_cons, List.map_cons, ih]

theorem Tagged.step (ht : Tagged h) (op : Op) : Tagged (step h op).2 := by
  have hheld : ∀ {run}, (h.commands run).isSome →
      ((ControlHistory.step h op).2.commands run).isSome := by
    -- a step takes no command away from a run
    intro run hrun
    rw [commands_step]
    split
    · obtain ⟨old, hold⟩ := Option.isSome_iff_exists.1 hrun
      cases hop : op.command (h.commands run) with
      | none =>
          rw [command_eq_none hop] at hold
          cases hold
      | some command => rfl
    · exact hrun
  rcases step_cases h op with ⟨hsame, -⟩ | ⟨-, hnone, command, -, hstep⟩ | ⟨-, command, -, hstep⟩
  · rw [hsame]
    exact ht
  · have hnew : ∀ entry ∈ h.entries, entry.1 ≠ op.run := by
      intro entry hentry hrun
      have hsome := ht.held entry hentry
      rw [hrun, hnone] at hsome
      cases hsome
    constructor
    · rw [hstep]
      refine List.Nodup.sublist ((keepRecent_sublist _).map Prod.fst) ?_
      rw [List.map_append]
      refine List.nodup_append.2 ⟨ht.nodup, List.nodup_singleton _, ?_⟩
      intro run hrun run' hrun'
      obtain ⟨entry, hentry, rfl⟩ := List.mem_map.1 hrun
      rw [List.mem_singleton.1 hrun']
      exact hnew entry hentry
    · intro entry hentry
      rw [hstep] at hentry
      rcases List.mem_append.1 (mem_of_mem_keepRecent hentry) with hold | hlast
      · exact hheld (ht.held entry hold)
      · rw [List.mem_singleton.1 hlast, hstep]
        show (Function.update h.commands op.run (some command) op.run).isSome
        rw [Function.update_self]
        rfl
  · constructor
    · rw [hstep, runs_rewrite]
      exact ht.nodup
    · intro entry hentry
      have hrun : entry.1 ∈ (ControlHistory.step h op).2.entries.map Prod.fst :=
        List.mem_map_of_mem hentry
      rw [hstep, runs_rewrite] at hrun
      obtain ⟨old, hold, hsame⟩ := List.mem_map.1 hrun
      rw [← hsame]
      exact hheld (ht.held old hold)

theorem exec_tagged (ops : List Op) : Tagged (exec ControlHistory.step empty ops) :=
  exec_invariant ControlHistory.step Tagged (fun _ op ht => ht.step op) ops
    ⟨List.nodup_nil, fun _ hentry => absurd hentry List.not_mem_nil⟩

/-! ## §6. Integrity. -/

/-- Every entry shows the command its run holds. -/
def Shows (h : ControlHistory) : Prop :=
  ∀ entry ∈ h.entries, h.commands entry.1 = some entry.2

/-- The entry a command is written to. -/
def target (h : ControlHistory) (command : ControlCommand) : Option (Nat × ControlCommand) :=
  h.entries.find? fun entry => entry.2.id = command.id

/-- A replacement meets the entry of its own run, or none; or what it writes is
there already. -/
def Meets (h : ControlHistory) (op : Op) : Prop :=
  op.isRecord = true ∨
    ∀ command, op.command (h.commands op.run) = some command →
      ∀ found, h.target command = some found →
        found.1 = op.run
          ∨ (found.2 = command ∧ ∀ entry ∈ h.entries, entry.1 = op.run → entry.2 = command)

/-- A replacement that meets its own entry leaves those of the other runs. -/
theorem mem_rewrite_iff {found entry : Nat × ControlCommand} (htarget : h.target command = some found)
    (hfound : found.1 = run) (hentry : entry.1 ≠ run) :
    entry ∈ (h.rewrite run command).entries ↔ entry ∈ h.entries := by
  constructor
  · intro hmem
    rcases mem_of_mem_replaceFirst htarget hmem with heq | hold
    · exact absurd ((congrArg Prod.fst heq).trans hfound) hentry
    · exact hold
  · intro hmem
    refine mem_replaceFirst_of_ne htarget hmem ?_
    intro heq
    exact hentry ((congrArg Prod.fst heq).trans hfound)

theorem rewrite_entries_of_eq {found : Nat × ControlCommand} (htarget : h.target command = some found)
    (hsame : found.2 = command) : (h.rewrite run command).entries = h.entries :=
  replaceFirst_of_fixed htarget (Prod.ext rfl hsame.symm)

theorem rewrite_entries_of_none (htarget : h.target command = none) :
    (h.rewrite run command).entries = h.entries :=
  replaceFirst_of_find?_none htarget

theorem Shows.append (hs : Shows h) (hnone : h.commands run = none) :
    Shows (h.append run command) := by
  intro entry hentry
  show Function.update h.commands run (some command) entry.1 = some entry.2
  rcases List.mem_append.1 (mem_of_mem_keepRecent hentry) with hold | hnew
  · have hne : entry.1 ≠ run := by
      intro hrun
      have hshown := hs entry hold
      rw [hrun, hnone] at hshown
      cases hshown
    rw [Function.update_of_ne hne]
    exact hs entry hold
  · rw [List.mem_singleton.1 hnew, Function.update_self]

/-- **A replacement keeps the log true exactly when it meets its own entry.** -/
theorem shows_rewrite_iff (ht : Tagged h) (hs : Shows h) {old : ControlCommand}
    (hold : h.commands run = some old) (hid : command.id = old.id) :
    Shows (h.rewrite run command) ↔
      ∀ found, h.target command = some found →
        found.1 = run
          ∨ (found.2 = command ∧ ∀ entry ∈ h.entries, entry.1 = run → entry.2 = command) := by
  constructor
  · intro hshows found htarget
    by_cases hrun : found.1 = run
    · exact Or.inl hrun
    · -- the entry of another run still shows what that run holds
      have hwritten : (found.1, command) ∈ (h.rewrite run command).entries :=
        mem_replaceFirst_self htarget
      have hshown := hshows _ hwritten
      change Function.update h.commands run (some command) found.1 = some command at hshown
      rw [Function.update_of_ne hrun, hs found (List.mem_of_find?_eq_some htarget)] at hshown
      have hsame : found.2 = command := Option.some.inj hshown
      refine Or.inr ⟨hsame, fun entry hentry howner => ?_⟩
      have hentries : (h.rewrite run command).entries = h.entries :=
        rewrite_entries_of_eq htarget hsame
      rw [← hentries] at hentry
      have hown := hshows entry hentry
      change Function.update h.commands run (some command) entry.1 = some entry.2 at hown
      rw [howner, Function.update_self] at hown
      exact (Option.some.inj hown).symm
  · intro hmeets entry hentry
    show Function.update h.commands run (some command) entry.1 = some entry.2
    cases htarget : h.target command with
    | none =>
        rw [rewrite_entries_of_none htarget] at hentry
        have hne : entry.1 ≠ run := by
          intro hrun
          have hshown := hs entry hentry
          rw [hrun, hold] at hshown
          refine List.find?_eq_none.1 htarget entry hentry (decide_eq_true ?_)
          rw [← Option.some.inj hshown, hid]
        rw [Function.update_of_ne hne]
        exact hs entry hentry
    | some found =>
        rcases hmeets found htarget with hown | ⟨hsame, hshown⟩
        · by_cases hrun : entry.1 = run
          · -- the run has one entry, the one that is written
            have hwritten : (found.1, command) ∈ (h.rewrite run command).entries :=
              mem_replaceFirst_self htarget
            have hnodup : ((h.rewrite run command).entries.map Prod.fst).Nodup := by
              rw [runs_rewrite]
              exact ht.nodup
            have heq : entry = (found.1, command) :=
              List.inj_on_of_nodup_map hnodup hentry hwritten (hrun.trans hown.symm)
            rw [heq, hown, Function.update_self]
          · rw [Function.update_of_ne hrun]
            exact hs entry ((mem_rewrite_iff htarget hown hrun).1 hentry)
        · rw [rewrite_entries_of_eq htarget hsame] at hentry
          by_cases hrun : entry.1 = run
          · rw [hrun, Function.update_self, hshown entry hentry hrun]
          · rw [Function.update_of_ne hrun]
            exact hs entry hentry

theorem shows_step_iff (ht : Tagged h) (hs : Shows h) (op : Op) :
    Shows (step h op).2 ↔ h.Meets op := by
  rcases step_cases h op with ⟨hsame, hheld, hrecord | hnone⟩ | ⟨hrecord, hnone, command, -, hstep⟩
      | ⟨hrecord, command, hcommand, hstep⟩
  · rw [hsame]
    exact iff_of_true hs (Or.inl hrecord)
  · -- the run has not recorded: there is nothing to replace
    rw [hsame]
    refine iff_of_true hs (Or.inr fun command hcommand => ?_)
    rw [hheld, hnone] at hcommand
    cases hcommand
  · rw [hstep]
    exact iff_of_true (hs.append hnone) (Or.inl hrecord)
  · obtain ⟨old, hold, hid⟩ := command_id hrecord hcommand
    rw [hstep, shows_rewrite_iff ht hs hold hid]
    constructor
    · intro hmeets
      refine Or.inr fun command' hcommand' => ?_
      rw [hcommand] at hcommand'
      cases hcommand'
      exact hmeets
    · rintro (hrecord' | hmeets)
      · rw [hrecord] at hrecord'
        cases hrecord'
      · exact hmeets command hcommand

/-- The log after a run shows its runs' own commands, at every point of it; and
no replacement changes an entry of another run. -/
structure Integrity (ops : List Op) : Prop where
  shows : ∀ before after, ops = before ++ after →
    ∀ entry ∈ (exec step empty before).entries, ownCommand entry.1 before = some entry.2
  others : ∀ before op after, ops = before ++ op :: after → op.isRecord = false →
    ∀ entry : Nat × ControlCommand, entry.1 ≠ op.run →
      (entry ∈ (exec step empty (before ++ [op])).entries ↔
        entry ∈ (exec step empty before).entries)

theorem exec_shows_iff (ops : List Op) :
    Shows (exec step empty ops) ↔
      ∀ entry ∈ (exec step empty ops).entries, ownCommand entry.1 ops = some entry.2 := by
  unfold Shows
  refine forall₂_congr fun entry _ => ?_
  rw [commands_exec]

theorem exec_append_singleton (ops : List Op) (op : Op) :
    exec step empty (ops ++ [op]) = (step (exec step empty ops) op).2 := by
  rw [exec_append, exec_cons, exec_nil]

/-- While every replacement so far met its own entry, the log is true. -/
theorem exec_shows (ops : List Op)
    (hmeets : ∀ before op after, ops = before ++ op :: after →
      (exec step empty before).Meets op) : Shows (exec step empty ops) := by
  revert hmeets
  refine exec_history step
    (fun ops h => (∀ before op after, ops = before ++ op :: after →
      (exec step empty before).Meets op) → Shows h) empty
    (fun _ entry hentry => absurd hentry List.not_mem_nil) (fun ops op ih hmeets => ?_) ops
  -- the shorter run is a prefix, so its replacements meet their entries too
  have hs := ih fun before op' after hops =>
    hmeets before op' (after ++ [op]) (by rw [hops, List.append_assoc, List.cons_append])
  exact (shows_step_iff (exec_tagged ops) hs op).2 (hmeets ops op [] rfl)

/-- A replacement that meets its own entry leaves those of the other runs. -/
theorem mem_step_iff (hmeets : h.Meets op) (hrecord : op.isRecord = false)
    {entry : Nat × ControlCommand} (hentry : entry.1 ≠ op.run) :
    entry ∈ (step h op).2.entries ↔ entry ∈ h.entries := by
  rcases step_cases h op with ⟨hsame, -⟩ | ⟨hrecord', -⟩ | ⟨-, command, hcommand, hstep⟩
  · rw [hsame]
  · rw [hrecord] at hrecord'
    cases hrecord'
  · rw [hstep]
    cases htarget : h.target command with
    | none => rw [rewrite_entries_of_none htarget]
    | some found =>
        rcases hmeets with hrecord' | hmeets
        · rw [hrecord] at hrecord'
          cases hrecord'
        · rcases hmeets command hcommand found htarget with hown | ⟨hsame, -⟩
          · exact mem_rewrite_iff htarget hown hentry
          · rw [rewrite_entries_of_eq htarget hsame]

/-- **The log keeps its integrity throughout a run exactly when every
replacement of the run meets the entry of its own run.** -/
theorem log_integrity_iff (ops : List Op) :
    Integrity ops ↔
      ∀ before op after, ops = before ++ op :: after → (exec step empty before).Meets op := by
  constructor
  · intro hintegrity before op after hops
    have hbefore := (exec_shows_iff before).2 (hintegrity.shows before (op :: after) hops)
    have hafter := (exec_shows_iff (before ++ [op])).2
      (hintegrity.shows (before ++ [op]) after (by rw [hops, List.append_assoc]; rfl))
    rw [exec_append_singleton] at hafter
    exact (shows_step_iff (exec_tagged before) hbefore op).1 hafter
  · intro hmeets
    constructor
    · intro before after hops
      refine (exec_shows_iff before).1 (exec_shows before fun front op back hbefore => ?_)
      exact hmeets front op (back ++ after) (by rw [hops, hbefore, List.append_assoc]; rfl)
    · intro before op after hops hrecord entry hentry
      rw [exec_append_singleton]
      exact mem_step_iff (hmeets before op after hops) hrecord hentry

/-- **The recent commands** are then commands of the runs, with their last status. -/
theorem Integrity.recent (hintegrity : Integrity ops)
    (hrecent : command ∈ (exec step empty ops).plane.recent) :
    ∃ run, ownCommand run ops = some command := by
  have hmem : command ∈ (exec step empty ops).entries.map Prod.snd :=
    List.mem_reverse.mp (List.mem_of_mem_take hrecent)
  obtain ⟨entry, hentry, rfl⟩ := List.mem_map.mp hmem
  exact ⟨entry.1, hintegrity.shows ops [] (List.append_nil _).symm entry hentry⟩

def warmRequest : ControlRequest := ⟨none, some "eu", some 7⟩

def closeRequest : ControlRequest := ⟨some "node-2", none, none⟩

/-- Both commands are issued and then executed in one millisecond. -/
def sameMillisecond : List Op :=
  [.record 1 .warmStream warmRequest 1000 1000, .record 2 .closeNode closeRequest 1000 1000,
    .execute 2 ["closed"], .execute 1 ["warmed"]]

/-- **Two commands of one millisecond.**  A stream is warmed and a node closed
in the same millisecond.  The outcome of the node goes to the entry of the
stream, where that of the stream then replaces it; when both are finished the
node's own entry still says "accepted". -/
theorem same_millisecond_log :
    (exec step empty sameMillisecond).entries.map (fun entry => (entry.1, entry.2.status)) =
      [(1, "warmed"), (2, "accepted")] ∧
    ¬ Integrity sameMillisecond := by
  refine ⟨by decide, fun hintegrity => ?_⟩
  have hshows := hintegrity.shows _ [] (List.append_nil _).symm
    (2, acceptedCommand .closeNode closeRequest 1000 1000)
    (List.mem_cons_of_mem _ List.mem_cons_self)
  have hstatus := congrArg (Option.map ControlCommand.status) hshows
  exact absurd hstatus (by decide)

end ControlHistory

end AvMesh.Control
