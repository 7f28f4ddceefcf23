/-
  AvMesh.Lib.Tasks
  ────────────────
  **TASKS THAT INTERLEAVE.**

  Tasks run side by side over one shared state.  A task is at a stage of its
  program and may have a few atomic operations left over from the stage before:

      run i   — the next left-over operation of task i, or else its next stage

  so two tasks interleave between any two stages and any two operations.

  Main results:

    • `TaskProgram.Sound.exec`   — an invariant of the shared state, and one of
                                   every task that the others cannot break,
    • `TaskProgram.exec_balance` — what is on the books of the shared state is
                                   what was done and what the tasks have left,
    • `TaskProgram.exec_bound`   — the same with `≤`.
-/
import AvMesh.Lib.StepSystem
import Mathlib.Algebra.BigOperators.Group.List.Basic
import Mathlib.Algebra.Order.Monoid.Defs
import Mathlib.Algebra.Order.Group.Nat

namespace AvMesh.Lib

variable {σ θ α ρ ε : Type*}

/-! ## §1. Programs. -/

/-- A task: the operations it has left, and its stage. -/
structure Task (θ α : Type*) where
  pending : List α
  stage : θ

/-- The shared state and the tasks that run over it. -/
structure Tasks (σ θ α : Type*) where
  shared : σ
  tasks : List (Task θ α)

/-- A request starts a task; `ε` is what a stage reads of its environment. -/
structure TaskProgram (σ θ α ρ ε : Type*) where
  enter : σ → ρ → θ × σ
  apply : σ → α → σ
  advance : σ → θ → ε → List α × θ × σ

inductive TaskOp (ρ ε : Type*) where
  | enter (request : ρ)
  | run (task : Nat) (env : ε)

namespace TaskProgram

variable (P : TaskProgram σ θ α ρ ε)

def step (s : Tasks σ θ α) : TaskOp ρ ε → Unit × Tasks σ θ α
  | .enter request =>
      let (stage, shared) := P.enter s.shared request
      ((), { shared, tasks := s.tasks ++ [⟨[], stage⟩] })
  | .run i env =>
      match s.tasks[i]? with
      | none => ((), s)
      | some ⟨op :: pending, stage⟩ =>
          ((), { shared := P.apply s.shared op, tasks := s.tasks.set i ⟨pending, stage⟩ })
      | some ⟨[], stage⟩ =>
          let (pending, stage, shared) := P.advance s.shared stage env
          ((), { shared, tasks := s.tasks.set i ⟨pending, stage⟩ })

/-- **What a step can do**: nothing, start a task, one left-over operation, or one stage. -/
theorem step_cases (s : Tasks σ θ α) (op : TaskOp ρ ε) :
    (P.step s op).2 = s ∨
    (∃ request, op = .enter request ∧
      (P.step s op).2 = ⟨(P.enter s.shared request).2,
        s.tasks ++ [⟨[], (P.enter s.shared request).1⟩]⟩) ∨
    (∃ i a pending stage, s.tasks[i]? = some ⟨a :: pending, stage⟩ ∧
      (P.step s op).2 = ⟨P.apply s.shared a, s.tasks.set i ⟨pending, stage⟩⟩) ∨
    (∃ i env stage, s.tasks[i]? = some ⟨[], stage⟩ ∧
      (P.step s op).2 = ⟨(P.advance s.shared stage env).2.2, s.tasks.set i
        ⟨(P.advance s.shared stage env).1, (P.advance s.shared stage env).2.1⟩⟩) := by
  cases op with
  | enter request => exact .inr (.inl ⟨request, rfl, rfl⟩)
  | run i env =>
      rcases htask : s.tasks[i]? with _ | ⟨_ | ⟨a, pending⟩, stage⟩
      · exact .inl (by simp only [step, htask])
      · exact .inr (.inr (.inr ⟨i, env, stage, htask, by simp only [step, htask]⟩))
      · exact .inr (.inr (.inl ⟨i, a, pending, stage, htask, by simp only [step, htask]⟩))

/-! ## §2. Invariants. -/

/-- The shared state keeps `I`; every task has what its stage relies on (`Q`), and has only
operations of one kind (`O`) left. -/
structure Holds (I : σ → Prop) (Q : σ → θ → Prop) (O : α → Prop) (s : Tasks σ θ α) : Prop where
  shared : I s.shared
  stage : ∀ t ∈ s.tasks, Q s.shared t.stage
  pending : ∀ t ∈ s.tasks, ∀ a ∈ t.pending, O a

variable {P} {I : σ → Prop} {Q : σ → θ → Prop} {O : α → Prop}

/-- One task moves, the others keep what they rely on. -/
theorem Holds.set {s : Tasks σ θ α} (h : Holds I Q O s) {s' : σ} {i : Nat} {task : Task θ α}
    (hstable : ∀ stage, Q s.shared stage → Q s' stage) (hshared : I s') (hstage : Q s' task.stage)
    (hpending : ∀ a ∈ task.pending, O a) : Holds I Q O ⟨s', s.tasks.set i task⟩ where
  shared := hshared
  stage := by
    intro t ht
    rcases List.mem_or_eq_of_mem_set ht with ht | rfl
    · exact hstable _ (h.stage t ht)
    · exact hstage
  pending := by
    intro t ht
    rcases List.mem_or_eq_of_mem_set ht with ht | rfl
    · exact h.pending t ht
    · exact hpending

/-- What a step of the program has to keep; `R` is how the shared state can change, and what a task
relies on survives such changes. -/
structure Sound (P : TaskProgram σ θ α ρ ε) (I : σ → Prop) (Q : σ → θ → Prop) (O : α → Prop)
    (R : σ → σ → Prop) : Prop where
  stable : ∀ s s' stage, R s s' → Q s stage → Q s' stage
  enter : ∀ s request, I s → I (P.enter s request).2 ∧ R s (P.enter s request).2 ∧
    Q (P.enter s request).2 (P.enter s request).1
  apply : ∀ s a, I s → O a → I (P.apply s a) ∧ R s (P.apply s a)
  advance : ∀ s stage env, I s → Q s stage → I (P.advance s stage env).2.2 ∧
    R s (P.advance s stage env).2.2 ∧
    Q (P.advance s stage env).2.2 (P.advance s stage env).2.1 ∧
    ∀ a ∈ (P.advance s stage env).1, O a

/-- **The rule for invariants of tasks.** -/
theorem Sound.exec {R : σ → σ → Prop} (hsound : P.Sound I Q O R) (ops : List (TaskOp ρ ε))
    {s : Tasks σ θ α} (hs : Holds I Q O s) : Holds I Q O (exec P.step s ops) := by
  refine exec_invariant P.step (Holds I Q O) ?_ ops hs
  intro s op h
  rcases P.step_cases s op with hstep | ⟨request, -, hstep⟩ | ⟨i, a, pending, stage, hi, hstep⟩ |
    ⟨i, env, stage, hi, hstep⟩
  · rw [hstep]
    exact h
  · rw [hstep]
    obtain ⟨hI, hR, hQ⟩ := hsound.enter s.shared request h.shared
    constructor
    case shared => exact hI
    case stage =>
      intro t ht
      rcases List.mem_append.mp ht with ht | ht
      · exact hsound.stable _ _ _ hR (h.stage t ht)
      · rw [List.mem_singleton.mp ht]
        exact hQ
    case pending =>
      intro t ht
      rcases List.mem_append.mp ht with ht | ht
      · exact h.pending t ht
      · rw [List.mem_singleton.mp ht]
        exact nofun
  · rw [hstep]
    have hmem := List.mem_of_getElem? hi
    obtain ⟨hI, hR⟩ := hsound.apply s.shared a h.shared (h.pending _ hmem a List.mem_cons_self)
    have hstage : Q s.shared stage := h.stage _ hmem
    exact h.set (fun stage => hsound.stable _ _ stage hR) hI (hsound.stable _ _ _ hR hstage)
      (fun b hb => h.pending _ hmem b (List.mem_cons_of_mem _ hb))
  · rw [hstep]
    obtain ⟨hI, hR, hQ, hO⟩ :=
      hsound.advance s.shared stage env h.shared (h.stage _ (List.mem_of_getElem? hi))
    exact h.set (fun stage => hsound.stable _ _ stage hR) hI hQ hO

/-! ## §3. Books. -/

section Balance

variable {M : Type*} [AddCommMonoid M]

/-- The weight of all tasks. -/
def total (weight : Task θ α → M) (tasks : List (Task θ α)) : M := (tasks.map weight).sum

theorem total_append (weight : Task θ α → M) (tasks : List (Task θ α)) (task : Task θ α) :
    total weight (tasks ++ [task]) = total weight tasks + weight task := by
  unfold total
  rw [List.map_append, List.sum_append, List.map_singleton, List.sum_singleton]

/-- Replacing a task replaces its weight. -/
theorem total_set (weight : Task θ α → M) {tasks : List (Task θ α)} {i : Nat} {old : Task θ α}
    (new : Task θ α) (h : tasks[i]? = some old) :
    total weight (tasks.set i new) + weight old = total weight tasks + weight new := by
  unfold total
  induction tasks generalizing i with
  | nil => cases h
  | cons task tasks ih =>
      cases i with
      | zero =>
          obtain rfl : task = old := Option.some.inj h
          rw [List.set_cons_zero, List.map_cons, List.map_cons, List.sum_cons, List.sum_cons]
          ac_rfl
      | succ i =>
          rw [List.set_cons_succ, List.map_cons, List.map_cons, List.sum_cons, List.sum_cons,
            add_assoc, ih h, add_assoc]

end Balance

/-- One step changes `done`, the weight of the tasks and `due` by amounts that satisfy `rel`. -/
structure Keeps (P : TaskProgram σ θ α ρ ε) {M : Type*} [AddCommMonoid M] (rel : M → M → Prop)
    (I : σ → Prop) (Q : σ → θ → Prop) (O : α → Prop) (done due : σ → M) (weight : Task θ α → M) :
    Prop where
  enter : ∀ s request, I s →
    rel (done (P.enter s request).2 + weight ⟨[], (P.enter s request).1⟩ + due s)
      (done s + due (P.enter s request).2)
  apply : ∀ s a pending stage, I s → O a →
    rel (done (P.apply s a) + weight ⟨pending, stage⟩ + due s)
      (done s + weight ⟨a :: pending, stage⟩ + due (P.apply s a))
  advance : ∀ s stage env, I s → Q s stage →
    rel (done (P.advance s stage env).2.2
        + weight ⟨(P.advance s stage env).1, (P.advance s stage env).2.1⟩ + due s)
      (done s + weight ⟨[], stage⟩ + due (P.advance s stage env).2.2)

section Rules

variable {M : Type*} [AddCommMonoid M] {done due : σ → M} {weight : Task θ α → M}

/-- What a step does to the books, `x` and `y` being those of the tasks that do not move. -/
theorem Keeps.step {rel : M → M → Prop} (hkeeps : P.Keeps rel I Q O done due weight)
    (hrefl : ∀ a, rel a a) {s : Tasks σ θ α} (op : TaskOp ρ ε) (h : Holds I Q O s) :
    ∃ old new, rel (done (P.step s op).2.shared + new + due s.shared)
        (done s.shared + old + due (P.step s op).2.shared) ∧
      total weight (P.step s op).2.tasks + old = total weight s.tasks + new := by
  rcases P.step_cases s op with hstep | ⟨request, rfl, hstep⟩ | ⟨i, a, pending, stage, hi, hstep⟩ |
    ⟨i, env, stage, hi, hstep⟩
  · refine ⟨0, 0, ?_, ?_⟩
    · rw [hstep]
      exact hrefl _
    · rw [hstep]
  · refine ⟨0, weight ⟨[], (P.enter s.shared request).1⟩, ?_, ?_⟩
    · rw [hstep, add_zero]
      exact hkeeps.enter s.shared request h.shared
    · rw [hstep, add_zero]
      exact total_append weight _ _
  · refine ⟨weight ⟨a :: pending, stage⟩, weight ⟨pending, stage⟩, ?_, ?_⟩
    · rw [hstep]
      exact hkeeps.apply s.shared a pending stage h.shared
        (h.pending _ (List.mem_of_getElem? hi) a List.mem_cons_self)
    · rw [hstep]
      exact total_set weight _ hi
  · refine ⟨weight ⟨[], stage⟩, weight ⟨(P.advance s.shared stage env).1,
      (P.advance s.shared stage env).2.1⟩, ?_, ?_⟩
    · rw [hstep]
      exact hkeeps.advance s.shared stage env h.shared (h.stage _ (List.mem_of_getElem? hi))
    · rw [hstep]
      exact total_set weight _ hi

end Rules

/-- **The balance rule**: over a run, `done` and what the tasks have left make up `due`. -/
theorem exec_balance {M : Type*} [AddCancelCommMonoid M] {done due : σ → M}
    {weight : Task θ α → M} (hkeeps : P.Keeps (· = ·) I Q O done due weight)
    {start : Tasks σ θ α}
    (hsound : ∀ ops : List (TaskOp ρ ε), Holds I Q O (exec P.step start ops))
    (hstart : done start.shared + total weight start.tasks = due start.shared)
    (ops : List (TaskOp ρ ε)) :
    done (exec P.step start ops).shared + total weight (exec P.step start ops).tasks
      = due (exec P.step start ops).shared := by
  refine exec_history P.step
    (fun _ s => done s.shared + total weight s.tasks = due s.shared) start hstart ?_ ops
  intro ops op h
  obtain ⟨old, new, hrel, htotal⟩ := hkeeps.step (fun _ => rfl) op (hsound ops)
  generalize exec P.step start ops = s at h hrel htotal ⊢
  have hbooks : done (P.step s op).2.shared + total weight (P.step s op).2.tasks
      + (old + due s.shared) = due (P.step s op).2.shared + (old + due s.shared) := by
    calc done (P.step s op).2.shared + total weight (P.step s op).2.tasks + (old + due s.shared)
        = done (P.step s op).2.shared + (total weight (P.step s op).2.tasks + old)
          + due s.shared := by ac_rfl
      _ = (done (P.step s op).2.shared + new + due s.shared) + total weight s.tasks := by
          rw [htotal]
          ac_rfl
      _ = (done s.shared + total weight s.tasks) + (due (P.step s op).2.shared + old) := by
          rw [hrel]
          ac_rfl
      _ = due (P.step s op).2.shared + (old + due s.shared) := by
          rw [h]
          ac_rfl
  exact add_right_cancel hbooks

/-- **The bound rule**: over a run, `done` and what the tasks have left stay within `due`. -/
theorem exec_bound {done due : σ → Nat} {weight : Task θ α → Nat}
    (hkeeps : P.Keeps (· ≤ ·) I Q O done due weight) {start : Tasks σ θ α}
    (hsound : ∀ ops : List (TaskOp ρ ε), Holds I Q O (exec P.step start ops))
    (hstart : done start.shared + total weight start.tasks ≤ due start.shared)
    (ops : List (TaskOp ρ ε)) :
    done (exec P.step start ops).shared + total weight (exec P.step start ops).tasks
      ≤ due (exec P.step start ops).shared := by
  refine exec_history P.step
    (fun _ s => done s.shared + total weight s.tasks ≤ due s.shared) start hstart ?_ ops
  intro ops op h
  obtain ⟨old, new, hrel, htotal⟩ := hkeeps.step Nat.le_refl op (hsound ops)
  generalize exec P.step start ops = s at h hrel htotal ⊢
  omega

end TaskProgram

end AvMesh.Lib
