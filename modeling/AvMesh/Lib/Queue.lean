/-
  AvMesh.Lib.Queue
  ────────────────
  **WHAT GOES THROUGH A QUEUE.**

  Each step of a component may append items to a queue it holds and take items
  from its front.  A step CONSERVES the queue when nothing is lost, doubled or
  moved: what it took followed by what is left is what was there followed by
  what it appended.

  `delivered_append_queue` carries this law over a run: what the run took,
  followed by what is left, is what was there, followed by what it appended.
  From an empty queue the items taken are a prefix of the items appended.
-/
import AvMesh.Lib.StepSystem

namespace AvMesh.Lib

variable {σ ι ο α : Type*} (step : σ → ι → ο × σ) (queue : σ → List α)
  (accepts delivers : σ → ι → List α)

/-- Everything a run appended, in order. -/
def accepted (s : σ) (ops : List ι) : List α :=
  (trace step s ops).flatMap fun e => accepts e.1 e.2

/-- Everything a run took, in order. -/
def delivered (s : σ) (ops : List ι) : List α :=
  (trace step s ops).flatMap fun e => delivers e.1 e.2

/-- A step from `s` by `i` loses, doubles and moves nothing. -/
def Conserves (s : σ) (i : ι) : Prop :=
  delivers s i ++ queue (step s i).2 = queue s ++ accepts s i

variable {step queue accepts delivers}

/-- **The queue law**: it holds of a run when it holds of its steps. -/
theorem delivered_append_queue (ops : List ι) :
    ∀ s : σ, (∀ e ∈ trace step s ops, Conserves step queue accepts delivers e.1 e.2) →
      delivered step delivers s ops ++ queue (exec step s ops)
        = queue s ++ accepted step accepts s ops := by
  induction ops with
  | nil =>
      intro s _
      show queue s = queue s ++ []
      rw [List.append_nil]
  | cons i ops ih =>
      intro s h
      simp only [trace_cons, List.mem_cons, forall_eq_or_imp] at h
      have hfirst : delivers s i ++ queue (step s i).2 = queue s ++ accepts s i := h.1
      show (delivers s i ++ delivered step delivers (step s i).2 ops)
          ++ queue (exec step (step s i).2 ops)
        = queue s ++ (accepts s i ++ accepted step accepts (step s i).2 ops)
      rw [List.append_assoc, ih _ h.2, ← List.append_assoc, hfirst, List.append_assoc]

end AvMesh.Lib
