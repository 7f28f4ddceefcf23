/-
  AvMesh.Lib.Parts
  ────────────────
  **A COMPONENT INSIDE A SYSTEM.**

  A system holds a component as a part of its state, and an operation of the
  system makes some calls of the component, possibly none.  When the calls
  depend on the operation alone, a run of the system is a run of the component
  too, so whatever is proved of the component's runs holds inside the system:

      system      s ──i₁──▶ · ──i₂──▶ ·
      part        t ──────▶ · ──────▶ ·    the calls of i₁, then those of i₂

  Main result:

    • `RunsAs.part_exec` — the part after a run is the component after its
                           calls.
-/
import AvMesh.Lib.StepSystem

namespace AvMesh.Lib

variable {σ ι ο τ κ ο' : Type*}

/-- The part takes the calls of each operation, and no other step. -/
def RunsAs (step : σ → ι → ο × σ) (part : σ → τ) (partStep : τ → κ → ο' × τ)
    (calls : ι → List κ) : Prop :=
  ∀ s i, part (step s i).2 = exec partStep (part s) (calls i)

variable {step : σ → ι → ο × σ} {part : σ → τ} {partStep : τ → κ → ο' × τ} {calls : ι → List κ}

/-- **The part of a system after a run.** -/
theorem RunsAs.part_exec (h : RunsAs step part partStep calls) (ops : List ι) (s : σ) :
    part (exec step s ops) = exec partStep (part s) (ops.flatMap calls) := by
  induction ops generalizing s with
  | nil => rfl
  | cons i ops ih =>
      rw [exec_cons, ih, h s i, List.flatMap_cons, exec_append]

end AvMesh.Lib
