/-
  AvMesh.Lib.Rising
  ─────────────────
  **ANSWERS WHOSE LEVEL NEVER FALLS.**

  A component answers requests.  Each answer has a level, and the state of the
  component has one that only rises.  An answer made from the state is on the
  level of the state; an answer that was kept and is given again may be below
  it, but not below an answer given since.

    • `Rising`    — the levels of the answers given rise, up to the state's,
    • `CanFollow` — the answers that may be given next.

  Levels are ordered in any way, for instance componentwise.
-/
import Mathlib.Order.Basic

namespace AvMesh.Lib

variable {β L : Type*} [Preorder L] (level : β → L)

structure Rising (answers : List β) (top : L) : Prop where
  sorted : answers.Pairwise fun earlier later => level earlier ≤ level later
  below : ∀ answer ∈ answers, level answer ≤ top

structure CanFollow (answers : List β) (top : L) (answer : β) : Prop where
  above : ∀ earlier ∈ answers, level earlier ≤ level answer
  below : level answer ≤ top

variable {level} {answers : List β} {top top' : L} {answer : β}

theorem Rising.nil (top : L) : Rising level [] top :=
  ⟨List.Pairwise.nil, nofun⟩

/-- The level of the state rises. -/
theorem Rising.raise (h : Rising level answers top) (hle : top ≤ top') :
    Rising level answers top' :=
  ⟨h.sorted, fun answer hanswer => le_trans (h.below answer hanswer) hle⟩

theorem CanFollow.raise (h : CanFollow level answers top answer) (hle : top ≤ top') :
    CanFollow level answers top' answer :=
  ⟨h.above, le_trans h.below hle⟩

/-- An answer made from the state. -/
theorem Rising.canFollow (h : Rising level answers top) (hlevel : level answer = top) :
    CanFollow level answers top answer := by
  refine ⟨fun earlier hearlier => ?_, le_of_eq hlevel⟩
  rw [hlevel]
  exact h.below earlier hearlier

/-- **One more answer.** -/
theorem Rising.give (h : Rising level answers top)
    (hanswer : CanFollow level answers top answer) : Rising level (answers ++ [answer]) top := by
  refine ⟨?_, fun given hgiven => ?_⟩
  · rw [List.pairwise_append]
    refine ⟨h.sorted, List.pairwise_singleton _ _, fun earlier hearlier later hlater => ?_⟩
    rw [List.mem_singleton.1 hlater]
    exact hanswer.above earlier hearlier
  · rcases List.mem_append.1 hgiven with hold | hnew
    · exact h.below given hold
    · rw [List.mem_singleton.1 hnew]
      exact hanswer.below

/-- It may be given again. -/
theorem CanFollow.again (h : CanFollow level answers top answer) :
    CanFollow level (answers ++ [answer]) top answer := by
  refine ⟨fun earlier hearlier => ?_, h.below⟩
  rcases List.mem_append.1 hearlier with hold | hnew
  · exact h.above earlier hold
  · rw [List.mem_singleton.1 hnew]

end AvMesh.Lib
