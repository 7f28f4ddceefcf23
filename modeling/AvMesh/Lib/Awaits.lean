/-
  AvMesh.Lib.Awaits
  ─────────────────
  **A TASK THAT SHARES A STATE WITH OTHER TASKS.**

  An asynchronous function touches the shared state at its await points only,
  and before each of them any other task may have changed the state:

    • `Others`   — what the others do, and how often what is waited for happens
                   in time; both may depend on everything that was observed,
    • `Awaits`   — a function with its await points.  It keeps a list of LOOKS:
                   each await point passed, with the state found there,
    • `Growth`   — an order in which no move of anyone goes back.

  `Ensures` is the judgement about a function among others that only let the
  state grow; the rules (`bind`, `andThen`, `untilSome`) say how the looks of its
  parts compose.  A fact that a growing state keeps, once looked at, still holds
  in the last state (`Grown`).
-/
import Mathlib.Data.List.Basic

namespace AvMesh.Lib

variable {ι σ α β : Type}

/-! ## §1. The functions. -/

/-- The other tasks: their moves before an await point, and the number of times the wait that
begins is ended by what it waits for and not by its deadline. -/
structure Others (ι σ : Type) where
  move : List (ι × σ) → σ → σ
  wakeups : List (ι × σ) → Nat

/-- The shared state, and what the task has seen of it. -/
structure Shared (ι σ : Type) where
  state : σ
  looks : List (ι × σ)

def Awaits (ι σ α : Type) : Type := Others ι σ → Shared ι σ → α × Shared ι σ

namespace Awaits

instance : Monad (Awaits ι σ) where
  pure a := fun _ w => (a, w)
  bind m f := fun others w => f (m others w).1 others (m others w).2

/-- An await point: the others move, then the task reads and writes. -/
def await (point : ι) (act : σ → α × σ) : Awaits ι σ α := fun others w =>
  let s := others.move w.looks w.state
  ((act s).1, ⟨(act s).2, w.looks ++ [(point, s)]⟩)

/-- An await point at which the task only reads. -/
def look (point : ι) (read : σ → α) : Awaits ι σ α := await point fun s => (read s, s)

/-- An await point at which the task only writes. -/
def write (point : ι) (act : σ → σ) : Awaits ι σ Unit := await point fun s => ((), act s)

def wakeups : Awaits ι σ Nat := fun others w => (others.wakeups w.looks, w)

/-- `m?`, followed by the rest of the function. -/
def andThen (m : Awaits ι σ (Option α)) (f : α → Awaits ι σ (Option β)) : Awaits ι σ (Option β) :=
  m >>= fun
    | some a => f a
    | none => pure none

/-- The attempts of a loop that waits between two of them, with the wakeups of the wait. -/
def untilSome (point : ι) (attempt : Awaits ι σ (Option α)) : Nat → Awaits ι σ (Option α)
  | 0 => attempt
  | wakeups + 1 =>
      attempt >>= fun
        | some a => pure (some a)
        | none => write point id >>= fun _ => untilSome point attempt wakeups

end Awaits

/-! ## §2. Growth. -/

/-- An order on states. -/
structure Growth (σ : Type) where
  le : σ → σ → Prop
  refl : ∀ s, le s s
  trans : ∀ {a b c}, le a b → le b c → le a c

/-- The others never go back. -/
def Others.Only (others : Others ι σ) (G : Growth σ) : Prop :=
  ∀ looks s, G.le s (others.move looks s)

/-- The state has grown, and what was looked at lies in between. -/
structure Grown (G : Growth σ) (before : σ) (looks : List (ι × σ)) (after : σ) : Prop where
  state : G.le before after
  looks : ∀ look ∈ looks, G.le before look.2 ∧ G.le look.2 after

section Growth

variable {G : Growth σ} {before middle after : σ} {looks looks' : List (ι × σ)}

theorem Grown.nil (s : σ) : Grown G s ([] : List (ι × σ)) s :=
  ⟨G.refl s, fun _ h => by cases h⟩

theorem Grown.append (h : Grown G before looks middle) (h' : Grown G middle looks' after) :
    Grown G before (looks ++ looks') after := by
  refine ⟨G.trans h.state h'.state, fun look hlook => ?_⟩
  rcases List.mem_append.1 hlook with hfirst | hsecond
  · obtain ⟨hbefore, hmiddle⟩ := h.looks look hfirst
    exact ⟨hbefore, G.trans hmiddle h'.state⟩
  · obtain ⟨hmiddle, hafter⟩ := h'.looks look hsecond
    exact ⟨G.trans h.state hmiddle, hafter⟩

end Growth

/-! ## §3. The judgement. -/

/-- Among others that only let the state grow, the function does so too, and its result, its looks
and the state it leaves are as stated. -/
def Ensures (G : Growth σ) (m : Awaits ι σ α) (Q : α → List (ι × σ) → σ → Prop) : Prop :=
  ∀ others : Others ι σ, others.Only G → ∀ w, ∃ looks,
    (m others w).2.looks = w.looks ++ looks ∧ Grown G w.state looks (m others w).2.state ∧
      Q (m others w).1 looks (m others w).2.state

namespace Ensures

variable {G : Growth σ} {P : α → List (ι × σ) → σ → Prop} {Q : β → List (ι × σ) → σ → Prop}

theorem mono {m : Awaits ι σ α} {P' : α → List (ι × σ) → σ → Prop} (h : Ensures G m P)
    (himp : ∀ a looks s, P a looks s → P' a looks s) : Ensures G m P' := by
  intro others honly w
  obtain ⟨looks, hlooks, hgrown, hP⟩ := h others honly w
  exact ⟨looks, hlooks, hgrown, himp _ _ _ hP⟩

/-- What was looked at has only grown since. -/
theorem grown {m : Awaits ι σ α} (h : Ensures G m P) :
    Ensures G m fun a looks s => P a looks s ∧ ∀ look ∈ looks, G.le look.2 s := by
  intro others honly w
  obtain ⟨looks, hlooks, hgrown, hP⟩ := h others honly w
  exact ⟨looks, hlooks, hgrown, hP, fun look hlook => (hgrown.looks look hlook).2⟩

/-- The judgement on one run, with the looks that the run has added. -/
theorem run {m : Awaits ι σ α} (h : Ensures G m P) {others : Others ι σ} (honly : others.Only G)
    (w : Shared ι σ) :
    P (m others w).1 ((m others w).2.looks.drop w.looks.length) (m others w).2.state := by
  obtain ⟨looks, hlooks, _, hP⟩ := h others honly w
  rw [hlooks, List.drop_left]
  exact hP

theorem pure {a : α} (h : ∀ s, P a [] s) : Ensures G (Pure.pure a : Awaits ι σ α) P := by
  intro others honly w
  exact ⟨[], (List.append_nil _).symm, Grown.nil _, h w.state⟩

theorem await {point : ι} {act : σ → α × σ} (hact : ∀ s, G.le s (act s).2)
    (h : ∀ s, P (act s).1 [(point, s)] (act s).2) : Ensures G (Awaits.await point act) P := by
  intro others honly w
  refine ⟨[(point, others.move w.looks w.state)], rfl, ⟨?_, fun look hlook => ?_⟩, h _⟩
  · exact G.trans (honly w.looks w.state) (hact _)
  · obtain rfl := List.mem_singleton.1 hlook
    exact ⟨honly w.looks w.state, hact _⟩

theorem look {point : ι} {read : σ → α} (h : ∀ s, P (read s) [(point, s)] s) :
    Ensures G (Awaits.look point read) P :=
  await G.refl h

theorem write {point : ι} {act : σ → σ} {P : Unit → List (ι × σ) → σ → Prop}
    (hact : ∀ s, G.le s (act s)) (h : ∀ s, P () [(point, s)] (act s)) :
    Ensures G (Awaits.write point act) P :=
  await hact h

/-- Two functions in turn. -/
theorem bind {m : Awaits ι σ α} {f : α → Awaits ι σ β} {S : α → β → List (ι × σ) → σ → Prop}
    (hm : Ensures G m P) (hf : ∀ a, Ensures G (f a) (S a))
    (h : ∀ a looks s b looks' s', P a looks s → Grown G s looks' s' → S a b looks' s' →
      Q b (looks ++ looks') s') : Ensures G (m >>= f) Q := by
  intro others honly w
  obtain ⟨looks, hlooks, hgrown, hP⟩ := hm others honly w
  obtain ⟨looks', hlooks', hgrown', hP'⟩ := hf (m others w).1 others honly (m others w).2
  refine ⟨looks ++ looks', ?_, hgrown.append hgrown', h _ _ _ _ _ _ hP hgrown' hP'⟩
  show (f (m others w).1 others (m others w).2).2.looks = _
  rw [hlooks', hlooks, List.append_assoc]

/-- A result that is only rewritten. -/
theorem map {m : Awaits ι σ α} (h : Ensures G m P) (f : α → β) :
    Ensures G (m >>= fun a => Pure.pure (f a)) fun b looks s => ∃ a, b = f a ∧ P a looks s := by
  intro others honly w
  obtain ⟨looks, hlooks, hgrown, hP⟩ := h others honly w
  exact ⟨looks, hlooks, hgrown, _, rfl, hP⟩

/-- Reading the number of wakeups looks at nothing. -/
theorem wakeups {f : Nat → Awaits ι σ β} (h : ∀ n, Ensures G (f n) Q) :
    Ensures G (Awaits.wakeups >>= f) Q := by
  intro others honly w
  exact h (others.wakeups w.looks) others honly w

/-- `?`: the rest of the function runs on a value, and nothing runs without one. -/
theorem andThen {m : Awaits ι σ (Option α)} {f : α → Awaits ι σ (Option β)}
    {P : Option α → List (ι × σ) → σ → Prop} {Q : Option β → List (ι × σ) → σ → Prop}
    {S : α → Option β → List (ι × σ) → σ → Prop} (hm : Ensures G m P)
    (hf : ∀ a, Ensures G (f a) (S a)) (hnone : ∀ looks s, P none looks s → Q none looks s)
    (h : ∀ a looks s b looks' s', P (some a) looks s → Grown G s looks' s' → S a b looks' s' →
      Q b (looks ++ looks') s') : Ensures G (Awaits.andThen m f) Q := by
  intro others honly w
  obtain ⟨looks, hlooks, hgrown, hP⟩ := hm others honly w
  have hrun : Awaits.andThen m f others w = (match (m others w).1 with
      | some a => f a
      | none => Pure.pure none) others (m others w).2 := rfl
  rw [hrun]
  cases hresult : (m others w).1 with
  | none =>
      rw [hresult] at hP
      exact ⟨looks, hlooks, hgrown, hnone looks _ hP⟩
  | some a =>
      rw [hresult] at hP
      obtain ⟨looks', hlooks', hgrown', hP'⟩ := hf a others honly (m others w).2
      refine ⟨looks ++ looks', ?_, hgrown.append hgrown', h _ _ _ _ _ _ hP hgrown' hP'⟩
      rw [hlooks', hlooks, List.append_assoc]

/-- `?`, with a result that is only rewritten. -/
theorem mapSome {m : Awaits ι σ (Option α)} {P : Option α → List (ι × σ) → σ → Prop}
    (h : Ensures G m P) (f : α → β) :
    Ensures G (Awaits.andThen m fun a => Pure.pure (some (f a))) fun b looks s =>
      ∃ a, b = a.map f ∧ P a looks s := by
  intro others honly w
  obtain ⟨looks, hlooks, hgrown, hP⟩ := h others honly w
  have hrun : Awaits.andThen m (fun a => Pure.pure (some (f a))) others w =
      ((m others w).1.map f, (m others w).2) := by
    show (match (m others w).1 with
      | some a => Pure.pure (some (f a))
      | none => Pure.pure none : Awaits ι σ (Option β)) others (m others w).2 = _
    cases (m others w).1 <;> rfl
  rw [hrun]
  exact ⟨looks, hlooks, hgrown, _, rfl, hP⟩

/-- A loop that waits: what is known of an attempt without a result is known of the attempts so far
and is taken along to the next. -/
theorem untilSome {point : ι} {attempt : Awaits ι σ (Option α)}
    {P : Option α → List (ι × σ) → σ → Prop} (hattempt : Ensures G attempt P)
    (h : ∀ looks s a looks' s' between, P none looks s → G.le s between → Grown G between looks' s' →
      P a looks' s' → P a (looks ++ (point, between) :: looks') s') (wakeups : Nat) :
    Ensures G (Awaits.untilSome point attempt wakeups) P := by
  induction wakeups with
  | zero => exact hattempt
  | succ wakeups ih =>
      intro others honly w
      obtain ⟨looks, hlooks, hgrown, hP⟩ := hattempt others honly w
      have hrun : Awaits.untilSome point attempt (wakeups + 1) others w =
          (match (attempt others w).1 with
            | some a => Pure.pure (some a)
            | none => Awaits.write point id >>= fun _ =>
                Awaits.untilSome point attempt wakeups) others (attempt others w).2 := rfl
      rw [hrun]
      cases hresult : (attempt others w).1 with
      | some a =>
          rw [hresult] at hP
          exact ⟨looks, hlooks, hgrown, hP⟩
      | none =>
          rw [hresult] at hP
          obtain ⟨⟨state, seen⟩, hw⟩ : ∃ w', (attempt others w).2 = w' := ⟨_, rfl⟩
          rw [hw] at hlooks hgrown hP ⊢
          -- the others move before the loop goes on
          obtain ⟨looks', hlooks', hgrown', hP'⟩ := ih others honly
            ⟨others.move seen state, seen ++ [(point, others.move seen state)]⟩
          have hmove := honly seen state
          have hwait : Grown G state [(point, others.move seen state)] (others.move seen state) := by
            refine ⟨hmove, fun look hlook => ?_⟩
            obtain rfl := List.mem_singleton.1 hlook
            exact ⟨hmove, G.refl _⟩
          refine ⟨looks ++ (point, others.move seen state) :: looks', ?_,
            hgrown.append (hwait.append hgrown'), h _ _ _ _ _ _ hP hmove hgrown' hP'⟩
          show (Awaits.untilSome point attempt wakeups others _).2.looks = _
          refine hlooks'.trans ?_
          simp only at hlooks
          rw [hlooks]
          simp

end Ensures

end AvMesh.Lib
