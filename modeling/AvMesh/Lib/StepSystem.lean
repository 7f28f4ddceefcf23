/-
  AvMesh.Lib.StepSystem
  ─────────────────────
  **RUNS OF A DETERMINISTIC COMPONENT.**

  A component is a function `step : σ → ι → ο × σ`: it takes a state and an
  operation and gives a reply and the next state.  A run is a list of
  operations.  `exec` is the state a run ends in; `trace` lists, for each
  operation of the run, the state it was applied to.

  The rules below are the only inductions over runs a development needs:

    • `exec_invariant`        — a property every step keeps holds after a run,
    • `exec_invariant_along`  — the same, when the step needs a side condition
                                that every visited (state, operation) meets,
    • `exec_history`          — the same for a property that also speaks about
                                the operations so far.

  `exec_filter` compares a run with the run of some of its operations: what the
  others leave alone is the same in both.

  `mem_log_exec` reads a log that operations append to and clear: an entry of
  it is one that an operation wrote and no later one cleared.

  `interleaving_two_two` lists the orders in which two threads of two steps
  each can run.
-/
import Mathlib.Data.List.Induction

namespace AvMesh.Lib

variable {σ ι ο : Type*} (step : σ → ι → ο × σ)

/-! ## §1. Runs. -/

/-- The state a run ends in. -/
def exec (s : σ) (ops : List ι) : σ :=
  ops.foldl (fun s i => (step s i).2) s

/-- Each operation of a run with the state it is applied to. -/
def trace : σ → List ι → List (σ × ι)
  | _, [] => []
  | s, i :: ops => (s, i) :: trace (step s i).2 ops

@[simp] theorem exec_nil (s : σ) : exec step s [] = s := rfl

@[simp] theorem exec_cons (s : σ) (i : ι) (ops : List ι) :
    exec step s (i :: ops) = exec step (step s i).2 ops := rfl

theorem exec_append (s : σ) (ops₁ ops₂ : List ι) :
    exec step s (ops₁ ++ ops₂) = exec step (exec step s ops₁) ops₂ := by
  unfold exec
  rw [List.foldl_append]

@[simp] theorem trace_nil (s : σ) : trace step s [] = [] := rfl

@[simp] theorem trace_cons (s : σ) (i : ι) (ops : List ι) :
    trace step s (i :: ops) = (s, i) :: trace step (step s i).2 ops := rfl

theorem trace_append (s : σ) (ops₁ ops₂ : List ι) :
    trace step s (ops₁ ++ ops₂)
      = trace step s ops₁ ++ trace step (exec step s ops₁) ops₂ := by
  induction ops₁ generalizing s with
  | nil => rfl
  | cons i ops₁ ih =>
      simp only [List.cons_append, trace_cons, exec_cons]
      rw [ih]

/-- What is read off the steps of a run, when one more operation is appended. -/
theorem filterMap_trace_append_singleton {α : Type*} (read : σ × ι → Option α) (s : σ)
    (ops : List ι) (i : ι) :
    (trace step s (ops ++ [i])).filterMap read
      = (trace step s ops).filterMap read ++ (read (exec step s ops, i)).toList := by
  rw [trace_append, List.filterMap_append, trace_cons, trace_nil]
  cases hread : read (exec step s ops, i) with
  | none => rw [List.filterMap_cons_none hread]; rfl
  | some a => rw [List.filterMap_cons_some hread]; rfl

/-! ## §2. Invariant rules. -/

/-- **The invariant rule**, with a side condition on the visited steps. -/
theorem exec_invariant_along (I : σ → Prop) (P : σ → ι → Prop)
    (hstep : ∀ s i, P s i → I s → I (step s i).2) :
    ∀ (ops : List ι) (s : σ), (∀ e ∈ trace step s ops, P e.1 e.2) →
      I s → I (exec step s ops) := by
  intro ops
  induction ops with
  | nil => intro s _ h; exact h
  | cons i ops ih =>
      intro s hP h
      -- the side condition of the head gives the step, that of the tail the rest
      simp only [trace_cons, List.mem_cons, forall_eq_or_imp] at hP
      exact ih _ hP.2 (hstep s i hP.1 h)

/-- A property that every step keeps holds after every run. -/
theorem exec_invariant (I : σ → Prop) (hstep : ∀ s i, I s → I (step s i).2)
    (ops : List ι) {s : σ} (h : I s) : I (exec step s ops) :=
  exec_invariant_along step I (fun _ _ => True) (fun s i _ hs => hstep s i hs) ops s
    (fun _ _ => trivial) h

/-- Every visited state of a run is itself the end of a run. -/
theorem exists_exec_of_mem_trace {s : σ} {ops : List ι} {e : σ × ι}
    (he : e ∈ trace step s ops) :
    ∃ before after, ops = before ++ e.2 :: after ∧ e.1 = exec step s before := by
  induction ops generalizing s with
  | nil => cases he
  | cons i ops ih =>
      rcases List.mem_cons.mp he with rfl | he
      · exact ⟨[], ops, rfl, rfl⟩
      · obtain ⟨before, after, hops, hst⟩ := ih he
        exact ⟨i :: before, after, by rw [hops]; rfl, hst⟩

/-- A property of the operations so far and the state they lead to, which one more
operation keeps, holds of every run. -/
theorem exec_history (P : List ι → σ → Prop) (s : σ) (hnil : P [] s)
    (hsnoc : ∀ ops i, P ops (exec step s ops) → P (ops ++ [i]) (step (exec step s ops) i).2)
    (ops : List ι) : P ops (exec step s ops) := by
  -- from the end of the run: the property speaks about all operations so far
  induction ops using List.reverseRecOn with
  | nil => exact hnil
  | append_singleton ops i ih =>
      rw [exec_append, exec_cons, exec_nil]
      exact hsnoc ops i ih

/-- **The independence rule.**  A relation between two states that the kept operations preserve
on both sides and the others on the left holds between a run and its kept operations. -/
theorem exec_filter (R : σ → σ → Prop) (kept : ι → Bool)
    (hkept : ∀ s s' i, kept i = true → R s s' → R (step s i).2 (step s' i).2)
    (hother : ∀ s s' i, kept i = false → R s s' → R (step s i).2 s') :
    ∀ (ops : List ι) (s s' : σ), R s s' → R (exec step s ops) (exec step s' (ops.filter kept)) := by
  intro ops
  induction ops with
  | nil => intro s s' h; exact h
  | cons i ops ih =>
      intro s s' h
      cases hi : kept i with
      | true =>
          rw [List.filter_cons_of_pos hi]
          exact ih _ _ (hkept s s' i hi h)
      | false =>
          rw [List.filter_cons_of_neg (by simp [hi])]
          exact ih _ _ (hother s s' i hi h)

/-! ## §3. Logs. -/

/-- An entry of a list that grew by one is the new one or was there. -/
theorem split_of_append_singleton {α : Type*} {l before after : List α} {x y : α}
    (h : l ++ [x] = before ++ y :: after) :
    (l = before ∧ x = y) ∨ ∃ after', l = before ++ y :: after' ∧ after = after' ++ [x] := by
  cases after using List.reverseRecOn with
  | nil =>
      obtain ⟨hl, hx⟩ := List.append_inj' h rfl
      exact .inl ⟨hl, List.singleton_inj.mp hx⟩
  | append_singleton after' z =>
      rw [← List.cons_append, ← List.append_assoc] at h
      obtain ⟨hl, hx⟩ := List.append_inj' h rfl
      exact .inr ⟨after', hl, by rw [List.singleton_inj.mp hx]⟩

/-- **The log rule.**  Each step clears some entries and appends others; then the log holds
what some operation wrote and no later operation cleared. -/
theorem mem_log_exec {α : Type*} (log : σ → List α) (emit : σ → ι → List α)
    (clears : ι → α → Bool)
    (hstep : ∀ s i, log (step s i).2 = ((log s).filter fun x => !clears i x) ++ emit s i)
    {s : σ} (hs : log s = []) (ops : List ι) (x : α) :
    x ∈ log (exec step s ops) ↔
      ∃ before i after, ops = before ++ i :: after ∧ x ∈ emit (exec step s before) i ∧
        ∀ op ∈ after, clears op x = false := by
  induction ops using List.reverseRecOn with
  | nil => simp [hs]
  | append_singleton ops last ih =>
      rw [exec_append, exec_cons, exec_nil, hstep, List.mem_append, List.mem_filter, ih]
      constructor
      · rintro (⟨⟨before, i, after, rfl, hemit, hkept⟩, hlast⟩ | hemit)
        · refine ⟨before, i, after ++ [last], by simp, hemit, ?_⟩
          intro op hop
          rcases List.mem_append.mp hop with hop | hop
          · exact hkept op hop
          · rw [List.mem_singleton.mp hop]
            simpa using hlast
        · exact ⟨ops, last, [], rfl, hemit, nofun⟩
      · rintro ⟨before, i, after, hops, hemit, hkept⟩
        -- the entry was written last, or it was there before
        rcases split_of_append_singleton hops with ⟨rfl, rfl⟩ | ⟨after', rfl, rfl⟩
        · exact .inr hemit
        · refine .inl ⟨⟨before, i, after', rfl, hemit, fun op hop => ?_⟩, ?_⟩
          · exact hkept op (List.mem_append_left _ hop)
          · rw [hkept last (by simp)]
            rfl

/-! ## §4. Interleavings of two threads. -/

section Interleavings

variable {α : Type*} {p : α → Bool} {l as bs : List α} {a b a' b' : α}

/-- The first step of an interleaving is the first step of one of the threads. -/
theorem interleaving_cons (hp : l.filter p = a :: as)
    (hq : (l.filter fun x => !p x) = b :: bs) :
    (∃ l', l = a :: l' ∧ l'.filter p = as ∧ (l'.filter fun x => !p x) = b :: bs) ∨
    (∃ l', l = b :: l' ∧ l'.filter p = a :: as ∧ (l'.filter fun x => !p x) = bs) := by
  cases l with
  | nil => cases hp
  | cons x l =>
      cases hx : p x with
      | true =>
          simp only [List.filter_cons, hx, if_true, Bool.not_true, Bool.false_eq_true, if_false,
            List.cons.injEq] at hp hq
          exact .inl ⟨l, by rw [hp.1], hp.2, hq⟩
      | false =>
          simp only [List.filter_cons, hx, Bool.false_eq_true, if_false, Bool.not_false, if_true,
            List.cons.injEq] at hp hq
          exact .inr ⟨l, by rw [hq.1], hp, hq.2⟩

/-- A thread that is alone is the whole interleaving. -/
theorem interleaving_of_left_nil (hp : l.filter p = []) (hq : (l.filter fun x => !p x) = bs) :
    l = bs := by
  rw [← hq, List.filter_eq_self.mpr]
  intro x hx
  simpa using List.filter_eq_nil_iff.mp hp x hx

theorem interleaving_of_right_nil (hp : l.filter p = as) (hq : (l.filter fun x => !p x) = []) :
    l = as := by
  rw [← hp, List.filter_eq_self.mpr]
  intro x hx
  simpa using List.filter_eq_nil_iff.mp hq x hx

theorem interleaving_left_one (hp : l.filter p = [a']) (hq : (l.filter fun x => !p x) = [b, b']) :
    l = [a', b, b'] ∨ l = [b, a', b'] ∨ l = [b, b', a'] := by
  rcases interleaving_cons hp hq with ⟨l₁, rfl, hp₁, hq₁⟩ | ⟨l₁, rfl, hp₁, hq₁⟩
  · exact .inl (by rw [interleaving_of_left_nil hp₁ hq₁])
  · rcases interleaving_cons hp₁ hq₁ with ⟨l₂, rfl, hp₂, hq₂⟩ | ⟨l₂, rfl, hp₂, hq₂⟩
    · exact .inr (.inl (by rw [interleaving_of_left_nil hp₂ hq₂]))
    · exact .inr (.inr (by rw [interleaving_of_right_nil hp₂ hq₂]))

theorem interleaving_right_one (hp : l.filter p = [a, a'])
    (hq : (l.filter fun x => !p x) = [b']) :
    l = [a, a', b'] ∨ l = [a, b', a'] ∨ l = [b', a, a'] := by
  rcases interleaving_cons hp hq with ⟨l₁, rfl, hp₁, hq₁⟩ | ⟨l₁, rfl, hp₁, hq₁⟩
  · rcases interleaving_cons hp₁ hq₁ with ⟨l₂, rfl, hp₂, hq₂⟩ | ⟨l₂, rfl, hp₂, hq₂⟩
    · exact .inl (by rw [interleaving_of_left_nil hp₂ hq₂])
    · exact .inr (.inl (by rw [interleaving_of_right_nil hp₂ hq₂]))
  · exact .inr (.inr (by rw [interleaving_of_right_nil hp₁ hq₁]))

/-- **The six orders** of two threads of two steps. -/
theorem interleaving_two_two (hp : l.filter p = [a, a'])
    (hq : (l.filter fun x => !p x) = [b, b']) :
    l = [a, a', b, b'] ∨ l = [a, b, a', b'] ∨ l = [a, b, b', a'] ∨
    l = [b, a, a', b'] ∨ l = [b, a, b', a'] ∨ l = [b, b', a, a'] := by
  rcases interleaving_cons hp hq with ⟨l₁, rfl, hp₁, hq₁⟩ | ⟨l₁, rfl, hp₁, hq₁⟩
  · rcases interleaving_left_one hp₁ hq₁ with h | h | h
    · exact .inl (by rw [h])
    · exact .inr (.inl (by rw [h]))
    · exact .inr (.inr (.inl (by rw [h])))
  · rcases interleaving_right_one hp₁ hq₁ with h | h | h
    · exact .inr (.inr (.inr (.inl (by rw [h]))))
    · exact .inr (.inr (.inr (.inr (.inl (by rw [h])))))
    · exact .inr (.inr (.inr (.inr (.inr (by rw [h])))))

end Interleavings

end AvMesh.Lib
