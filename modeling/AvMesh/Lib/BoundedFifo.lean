/-
  AvMesh.Lib.BoundedFifo
  ──────────────────────
  **A BOUNDED FIRST-IN FIRST-OUT MEMORY OF KEYS.**

  `pushBounded cap l k` appends `k` and drops the oldest keys until at most
  `cap` remain.  Programs keep such a list beside a table to bound how many
  finished items they remember.

  A key is still remembered while fewer than `cap` DISTINCT other keys have
  been pushed after it (`mem_foldl_pushBounded`), provided a key is pushed only
  when it is not currently remembered (`FreshPushes`), which is what
  "remembered items are not processed again" gives.  `mem_exec_of_pushes` is
  the same rule for a component whose steps push the keys they emit.
-/
import AvMesh.Lib.StepSystem
import Mathlib.Data.List.Nodup
import Mathlib.Data.Finset.Card

namespace AvMesh.Lib

variable {κ : Type*}

/-! ## §1. The push. -/

/-- Append `k`, then drop the oldest keys beyond `cap`. -/
def pushBounded (cap : Nat) (l : List κ) (k : κ) : List κ :=
  (l ++ [k]).drop (l.length + 1 - cap)

/-- With room for one key at least, dropping first and appending after is the
same push. -/
theorem drop_append_eq_pushBounded {cap : Nat} (hcap : 0 < cap) (l : List κ) (k : κ) :
    l.drop (l.length + 1 - cap) ++ [k] = pushBounded cap l k := by
  unfold pushBounded
  rw [List.drop_append_of_le_length (by omega)]

theorem length_pushBounded_le (cap : Nat) (l : List κ) (k : κ) :
    (pushBounded cap l k).length ≤ cap := by
  unfold pushBounded
  rw [List.length_drop, List.length_append, List.length_singleton]
  omega

theorem nodup_pushBounded (cap : Nat) {l : List κ} {k : κ} (hl : l.Nodup) (hk : k ∉ l) :
    (pushBounded cap l k).Nodup := by
  unfold pushBounded
  refine List.Nodup.sublist (List.drop_sublist _ _) ?_
  rw [List.nodup_append]
  refine ⟨hl, List.nodup_singleton k, ?_⟩
  intro a ha b hb hab
  rw [List.mem_singleton] at hb
  exact hk (hb ▸ hab ▸ ha)

/-- Pushing onto a list that ends in `k :: since` keeps `k` while `since` and
the new key fit behind it. -/
theorem pushBounded_split {cap : Nat} {since : List κ} (front : List κ) (k k' : κ)
    (hfit : since.length + 2 ≤ cap) :
    ∃ front', pushBounded cap (front ++ k :: since) k' = front' ++ k :: (since ++ [k']) := by
  refine ⟨front.drop ((front ++ k :: since).length + 1 - cap), ?_⟩
  unfold pushBounded
  rw [List.append_assoc, List.drop_append_of_le_length]
  · rfl
  · simp only [List.length_append, List.length_cons]
    omega

/-! ## §2. Sequences of pushes. -/

/-- Every key is pushed at a moment when the memory does not hold it. -/
def FreshPushes (cap : Nat) : List κ → List κ → Prop
  | _, [] => True
  | l, k :: ks => k ∉ l ∧ FreshPushes cap (pushBounded cap l k) ks

variable [DecidableEq κ]

theorem foldl_pushBounded_split (cap : Nat) (k : κ) :
    ∀ (ks front since : List κ), (front ++ k :: since).Nodup →
      FreshPushes cap (front ++ k :: since) ks →
      ((since ++ ks).toFinset.erase k).card < cap →
      ∃ front', ks.foldl (pushBounded cap) (front ++ k :: since)
        = front' ++ k :: (since ++ ks) := by
  -- on the keys still to come: `since` collects those already pushed behind `k`
  intro ks
  induction ks with
  | nil =>
      intro front since _ _ _
      exact ⟨front, by rw [List.append_nil]; rfl⟩
  | cons k' ks ih =>
      intro front since hnd hfresh hcard
      obtain ⟨hk', hfresh⟩ := hfresh
      obtain ⟨hksince, hsince⟩ := List.nodup_cons.mp (List.nodup_append.mp hnd).2.1
      -- a fresh push is not `k` itself, which is still remembered
      have hkk' : k' ≠ k := by
        rintro rfl
        exact hk' (List.mem_append_right _ List.mem_cons_self)
      have hnd' : (since ++ [k']).Nodup := by
        rw [List.nodup_append]
        refine ⟨hsince, List.nodup_singleton k', ?_⟩
        intro a ha b hb hab
        rw [List.mem_singleton] at hb
        exact hk' (List.mem_append_right _ (List.mem_cons_of_mem _ (hb ▸ hab ▸ ha)))
      -- the keys behind `k` are distinct, so their number is bounded by the card
      have hfit : since.length + 2 ≤ cap := by
        have hsub : (since ++ [k']).toFinset ⊆ (since ++ k' :: ks).toFinset.erase k := by
          intro a ha
          simp only [List.mem_toFinset, List.mem_append, List.mem_cons, List.not_mem_nil,
            or_false, Finset.mem_erase] at ha ⊢
          refine ⟨?_, by tauto⟩
          rintro rfl
          exact ha.elim hksince fun h => hkk' h.symm
        have hle := Finset.card_le_card hsub
        rw [List.toFinset_card_of_nodup hnd', List.length_append, List.length_singleton] at hle
        omega
      obtain ⟨front', hpush⟩ := pushBounded_split front k k' hfit
      have hnd'' := nodup_pushBounded cap hnd hk'
      rw [hpush] at hnd'' hfresh
      obtain ⟨front'', hfold⟩ := ih front' (since ++ [k']) hnd'' hfresh (by
        rw [List.append_assoc]
        exact hcard)
      refine ⟨front'', ?_⟩
      rw [List.foldl_cons, hpush, hfold, List.append_assoc]
      rfl

/-- **A pushed key is remembered while fewer than `cap` distinct other keys are
pushed after it.** -/
theorem mem_foldl_pushBounded {cap : Nat} {l ks : List κ} {k : κ}
    (hl : l.Nodup) (hk : k ∉ l)
    (hfresh : FreshPushes cap (pushBounded cap l k) ks)
    (hcard : (ks.toFinset.erase k).card < cap) :
    k ∈ ks.foldl (pushBounded cap) (pushBounded cap l k) := by
  have hcap : 0 < cap := by omega
  have hshape : pushBounded cap l k = l.drop (l.length + 1 - cap) ++ k :: [] :=
    (drop_append_eq_pushBounded hcap l k).symm
  have hnd := nodup_pushBounded cap hl hk
  rw [hshape] at hnd hfresh ⊢
  obtain ⟨front, hfold⟩ := foldl_pushBounded_split cap k ks _ [] hnd hfresh hcard
  rw [hfold]
  simp

omit [DecidableEq κ] in
theorem FreshPushes.append {cap : Nat} {ks : List κ} :
    ∀ {l : List κ} {ks' : List κ}, FreshPushes cap l (ks ++ ks') →
      FreshPushes cap l ks ∧ FreshPushes cap (ks.foldl (pushBounded cap) l) ks' := by
  induction ks with
  | nil => exact fun h => ⟨trivial, h⟩
  | cons k ks ih =>
      intro l ks' h
      obtain ⟨hks, hks'⟩ := ih h.2
      exact ⟨⟨h.1, hks⟩, hks'⟩

omit [DecidableEq κ] in
theorem FreshPushes.nodup {cap : Nat} {ks : List κ} :
    ∀ {l : List κ}, FreshPushes cap l ks → l.Nodup → (ks.foldl (pushBounded cap) l).Nodup := by
  induction ks with
  | nil => exact fun _ hl => hl
  | cons k ks ih => exact fun h hl => ih h.2 (nodup_pushBounded cap hl h.1)

/-- **Between two pushes of a key `cap` distinct other keys are pushed.** -/
theorem FreshPushes.gap {cap : Nat} {l before between rest : List κ} {k : κ}
    (h : FreshPushes cap l (before ++ k :: (between ++ k :: rest))) (hl : l.Nodup) :
    cap ≤ (between.toFinset.erase k).card := by
  obtain ⟨hbefore, hk, hafter⟩ := h.append
  obtain ⟨hbetween, hagain, _⟩ := hafter.append
  by_contra hfew
  exact hagain (mem_foldl_pushBounded (hbefore.nodup hl) hk hbetween (Nat.lt_of_not_le hfew))

/-! ## §3. A component that pushes what it emits. -/

section Runs

variable {σ ι ο : Type*} (step : σ → ι → ο × σ) (emit : σ → ι → Option κ)

/-- The keys a run emits, in order. -/
def emitted (s : σ) (ops : List ι) : List κ :=
  (trace step s ops).filterMap fun e => emit e.1 e.2

omit [DecidableEq κ] in
theorem emitted_cons (s : σ) (i : ι) (ops : List ι) :
    emitted step emit s (i :: ops)
      = (emit s i).toList ++ emitted step emit (step s i).2 ops := by
  unfold emitted
  rw [trace_cons, List.filterMap_cons]
  cases emit s i <;> rfl

/-- A step from `s` by `i` pushes onto `memory` the key it emits, which the
memory does not hold, and otherwise leaves the memory alone. -/
def PushesEmitted (cap : Nat) (memory : σ → List κ) (s : σ) (i : ι) : Prop :=
  match emit s i with
  | none => memory (step s i).2 = memory s
  | some k => k ∉ memory s ∧ memory (step s i).2 = pushBounded cap (memory s) k

variable {step emit} {cap : Nat} {memory : σ → List κ}

omit [DecidableEq κ] in
theorem exec_pushes (ops : List ι) :
    ∀ s : σ, (∀ e ∈ trace step s ops, PushesEmitted step emit cap memory e.1 e.2) →
      FreshPushes cap (memory s) (emitted step emit s ops)
        ∧ memory (exec step s ops)
          = (emitted step emit s ops).foldl (pushBounded cap) (memory s) := by
  induction ops with
  | nil => intro s _; exact ⟨trivial, rfl⟩
  | cons i ops ih =>
      intro s h
      simp only [trace_cons, List.mem_cons, forall_eq_or_imp] at h
      obtain ⟨hfirst, hrest⟩ := h
      obtain ⟨hfresh, hmem⟩ := ih _ hrest
      unfold PushesEmitted at hfirst
      cases hemit : emit s i with
      | none =>
          rw [hemit] at hfirst
          rw [emitted_cons, hemit, exec_cons, ← hfirst]
          exact ⟨hfresh, hmem⟩
      | some k =>
          rw [hemit] at hfirst
          rw [hfirst.2] at hfresh hmem
          rw [emitted_cons, hemit, exec_cons, hmem]
          exact ⟨⟨hfirst.1, hfresh⟩, rfl⟩

/-- **A key just pushed is remembered while fewer than `cap` distinct other keys
are emitted after it.** -/
theorem mem_exec_of_pushes {s : σ} {k : κ} {l : List κ} {ops : List ι}
    (hl : l.Nodup) (hk : k ∉ l) (hlast : memory s = pushBounded cap l k)
    (hpush : ∀ e ∈ trace step s ops, PushesEmitted step emit cap memory e.1 e.2)
    (hcard : ((emitted step emit s ops).toFinset.erase k).card < cap) :
    k ∈ memory (exec step s ops) := by
  obtain ⟨hfresh, hmem⟩ := exec_pushes ops s hpush
  rw [hlast] at hfresh hmem
  rw [hmem]
  exact mem_foldl_pushBounded hl hk hfresh hcard

end Runs

end AvMesh.Lib
