/-
  AvMesh.Lib.KeyWindow
  ────────────────────
  **A WINDOW OVER NUMBERED ITEMS THAT ARRIVE IN ANY ORDER.**

  An ordered map keeps the items whose number lies within a fixed width of the
  greatest number it holds.  An item that arrives under a vacant number is
  inserted, then everything below the window is dropped, which may be the item
  itself; an item under a number that is there is ignored.

    • `offer`     — one arrival,
    • `Windowed`  — the map is what the arrivals so far say: the numbers within
                    the width of the greatest one, each with its FIRST item.

  `Windowed.offer` is the step; `offer_known` and `offer_late` say what a second
  arrival does inside the window and below it: nothing.
-/
import AvMesh.Lib.OrderedMap
import Mathlib.Algebra.GroupWithZero.Nat
import Mathlib.Algebra.Order.BigOperators.Group.List
import Mathlib.Data.List.Nodup

namespace AvMesh.Lib

variable {V : Type} {width k j : Nat} {v x : V} {log entries : List (Nat × V)}

/-! ## §1. Ascending entries and sums. -/

/-- Dropping from the front what is below a bound is dropping all of it. -/
theorem Ascending.dropWhile_lt (h : Ascending entries) (bound : Nat) :
    entries.dropWhile (fun entry => entry.1 < bound) =
      entries.filter (fun entry => !decide (entry.1 < bound)) := by
  induction entries with
  | nil => rfl
  | cons first rest ih =>
      obtain ⟨hfirst, hrest⟩ := List.pairwise_cons.1 h
      by_cases hlt : first.1 < bound
      · rw [List.dropWhile_cons, if_pos (decide_eq_true hlt), ih hrest,
          List.filter_cons_of_neg (by simpa using hlt)]
      · -- the rest has greater keys
        rw [List.dropWhile_cons_of_neg (by simpa using hlt), eq_comm, List.filter_eq_self]
        intro entry hentry
        rcases List.mem_cons.1 hentry with rfl | hentry
        · simpa using hlt
        · have hbehind : first.1 < entry.1 := hfirst entry hentry
          simp only [Bool.not_eq_true', decide_eq_false_iff_not]
          omega

/-- Keys between two bounds: there are no more entries than numbers. -/
theorem Ascending.length_le (h : Ascending entries) {low high : Nat}
    (hlow : ∀ entry ∈ entries, low ≤ entry.1)
    (hhigh : ∀ entry ∈ entries, entry.1 < high) :
    entries.length ≤ high - low := by
  have hkeys : (entries.map (·.1)).Nodup := by
    have hlt : (entries.map (·.1)).Pairwise (· < ·) := by
      rw [List.pairwise_map]
      exact h
    exact hlt.imp fun hlt => Nat.ne_of_lt hlt
  have hsub : entries.map (·.1) ⊆ List.range' low (high - low) := by
    intro key hkey
    obtain ⟨entry, hentry, rfl⟩ := List.mem_map.1 hkey
    have hl := hlow entry hentry
    have hh := hhigh entry hentry
    rw [List.mem_range'_1]
    omega
  have hle := (List.subperm_of_subset hkeys hsub).length_le
  rwa [List.length_map, List.length_range'] at hle

/-- The total of a size over the entries. -/
def total (size : V → Nat) (entries : List (Nat × V)) : Nat :=
  (entries.map fun entry => size entry.2).sum

theorem total_append (size : V → Nat) (left right : List (Nat × V)) :
    total size (left ++ right) = total size left + total size right := by
  unfold total
  rw [List.map_append, List.sum_append]

theorem total_insertAscending (size : V → Nat) :
    total size (insertAscending entries k v) = total size entries + size v := by
  have hsplit : total size entries
      = total size (entries.takeWhile fun entry => entry.1 < k)
        + total size (entries.dropWhile fun entry => entry.1 < k) := by
    rw [← total_append, List.takeWhile_append_dropWhile]
  have hcons : total size ((k, v) :: entries.dropWhile fun entry => entry.1 < k)
      = size v + total size (entries.dropWhile fun entry => entry.1 < k) := by
    unfold total
    rw [List.map_cons, List.sum_cons]
  rw [insertAscending, total_append, hcons, hsplit]
  omega

/-! ## §2. The window. -/

/-- The last key. -/
def lastKey (entries : List (Nat × V)) : Option Nat := entries.getLast?.map (·.1)

/-- What is below the window that ends at the last key. -/
def below (width : Nat) (entries : List (Nat × V)) (k : Nat) : List (Nat × V) :=
  entries.takeWhile fun entry => entry.1 < (lastKey entries).getD k - (max width 1 - 1)

/-- What is in it. -/
def within (width : Nat) (entries : List (Nat × V)) (k : Nat) : List (Nat × V) :=
  entries.dropWhile fun entry => entry.1 < (lastKey entries).getD k - (max width 1 - 1)

/-- Insertion if the key is vacant. -/
def insertVacant (entries : List (Nat × V)) (k : Nat) (v : V) : List (Nat × V) :=
  match entries.lookup k with
  | some _ => entries
  | none => insertAscending entries k v

/-- One arrival. -/
def offer (width : Nat) (entries : List (Nat × V)) (k : Nat) (v : V) : List (Nat × V) :=
  within width (insertVacant entries k v) k

/-- The greatest number that has arrived. -/
def top (log : List (Nat × V)) : Nat := (log.map (·.1)).foldr max 0

theorem top_append : top (log ++ [(k, v)]) = max (top log) k := by
  induction log with
  | nil => simp [top]
  | cons first rest ih =>
      unfold top at ih ⊢
      rw [List.cons_append, List.map_cons, List.map_cons, List.foldr_cons, List.foldr_cons, ih]
      omega

theorem le_top {entry : Nat × V} (h : entry ∈ log) : entry.1 ≤ top log := by
  induction log with
  | nil => cases h
  | cons first rest ih =>
      unfold top at ih ⊢
      rw [List.map_cons, List.foldr_cons]
      rcases List.mem_cons.1 h with rfl | h
      · omega
      · have hle := ih h
        omega

/-- Some item has the greatest number. -/
theorem exists_lookup_top (h : log ≠ []) : ∃ v, log.lookup (top log) = some v := by
  have hmem : ∃ v, (top log, v) ∈ log := by
    induction log with
    | nil => exact absurd rfl h
    | cons first rest ih =>
        have htop : top (first :: rest) = max first.1 (top rest) := rfl
        by_cases hfirst : top rest ≤ first.1
        · refine ⟨first.2, ?_⟩
          rw [htop, max_eq_left hfirst]
          exact List.mem_cons_self
        · have hrest : rest ≠ [] := by
            rintro rfl
            exact hfirst (Nat.zero_le _)
          obtain ⟨v, hv⟩ := ih hrest
          refine ⟨v, ?_⟩
          rw [htop, max_eq_right (by omega)]
          exact List.mem_cons_of_mem _ hv
  obtain ⟨v, hv⟩ := hmem
  cases hlookup : log.lookup (top log) with
  | none =>
      rw [List.lookup_eq_none_iff] at hlookup
      exact absurd (hlookup _ hv) (by simp)
  | some v' => exact ⟨v', rfl⟩

/-- **The map is the window of the arrivals**: the numbers within the width of the
greatest one, each with its first item. -/
structure Windowed (width : Nat) (log entries : List (Nat × V)) : Prop where
  ascending : Ascending entries
  mem_iff : ∀ k v, (k, v) ∈ entries ↔ top log < k + max width 1 ∧ log.lookup k = some v

theorem Windowed.nil : Windowed width ([] : List (Nat × V)) [] :=
  ⟨List.Pairwise.nil, fun k v => by simp⟩

theorem Windowed.lookup (h : Windowed width log entries) (k : Nat) :
    entries.lookup k = if top log < k + max width 1 then log.lookup k else none := by
  refine Option.ext fun v => ?_
  rw [h.ascending.lookup_eq_some_iff, h.mem_iff]
  split
  · next hin => exact and_iff_right hin
  · next hout => simp [hout]

theorem Windowed.key_le (h : Windowed width log entries) {entry : Nat × V}
    (hentry : entry ∈ entries) : entry.1 ≤ top log := by
  obtain ⟨-, hlookup⟩ := (h.mem_iff entry.1 entry.2).1 hentry
  have hmem : ∃ first ∈ log, first.1 = entry.1 := by
    by_contra hnot
    rw [List.lookup_eq_none_iff.2] at hlookup
    · cases hlookup
    · intro first hfirst
      have hne : ¬ first.1 = entry.1 := fun heq => hnot ⟨first, hfirst, heq⟩
      simpa using fun heq => hne heq.symm
  obtain ⟨first, hfirst, heq⟩ := hmem
  rw [← heq]
  exact le_top hfirst

theorem Windowed.length_le (h : Windowed width log entries) :
    entries.length ≤ max width 1 := by
  have hle := h.ascending.length_le
    (fun entry hentry => by
      have hin := ((h.mem_iff entry.1 entry.2).1 hentry).1
      show top log + 1 - max width 1 ≤ entry.1
      omega)
    (fun entry hentry => Nat.lt_succ_of_le (h.key_le hentry))
  omega

/-! ## §3. One arrival. -/

theorem Ascending.insertVacant (h : Ascending entries) : Ascending (insertVacant entries k v) := by
  unfold Lib.insertVacant
  cases hlookup : entries.lookup k with
  | some x => exact h
  | none =>
      refine h.insert fun x hx => ?_
      rw [h.lookup_eq_some_iff.2 hx] at hlookup
      cases hlookup

/-- What the map holds before it is trimmed. -/
theorem mem_insertVacant :
    (j, x) ∈ insertVacant entries k v ↔
      (j, x) ∈ entries ∨ (j = k ∧ x = v ∧ entries.lookup k = none) := by
  unfold insertVacant
  cases hlookup : entries.lookup k with
  | some y => simp
  | none =>
      show (j, x) ∈ insertAscending entries k v ↔ _
      rw [mem_insertAscending, Prod.mk.injEq, or_comm]
      simp

/-- A map whose greatest key is the last one. -/
theorem lastKey_eq (h : Ascending entries) (hmem : (j, x) ∈ entries)
    (hmax : ∀ entry ∈ entries, entry.1 ≤ j) : lastKey entries = some j := by
  unfold lastKey
  cases hlast : entries.getLast? with
  | none =>
      rw [List.getLast?_eq_none_iff] at hlast
      rw [hlast] at hmem
      cases hmem
  | some last =>
      have hle := hmax last (List.mem_of_getLast? hlast)
      rcases h.eq_or_lt_last hmem hlast with heq | hlt
      · rw [← heq]
        rfl
      · exact absurd hlt (by show ¬ j < last.1; omega)

/-- The last key after an insertion. -/
theorem Ascending.lastKey_insertVacant (h : Ascending entries) :
    lastKey (Lib.insertVacant entries k v) =
      some (match lastKey entries with
        | some last => max last k
        | none => k) := by
  cases hlast : entries.getLast? with
  | none =>
      rw [List.getLast?_eq_none_iff] at hlast
      subst hlast
      rfl
  | some last =>
      have hmem := List.mem_of_getLast? hlast
      have hle : ∀ entry ∈ entries, entry.1 ≤ last.1 := by
        intro entry hentry
        rcases h.eq_or_lt_last hentry hlast with rfl | hlt
        · exact Nat.le_refl _
        · exact Nat.le_of_lt hlt
      have hkey : lastKey entries = some last.1 := by
        rw [lastKey, hlast]
        rfl
      rw [hkey]
      show _ = some (max last.1 k)
      have hgreatest : ∃ x, (max last.1 k, x) ∈ Lib.insertVacant entries k v := by
        by_cases hk : k ≤ last.1
        · rw [max_eq_left hk]
          exact ⟨last.2, mem_insertVacant.2 (.inl hmem)⟩
        · rw [max_eq_right (by omega)]
          -- a key behind the last one is vacant
          refine ⟨v, mem_insertVacant.2 (.inr ⟨rfl, rfl, ?_⟩)⟩
          refine List.lookup_eq_none_iff.2 fun entry hentry => ?_
          have hbound := hle entry hentry
          simp only [bne_iff_ne, ne_eq]
          omega
      obtain ⟨x, hx⟩ := hgreatest
      refine lastKey_eq h.insertVacant hx fun entry hentry => ?_
      rcases mem_insertVacant.1 hentry with hold | ⟨heq, -, -⟩
      · have hbound := hle entry hold
        omega
      · omega

/-- The last entry stays in the window. -/
theorem lastKey_within : lastKey (within width entries k) = lastKey entries := by
  unfold within
  cases entries using List.reverseRecOn with
  | nil => rfl
  | append_singleton front last =>
      have hkey : lastKey (front ++ [last]) = some last.1 := by
        rw [lastKey, List.getLast?_concat]
        rfl
      rw [hkey, Option.getD_some, List.dropWhile_append]
      split
      · rw [List.dropWhile_cons_of_neg (by simp)]
        rfl
      · rw [lastKey, List.getLast?_concat]
        rfl

theorem Ascending.offer (h : Ascending entries) : Ascending (Lib.offer width entries k v) := by
  unfold Lib.offer Lib.within
  exact h.insertVacant.sublist (List.dropWhile_sublist _)

theorem Ascending.lastKey_offer (h : Ascending entries) :
    lastKey (Lib.offer width entries k v) =
      some (match lastKey entries with
        | some last => max last k
        | none => k) := by
  unfold Lib.offer
  rw [lastKey_within, h.lastKey_insertVacant]

/-- The last key of the map is the greatest number that has arrived. -/
theorem Windowed.lastKey_eq_top (h : Windowed width log entries) (hne : entries ≠ []) :
    lastKey entries = some (top log) := by
  have hlog : log ≠ [] := by
    rintro rfl
    obtain ⟨entry, hentry⟩ := List.exists_mem_of_ne_nil entries hne
    have hlookup := ((h.mem_iff entry.1 entry.2).1 hentry).2
    cases hlookup
  obtain ⟨x, hx⟩ := exists_lookup_top hlog
  exact lastKey_eq h.ascending ((h.mem_iff _ _).2 ⟨by omega, hx⟩) fun entry => h.key_le

theorem Windowed.insertVacant_lastKey (h : Windowed width log entries) (k : Nat) (v : V) :
    lastKey (insertVacant entries k v) = some (max (top log) k) := by
  rw [h.ascending.lastKey_insertVacant]
  by_cases hne : entries = []
  · have hlog : log = [] := by
      by_contra hlog
      obtain ⟨x, hx⟩ := exists_lookup_top hlog
      have hmem : (top log, x) ∈ entries := (h.mem_iff _ _).2 ⟨by omega, hx⟩
      rw [hne] at hmem
      cases hmem
    subst hne hlog
    show some k = some (max 0 k)
    rw [Nat.zero_max]
  · rw [h.lastKey_eq_top hne]

/-- What an arrival leaves, without the order of the work. -/
theorem Windowed.mem_offer (h : Windowed width log entries) :
    (j, x) ∈ Lib.offer width entries k v ↔
      (j, x) ∈ insertVacant entries k v ∧ max (top log) k < j + max width 1 := by
  unfold Lib.offer within
  rw [h.insertVacant_lastKey, h.ascending.insertVacant.dropWhile_lt, List.mem_filter]
  refine and_congr_right fun _ => ?_
  simp only [Option.getD_some, Bool.not_eq_true', decide_eq_false_iff_not]
  omega

/-- **One arrival keeps the window.** -/
theorem Windowed.offer (h : Windowed width log entries) (k : Nat) (v : V) :
    Windowed width (log ++ [(k, v)]) (offer width entries k v) := by
  constructor
  · unfold Lib.offer within
    exact h.ascending.insertVacant.sublist (List.dropWhile_sublist _)
  · intro j x
    rw [h.mem_offer, mem_insertVacant, top_append, List.lookup_append]
    rw [and_comm]
    refine and_congr_right fun hin => ?_
    -- a number in the new window was in the old one
    have hbefore : top log < j + max width 1 := by omega
    rw [h.mem_iff, and_iff_right hbefore, h.lookup]
    cases hlog : log.lookup j with
    | some y =>
        rw [Option.some_or]
        constructor
        · rintro (heq | ⟨rfl, -, hnone⟩)
          · exact heq
          · rw [if_pos hbefore, hlog] at hnone
            cases hnone
        · exact .inl
    | none =>
        rw [Option.none_or]
        constructor
        · rintro (heq | ⟨rfl, rfl, -⟩)
          · cases heq
          · rw [List.lookup_cons_self]
        · intro hnew
          rw [lookup_cons_ite] at hnew
          split at hnew
          · next hjk =>
              subst hjk
              rw [if_pos hbefore, hlog]
              exact .inr ⟨rfl, (Option.some.inj hnew).symm, rfl⟩
          · cases hnew

/-- A number that is in the window: nothing changes, nothing is dropped. -/
theorem Windowed.offer_known (h : Windowed width log entries) (hk : k ∈ log.map (·.1))
    (hin : top log < k + max width 1) (v : V) :
    (∃ x, entries.lookup k = some x) ∧ below width (insertVacant entries k v) k = [] ∧
      Lib.offer width entries k v = entries := by
  have hknown : ∃ x, entries.lookup k = some x := by
    rw [h.lookup, if_pos hin]
    cases hlookup : log.lookup k with
    | some x => exact ⟨x, rfl⟩
    | none =>
        obtain ⟨entry, hentry, rfl⟩ := List.mem_map.1 hk
        rw [List.lookup_eq_none_iff] at hlookup
        exact absurd (hlookup entry hentry) (by simp)
  have hsame : insertVacant entries k v = entries := by
    obtain ⟨x, hx⟩ := hknown
    unfold insertVacant
    rw [hx]
  have hlast := h.insertVacant_lastKey k v
  obtain ⟨entry, hentry, rfl⟩ := List.mem_map.1 hk
  have hle := le_top hentry
  rw [hsame, max_eq_left hle] at hlast
  have hall : ∀ other ∈ entries, ¬ other.1 < top log - (max width 1 - 1) := by
    intro other hother
    have hbound := ((h.mem_iff other.1 other.2).1 hother).1
    omega
  have hbelow : below width entries entry.1 = [] := by
    unfold below
    rw [hlast, List.takeWhile_eq_nil_iff]
    intro hpos
    simpa using hall _ (List.get_mem entries ⟨0, hpos⟩)
  refine ⟨hknown, by rw [hsame]; exact hbelow, ?_⟩
  have hsplit := List.takeWhile_append_dropWhile
    (p := fun other : Nat × V => decide (other.1 < (lastKey entries).getD entry.1
      - (max width 1 - 1))) (l := entries)
  unfold below at hbelow
  rw [hbelow, List.nil_append] at hsplit
  rw [Lib.offer, hsame]
  exact hsplit

/-- A number below the window: the item is inserted and dropped again. -/
theorem Windowed.offer_late (h : Windowed width log entries) (hout : k + max width 1 ≤ top log)
    (v : V) :
    entries.lookup k = none ∧ below width (insertVacant entries k v) k = [(k, v)] ∧
      Lib.offer width entries k v = entries := by
  have hnone : entries.lookup k = none := by
    rw [h.lookup, if_neg (by omega)]
  have hlast := h.insertVacant_lastKey k v
  rw [max_eq_left (by omega)] at hlast
  have hall : ∀ other ∈ entries, k < other.1 ∧ ¬ other.1 < top log - (max width 1 - 1) := by
    intro other hother
    have hbound := ((h.mem_iff other.1 other.2).1 hother).1
    omega
  -- the new item is the first one
  have hfirst : insertVacant entries k v = (k, v) :: entries := by
    unfold insertVacant
    rw [hnone]
    cases entries with
    | nil => rfl
    | cons first rest =>
        show insertAscending (first :: rest) k v = _
        rw [insertAscending_cons, if_neg]
        have hlt := (hall first List.mem_cons_self).1
        omega
  have hdrop : k < top log - (max width 1 - 1) := by omega
  have hkept : ∀ hpos : 0 < entries.length,
      ¬ decide ((entries.get ⟨0, hpos⟩).1 < top log - (max width 1 - 1)) = true := by
    intro hpos
    simpa using (hall _ (List.get_mem entries ⟨0, hpos⟩)).2
  refine ⟨hnone, ?_, ?_⟩
  · unfold below
    rw [hlast, hfirst, Option.getD_some, List.takeWhile_cons, if_pos (decide_eq_true hdrop),
      List.takeWhile_eq_nil_iff.2 hkept]
  · unfold Lib.offer within
    rw [hlast, hfirst, Option.getD_some, List.dropWhile_cons, if_pos (decide_eq_true hdrop),
      List.dropWhile_eq_self_iff.2 hkept]

end AvMesh.Lib
