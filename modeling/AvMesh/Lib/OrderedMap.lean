/-
  AvMesh.Lib.OrderedMap
  ─────────────────────
  **ORDERED MAPS: association lists in the order of their keys.**

  A `BTreeMap` that a program walks from its least key is a list of entries in
  ascending order.  This file has

    • the laws of an insertion under a vacant key (`insertAscending`),
    • `pushEntry`, `map.entry(key).or_default().push(x)`, and `groupEntries`,
      the loop that does it for every element of a list, with the exact
      contents of the map that results,
    • `StepGroups`: keys that grow by at most one make runs of the list,
    • `greatest`: the last group, read off the elements.
-/
import Mathlib.Data.List.Chain
import Mathlib.Data.List.Induction
import Mathlib.Data.List.TakeWhile
import Mathlib.Order.Lattice

namespace AvMesh.Lib

variable {K V α : Type} [LinearOrder K]

/-! ## §1. Ascending entries. -/

/-- Every entry has a smaller key than the entries behind it. -/
def Ascending (entries : List (K × V)) : Prop :=
  entries.Pairwise fun left right => left.1 < right.1

theorem lookup_cons_ite (k k' : K) (v : V) (rest : List (K × V)) :
    ((k', v) :: rest).lookup k = if k = k' then some v else rest.lookup k := by
  by_cases hk : k = k'
  · rw [hk, List.lookup_cons_self, if_pos rfl]
  · rw [List.lookup_cons, beq_false_of_ne hk, if_neg hk]

theorem Ascending.lookup_eq_some_iff {entries : List (K × V)} (h : Ascending entries) {k : K}
    {v : V} : entries.lookup k = some v ↔ (k, v) ∈ entries := by
  induction entries with
  | nil => simp
  | cons first rest ih =>
      obtain ⟨k', v'⟩ := first
      obtain ⟨hfirst, hrest⟩ := List.pairwise_cons.1 h
      by_cases hk : k = k'
      · subst hk
        rw [List.lookup_cons_self, List.mem_cons]
        constructor
        · intro hv
          exact Or.inl (by rw [Option.some.inj hv])
        · rintro (heq | hmem)
          · rw [(Prod.mk.inj heq).2]
          · exact absurd (hfirst _ hmem) (lt_irrefl _)
      · rw [List.lookup_cons, beq_false_of_ne hk, ih hrest, List.mem_cons]
        exact ⟨Or.inr, fun hor => hor.resolve_left fun heq => hk (Prod.mk.inj heq).1⟩

/-- No key is greater than the last one. -/
theorem Ascending.eq_or_lt_last {entries : List (K × V)} (h : Ascending entries)
    {entry last : K × V} (hentry : entry ∈ entries) (hlast : entries.getLast? = some last) :
    entry = last ∨ entry.1 < last.1 := by
  obtain ⟨front, rfl⟩ := List.getLast?_eq_some_iff.1 hlast
  rcases List.mem_append.1 hentry with hfront | hlast
  · exact Or.inr ((List.pairwise_append.1 h).2.2 entry hfront last (List.mem_singleton.2 rfl))
  · exact Or.inl (List.mem_singleton.1 hlast)

theorem Ascending.eq_of_mem {entries : List (K × V)} (h : Ascending entries) {k : K} {v v' : V}
    (hv : (k, v) ∈ entries) (hv' : (k, v') ∈ entries) : v = v' := by
  have hlookup := h.lookup_eq_some_iff.2 hv
  rw [h.lookup_eq_some_iff.2 hv'] at hlookup
  exact (Option.some.inj hlookup).symm

/-! ## §2. Insertion. -/

/-- Insertion under a vacant key. -/
def insertAscending (entries : List (K × V)) (key : K) (value : V) : List (K × V) :=
  entries.takeWhile (fun entry => entry.1 < key) ++
    (key, value) :: entries.dropWhile (fun entry => entry.1 < key)

section Insert

variable {entries : List (K × V)} {key : K} {value : V}

theorem insertAscending_cons (first : K × V) (rest : List (K × V)) :
    insertAscending (first :: rest) key value =
      if first.1 < key then first :: insertAscending rest key value
      else (key, value) :: first :: rest := by
  by_cases h : first.1 < key
  · simp [insertAscending, h]
  · simp [insertAscending, h]

theorem mem_insertAscending {entry : K × V} :
    entry ∈ insertAscending entries key value ↔ entry = (key, value) ∨ entry ∈ entries := by
  have hsplit : entry ∈ entries ↔ entry ∈ entries.takeWhile (fun entry => entry.1 < key) ∨
      entry ∈ entries.dropWhile (fun entry => entry.1 < key) := by
    rw [← List.mem_append, List.takeWhile_append_dropWhile]
  rw [insertAscending, List.mem_append, List.mem_cons, hsplit]
  exact or_left_comm

theorem Ascending.insert (h : Ascending entries) (hvacant : ∀ v, (key, v) ∉ entries) :
    Ascending (insertAscending entries key value) := by
  induction entries with
  | nil => exact List.pairwise_singleton _ _
  | cons first rest ih =>
      obtain ⟨hfirst, hrest⟩ := List.pairwise_cons.1 h
      rw [insertAscending_cons]
      split
      · next hlt =>
          refine List.pairwise_cons.2 ⟨fun entry hentry => ?_,
            ih hrest fun v hv => hvacant v (List.mem_cons_of_mem _ hv)⟩
          rcases mem_insertAscending.1 hentry with rfl | hentry
          · exact hlt
          · exact hfirst entry hentry
      · next hge =>
          have hne : first.1 ≠ key := fun heq => hvacant first.2 (by rw [← heq]; exact List.mem_cons_self)
          have hlt : key < first.1 := lt_of_le_of_ne (not_lt.1 hge) hne.symm
          refine List.pairwise_cons.2 ⟨fun entry hentry => ?_, h⟩
          rcases List.mem_cons.1 hentry with rfl | hentry
          · exact hlt
          · exact lt_trans hlt (hfirst entry hentry)

/-- A key behind all others is inserted at the end. -/
theorem insertAscending_last (h : ∀ entry ∈ entries, entry.1 < key) :
    insertAscending entries key value = entries ++ [(key, value)] := by
  have hall : ∀ entry ∈ entries, decide (entry.1 < key) = true := fun entry hentry =>
    decide_eq_true (h entry hentry)
  rw [insertAscending, List.takeWhile_eq_self_iff.2 hall, List.dropWhile_eq_nil_iff.2 hall]

end Insert

/-! ## §3. Grouping. -/

/-- `map.entry(key).or_default().push(x)`. -/
def pushEntry (key : K) (x : α) : List (K × List α) → List (K × List α)
  | [] => [(key, [x])]
  | (k, group) :: rest =>
      if k < key then (k, group) :: pushEntry key x rest
      else if k = key then (k, group ++ [x]) :: rest
      else (key, [x]) :: (k, group) :: rest

/-- The elements of a list that have a key, pushed under it one after the other. -/
def groupEntries (key : α → Option K) (xs : List α) : List (K × List α) :=
  xs.foldl (fun groups x => match key x with
    | none => groups
    | some k => pushEntry k x groups) []

theorem keys_pushEntry {key : K} {x : α} {groups : List (K × List α)} {entry : K × List α}
    (h : entry ∈ pushEntry key x groups) : entry.1 = key ∨ ∃ old ∈ groups, old.1 = entry.1 := by
  induction groups with
  | nil =>
      obtain rfl := List.mem_singleton.1 h
      exact Or.inl rfl
  | cons first rest ih =>
      obtain ⟨k, group⟩ := first
      rw [pushEntry] at h
      split_ifs at h with hlt heq
      · rcases List.mem_cons.1 h with rfl | h
        · exact Or.inr ⟨_, List.mem_cons_self, rfl⟩
        · exact (ih h).imp_right fun ⟨old, hold, hkey⟩ => ⟨old, List.mem_cons_of_mem _ hold, hkey⟩
      · rcases List.mem_cons.1 h with rfl | h
        · exact Or.inl heq
        · exact Or.inr ⟨_, List.mem_cons_of_mem _ h, rfl⟩
      · rcases List.mem_cons.1 h with rfl | h
        · exact Or.inl rfl
        · exact Or.inr ⟨_, h, rfl⟩

theorem Ascending.pushEntry {key : K} {x : α} {groups : List (K × List α)}
    (h : Ascending groups) : Ascending (pushEntry key x groups) := by
  induction groups with
  | nil => exact List.pairwise_singleton _ _
  | cons first rest ih =>
      obtain ⟨k, group⟩ := first
      obtain ⟨hfirst, hrest⟩ := List.pairwise_cons.1 h
      rw [Lib.pushEntry]
      split_ifs with hlt heq
      · refine List.pairwise_cons.2 ⟨fun entry hentry => ?_, ih hrest⟩
        rcases keys_pushEntry hentry with hkey | ⟨old, hold, hkey⟩
        · rw [hkey]
          exact hlt
        · rw [← hkey]
          exact hfirst old hold
      · exact List.pairwise_cons.2 ⟨hfirst, hrest⟩
      · have hlt' : key < k := lt_of_le_of_ne (not_lt.1 hlt) (Ne.symm heq)
        refine List.pairwise_cons.2 ⟨fun entry hentry => ?_, h⟩
        rcases List.mem_cons.1 hentry with rfl | hentry
        · exact hlt'
        · exact lt_trans hlt' (hfirst entry hentry)

theorem lookup_pushEntry {key : K} {x : α} {groups : List (K × List α)} (h : Ascending groups)
    (k : K) : (pushEntry key x groups).lookup k =
      if k = key then some ((groups.lookup key).getD [] ++ [x]) else groups.lookup k := by
  induction groups with
  | nil => rw [pushEntry, lookup_cons_ite, List.lookup_nil, List.lookup_nil]; rfl
  | cons first rest ih =>
      obtain ⟨k', group⟩ := first
      obtain ⟨hfirst, hrest⟩ := List.pairwise_cons.1 h
      rw [pushEntry]
      by_cases hlt : k' < key
      · -- the key lies behind this entry
        have hne : key ≠ k' := (ne_of_lt hlt).symm
        rw [if_pos hlt, lookup_cons_ite, ih hrest, lookup_cons_ite k, lookup_cons_ite key,
          if_neg hne]
        by_cases hk : k = key
        · rw [if_pos hk, if_pos hk, if_neg (hk ▸ hne)]
        · rw [if_neg hk, if_neg hk]
      · rw [if_neg hlt]
        by_cases heq : k' = key
        · subst heq
          rw [if_pos rfl, lookup_cons_ite, lookup_cons_ite k, lookup_cons_ite k', if_pos rfl,
            Option.getD_some]
          by_cases hk : k = k'
          · rw [if_pos hk, if_pos hk]
          · rw [if_neg hk, if_neg hk, if_neg hk]
        · -- the key is new: all keys here are larger
          have hnew : ((k', group) :: rest).lookup key = none := by
            refine Option.eq_none_iff_forall_ne_some.2 fun v hv => ?_
            have hlt' : key < k' := lt_of_le_of_ne (not_lt.1 hlt) (Ne.symm heq)
            rcases List.mem_cons.1 (h.lookup_eq_some_iff.1 hv) with hhead | htail
            · exact heq (Prod.mk.inj hhead).1.symm
            · exact lt_asymm hlt' (hfirst _ htail)
          rw [if_neg heq, lookup_cons_ite, hnew, Option.getD_none, List.nil_append]

/-- What grouping leaves under a key: the elements with that key, if there are any. -/
theorem groupEntries_spec (key : α → Option K) (xs : List α) :
    Ascending (groupEntries key xs) ∧
      ∀ k group, (k, group) ∈ groupEntries key xs ↔
        group = xs.filter (fun x => key x = some k) ∧ group ≠ [] := by
  have hlookup : Ascending (groupEntries key xs) ∧
      ∀ k, ((groupEntries key xs).lookup k).getD [] = xs.filter (fun x => key x = some k) ∧
        (groupEntries key xs).lookup k ≠ some [] := by
    induction xs using List.reverseRecOn with
    | nil => exact ⟨List.Pairwise.nil, fun k => ⟨rfl, by simp [groupEntries]⟩⟩
    | append_singleton xs x ih =>
        obtain ⟨hasc, hgroups⟩ := ih
        have hstep : groupEntries key (xs ++ [x]) = match key x with
            | none => groupEntries key xs
            | some k => pushEntry k x (groupEntries key xs) := by
          rw [groupEntries, List.foldl_append]
          rfl
        rw [hstep]
        cases hkey : key x with
        | none =>
            refine ⟨hasc, fun k => ?_⟩
            rw [List.filter_append, (hgroups k).1]
            simp [hkey, (hgroups k).2]
        | some key' =>
            refine ⟨hasc.pushEntry, fun k => ?_⟩
            rw [lookup_pushEntry hasc, List.filter_append]
            by_cases hk : k = key'
            · rw [if_pos hk, Option.getD_some, ← hk, (hgroups k).1]
              simp [hkey, hk]
            · rw [if_neg hk, (hgroups k).1]
              simp [hkey, Ne.symm hk, (hgroups k).2]
  obtain ⟨hasc, hgroups⟩ := hlookup
  refine ⟨hasc, fun k group => ?_⟩
  rw [← hasc.lookup_eq_some_iff, ← (hgroups k).1]
  have hne := (hgroups k).2
  cases hk : (groupEntries key xs).lookup k with
  | none => simp
  | some found =>
      rw [hk] at hne
      simp only [Option.some.injEq, Option.getD_some]
      constructor
      · rintro rfl
        exact ⟨rfl, fun hnil => hne (by rw [hnil])⟩
      · intro hfound
        exact hfound.1.symm

theorem groupEntries_append_singleton (key : α → Option K) (xs : List α) (x : α) :
    groupEntries key (xs ++ [x]) = match key x with
      | none => groupEntries key xs
      | some k => pushEntry k x (groupEntries key xs) := by
  rw [groupEntries, List.foldl_append]
  rfl

/-- Elements without a key are passed over. -/
theorem groupEntries_filter (key : α → Option K) (xs : List α) :
    groupEntries key (xs.filter fun x => (key x).isSome) = groupEntries key xs := by
  induction xs using List.reverseRecOn with
  | nil => rfl
  | append_singleton xs x ih =>
      rw [List.filter_append, groupEntries_append_singleton]
      cases hkey : key x with
      | none => simpa [hkey] using ih
      | some k =>
          have hkept : [x].filter (fun x => (key x).isSome) = [x] := by simp [hkey]
          rw [hkept, groupEntries_append_singleton, hkey, ih]

/-! ## §4. Keys that grow step by step. -/

/-- Pushing under a key behind all others opens a group at the end. -/
theorem pushEntry_last {key : K} {x : α} {groups : List (K × List α)}
    (h : ∀ group ∈ groups, group.1 < key) : pushEntry key x groups = groups ++ [(key, [x])] := by
  induction groups with
  | nil => rfl
  | cons first rest ih =>
      rw [pushEntry, if_pos (h first List.mem_cons_self),
        ih fun group hgroup => h group (List.mem_cons_of_mem _ hgroup)]
      rfl

/-- Pushing under the last key extends the last group. -/
theorem pushEntry_extend {key : K} {x : α} {group : List α} {groups : List (K × List α)}
    (h : ∀ group ∈ groups, group.1 < key) :
    pushEntry key x (groups ++ [(key, group)]) = groups ++ [(key, group ++ [x])] := by
  induction groups with
  | nil => rw [List.nil_append, pushEntry, if_neg (lt_irrefl key), if_pos rfl, List.nil_append]
  | cons first rest ih =>
      rw [List.cons_append, pushEntry, if_pos (h first List.mem_cons_self),
        ih fun group hgroup => h group (List.mem_cons_of_mem _ hgroup)]
      rfl

/-- The groups of a list whose keys grow by at most one from element to element. -/
structure StepGroups (key : α → Nat) (xs : List α) (groups : List (Nat × List α)) : Prop where
  flatten : groups.flatMap (·.2) = xs
  chain : groups.IsChain fun left right => right.1 = left.1 + 1
  mem : ∀ group ∈ groups, group.2 ≠ [] ∧ ∀ x ∈ group.2, key x = group.1

theorem groupEntries_steps (key : α → Nat) {xs : List α}
    (h : xs.IsChain fun x y => key y = key x ∨ key y = key x + 1) :
    StepGroups key xs (groupEntries (fun x => some (key x)) xs) := by
  induction xs using List.reverseRecOn with
  | nil => exact ⟨rfl, List.IsChain.nil, fun group hgroup => by cases hgroup⟩
  | append_singleton xs x ih =>
      obtain ⟨hbefore, _, hnext⟩ := List.isChain_append.1 h
      obtain ⟨hflat, hchain, hmem⟩ := ih hbefore
      have hasc := (groupEntries_spec (fun x => some (key x)) xs).1
      rw [groupEntries_append_singleton]
      generalize groupEntries (fun x => some (key x)) xs = groups at hflat hchain hmem hasc
      cases groups using List.reverseRecOn with
      | nil =>
          subst hflat
          refine ⟨rfl, List.isChain_singleton _, fun group hgroup => ?_⟩
          obtain rfl := List.mem_singleton.1 hgroup
          exact ⟨List.cons_ne_nil _ _, fun y hy => by rw [List.mem_singleton.1 hy]⟩
      | append_singleton groups last =>
          obtain ⟨k, group⟩ := last
          obtain ⟨hne, hkeys⟩ := hmem (k, group) (List.mem_append_right _ (List.mem_singleton.2 rfl))
          have hsmaller : ∀ other ∈ groups, other.1 < k := fun other hother =>
            (List.pairwise_append.1 hasc).2.2 other hother (k, group) (List.mem_singleton.2 rfl)
          -- the last element stands in the last group
          obtain ⟨y, hy⟩ := List.getLast?_isSome.2 hne |> Option.isSome_iff_exists.1
          have hylast : y ∈ xs.getLast? := by
            rw [← hflat, List.flatMap_append, List.flatMap_singleton, List.getLast?_append, hy]
            rfl
          have hykey : key y = k := hkeys y (List.mem_of_getLast? hy)
          rcases hnext y hylast x rfl with hsame | hgrown
          · have hkey : key x = k := hsame.trans hykey
            rw [hkey]
            show StepGroups key _ (pushEntry k x (groups ++ [(k, group)]))
            rw [pushEntry_extend hsmaller]
            refine ⟨?_, ?_, fun other hother => ?_⟩
            · rw [← hflat, List.flatMap_append, List.flatMap_append, List.flatMap_singleton,
                List.flatMap_singleton, List.append_assoc]
            · rw [List.isChain_append] at hchain ⊢
              refine ⟨hchain.1, List.isChain_singleton _, fun left hleft right hright => ?_⟩
              obtain rfl := Option.some.inj hright
              exact hchain.2.2 left hleft (k, group) rfl
            · rcases List.mem_append.1 hother with hold | hlast
              · exact hmem other (List.mem_append_left _ hold)
              · obtain rfl := List.mem_singleton.1 hlast
                refine ⟨by simp, fun z hz => ?_⟩
                rcases List.mem_append.1 hz with hz | hz
                · exact hkeys z hz
                · rw [List.mem_singleton.1 hz, hkey]
          · have hkey : key x = k + 1 := by rw [hgrown, hykey]
            have hsmaller' : ∀ other ∈ groups ++ [(k, group)], other.1 < key x := by
              intro other hother
              rcases List.mem_append.1 hother with hold | hlast
              · exact lt_trans (hsmaller other hold) (by omega)
              · obtain rfl := List.mem_singleton.1 hlast
                show k < key x
                omega
            show StepGroups key _ (pushEntry (key x) x (groups ++ [(k, group)]))
            rw [pushEntry_last hsmaller']
            refine ⟨?_, ?_, fun other hother => ?_⟩
            · rw [List.flatMap_append, hflat, List.flatMap_singleton]
            · refine List.isChain_append.2
                ⟨hchain, List.isChain_singleton _, fun left hleft right hright => ?_⟩
              obtain rfl := Option.some.inj hright
              rw [List.getLast?_concat] at hleft
              obtain rfl := Option.some.inj hleft
              exact hkey
            · rcases List.mem_append.1 hother with hold | hlast
              · exact hmem other hold
              · obtain rfl := List.mem_singleton.1 hlast
                exact ⟨List.cons_ne_nil _ _, fun z hz => by rw [List.mem_singleton.1 hz]⟩

/-- Without the first group, what is left is grouped. -/
theorem StepGroups.tail {key : α → Nat} {xs : List α} {group : Nat × List α}
    {groups : List (Nat × List α)} (h : StepGroups key xs (group :: groups)) :
    ∃ ys, ys <:+ xs ∧ StepGroups key ys groups := by
  refine ⟨groups.flatMap (·.2), ⟨group.2, ?_⟩, rfl, h.chain.tail, fun other hother =>
    h.mem other (List.mem_cons_of_mem _ hother)⟩
  rw [← h.flatten, List.flatMap_cons]

/-- Consecutive numbers are a range. -/
theorem eq_range'_of_chain {xs : List Nat} {first : Nat} (h : xs.IsChain fun x y => y = x + 1)
    (hfirst : xs.head? = some first) : xs = List.range' first xs.length := by
  induction xs generalizing first with
  | nil => rfl
  | cons x xs ih =>
      obtain rfl := Option.some.inj hfirst
      rw [List.length_cons, List.range'_succ]
      cases xs with
      | nil => rfl
      | cons y xs =>
          obtain ⟨hnext, htail⟩ := List.isChain_cons_cons.1 h
          rw [ih htail (congrArg some hnext)]
          simp

theorem groupEntries_congr {key key' : α → Option K} {xs : List α}
    (h : ∀ x ∈ xs, key x = key' x) : groupEntries key xs = groupEntries key' xs := by
  induction xs using List.reverseRecOn with
  | nil => rfl
  | append_singleton xs x ih =>
      rw [groupEntries_append_singleton, groupEntries_append_singleton,
        h x (List.mem_append_right _ (List.mem_singleton.2 rfl)),
        ih fun y hy => h y (List.mem_append_left _ hy)]

/-! ## §5. The greatest key. -/

/-- The greatest key among these elements, and how many have it. -/
def greatest (key : α → Option Nat) (xs : List α) : Option (Nat × Nat) :=
  (xs.filterMap key).max?.map fun k => (k, xs.countP fun x => key x = some k)

/-- Of elements grouped by their key, the last group has the greatest key. -/
theorem getLast?_groups {key : α → Option Nat} {xs : List α} {groups : List (Nat × List α)}
    (hasc : Ascending groups)
    (hmem : ∀ k group, (k, group) ∈ groups ↔
      group = xs.filter (fun x => key x = some k) ∧ group ≠ []) :
    groups.getLast?.map (fun group => (group.1, group.2.length)) = greatest key xs := by
  have hgroup : ∀ x k, x ∈ xs → key x = some k →
      (k, xs.filter fun x => key x = some k) ∈ groups := by
    intro x k hx hkey
    exact (hmem k _).2
      ⟨rfl, List.ne_nil_of_mem (List.mem_filter.2 ⟨hx, decide_eq_true hkey⟩)⟩
  cases hlast : groups.getLast? with
  | none =>
      rw [List.getLast?_eq_none_iff] at hlast
      have hempty : xs.filterMap key = [] := by
        refine List.filterMap_eq_nil_iff.2 fun x hx => ?_
        refine Option.eq_none_iff_forall_ne_some.2 fun k hkey => ?_
        have hin := hgroup x k hx hkey
        rw [hlast] at hin
        cases hin
      rw [greatest, hempty]
      rfl
  | some last =>
      obtain ⟨k, group⟩ := last
      obtain ⟨hfilter, hne⟩ := (hmem k group).1 (List.mem_of_getLast? hlast)
      have hmax : (xs.filterMap key).max? = some k := by
        refine List.max?_eq_some_iff.2 ⟨?_, fun k' hk' => ?_⟩
        · obtain ⟨x, hx⟩ := List.exists_mem_of_ne_nil _ hne
          rw [hfilter] at hx
          obtain ⟨hx, hkey⟩ := List.mem_filter.1 hx
          exact List.mem_filterMap.2 ⟨x, hx, of_decide_eq_true hkey⟩
        · obtain ⟨x, hx, hkey⟩ := List.mem_filterMap.1 hk'
          rcases hasc.eq_or_lt_last (hgroup x k' hx hkey) hlast with heq | hlt
          · exact Nat.le_of_eq (Prod.mk.inj heq).1
          · exact Nat.le_of_lt hlt
      rw [greatest, hmax, Option.map_some, Option.map_some, hfilter, List.countP_eq_length_filter]

theorem greatest_eq_some {key : α → Option Nat} {xs : List α} {k n : Nat} :
    greatest key xs = some (k, n) ↔
      ((∃ x ∈ xs, key x = some k) ∧ ∀ x ∈ xs, ∀ k', key x = some k' → k' ≤ k) ∧
        n = xs.countP fun x => key x = some k := by
  rw [greatest, Option.map_eq_some_iff]
  constructor
  · rintro ⟨k, hmax, heq⟩
    obtain ⟨rfl, rfl⟩ := Prod.mk.inj heq
    obtain ⟨hmem, hle⟩ := List.max?_eq_some_iff.1 hmax
    refine ⟨⟨List.mem_filterMap.1 hmem, fun x hx k' hk' => ?_⟩, rfl⟩
    exact hle k' (List.mem_filterMap.2 ⟨x, hx, hk'⟩)
  · rintro ⟨⟨hmem, hle⟩, rfl⟩
    refine ⟨k, List.max?_eq_some_iff.2 ⟨List.mem_filterMap.2 hmem, fun k' hk' => ?_⟩, rfl⟩
    obtain ⟨x, hx, hkey⟩ := List.mem_filterMap.1 hk'
    exact hle x hx k' hkey

theorem greatest_pos {key : α → Option Nat} {xs : List α} {k n : Nat}
    (h : greatest key xs = some (k, n)) : 0 < n := by
  obtain ⟨⟨⟨x, hx, hkey⟩, _⟩, rfl⟩ := greatest_eq_some.1 h
  exact List.countP_pos_iff.2 ⟨x, hx, decide_eq_true hkey⟩

theorem greatest_map {β : Type} (g : β → α) (key : α → Option Nat) (xs : List β) :
    greatest key (xs.map g) = greatest (fun x => key (g x)) xs := by
  rw [greatest, List.filterMap_map, List.max?.eq_def]
  simp only [List.countP_map]
  rfl

/-- Keys that are left out do not matter as long as the greatest stays. -/
theorem greatest_filter {key : α → Option Nat} {p : Nat → Bool} {xs : List α} {k n : Nat}
    (h : greatest key xs = some (k, n)) (hp : p k = true) :
    greatest (fun x => (key x).filter p) xs = some (k, n) := by
  obtain ⟨⟨⟨x, hx, hkey⟩, hle⟩, rfl⟩ := greatest_eq_some.1 h
  refine greatest_eq_some.2 ⟨⟨⟨x, hx, ?_⟩, fun y hy k' hk' => ?_⟩, ?_⟩
  · exact Option.filter_eq_some_iff.2 ⟨hkey, hp⟩
  · exact hle y hy k' (Option.filter_eq_some_iff.1 hk').1
  · refine List.countP_congr fun y _ => ?_
    rw [decide_eq_true_eq, decide_eq_true_eq, Option.filter_eq_some_iff]
    exact ⟨fun hy => ⟨hy, hp⟩, fun hy => hy.1⟩

end AvMesh.Lib
