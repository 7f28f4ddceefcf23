/-
  AvMesh.Lib.Table
  ────────────────
  **FINITE TABLES: counting and weighing the entries of an `AList`.**

  Mathlib's `AList` is a finite map: an association list whose keys are
  distinct.  A map of a program is one, and the program accounts for its
  entries: how many there are, and how much they weigh together.  This file
  adds

    • `AList.size`, `AList.total f` — the number of entries and the sum of a
      weight `f` over them, with one exact law for each of `insert`, `erase`
      and `replace`,
    • the lookup laws of `replace`, the in-place update of an entry,
    • `Indexes`: a second table that finds the live keys by an image of theirs,
    • `oldest`: an entry with the least value, as an eviction picks it.

  All laws are stated as additions (`f a b + rest = all`), so that a caller
  which subtracts a weight can see that the subtraction is exact.
-/
import Mathlib.Data.List.AList
import Mathlib.Algebra.BigOperators.Group.List.Basic
import Mathlib.Algebra.GroupWithZero.Nat

namespace AvMesh.Lib

/-- A finite map with keys `K` and values `V`. -/
abbrev Table (K V : Type) := AList (fun _ : K => V)

end AvMesh.Lib

namespace AList

variable {K V : Type*}

/-! ## §1. Size and weight. -/

/-- The number of entries. -/
def size (s : AList fun _ : K => V) : Nat := s.entries.length

/-- The sum of the weight `f` over all entries. -/
def total (f : K → V → Nat) (s : AList fun _ : K => V) : Nat :=
  (s.entries.map fun e => f e.1 e.2).sum

@[simp] theorem size_empty : (∅ : AList fun _ : K => V).size = 0 := rfl

theorem size_eq_length_keys (s : AList fun _ : K => V) : s.size = s.keys.length := by
  unfold size keys List.keys
  rw [List.length_map]

/-- The size is the weight that counts every entry once. -/
theorem size_eq_total (s : AList fun _ : K => V) : s.size = s.total (fun _ _ => 1) := by
  unfold size total
  simp

variable [DecidableEq K]

/-! ## §2. Lookup. -/

theorem lookup_eq_some_iff {a : K} {b : V} {s : AList fun _ : K => V} :
    s.lookup a = some b ↔ Sigma.mk a b ∈ s.entries :=
  mem_lookup_iff

theorem mem_of_lookup {a : K} {b : V} {s : AList fun _ : K => V} (h : s.lookup a = some b) : a ∈ s := by
  rw [← lookup_isSome, h]
  rfl

theorem exists_lookup_of_mem {a : K} {s : AList fun _ : K => V} (h : a ∈ s) : ∃ b, s.lookup a = some b :=
  Option.isSome_iff_exists.mp (lookup_isSome.mpr h)

/-! ## §3. Removing and adding entries. -/

/-- An entry and the table without it make up the table. -/
theorem perm_cons_erase {a : K} {b : V} {s : AList fun _ : K => V} (h : s.lookup a = some b) :
    s.entries.Perm (⟨a, b⟩ :: (s.erase a).entries) := by
  obtain ⟨b', l₁, l₂, _, hs, he⟩ := List.exists_of_kerase (mem_of_lookup h)
  have hb : b' = b := by
    have hin : Sigma.mk a b' ∈ s.entries := by rw [hs]; simp
    exact (Option.some.inj (h.symm.trans (lookup_eq_some_iff.mpr hin))).symm
  subst hb
  rw [show (s.erase a).entries = l₁ ++ l₂ from he, hs]
  exact List.perm_middle

theorem total_erase (f : K → V → Nat) {a : K} {b : V} {s : AList fun _ : K => V}
    (h : s.lookup a = some b) : f a b + (s.erase a).total f = s.total f := by
  have hp := (perm_cons_erase h).map (fun e => f e.1 e.2)
  unfold total
  rw [hp.sum_eq]
  rfl

theorem size_erase {a : K} {b : V} {s : AList fun _ : K => V} (h : s.lookup a = some b) :
    (s.erase a).size + 1 = s.size := by
  rw [size_eq_total, size_eq_total, ← total_erase _ h, Nat.add_comm]

/-- No entry weighs more than the table. -/
theorem le_total (f : K → V → Nat) {a : K} {b : V} {s : AList fun _ : K => V}
    (h : s.lookup a = some b) : f a b ≤ s.total f := by
  have := total_erase f h
  omega

/-- Nor do two entries together. -/
theorem add_le_total (f : K → V → Nat) {a a' : K} {b b' : V} {s : AList fun _ : K => V}
    (h : s.lookup a = some b) (h' : s.lookup a' = some b') (hne : a' ≠ a) :
    f a b + f a' b' ≤ s.total f := by
  have hone := total_erase f h
  have hother := le_total f (show (s.erase a).lookup a' = some b' by rwa [lookup_erase_ne hne])
  omega

theorem total_insert_of_notMem (f : K → V → Nat) {a : K} (b : V) {s : AList fun _ : K => V}
    (h : a ∉ s) : (s.insert a b).total f = f a b + s.total f := by
  unfold total
  rw [entries_insert_of_notMem h]
  rfl

theorem size_insert_of_notMem {a : K} (b : V) {s : AList fun _ : K => V} (h : a ∉ s) :
    (s.insert a b).size = s.size + 1 := by
  rw [size_eq_total, size_eq_total, total_insert_of_notMem _ b h, Nat.add_comm]

/-- No entry weighs anything. -/
theorem total_eq_zero (f : K → V → Nat) {s : AList fun _ : K => V}
    (h : ∀ a b, s.lookup a = some b → f a b = 0) : s.total f = 0 := by
  unfold total
  apply List.sum_eq_zero
  intro n hn
  obtain ⟨⟨a, b⟩, hmem, hab⟩ := List.mem_map.mp hn
  rw [← hab]
  exact h a b (lookup_eq_some_iff.mpr hmem)

/-- What is left after an entry is removed was there before. -/
theorem lookup_of_erase {a a' : K} {b : V} {s : AList fun _ : K => V}
    (h : (s.erase a).lookup a' = some b) : a' ≠ a ∧ s.lookup a' = some b := by
  have hne : a' ≠ a := (mem_erase.mp (mem_of_lookup h)).1
  rw [lookup_erase_ne hne] at h
  exact ⟨hne, h⟩

/-- An entry of an extended table is the new one or was there before. -/
theorem lookup_of_insert {a a' : K} {b c : V} {s : AList fun _ : K => V}
    (h : (s.insert a c).lookup a' = some b) :
    (a' = a ∧ b = c) ∨ (a' ≠ a ∧ s.lookup a' = some b) := by
  by_cases ha : a' = a
  · subst ha
    rw [lookup_insert] at h
    exact .inl ⟨rfl, (Option.some.inj h).symm⟩
  · rw [lookup_insert_ne ha] at h
    exact .inr ⟨ha, h⟩

/-- The entries that satisfy `p`, and no others. -/
def retain (p : K → V → Bool) (s : AList fun _ : K => V) : AList fun _ : K => V :=
  ⟨s.entries.filter fun e => p e.1 e.2, s.nodupKeys.sublist List.filter_sublist⟩

theorem lookup_retain_iff {p : K → V → Bool} {a : K} {b : V} {s : AList fun _ : K => V} :
    (s.retain p).lookup a = some b ↔ s.lookup a = some b ∧ p a b = true := by
  rw [lookup_eq_some_iff, lookup_eq_some_iff]
  exact List.mem_filter

/-- Every value rewritten by `f`. -/
def mapValues (f : K → V → V) (s : AList fun _ : K => V) : AList fun _ : K => V where
  entries := s.entries.map fun e => ⟨e.1, f e.1 e.2⟩
  nodupKeys := by
    have hkeys : (s.entries.map fun e => (⟨e.1, f e.1 e.2⟩ : (_ : K) × V)).keys =
        s.entries.keys := by
      simp [List.keys, Function.comp_def]
    rw [List.NodupKeys, hkeys]
    exact s.nodupKeys

theorem lookup_mapValues_iff {f : K → V → V} {a : K} {c : V} {s : AList fun _ : K => V} :
    (s.mapValues f).lookup a = some c ↔ ∃ b, s.lookup a = some b ∧ f a b = c := by
  rw [lookup_eq_some_iff]
  show _ ∈ s.entries.map _ ↔ _
  rw [List.mem_map]
  constructor
  · rintro ⟨⟨a', b⟩, hmem, heq⟩
    cases heq
    exact ⟨b, lookup_eq_some_iff.mpr hmem, rfl⟩
  · rintro ⟨b, hlookup, rfl⟩
    exact ⟨⟨a, b⟩, lookup_eq_some_iff.mp hlookup, rfl⟩

theorem lookup_mapValues (f : K → V → V) (a : K) (s : AList fun _ : K => V) :
    (s.mapValues f).lookup a = (s.lookup a).map (f a) := by
  ext c
  rw [lookup_mapValues_iff, Option.map_eq_some_iff]

/-! ## §4. Updating an entry in place. -/

theorem replace_entries_split {a : K} {b : V} (c : V) {s : AList fun _ : K => V}
    (h : s.lookup a = some b) :
    ∃ l₁ l₂, a ∉ l₁.keys ∧ s.entries = l₁ ++ ⟨a, b⟩ :: l₂
      ∧ (s.replace a c).entries = l₁ ++ ⟨a, c⟩ :: l₂ := by
  -- `kreplace` rewrites the first entry with the key, the one `dlookup` finds
  have key : ∀ l : List ((_ : K) × V), l.dlookup a = some b →
      ∃ l₁ l₂, a ∉ l₁.keys ∧ l = l₁ ++ ⟨a, b⟩ :: l₂
        ∧ List.kreplace a c l = l₁ ++ ⟨a, c⟩ :: l₂ := by
    intro l
    induction l with
    | nil => intro hl; cases hl
    | cons e l ih =>
        intro hl
        obtain ⟨a', b'⟩ := e
        by_cases ha : a = a'
        · subst ha
          rw [List.dlookup_cons_eq] at hl
          cases Option.some.inj hl
          refine ⟨[], l, by simp, rfl, ?_⟩
          unfold List.kreplace
          rw [List.lookmap_cons_some _ _ (by rw [if_pos rfl])]
          rfl
        · rw [List.dlookup_cons_ne _ _ ha] at hl
          obtain ⟨l₁, l₂, hn, hl', hr⟩ := ih hl
          refine ⟨⟨a', b'⟩ :: l₁, l₂, by simp [ha, hn], by rw [hl']; rfl, ?_⟩
          unfold List.kreplace at hr ⊢
          rw [List.lookmap_cons_none _ _ (by rw [if_neg ha]), hr]
          rfl
  exact key s.entries h

theorem total_replace (f : K → V → Nat) {a : K} {b : V} (c : V) {s : AList fun _ : K => V}
    (h : s.lookup a = some b) :
    (s.replace a c).total f + f a b = s.total f + f a c := by
  obtain ⟨l₁, l₂, _, hs, hr⟩ := replace_entries_split c h
  unfold total
  rw [hs, hr]
  simp only [List.map_append, List.map_cons, List.sum_append, List.sum_cons]
  omega

@[simp] theorem size_replace (a : K) (c : V) (s : AList fun _ : K => V) : (s.replace a c).size = s.size := by
  rw [size_eq_length_keys, size_eq_length_keys, keys_replace]

theorem lookup_replace_self {a : K} {b : V} (c : V) {s : AList fun _ : K => V}
    (h : s.lookup a = some b) : (s.replace a c).lookup a = some c := by
  obtain ⟨l₁, l₂, _, _, hr⟩ := replace_entries_split c h
  rw [lookup_eq_some_iff, hr]
  simp

theorem lookup_replace_ne {a a' : K} (c : V) (s : AList fun _ : K => V) (h : a' ≠ a) :
    (s.replace a c).lookup a' = s.lookup a' := by
  by_cases hm : a ∈ s
  · obtain ⟨b, hb⟩ := exists_lookup_of_mem hm
    obtain ⟨l₁, l₂, _, hs, hr⟩ := replace_entries_split c hb
    have key : ∀ d : V, (l₁ ++ ⟨a, d⟩ :: l₂).dlookup a' = (l₁ ++ l₂).dlookup a' := by
      intro d
      rw [List.dlookup_append, List.dlookup_append, List.dlookup_cons_ne _ _ h]
    show (s.replace a c).entries.dlookup a' = s.entries.dlookup a'
    rw [hs, hr, key, key]
  · -- without an entry to update, `replace` does nothing
    have hr : (s.replace a c).entries = s.entries :=
      List.kreplace_of_forall_not (β := fun _ => V) a c
        (fun b hb => hm (List.mem_keys_of_mem hb))
    show (s.replace a c).entries.dlookup a' = s.entries.dlookup a'
    rw [hr]

/-- An entry of an updated table is the updated one or was there before. -/
theorem lookup_of_replace {a a' : K} {b c d : V} {s : AList fun _ : K => V}
    (ha : s.lookup a = some b) (h : (s.replace a c).lookup a' = some d) :
    (a' = a ∧ d = c) ∨ (a' ≠ a ∧ s.lookup a' = some d) := by
  by_cases haa : a' = a
  · subst haa
    rw [lookup_replace_self c ha] at h
    exact .inl ⟨rfl, (Option.some.inj h).symm⟩
  · rw [lookup_replace_ne c s haa] at h
    exact .inr ⟨haa, h⟩

/-- An update that keeps the weight of its entry keeps the total. -/
theorem total_replace_of_eq (f : K → V → Nat) {a : K} {b c : V} {s : AList fun _ : K => V}
    (h : s.lookup a = some b) (hf : f a c = f a b) : (s.replace a c).total f = s.total f := by
  have := total_replace f c h
  omega

/-- Writing back the value an entry already has changes nothing. -/
theorem replace_lookup_self {a : K} {b : V} {s : AList fun _ : K => V} (h : s.lookup a = some b) :
    s.replace a b = s := by
  apply AList.ext
  obtain ⟨l₁, l₂, _, hs, hr⟩ := replace_entries_split b h
  rw [hs, hr]

/-! ## §5. A table that indexes live keys. -/

variable {I : Type*} [DecidableEq I]

/-- The table sends the image of each live key to that key, and has no other
entry: so two live keys never have one image. -/
def Indexes (f : K → I) (live : K → Prop) (index : AList fun _ : I => K) : Prop :=
  ∀ i k, index.lookup i = some k ↔ f k = i ∧ live k

variable {f : K → I} {live live' : K → Prop} {index : AList fun _ : I => K} {k k' : K}

omit [DecidableEq K] in
theorem Indexes.eq_of_image (h : Indexes f live index) (hk : live k) (hk' : live k')
    (hf : f k = f k') : k = k' := by
  have h₁ := (h (f k') k).mpr ⟨hf, hk⟩
  have h₂ := (h (f k') k').mpr ⟨rfl, hk'⟩
  exact Option.some.inj (h₁.symm.trans h₂)

omit [DecidableEq K] in
theorem Indexes.congr (h : Indexes f live index) (hlive : ∀ k, live k ↔ live' k) :
    Indexes f live' index := by
  intro i k
  rw [h i k, hlive k]

omit [DecidableEq K] in
/-- A live key dies, and its image leaves the index. -/
theorem Indexes.erase (h : Indexes f live index) (hk : live k) :
    Indexes f (fun other => live other ∧ other ≠ k) (index.erase (f k)) := by
  intro i other
  constructor
  · intro hlookup
    obtain ⟨hne, hold⟩ := lookup_of_erase hlookup
    obtain ⟨hf, hother⟩ := (h i other).mp hold
    refine ⟨hf, hother, ?_⟩
    intro hsame
    exact hne (by rw [← hf, hsame])
  · intro hboth
    obtain ⟨hf, hother, hne⟩ := hboth
    have hi : i ≠ f k := by
      intro hik
      exact hne (h.eq_of_image hother hk (hf.trans hik))
    rw [lookup_erase_ne hi]
    exact (h i other).mpr ⟨hf, hother⟩

omit [DecidableEq K] in
/-- A key whose image is free comes alive. -/
theorem Indexes.insert (h : Indexes f live index) (hfree : index.lookup (f k) = none) :
    Indexes f (fun other => other = k ∨ live other) (index.insert (f k) k) := by
  intro i other
  constructor
  · intro hlookup
    rcases lookup_of_insert hlookup with ⟨hi, hother⟩ | ⟨_, hold⟩
    · exact ⟨by rw [hi, hother], .inl hother⟩
    · obtain ⟨hf, hlive⟩ := (h i other).mp hold
      exact ⟨hf, .inr hlive⟩
  · intro hboth
    obtain ⟨hf, hother⟩ := hboth
    subst hf
    rcases hother with hother | hlive
    · rw [hother]
      exact lookup_insert _
    · -- a live key has its image in the index, so its image is not the free one
      have hold := (h (f other) other).mpr ⟨rfl, hlive⟩
      have hne : f other ≠ f k := by
        intro hsame
        rw [hsame, hfree] at hold
        cases hold
      rw [lookup_insert_ne hne]
      exact hold

/-! ## §6. The oldest entry. -/

theorem size_erase_le (a : K) (s : AList fun _ : K => V) : (s.erase a).size ≤ s.size :=
  (List.kerase_sublist a s.entries).length_le

omit [DecidableEq K] in
theorem size_retain_le (p : K → V → Bool) (s : AList fun _ : K => V) : (s.retain p).size ≤ s.size :=
  List.length_filter_le _ _

/-- A key whose value is least.  A hash map visits its entries in no particular order, so among
several such keys any may be found: `favoured`, if it is one of them. -/
def oldest (s : AList fun _ : K => Nat) (favoured : K) : Option K :=
  match (s.entries.map fun e => e.2).min? with
  | none => none
  | some least =>
      if s.lookup favoured = some least then some favoured
      else s.keys.find? fun k => s.lookup k = some least

theorem lookup_oldest {s : AList fun _ : K => Nat} {favoured k : K}
    (h : s.oldest favoured = some k) :
    ∃ t, s.lookup k = some t ∧ ∀ k' t', s.lookup k' = some t' → t ≤ t' := by
  unfold oldest at h
  split at h
  · cases h
  · rename_i least hleast
    have hall := (List.min?_eq_some_iff.mp hleast).2
    refine ⟨least, ?_, ?_⟩
    · split at h
      · rename_i hfavoured
        cases h
        exact hfavoured
      · simpa using List.find?_some h
    · intro k' t' hlookup
      exact hall t' (List.mem_map.mpr ⟨⟨k', t'⟩, lookup_eq_some_iff.mp hlookup, rfl⟩)

theorem exists_oldest {s : AList fun _ : K => Nat} (favoured : K) (h : 0 < s.size) :
    ∃ k, s.oldest favoured = some k := by
  unfold oldest
  split
  · rename_i hnone
    rw [List.min?_eq_none_iff, List.map_eq_nil_iff] at hnone
    rw [size, hnone] at h
    cases h
  · rename_i least hleast
    split
    · exact ⟨favoured, rfl⟩
    · obtain ⟨⟨k, t⟩, hmem, rfl⟩ := List.mem_map.mp (List.min?_eq_some_iff.mp hleast).1
      have hlookup := lookup_eq_some_iff.mpr hmem
      have hfound : (s.keys.find? fun k => s.lookup k = some t).isSome = true :=
        List.find?_isSome.mpr ⟨k, mem_of_lookup hlookup, by simpa using hlookup⟩
      exact Option.isSome_iff_exists.mp hfound

end AList
