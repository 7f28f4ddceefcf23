/-
  AvMesh.Lib.Text
  ───────────────
  **TAKING A TEXT APART.**

  Hand-written parsers strip a prefix or a suffix, split at the first
  occurrence of a marker, and read a decimal number.  Each of these is
  described here by what the text is when it succeeds:

    • `stripPrefix_eq_some`, `stripSuffix_eq_some`,
    • `splitOnceAt_eq_some` — the text is the two halves with the marker between
                              them; `splitOnceAt_append`: for a marker that
                              starts with a character the first half has not,
                              these are the halves,
    • `parseDecimal_digits` — the decimal digits of a number read back as it.

  `findSome?_perm` is about trying several parsers in some order: the order
  does not matter if no two of them accept.
-/
import AvMesh.Lib.Machine
import Mathlib.Data.List.Basic
import Mathlib.Data.Nat.Digits.Defs

namespace AvMesh.Lib

/-! ## §1. Prefixes, suffixes and markers. -/

section Pieces

variable {α : Type*} [DecidableEq α] {pre suf marker text first second rest : List α}

/-- `text.strip_prefix(pre)`. -/
def stripPrefix (pre text : List α) : Option (List α) := text.dropPrefix? pre

/-- `text.strip_suffix(suf)`. -/
def stripSuffix (suf text : List α) : Option (List α) := text.dropSuffix? suf

/-- `text.split_once(marker)`. -/
def splitOnceAt (marker : List α) : List α → Option (List α × List α)
  | [] => if marker = [] then some ([], []) else none
  | a :: rest =>
      match stripPrefix marker (a :: rest) with
      | some second => some ([], second)
      | none => (splitOnceAt marker rest).map fun halves => (a :: halves.1, halves.2)

theorem stripPrefix_eq_some : stripPrefix pre text = some rest ↔ text = pre ++ rest := by
  unfold stripPrefix
  rw [List.dropPrefix?_eq_some_iff]
  simp

theorem stripSuffix_eq_some : stripSuffix suf text = some rest ↔ text = rest ++ suf := by
  unfold stripSuffix
  rw [List.dropSuffix?_eq_some_iff]
  simp

@[simp] theorem stripPrefix_append (pre rest : List α) :
    stripPrefix pre (pre ++ rest) = some rest := stripPrefix_eq_some.mpr rfl

@[simp] theorem stripSuffix_append (rest suf : List α) :
    stripSuffix suf (rest ++ suf) = some rest := stripSuffix_eq_some.mpr rfl

/-- A text does not end in two ways. -/
theorem stripSuffix_none_of_getLast? {a : α} (htext : text.getLast? = some a)
    (hsuf : suf ≠ []) (ha : suf.getLast? ≠ some a) : stripSuffix suf text = none := by
  cases hstrip : stripSuffix suf text with
  | none => rfl
  | some rest =>
      rw [stripSuffix_eq_some.mp hstrip, List.getLast?_append_of_ne_nil _ hsuf] at htext
      exact absurd htext ha

theorem splitOnceAt_eq_some (h : splitOnceAt marker text = some (first, second)) :
    text = first ++ marker ++ second := by
  induction text generalizing first with
  | nil =>
      unfold splitOnceAt at h
      split at h
      · next hmarker =>
          cases h
          rw [hmarker]
          rfl
      · cases h
  | cons a rest ih =>
      unfold splitOnceAt at h
      cases hstrip : stripPrefix marker (a :: rest) with
      | some found =>
          rw [hstrip] at h
          cases h
          exact stripPrefix_eq_some.mp hstrip
      | none =>
          -- the marker is found later, and this character belongs to the first half
          rw [hstrip] at h
          obtain ⟨halves, hsplit, hpair⟩ := Option.map_eq_some_iff.mp h
          cases hpair
          rw [ih hsplit]
          rfl

/-- The first occurrence of a marker is the one that is written, if the text before it lacks
the first character of the marker. -/
theorem splitOnceAt_append {a : α} {tail : List α} (hfirst : a ∉ first) :
    splitOnceAt (a :: tail) (first ++ (a :: tail) ++ second) = some (first, second) := by
  induction first with
  | nil =>
      show splitOnceAt (a :: tail) (a :: (tail ++ second)) = _
      unfold splitOnceAt
      have hstrip : stripPrefix (a :: tail) (a :: (tail ++ second)) = some second :=
        stripPrefix_append (a :: tail) second
      rw [hstrip]
  | cons b first ih =>
      have hb : b ≠ a := fun heq => hfirst (by simp [heq])
      have hrest := ih fun hmem => hfirst (List.mem_cons_of_mem _ hmem)
      show splitOnceAt (a :: tail) (b :: (first ++ (a :: tail) ++ second)) = _
      unfold splitOnceAt
      have hstrip : stripPrefix (a :: tail) (b :: (first ++ (a :: tail) ++ second)) = none := by
        cases hcase : stripPrefix (a :: tail) (b :: (first ++ (a :: tail) ++ second)) with
        | none => rfl
        | some found =>
            have heq := stripPrefix_eq_some.mp hcase
            rw [List.cons_append, List.cons.injEq] at heq
            exact absurd heq.1 hb
      rw [hstrip, hrest]
      rfl

end Pieces

/-! ## §2. Decimal numbers. -/

/-- What follows an optional plus sign. -/
def afterPlus (text : List Char) : List Char :=
  if text.head? = some '+' then text.tail else text

/-- `text.parse::<uN>()` for a type of `bits` bits: an optional plus sign, then decimal digits. -/
def parseDecimal (bits : Nat) (text : List Char) : Option Nat :=
  let digits := afterPlus text
  if digits = [] ∨ digits.any (fun c => !c.isDigit) = true then none
  else tryFrom bits (Nat.ofDigitChars 10 digits 0)

theorem mem_afterPlus {text : List Char} {c : Char} (h : c ∈ text) :
    c = '+' ∨ c ∈ afterPlus text := by
  unfold afterPlus
  cases text with
  | nil => cases h
  | cons first rest =>
      by_cases hplus : first = '+'
      · rcases List.mem_cons.mp h with heq | hrest
        · exact .inl (heq.trans hplus)
        · exact .inr (by simpa [hplus] using hrest)
      · exact .inr (by simpa [hplus] using h)

/-- What is read as a number is not empty, and has only digits and a plus sign. -/
theorem parseDecimal_chars {bits n : Nat} {text : List Char} (h : parseDecimal bits text = some n) :
    text ≠ [] ∧ ∀ c ∈ text, c = '+' ∨ c.isDigit = true := by
  have hdigits : afterPlus text ≠ [] ∧ ∀ c ∈ afterPlus text, c.isDigit = true := by
    unfold parseDecimal at h
    dsimp only at h
    by_cases hbad : afterPlus text = [] ∨ (afterPlus text).any (fun c => !c.isDigit) = true
    · rw [if_pos hbad] at h
      cases h
    · simpa using hbad
  refine ⟨fun hempty => hdigits.1 (by simp [hempty, afterPlus]), fun c hc => ?_⟩
  exact (mem_afterPlus hc).imp id (hdigits.2 c)

theorem not_mem_of_parseDecimal {bits n : Nat} {text : List Char} {c : Char}
    (h : parseDecimal bits text = some n) (hplus : c ≠ '+') (hdigit : c.isDigit = false) :
    c ∉ text := by
  intro hmem
  rcases (parseDecimal_chars h).2 c hmem with heq | hisDigit
  · exact hplus heq
  · rw [hdigit] at hisDigit
    cases hisDigit

/-- **A number reads back.** -/
theorem parseDecimal_digits {bits n : Nat} (h : n < 2 ^ bits) :
    parseDecimal bits (toString n).toList = some n := by
  have hdigits : (toString n).toList = Nat.toDigits 10 n := Nat.toList_repr
  have hall : ∀ c ∈ Nat.toDigits 10 n, c.isDigit = true := fun c hc =>
    Nat.isDigit_of_mem_toDigits (by decide) (by decide) hc
  rw [hdigits]
  unfold parseDecimal
  -- a digit is not a plus sign
  have hsign : afterPlus (Nat.toDigits 10 n) = Nat.toDigits 10 n := by
    unfold afterPlus
    rw [if_neg]
    intro hhead
    exact absurd (hall '+' (List.mem_of_head? hhead)) (by decide)
  dsimp only
  rw [hsign, if_neg, Nat.ofDigitChars_ten_toDigits, tryFrom_of_lt h]
  intro hbad
  rcases hbad with hempty | hany
  · exact Nat.toDigits_ne_nil hempty
  · obtain ⟨c, hc, hnot⟩ := List.any_eq_true.mp hany
    rw [hall c hc] at hnot
    cases hnot

/-! ## §3. Trying parsers in some order. -/

section Order

variable {τ β : Type*} {accept : τ → Option β} {tests tests' : List τ}

/-- If at most one test accepts, the first that accepts is the one that does. -/
theorem findSome?_eq_some_iff_of_unique
    (hunique : ∀ t ∈ tests, ∀ t' ∈ tests, (accept t).isSome → (accept t').isSome → t = t')
    {b : β} : tests.findSome? accept = some b ↔ ∃ t ∈ tests, accept t = some b := by
  constructor
  · intro h
    obtain ⟨t, ht, hb⟩ := List.exists_of_findSome?_eq_some h
    exact ⟨t, ht, hb⟩
  · intro h
    obtain ⟨t, ht, hb⟩ := h
    cases hfind : tests.findSome? accept with
    | none =>
        rw [List.findSome?_eq_none_iff] at hfind
        rw [hfind t ht] at hb
        cases hb
    | some b' =>
        obtain ⟨t', ht', hb'⟩ := List.exists_of_findSome?_eq_some hfind
        have hsame := hunique t ht t' ht' (by rw [hb]; rfl) (by rw [hb']; rfl)
        rw [← hsame, hb] at hb'
        exact hb'.symm

/-- **The order of the tests does not matter** if at most one accepts. -/
theorem findSome?_perm (hperm : tests.Perm tests')
    (hunique : ∀ t ∈ tests, ∀ t' ∈ tests, (accept t).isSome → (accept t').isSome → t = t') :
    tests.findSome? accept = tests'.findSome? accept := by
  have hunique' : ∀ t ∈ tests', ∀ t' ∈ tests', (accept t).isSome → (accept t').isSome → t = t' :=
    fun t ht t' ht' => hunique t (hperm.mem_iff.mpr ht) t' (hperm.mem_iff.mpr ht')
  refine Option.ext fun b => ?_
  rw [findSome?_eq_some_iff_of_unique hunique, findSome?_eq_some_iff_of_unique hunique']
  simp only [hperm.mem_iff]

end Order

end AvMesh.Lib
