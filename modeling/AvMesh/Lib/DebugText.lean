/-
  AvMesh.Lib.DebugText
  ────────────────────
  **THE `Debug` TEXT OF A STRING.**

  `format!("{s:?}")` puts a string in quotes and escapes what would not read
  back: the quote, the backslash, four control characters by a letter, and any
  other character that is not printable by its code point.  Which characters
  count as printable is a table of the Unicode version, `isPlain` here.

    • `escapeChar_cancel` — escaped characters are a prefix code,
    • `debugStr_cancel`   — so a quoted string ends where it says, and two
                            texts that start with quoted strings agree on the
                            string and on what follows it.

  A derived `Debug` text built from such strings therefore tells its values
  apart.
-/
import Mathlib.Data.Nat.Digits.Defs

namespace AvMesh.Lib

/-! ## §1. One character. -/

/-- The double quote. -/
def quoteChar : Char := Char.ofNat 34

def backslash : Char := Char.ofNat 92

/-- The closing brace of a code point. -/
def closeBrace : Char := Char.ofNat 125

/-- The characters with an escape of one letter. -/
def shortEscape (c : Char) : Option Char :=
  match c.toNat with
  | 0 => some '0'
  | 9 => some 't'
  | 10 => some 'n'
  | 13 => some 'r'
  | 34 => some quoteChar
  | 92 => some backslash
  | _ => none

/-- The digits of a code point, in lower case. -/
def hexDigits (n : Nat) : List Char := (Nat.digits 16 n).reverse.map Nat.digitChar

/-- `char::escape_debug_ext` as strings use it. -/
def escapeChar (isPlain : Char → Bool) (c : Char) : List Char :=
  match shortEscape c with
  | some letter => [backslash, letter]
  | none =>
      if isPlain c then [c]
      else backslash :: 'u' :: Char.ofNat 123 :: (hexDigits c.toNat ++ [closeBrace])

/-- `<str as Debug>::fmt`. -/
def debugStr (isPlain : Char → Bool) (s : String) : List Char :=
  quoteChar :: (s.toList.flatMap (escapeChar isPlain) ++ [quoteChar])

/-! ## §2. Escaped characters are a prefix code. -/

theorem shortEscape_inj {c c' letter : Char} (h : shortEscape c = some letter)
    (h' : shortEscape c' = some letter) : c = c' := by
  rw [← Char.toNat_inj]
  unfold shortEscape at h h'
  -- thirty-six pairs of letters, six of them equal
  split at h <;> cases h <;> split at h' <;> cases h' <;> omega

theorem shortEscape_ne_u {c letter : Char} (h : shortEscape c = some letter) : letter ≠ 'u' := by
  unfold shortEscape at h
  split at h <;> cases h <;> decide

/-- A character without an escape of its own is neither the quote nor the backslash. -/
theorem ne_of_shortEscape_none {c : Char} (h : shortEscape c = none) :
    c ≠ quoteChar ∧ c ≠ backslash := by
  constructor
  · rintro rfl
    exact absurd h (by decide)
  · rintro rfl
    exact absurd h (by decide)

theorem digitChar_inj : ∀ m < 16, ∀ n < 16, Nat.digitChar m = Nat.digitChar n → m = n := by
  decide

theorem digitChar_ne_closeBrace : ∀ n < 16, Nat.digitChar n ≠ closeBrace := by
  decide

theorem hexDigits_inj {m n : Nat} (h : hexDigits m = hexDigits n) : m = n := by
  unfold hexDigits at h
  rw [List.map_reverse, List.map_reverse, List.reverse_inj] at h
  refine (Nat.digits_inj_iff (b := 16)).mp ?_
  have hlength := congrArg List.length h
  rw [List.length_map, List.length_map] at hlength
  refine List.ext_getElem hlength ?_
  intro i hi hi'
  have hdigit := congrArg (fun l => l[i]?) h
  simp only [List.getElem?_map, List.getElem?_eq_getElem hi, List.getElem?_eq_getElem hi',
    Option.map_some, Option.some.injEq] at hdigit
  exact digitChar_inj _ (Nat.digits_lt_base (by decide) (List.getElem_mem hi)) _
    (Nat.digits_lt_base (by decide) (List.getElem_mem hi')) hdigit

/-- The digits end at the closing brace. -/
theorem hexDigits_cancel {m n : Nat} {rest rest' : List Char}
    (h : hexDigits m ++ closeBrace :: rest = hexDigits n ++ closeBrace :: rest') :
    m = n ∧ rest = rest' := by
  have hopen : ∀ n, ∀ c ∈ hexDigits n, (decide (c ≠ closeBrace)) = true := by
    intro n c hc
    unfold hexDigits at hc
    obtain ⟨digit, hdigit, rfl⟩ := List.mem_map.mp hc
    rw [decide_eq_true_eq]
    exact digitChar_ne_closeBrace digit
      (Nat.digits_lt_base (by decide) (List.mem_reverse.mp hdigit))
  have hclosed : ¬ (decide (closeBrace ≠ closeBrace)) = true := by simp
  have hdigits := congrArg (List.takeWhile fun c => decide (c ≠ closeBrace)) h
  rw [List.takeWhile_append_of_pos (hopen m), List.takeWhile_append_of_pos (hopen n),
    List.takeWhile_cons, List.takeWhile_cons, if_neg hclosed, if_neg hclosed, List.append_nil,
    List.append_nil] at hdigits
  rw [hdigits] at h
  have hrest := List.append_cancel_left h
  exact ⟨hexDigits_inj hdigits, (List.cons.inj hrest).2⟩

variable {isPlain : Char → Bool}

theorem escapeChar_cancel {c c' : Char} {rest rest' : List Char}
    (h : escapeChar isPlain c ++ rest = escapeChar isPlain c' ++ rest') : c = c' ∧ rest = rest' := by
  unfold escapeChar at h
  cases hshort : shortEscape c with
  | some letter =>
      cases hshort' : shortEscape c' with
      | some letter' =>
          rw [hshort, hshort'] at h
          simp only [List.cons_append, List.nil_append, List.cons.injEq, true_and] at h
          obtain ⟨rfl, hrest⟩ := h
          exact ⟨shortEscape_inj hshort hshort', hrest⟩
      | none =>
          rw [hshort, hshort'] at h
          dsimp only at h
          split at h
          · -- a plain character is no backslash
            simp only [List.cons_append, List.nil_append, List.cons.injEq] at h
            exact absurd h.1.symm (ne_of_shortEscape_none hshort').2
          · simp only [List.cons_append, List.nil_append, List.cons.injEq, true_and] at h
            exact absurd h.1 (shortEscape_ne_u hshort)
  | none =>
      cases hshort' : shortEscape c' with
      | some letter' =>
          rw [hshort, hshort'] at h
          dsimp only at h
          split at h
          · simp only [List.cons_append, List.nil_append, List.cons.injEq] at h
            exact absurd h.1 (ne_of_shortEscape_none hshort).2
          · simp only [List.cons_append, List.nil_append, List.cons.injEq, true_and] at h
            exact absurd h.1.symm (shortEscape_ne_u hshort')
      | none =>
          rw [hshort, hshort'] at h
          dsimp only at h
          split at h
          · split at h
            · simp only [List.cons_append, List.nil_append, List.cons.injEq] at h
              exact h
            · simp only [List.cons_append, List.nil_append, List.cons.injEq] at h
              exact absurd h.1 (ne_of_shortEscape_none hshort).2
          · split at h
            · simp only [List.cons_append, List.nil_append, List.cons.injEq] at h
              exact absurd h.1.symm (ne_of_shortEscape_none hshort').2
            · simp only [List.cons_append, List.nil_append, List.append_assoc, List.cons.injEq,
                true_and] at h
              obtain ⟨hcode, hrest⟩ := hexDigits_cancel h
              exact ⟨Char.toNat_inj.mp hcode, hrest⟩

/-- An escaped character does not start with a quote. -/
theorem escapeChar_ne_quote (c : Char) (rest rest' : List Char) :
    escapeChar isPlain c ++ rest ≠ quoteChar :: rest' := by
  intro h
  unfold escapeChar at h
  cases hshort : shortEscape c with
  | some letter =>
      rw [hshort] at h
      simp only [List.cons_append, List.cons.injEq] at h
      exact absurd h.1 (by decide)
  | none =>
      rw [hshort] at h
      dsimp only at h
      split at h
      · simp only [List.cons_append, List.nil_append, List.cons.injEq] at h
        exact (ne_of_shortEscape_none hshort).1 h.1
      · simp only [List.cons_append, List.cons.injEq] at h
        exact absurd h.1 (by decide)

/-! ## §3. Quoted strings. -/

theorem flatMap_escapeChar_cancel {cs cs' : List Char} {rest rest' : List Char}
    (h : cs.flatMap (escapeChar isPlain) ++ quoteChar :: rest =
      cs'.flatMap (escapeChar isPlain) ++ quoteChar :: rest') : cs = cs' ∧ rest = rest' := by
  induction cs generalizing cs' with
  | nil =>
      cases cs' with
      | nil => exact ⟨rfl, (List.cons.inj h).2⟩
      | cons c' cs' =>
          rw [List.flatMap_nil, List.nil_append, List.flatMap_cons, List.append_assoc] at h
          exact absurd h.symm (escapeChar_ne_quote c' _ _)
  | cons c cs ih =>
      cases cs' with
      | nil =>
          rw [List.flatMap_nil, List.nil_append, List.flatMap_cons, List.append_assoc] at h
          exact absurd h (escapeChar_ne_quote c _ _)
      | cons c' cs' =>
          rw [List.flatMap_cons, List.flatMap_cons, List.append_assoc, List.append_assoc] at h
          obtain ⟨hchar, hrest⟩ := escapeChar_cancel h
          obtain ⟨hchars, hend⟩ := ih hrest
          exact ⟨by rw [hchar, hchars], hend⟩

/-- **A quoted string ends where it says.** -/
theorem debugStr_cancel {s s' : String} {rest rest' : List Char}
    (h : debugStr isPlain s ++ rest = debugStr isPlain s' ++ rest') : s = s' ∧ rest = rest' := by
  unfold debugStr at h
  simp only [List.cons_append, List.append_assoc, List.nil_append, List.cons.injEq, true_and] at h
  obtain ⟨hchars, hrest⟩ := flatMap_escapeChar_cancel h
  exact ⟨String.toList_inj.mp hchars, hrest⟩

end AvMesh.Lib
