/-
  AvMesh.Lib.QuotedFields
  ───────────────────────
  **SEPARATED FIELDS WITH QUOTED STRINGS.**

  A list of fields is joined by a separator.  A field may hold quoted strings;
  inside one the separator is an ordinary symbol, and the escape symbol makes
  the next symbol ordinary.  A scanner reads this with two flags, `quoted` and
  `escaped`:

    • `advance`    — what one symbol does to the flags,
    • `ReadsTo`    — reading a text meets no separator outside quotes, and ends
                     with the given flags; it composes (`ReadsTo.append`),
    • `escape`     — a text as it stands between quotes: `readsTo_quoted`,
    • `unescape`   — the loop that undoes it: `unescape_escape`.

  The symbols are parameters; an escaped text is read back whatever they are,
  and a quoted one is passed over as long as the three are different.
-/
import Mathlib.Data.List.Basic

namespace AvMesh.Lib

variable {α : Type*} [DecidableEq α]

/-! ## §1. The flags of the scanner. -/

structure QuoteFlags where
  quoted : Bool := false
  escaped : Bool := false
  deriving Repr, DecidableEq

/-- One symbol that is not a separator outside quotes. -/
def advance (quote esc : α) (flags : QuoteFlags) (c : α) : QuoteFlags :=
  if flags.escaped then { flags with escaped := false }
  -- outside quotes the escape symbol is a symbol like any other
  else if c = esc ∧ flags.quoted then { flags with escaped := true }
  else if c = quote then { flags with quoted := !flags.quoted }
  else flags

/-- The scanner stands at a separator that ends a field. -/
def Splits (sep : α) (flags : QuoteFlags) (c : α) : Prop :=
  c = sep ∧ flags.quoted = false ∧ flags.escaped = false

instance (sep : α) (flags : QuoteFlags) (c : α) : Decidable (Splits sep flags c) :=
  inferInstanceAs (Decidable (_ ∧ _ ∧ _))

/-- From `flags`, reading the text ends no field and leaves `flags'`. -/
inductive ReadsTo (sep quote esc : α) : QuoteFlags → List α → QuoteFlags → Prop where
  | nil (flags : QuoteFlags) : ReadsTo sep quote esc flags [] flags
  | cons {flags flags' : QuoteFlags} {c : α} {text : List α} (hc : ¬Splits sep flags c)
      (h : ReadsTo sep quote esc (advance quote esc flags c) text flags') :
      ReadsTo sep quote esc flags (c :: text) flags'

variable {sep quote esc : α} {flags flags₁ flags₂ flags₃ : QuoteFlags}

theorem ReadsTo.append {text₁ text₂ : List α} (h₁ : ReadsTo sep quote esc flags₁ text₁ flags₂)
    (h₂ : ReadsTo sep quote esc flags₂ text₂ flags₃) :
    ReadsTo sep quote esc flags₁ (text₁ ++ text₂) flags₃ := by
  induction h₁ with
  | nil flags => exact h₂
  | cons hc _ ih => exact .cons hc (ih h₂)

/-- Outside quotes, a text without separator and quote changes nothing. -/
theorem readsTo_plain {text : List α} (h : ∀ c ∈ text, c ≠ sep ∧ c ≠ quote) :
    ReadsTo sep quote esc {} text {} := by
  induction text with
  | nil => exact .nil _
  | cons c text ih =>
      obtain ⟨hsep, hquote⟩ := h c List.mem_cons_self
      have hstay : advance quote esc {} c = {} := by simp [advance, hquote]
      refine .cons (fun hsplit => hsep hsplit.1) ?_
      rw [hstay]
      exact ih fun c' hc' => h c' (List.mem_cons_of_mem _ hc')

/-! ## §2. Quoted strings. -/

/-- A text as it stands between quotes. -/
def escape (quote esc : α) (text : List α) : List α :=
  text.flatMap fun c => if c = quote ∨ c = esc then [esc, c] else [c]

theorem escape_cons (quote esc c : α) (text : List α) :
    escape quote esc (c :: text)
      = (if c = quote ∨ c = esc then [esc, c] else [c]) ++ escape quote esc text := by
  unfold escape
  rw [List.flatMap_cons]

/-- One more symbol of the loop that undoes `escape`: what was decoded so far,
and whether the last symbol was the escape symbol. -/
def unescapeStep (esc : α) (state : List α × Bool) (c : α) : List α × Bool :=
  if state.2 then (state.1 ++ [c], false)
  else if c = esc then (state.1, true)
  else (state.1 ++ [c], false)

/-- The decoded text, unless the text ends in the middle of an escape. -/
def unescape (esc : α) (text : List α) : Option (List α) :=
  let state := text.foldl (unescapeStep esc) ([], false)
  if state.2 then none else some state.1

theorem foldl_unescapeStep_escape (quote esc : α) (text decoded : List α) :
    (escape quote esc text).foldl (unescapeStep esc) (decoded, false) = (decoded ++ text, false) := by
  induction text generalizing decoded with
  | nil =>
      rw [List.append_nil]
      rfl
  | cons c text ih =>
      have hone : (if c = quote ∨ c = esc then [esc, c] else [c]).foldl (unescapeStep esc)
          (decoded, false) = (decoded ++ [c], false) := by
        -- two symbols undo to the second of them, one to itself
        by_cases hc : c = quote ∨ c = esc
        · rw [if_pos hc]
          simp [unescapeStep]
        · rw [if_neg hc]
          have hesc : c ≠ esc := fun heq => hc (.inr heq)
          simp [unescapeStep, hesc]
      rw [escape_cons, List.foldl_append, hone, ih, List.append_assoc]
      rfl

/-- **An escaped text is read back.** -/
theorem unescape_escape (quote esc : α) (text : List α) :
    unescape esc (escape quote esc text) = some text := by
  unfold unescape
  rw [foldl_unescapeStep_escape]
  rfl

/-- Inside quotes an escaped text is passed over. -/
theorem readsTo_escape (text : List α) :
    ReadsTo sep quote esc ⟨true, false⟩ (escape quote esc text) ⟨true, false⟩ := by
  induction text with
  | nil => exact .nil _
  | cons c text ih =>
      rw [escape_cons]
      refine ReadsTo.append ?_ ih
      by_cases hc : c = quote ∨ c = esc
      · -- the escape symbol, then the symbol it makes ordinary
        rw [if_pos hc]
        refine .cons (fun hsplit => by simp [Splits] at hsplit) ?_
        have hescaped : advance quote esc ⟨true, false⟩ esc = ⟨true, true⟩ := by simp [advance]
        rw [hescaped]
        refine .cons (fun hsplit => by simp [Splits] at hsplit) ?_
        have hback : advance quote esc ⟨true, true⟩ c = ⟨true, false⟩ := by simp [advance]
        rw [hback]
        exact .nil _
      · rw [if_neg hc]
        rw [not_or] at hc
        have hstay : advance quote esc ⟨true, false⟩ c = ⟨true, false⟩ := by
          simp [advance, hc.1, hc.2]
        refine .cons (fun hsplit => by simp [Splits] at hsplit) ?_
        rw [hstay]
        exact .nil _

/-- **A quoted string is passed over**, whatever separators it holds. -/
theorem readsTo_quoted (hsep : quote ≠ sep) (hquote : quote ≠ esc) (text : List α) :
    ReadsTo sep quote esc {} (quote :: (escape quote esc text ++ [quote])) {} := by
  have hopen : advance quote esc {} quote = ⟨true, false⟩ := by simp [advance]
  have hclose : advance quote esc ⟨true, false⟩ quote = {} := by simp [advance, hquote]
  refine .cons (fun hsplit => hsep hsplit.1) ?_
  rw [hopen]
  refine (readsTo_escape text).append ?_
  refine .cons (fun hsplit => by simp [Splits] at hsplit) ?_
  rw [hclose]
  exact .nil _

end AvMesh.Lib
