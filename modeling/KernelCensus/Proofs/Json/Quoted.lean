import KernelCensus.Json.Reader
import KernelCensus.Json.Writer
import Mathlib.Tactic.Common

/-!
# JSON strings

A text that is written as a string is read back from it. Each character is written as one escape or
as itself, which is read as the code of the character, and no code of a character is half of a
surrogate pair.
-/

namespace KernelCensus.Json

/-- The digits of a code below 32 read as the code. -/
lemma hexCode?_hexPair {code : Nat} (h : code < 0x20) :
    hexCode? '0' '0' (Nat.digitChar (code / 16)) (Nat.digitChar (code % 16)) = some code := by
  have hall : ∀ code < 0x20,
      hexCode? '0' '0' (Nat.digitChar (code / 16)) (Nat.digitChar (code % 16)) = some code := by
    decide +kernel
  exact hall code h

/-- A character that is written as itself is read as itself. -/
lemma codes?_cons {c : Char} (hquote : c ≠ '"') (hbackslash : c ≠ '\\') (hcontrol : ¬ c.toNat < 0x20)
    (rest : Text) :
    codes? (c :: rest) = (codes? rest).map fun parts => (c.toNat :: parts.1, parts.2) := by
  rw [codes?]
  · rw [if_neg hcontrol]
  · exact hquote
  · intro _ _ _ _ _ h
    exact absurd h hbackslash
  · intro _ _ h
    exact absurd h hbackslash

/-- A character as it stands in a string is read as its code. -/
lemma codes?_escapeChar (c : Char) (rest : Text) :
    codes? (escapeChar c ++ rest) =
      (codes? rest).map fun parts => (c.toNat :: parts.1, parts.2) := by
  unfold escapeChar
  split
  case h_8 hquote hbackslash _ _ _ _ _ =>
    split
    · next hcontrol =>
      show codes? ('\\' :: 'u' :: '0' :: '0' :: Nat.digitChar (c.toNat / 16) ::
        Nat.digitChar (c.toNat % 16) :: rest) = _
      rw [codes?, hexCode?_hexPair hcontrol]
    · next hcontrol => exact codes?_cons hquote hbackslash hcontrol rest
  all_goals
    rw [List.cons_append, List.cons_append, List.nil_append, codes?]
    · rfl
    · intro _ _ _ _ _ h
      cases h

/-- The codes of a text are read from the text as it stands in a string. -/
lemma codes?_flatMap_escapeChar (content rest : Text) :
    codes? (content.flatMap escapeChar ++ '"' :: rest) = some (content.map Char.toNat, rest) := by
  induction content with
  | nil => rw [List.flatMap_nil, List.nil_append, codes?, List.map_nil]
  | cons c content ih =>
    rw [List.flatMap_cons, List.append_assoc, codes?_escapeChar, ih]
    rfl

lemma not_isSurrogate (c : Char) :
    isHighSurrogate c.toNat = false ∧ isLowSurrogate c.toNat = false := by
  have hvalid := c.valid
  simp only [UInt32.isValidChar, Nat.isValidChar] at hvalid
  have hcode : c.toNat = c.val.toNat := rfl
  simp only [isHighSurrogate, isLowSurrogate, Bool.and_eq_false_iff, decide_eq_false_iff_not]
  omega

lemma textOfCodes?_map_toNat (content : Text) :
    textOfCodes? (content.map Char.toNat) = some content := by
  induction content with
  | nil => rfl
  | cons c content ih =>
    obtain ⟨hhigh, hlow⟩ := not_isSurrogate c
    cases content with
    | nil => simp [textOfCodes?, hhigh, hlow, Char.ofNat_toNat]
    | cons d content =>
      rw [List.map_cons] at ih
      rw [List.map_cons, List.map_cons, textOfCodes?, hhigh, hlow, ih]
      simp [Char.ofNat_toNat]

/-- A text is read back from the string that denotes it. -/
theorem content?_quote (content rest : Text) :
    ∃ body, quote content ++ rest = '"' :: body ∧ content? body = some (some content, rest) := by
  refine ⟨content.flatMap escapeChar ++ '"' :: rest, by simp [quote], ?_⟩
  rw [content?, codes?_flatMap_escapeChar, Option.map_some, textOfCodes?_map_toNat]

end KernelCensus.Json
