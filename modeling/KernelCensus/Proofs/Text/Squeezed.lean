import KernelCensus.Proofs.Text.Cut
import KernelCensus.Proofs.Text.Words

/-!
# Squeezed text

What squeezing makes of a text has no white space but single spaces between its words. No part of
such a text has any other white space, so a part that is trimmed is squeezed already.

* `singleSpaced_squeeze`, `isSqueezed_squeeze`: squeezing leaves single spaces between letters.
* `SingleSpaced.isSqueezed_trim`: parts of a text with single spaces.
* `IsSqueezed.squeeze_eq`: squeezing changes nothing more.
-/

namespace KernelCensus.Text

open Unicode

/-- Text whose white space is single spaces. -/
structure SingleSpaced (text : Text) : Prop where
  spaces : ∀ c ∈ text, isWhiteSpace c = true → c = ' '
  single : ¬ [' ', ' '] <:+: text

/-- Text whose white space is single spaces between letters. -/
structure IsSqueezed (text : Text) : Prop extends SingleSpaced text where
  head : ∀ c ∈ text.head?, ¬ isWhiteSpace c = true
  last : ∀ c ∈ text.getLast?, ¬ isWhiteSpace c = true

/-! ## Single spaces -/

lemma singleSpaced_nil : SingleSpaced [] where
  spaces := List.forall_mem_nil _
  single := by
    rw [List.infix_nil]
    exact List.cons_ne_nil _ _

/-- A part of a text has no white space that the text does not have. -/
lemma SingleSpaced.of_isInfix {part text : Text} (h : SingleSpaced text) (hpart : part <:+: text) :
    SingleSpaced part where
  spaces := fun c hc => h.spaces c (hpart.subset hc)
  single := fun hdouble => h.single (hdouble.trans hpart)

lemma SingleSpaced.cons_letter {text : Text} (h : SingleSpaced text) {c : Char}
    (hc : ¬ isWhiteSpace c = true) : SingleSpaced (c :: text) where
  spaces := by
    intro d hd hblank
    rcases List.mem_cons.mp hd with rfl | hmem
    · exact absurd hblank hc
    · exact h.spaces d hmem hblank
  single := by
    intro hdouble
    rcases List.infix_cons_iff.mp hdouble with ⟨rest, hfront⟩ | hrest
    · exact ne_space hc (List.cons.inj hfront).1.symm
    · exact h.single hrest

/-- A space may stand in front of a text that does not start with one. -/
lemma SingleSpaced.cons_space {text : Text} (h : SingleSpaced text)
    (hhead : text.head? ≠ some ' ') : SingleSpaced (' ' :: text) where
  spaces := by
    intro d hd hblank
    rcases List.mem_cons.mp hd with rfl | hmem
    · rfl
    · exact h.spaces d hmem hblank
  single := by
    intro hdouble
    rcases List.infix_cons_iff.mp hdouble with ⟨rest, hfront⟩ | hrest
    · rw [← (List.cons.inj hfront).2] at hhead
      exact hhead rfl
    · exact h.single hrest

/-- Setting a space in front of a text doubles none. -/
lemma SingleSpaced.spaced {text : Text} (h : SingleSpaced text) : SingleSpaced (spaced text) := by
  cases text with
  | nil => exact singleSpaced_nil
  | cons c text =>
    by_cases hc : c = ' '
    · rw [Text.spaced, if_pos hc]
      exact h
    · rw [Text.spaced, if_neg hc]
      refine h.cons_space fun hhead => ?_
      exact hc (Option.some.inj hhead)

lemma singleSpaced_collapse (text : Text) : SingleSpaced (collapse text) := by
  induction text with
  | nil => exact singleSpaced_nil
  | cons c text ih =>
    by_cases hc : isWhiteSpace c = true
    · rw [collapse_cons_blank hc]
      exact ih.spaced
    · rw [collapse_cons_letter hc]
      exact ih.cons_letter hc

/-- A squeezed text has single spaces. -/
theorem singleSpaced_squeeze (text : Text) : SingleSpaced (squeeze text) := by
  rw [squeeze_eq_trimStart]
  exact (singleSpaced_collapse text).of_isInfix (List.dropWhile_suffix _).isInfix

/-- A squeezed text has single spaces between letters. -/
theorem isSqueezed_squeeze (text : Text) : IsSqueezed (squeeze text) where
  toSingleSpaced := singleSpaced_squeeze text
  head := by
    intro c hc
    rw [squeeze_eq_trimStart] at hc
    exact Bool.eq_false_iff.mp (not_of_mem_head?_dropWhile hc)
  last := by
    intro c hc
    rw [squeeze_eq_trimStart] at hc
    obtain ⟨gap, hsplit, -⟩ := exists_eq_append_trimStart (collapse text)
    refine getLast?_collapse text c ?_
    rw [hsplit, List.getLast?_append, Option.mem_def.mp hc]
    rfl

/-! ## Trimming -/

/-- What is left of a text that is trimmed is a part of it. -/
lemma trim_isInfix (text : Text) : trim text <:+: text := by
  obtain ⟨before, after, htext, -, -⟩ := exists_eq_append_trim text
  refine ⟨before, after, ?_⟩
  rw [List.append_assoc]
  exact htext.symm

/-- Without the gap at its end, a text does not end with white space. -/
lemma getLast?_trimEnd {text : Text} : ∀ c ∈ (trimEnd text).getLast?, ¬ isWhiteSpace c = true := by
  intro c hc
  rw [trimEnd, List.getLast?_reverse] at hc
  exact Bool.eq_false_iff.mp (not_of_mem_head?_dropWhile hc)

/-- Dropping the gap at the end leaves the start of a text as it is. -/
lemma trimEnd_isPrefix (text : Text) : trimEnd text <+: text := by
  have hsuffix : text.reverse.dropWhile isWhiteSpace <:+ text.reverse := List.dropWhile_suffix _
  rw [trimEnd, ← List.reverse_suffix, List.reverse_reverse]
  exact hsuffix

lemma head?_trim {text : Text} : ∀ c ∈ (trim text).head?, ¬ isWhiteSpace c = true := by
  intro c hc
  obtain ⟨rest, hstart⟩ := trimEnd_isPrefix (trimStart text)
  have hhead : c ∈ (trimStart text).head? := by
    rw [← hstart, List.head?_append]
    show ((trim text).head?).or rest.head? = some c
    rw [Option.mem_def.mp hc]
    rfl
  exact Bool.eq_false_iff.mp (not_of_mem_head?_dropWhile hhead)

/-- Trimming the end of a text leaves a start of it that ends with a letter. -/
lemma isPrefix_trimEnd_append {front : Text} (h : ∀ c ∈ front.getLast?, ¬ isWhiteSpace c = true)
    (back : Text) : front <+: trimEnd (front ++ back) := by
  have hwhole := trimEnd_isPrefix (front ++ back)
  rcases List.prefix_or_prefix_of_prefix (List.prefix_append front back) hwhole with
    hinside | ⟨rest, hrest⟩
  · exact hinside
  · obtain ⟨gap, hgap, hblank⟩ := exists_eq_append_trimStart (front ++ back).reverse
    have hsplit : front ++ back = trimEnd (front ++ back) ++ gap.reverse := by
      rw [trimEnd, ← List.reverse_append, ← trimStart, ← hgap, List.reverse_reverse]
    have hgap' : rest ++ back = gap.reverse := by
      rw [← List.append_right_inj (trimEnd (front ++ back)), ← List.append_assoc, hrest]
      exact hsplit
    -- what is trimmed off the start would be white space at its end
    cases hlast : rest.getLast? with
    | none =>
      rw [List.getLast?_eq_none_iff.mp hlast, List.append_nil] at hrest
      rw [hrest]
    | some c =>
      have hmem : c ∈ gap.reverse := by
        rw [← hgap']
        exact List.mem_append_left back (List.mem_of_getLast? hlast)
      refine absurd (hblank c (List.mem_reverse.mp hmem)) (h c ?_)
      rw [← hrest, List.getLast?_append, hlast]
      rfl

/-- Trimming a longer text leaves what is left of the text in front of it. -/
lemma trim_isPrefix_trim_append (front back : Text) : trim front <+: trim (front ++ back) := by
  obtain ⟨before, after, hfront, hbefore, hafter⟩ := exists_eq_append_trim front
  cases hcore : trim front with
  | nil => exact List.nil_prefix
  | cons c core =>
    have hc : ¬ isWhiteSpace c = true := head?_trim c (by rw [hcore]; rfl)
    have hstart : trimStart (front ++ back) = trim front ++ (after ++ back) := by
      conv_lhs => rw [hfront]
      rw [List.append_assoc, trimStart_append_blank hbefore, hcore, List.append_assoc,
        List.cons_append, trimStart_cons_letter hc]
    rw [trim, hstart, ← hcore]
    exact isPrefix_trimEnd_append getLast?_trimEnd _

/-- A part of a text with single spaces is squeezed when it is trimmed. -/
theorem SingleSpaced.isSqueezed_trim {text : Text} (h : SingleSpaced text) :
    IsSqueezed (trim text) where
  toSingleSpaced := h.of_isInfix (trim_isInfix text)
  head := head?_trim
  last := getLast?_trimEnd

/-! ## Squeezing again -/

/-- A text with single spaces collapses to itself if it does not end with one. -/
lemma SingleSpaced.collapse_eq {text : Text} (h : SingleSpaced text)
    (hlast : ∀ c ∈ text.getLast?, ¬ isWhiteSpace c = true) : collapse text = text := by
  induction text with
  | nil => rfl
  | cons c text ih =>
    have htail := h.of_isInfix (List.suffix_cons c text).isInfix
    cases text with
    | nil => exact collapse_of_letters (List.forall_mem_singleton.mpr (hlast c rfl))
    | cons d rest =>
      have hrest : collapse (d :: rest) = d :: rest := by
        refine ih htail fun e he => hlast e ?_
        rw [List.getLast?_cons_cons]
        exact he
      by_cases hc : isWhiteSpace c = true
      · -- the one space of this gap is followed by a letter
        obtain rfl := h.spaces c List.mem_cons_self hc
        have hd : d ≠ ' ' := by
          rintro rfl
          exact h.single ⟨[], rest, rfl⟩
        rw [collapse_cons_blank hc, hrest, Text.spaced, if_neg hd]
      · rw [collapse_cons_letter hc, hrest]

/-- Squeezing changes nothing in a squeezed text. -/
theorem IsSqueezed.squeeze_eq {text : Text} (h : IsSqueezed text) : squeeze text = text := by
  rw [squeeze_eq_trimStart, h.collapse_eq h.last]
  cases text with
  | nil => rfl
  | cons c text => exact trimStart_cons_letter (h.head c rfl) text

end KernelCensus.Text
