import KernelCensus.Text.Basic
import Mathlib.Tactic.Common

/-!
# Words and gaps

A gap is a run of white space. `Text.collapse` sets one space in place of each gap and leaves out
the gap at the end, so that unlike the list of words it still says where a text starts with a gap.
It goes along with the characters of a text one by one, which is what proofs by induction need.

* `words_append_blank`: words come apart at white space.
* `squeeze_eq_trimStart`: a squeezed text is a collapsed one without the gap at its start.
* `collapse_append_letter`: a collapsed text comes apart at any other character.
-/

namespace KernelCensus.Text

open Unicode

/-! ## White space -/

/-- The characters that are white space. -/
def blanks : List Char :=
  whiteSpaceRanges.flatMap fun range =>
    (List.range' range.1 (range.2 + 1 - range.1)).map Char.ofNat

/-- What holds of white space is checked on the list of its characters. -/
lemma holds_of_blank {p : Char → Bool} (h : blanks.all p = true) {c : Char}
    (hc : isWhiteSpace c = true) : p c = true := by
  refine List.all_eq_true.mp h c ?_
  rw [isWhiteSpace, Ranges.holds, List.any_eq_true] at hc
  obtain ⟨range, hrange, hcode⟩ := hc
  rw [Bool.and_eq_true, decide_eq_true_eq, decide_eq_true_eq] at hcode
  refine List.mem_flatMap.mpr ⟨range, hrange, List.mem_map.mpr ⟨c.toNat, ?_, Char.ofNat_toNat c⟩⟩
  rw [List.mem_range'_1]
  omega

lemma filter_of_blank {text : Text} (h : ∀ c ∈ text, isWhiteSpace c = true) :
    text.filter (fun c => !isWhiteSpace c) = [] := by
  rw [List.filter_eq_nil_iff]
  intro c hc
  simpa using h c hc

lemma filter_of_letters {text : Text} (h : ∀ c ∈ text, ¬ isWhiteSpace c = true) :
    text.filter (fun c => !isWhiteSpace c) = text := by
  rw [List.filter_eq_self]
  intro c hc
  simpa using h c hc

/-! ## Words -/

lemma words_cons_blank {c : Char} (hc : isWhiteSpace c = true) (text : Text) :
    words (c :: text) = words text := by
  rw [words.eq_def]
  exact if_pos hc

lemma words_cons_cons_blank {c d : Char} (hc : ¬ isWhiteSpace c = true)
    (hd : isWhiteSpace d = true) (text : Text) :
    words (c :: d :: text) = [c] :: words text := by
  rw [words.eq_def]
  dsimp only
  rw [if_neg hc, if_pos hd, words_cons_blank hd]

lemma exists_words_cons_letter {d : Char} (hd : ¬ isWhiteSpace d = true) (text : Text) :
    ∃ word others, words (d :: text) = word :: others ∧
      ∀ c, ¬ isWhiteSpace c = true → words (c :: d :: text) = (c :: word) :: others := by
  have hne : words (d :: text) ≠ [] := by
    rw [words.eq_def]
    dsimp only
    rw [if_neg hd]
    split
    · exact List.cons_ne_nil _ _
    · split
      · exact List.cons_ne_nil _ _
      · split <;> exact List.cons_ne_nil _ _
  obtain ⟨word, others, hwords⟩ := List.exists_cons_of_ne_nil hne
  refine ⟨word, others, hwords, fun c hc => ?_⟩
  rw [words.eq_def]
  dsimp only
  rw [if_neg hc, if_neg hd, hwords]

/-- Words come apart at white space. -/
theorem words_append_blank {c : Char} (hc : isWhiteSpace c = true) (front back : Text) :
    words (front ++ c :: back) = words front ++ words back := by
  induction front with
  | nil => exact words_cons_blank hc back
  | cons d front ih =>
    by_cases hd : isWhiteSpace d = true
    · rw [List.cons_append, words_cons_blank hd, words_cons_blank hd, ih]
    · cases front with
      | nil =>
        rw [List.cons_append, List.nil_append, words_cons_cons_blank hd hc]
        rw [words, if_neg hd]
        rfl
      | cons e front =>
        by_cases he : isWhiteSpace e = true
        · rw [List.cons_append, words_cons_blank he] at ih
          rw [List.cons_append, List.cons_append, words_cons_cons_blank hd he,
            words_cons_cons_blank hd he, List.cons_append, ← words_cons_blank he front, ← ih]
        · -- the first letter of the rest stays in its word, whatever follows
          obtain ⟨word, others, hword, hcons⟩ := exists_words_cons_letter he front
          obtain ⟨word', others', hword', hcons'⟩ :=
            exists_words_cons_letter he (front ++ c :: back)
          rw [List.cons_append, hword, hword', List.cons_append, List.cons.injEq] at ih
          rw [List.cons_append, List.cons_append, hcons' d hd, hcons d hd, ih.1, ih.2]
          rfl

lemma words_of_blank {text : Text} (h : ∀ c ∈ text, isWhiteSpace c = true) : words text = [] := by
  induction text with
  | nil => rfl
  | cons c text ih =>
    rw [words_cons_blank (h c List.mem_cons_self)]
    exact ih fun d hd => h d (List.mem_cons_of_mem c hd)

lemma words_of_letters {text : Text} (hne : text ≠ [])
    (h : ∀ c ∈ text, ¬ isWhiteSpace c = true) : words text = [text] := by
  induction text with
  | nil => exact absurd rfl hne
  | cons c text ih =>
    have hc := h c List.mem_cons_self
    cases text with
    | nil =>
      rw [words, if_neg hc]
    | cons d text =>
      have hd := h d (List.mem_cons_of_mem c List.mem_cons_self)
      obtain ⟨word, others, hword, hcons⟩ := exists_words_cons_letter hd text
      rw [ih (List.cons_ne_nil d text) fun e he => h e (List.mem_cons_of_mem c he),
        List.cons.injEq] at hword
      rw [hcons c hc, ← hword.1, ← hword.2]

lemma words_append_of_blank (front : Text) {back : Text}
    (h : ∀ c ∈ back, isWhiteSpace c = true) : words (front ++ back) = words front := by
  cases back with
  | nil => rw [List.append_nil]
  | cons c back =>
    rw [words_append_blank (h c List.mem_cons_self),
      words_of_blank fun d hd => h d (List.mem_cons_of_mem c hd), List.append_nil]

lemma words_append_blank_left {front : Text} (h : ∀ c ∈ front, isWhiteSpace c = true)
    (back : Text) : words (front ++ back) = words back := by
  induction front with
  | nil => rfl
  | cons c front ih =>
    rw [List.cons_append, words_cons_blank (h c List.mem_cons_self)]
    exact ih fun d hd => h d (List.mem_cons_of_mem c hd)

/-- The last character of a text that follows `previous`, from its second character on. -/
lemma getLast?_cons_or (c : Char) (text : Text) (previous : Option Char) :
    (c :: text).getLast?.or previous = text.getLast?.or (some c) := by
  rw [List.getLast?_cons]
  cases text.getLast? <;> rfl

/-- Trimming the start of a text takes away white space. -/
lemma exists_eq_append_trimStart (text : Text) :
    ∃ gap, text = gap ++ trimStart text ∧ ∀ c ∈ gap, isWhiteSpace c = true :=
  ⟨text.takeWhile isWhiteSpace, List.takeWhile_append_dropWhile.symm,
    List.all_eq_true.mp List.all_takeWhile⟩

lemma exists_eq_append_trim (text : Text) :
    ∃ before after, text = before ++ (trim text ++ after) ∧
      (∀ c ∈ before, isWhiteSpace c = true) ∧ ∀ c ∈ after, isWhiteSpace c = true := by
  obtain ⟨before, hstart, hbefore⟩ := exists_eq_append_trimStart text
  obtain ⟨after, hend, hafter⟩ := exists_eq_append_trimStart (trimStart text).reverse
  have htrim : trimStart text = trim text ++ after.reverse := by
    have hreverse := congrArg List.reverse hend
    rw [List.reverse_reverse, List.reverse_append] at hreverse
    exact hreverse
  refine ⟨before, after.reverse, ?_, hbefore, fun c hc => hafter c (List.mem_reverse.mp hc)⟩
  rw [← htrim]
  exact hstart

/-- Trimming keeps the words. -/
theorem words_trim (text : Text) : words (trim text) = words text := by
  obtain ⟨before, after, htext, hbefore, hafter⟩ := exists_eq_append_trim text
  have hwords := congrArg words htext
  rw [words_append_blank_left hbefore, words_append_of_blank _ hafter] at hwords
  exact hwords.symm

/-! ## Gaps -/

/-- A text with a space in front, unless it starts with one or is empty. -/
def spaced : Text → Text
  | [] => []
  | c :: text => if c = ' ' then c :: text else ' ' :: c :: text

/-- A text with one space for each gap, and none for a gap at the end. -/
def collapse : Text → Text
  | [] => []
  | c :: text => if isWhiteSpace c then spaced (collapse text) else c :: collapse text

lemma isWhiteSpace_space : isWhiteSpace ' ' = true := by decide

lemma ne_space {c : Char} (hc : ¬ isWhiteSpace c = true) : c ≠ ' ' := by
  intro h
  rw [h] at hc
  exact hc isWhiteSpace_space

lemma collapse_cons_blank {c : Char} (hc : isWhiteSpace c = true) (text : Text) :
    collapse (c :: text) = spaced (collapse text) := by
  rw [collapse, if_pos hc]

lemma collapse_cons_letter {c : Char} (hc : ¬ isWhiteSpace c = true) (text : Text) :
    collapse (c :: text) = c :: collapse text := by
  rw [collapse, if_neg hc]

lemma spaced_spaced (text : Text) : spaced (spaced text) = spaced text := by
  cases text with
  | nil => rfl
  | cons c text =>
    by_cases hc : c = ' '
    · rw [spaced, if_pos hc, spaced, if_pos hc]
    · rw [spaced, if_neg hc, spaced, if_pos rfl]

lemma spaced_cons_letter {c : Char} (hc : ¬ isWhiteSpace c = true) (text : Text) :
    spaced (c :: text) = ' ' :: c :: text := by
  rw [spaced, if_neg (ne_space hc)]

lemma trimStart_cons_letter {c : Char} (hc : ¬ isWhiteSpace c = true) (text : Text) :
    trimStart (c :: text) = c :: text := by
  rw [trimStart, List.dropWhile_cons, if_neg hc]

lemma trimStart_cons_blank {c : Char} (hc : isWhiteSpace c = true) (text : Text) :
    trimStart (c :: text) = trimStart text := by
  rw [trimStart, List.dropWhile_cons, if_pos hc]
  rfl

lemma trimStart_append_blank {front : Text} (h : ∀ c ∈ front, isWhiteSpace c = true)
    (back : Text) : trimStart (front ++ back) = trimStart back := by
  unfold trimStart
  exact List.dropWhile_append_of_pos h

lemma trimStart_spaced (text : Text) : trimStart (spaced text) = trimStart text := by
  cases text with
  | nil => rfl
  | cons c text =>
    by_cases hc : c = ' '
    · rw [spaced, if_pos hc]
    · rw [spaced, if_neg hc, trimStart_cons_blank isWhiteSpace_space]

/-- Collapsing goes along with dropping the gap at the start. -/
lemma trimStart_collapse (text : Text) : trimStart (collapse text) = collapse (trimStart text) := by
  induction text with
  | nil => rfl
  | cons c text ih =>
    by_cases hc : isWhiteSpace c = true
    · rw [collapse_cons_blank hc, trimStart_spaced, ih, trimStart_cons_blank hc]
    · rw [collapse_cons_letter hc, trimStart_cons_letter hc, trimStart_cons_letter hc,
        collapse_cons_letter hc]

lemma collapse_of_blank {text : Text} (h : ∀ c ∈ text, isWhiteSpace c = true) :
    collapse text = [] := by
  induction text with
  | nil => rfl
  | cons c text ih =>
    rw [collapse_cons_blank (h c List.mem_cons_self),
      ih fun d hd => h d (List.mem_cons_of_mem c hd)]
    rfl

lemma collapse_append_letters {front : Text} (h : ∀ c ∈ front, ¬ isWhiteSpace c = true)
    (back : Text) : collapse (front ++ back) = front ++ collapse back := by
  induction front with
  | nil => rfl
  | cons c front ih =>
    rw [List.cons_append, collapse_cons_letter (h c List.mem_cons_self),
      ih fun d hd => h d (List.mem_cons_of_mem c hd)]
    rfl

lemma collapse_of_letters {text : Text} (h : ∀ c ∈ text, ¬ isWhiteSpace c = true) :
    collapse text = text := by
  have hself := collapse_append_letters h []
  rw [List.append_nil, collapse, List.append_nil] at hself
  exact hself

/-! ## Squeezed text -/

/-- One piece more is put in front with a separator. -/
lemma joinWith_cons_of_ne_nil (separator : Char) (piece : Text) {others : List Text}
    (h : others ≠ []) :
    joinWith [separator] (piece :: others) = piece ++ separator :: joinWith [separator] others := by
  obtain ⟨other, rest, rfl⟩ := List.exists_cons_of_ne_nil h
  rw [joinWith, List.intercalate_cons_cons]
  simp [joinWith]

/-- Each piece after the first one has a separator before it. -/
lemma joinWith_cons (separator piece : Text) (others : List Text) :
    joinWith separator (piece :: others) = piece ++ others.flatMap (separator ++ ·) := by
  induction others generalizing piece with
  | nil => rw [joinWith, List.intercalate_singleton, List.flatMap_nil, List.append_nil]
  | cons other others ih =>
    rw [joinWith, List.intercalate_cons_cons, ← joinWith, ih, List.flatMap_cons,
      List.append_assoc, List.append_assoc]

/-- After a letter a squeezed text is a collapsed one, and a gap before it is one space. -/
private lemma squeeze_and_spaced (text : Text) :
    (∀ c, ¬ isWhiteSpace c = true → squeeze (c :: text) = c :: collapse text) ∧
      spaced (collapse text) = if words text = [] then [] else ' ' :: squeeze text := by
  induction text with
  | nil =>
    refine ⟨fun c hc => ?_, rfl⟩
    rw [squeeze, words, if_neg hc]
    rfl
  | cons d text ih =>
    by_cases hd : isWhiteSpace d = true
    · constructor
      · intro c hc
        rw [squeeze, words_cons_cons_blank hc hd, collapse_cons_blank hd, ih.2]
        by_cases hwords : words text = []
        · rw [if_pos hwords, hwords]
          rfl
        · rw [if_neg hwords, joinWith_cons_of_ne_nil ' ' [c] hwords]
          rfl
      · rw [collapse_cons_blank hd, spaced_spaced, ih.2, words_cons_blank hd, squeeze, squeeze,
          words_cons_blank hd]
    · obtain ⟨word, others, hword, hcons⟩ := exists_words_cons_letter hd text
      constructor
      · intro c hc
        rw [collapse_cons_letter hd, ← ih.1 d hd, squeeze, squeeze, hcons c hc, hword]
        cases others with
        | nil => simp [joinWith]
        | cons other others => simp [joinWith, List.intercalate_cons_cons]
      · rw [collapse_cons_letter hd, spaced_cons_letter hd, ih.1 d hd, hword,
          if_neg (List.cons_ne_nil word others)]

lemma squeeze_cons_letter {c : Char} (hc : ¬ isWhiteSpace c = true) (text : Text) :
    squeeze (c :: text) = c :: collapse text := (squeeze_and_spaced text).1 c hc

lemma squeeze_cons_blank {c : Char} (hc : isWhiteSpace c = true) (text : Text) :
    squeeze (c :: text) = squeeze text := by
  rw [squeeze, squeeze, words_cons_blank hc]

/-- A squeezed text is a collapsed one without the gap at its start. -/
theorem squeeze_eq_trimStart (text : Text) : squeeze text = trimStart (collapse text) := by
  induction text with
  | nil => rfl
  | cons c text ih =>
    by_cases hc : isWhiteSpace c = true
    · rw [squeeze_cons_blank hc, collapse_cons_blank hc, trimStart_spaced, ih]
    · rw [squeeze_cons_letter hc, collapse_cons_letter hc, trimStart_cons_letter hc]

/-- Texts that start with letters and have the same words collapse to the same text. -/
theorem collapse_eq_of_words_eq {first second : Text}
    (hfirst : ∀ c ∈ first.head?, ¬ isWhiteSpace c = true)
    (hsecond : ∀ c ∈ second.head?, ¬ isWhiteSpace c = true) (h : words first = words second) :
    collapse first = collapse second := by
  have hsqueeze {text : Text} (htext : ∀ c ∈ text.head?, ¬ isWhiteSpace c = true) :
      collapse text = squeeze text := by
    cases text with
    | nil => rfl
    | cons c text =>
      have hc := htext c rfl
      rw [collapse_cons_letter hc, squeeze_cons_letter hc]
  rw [hsqueeze hfirst, hsqueeze hsecond, squeeze, squeeze, h]

/-! ## Gaps at the end -/

lemma getLast?_collapse (text : Text) :
    ∀ c ∈ (collapse text).getLast?, ¬ isWhiteSpace c = true := by
  induction text with
  | nil =>
    intro c hc
    cases hc
  | cons d text ih =>
    intro c hc
    by_cases hd : isWhiteSpace d = true
    · rw [collapse_cons_blank hd] at hc
      refine ih c ?_
      cases hcollapse : collapse text with
      | nil =>
        rw [hcollapse] at hc
        exact hc
      | cons e rest =>
        rw [hcollapse, spaced] at hc
        split at hc
        · exact hc
        · rw [List.getLast?_cons_cons] at hc
          exact hc
    · rw [collapse_cons_letter hd] at hc
      cases hcollapse : collapse text with
      | nil =>
        rw [hcollapse] at hc
        cases hc
        exact hd
      | cons e rest =>
        rw [hcollapse, List.getLast?_cons_cons, ← hcollapse] at hc
        exact ih c hc

/-- What a text keeps of a gap between it and a letter. -/
def IsJoint (gap : Text) : Prop := gap = [] ∨ gap = [' ']

/-- Dropping the gap at the end leaves a text that does not end with white space. -/
lemma trimEnd_append_joint {text gap : Text} (hgap : IsJoint gap)
    (htext : ∀ c ∈ text.getLast?, ¬ isWhiteSpace c = true) : trimEnd (text ++ gap) = text := by
  have htrim : trimEnd text = text := by
    rw [trimEnd]
    cases hreverse : text.reverse with
    | nil =>
      rw [List.reverse_eq_nil_iff.mp hreverse]
      rfl
    | cons c rest =>
      have hlast : text.getLast? = some c := by
        rw [← List.head?_reverse, hreverse]
        rfl
      rw [List.dropWhile_cons, if_neg (htext c hlast), ← hreverse, List.reverse_reverse]
  rcases hgap with rfl | rfl
  · rw [List.append_nil, htrim]
  · rw [trimEnd, List.reverse_append]
    exact htrim

/-- A collapsed text comes apart at any character that is not white space. -/
theorem collapse_append_letter {c : Char} (hc : ¬ isWhiteSpace c = true) (front back : Text) :
    ∃ gap, IsJoint gap ∧
      collapse (front ++ c :: back) = collapse front ++ gap ++ c :: collapse back := by
  induction front with
  | nil => exact ⟨[], Or.inl rfl, collapse_cons_letter hc back⟩
  | cons d front ih =>
    obtain ⟨gap, hgap, heq⟩ := ih
    by_cases hd : isWhiteSpace d = true
    · rw [List.cons_append, collapse_cons_blank hd, collapse_cons_blank hd, heq]
      cases hfront : collapse front with
      | nil =>
        refine ⟨[' '], Or.inr rfl, ?_⟩
        rcases hgap with rfl | rfl
        · exact spaced_cons_letter hc _
        · rfl
      | cons e rest =>
        refine ⟨gap, hgap, ?_⟩
        by_cases he : e = ' '
        · simp [spaced, he]
        · simp [spaced, he]
    · refine ⟨gap, hgap, ?_⟩
      rw [List.cons_append, collapse_cons_letter hd, collapse_cons_letter hd, heq]
      rfl

/-- Trimming takes away such a gap together with the one at the start. -/
lemma trim_append_joint {text gap : Text} (hgap : IsJoint gap)
    (htext : ∀ c ∈ text.getLast?, ¬ isWhiteSpace c = true) :
    trim (text ++ gap) = trimStart text := by
  induction text with
  | nil => rcases hgap with rfl | rfl <;> rfl
  | cons c text ih =>
    by_cases hc : isWhiteSpace c = true
    · have hrest : ∀ d ∈ text.getLast?, ¬ isWhiteSpace d = true := by
        intro d hd
        refine htext d ?_
        rw [List.getLast?_cons, Option.mem_def.mp hd]
        rfl
      rw [trim, List.cons_append, trimStart_cons_blank hc, trimStart_cons_blank hc]
      exact ih hrest
    · rw [trim, List.cons_append, trimStart_cons_letter hc, trimStart_cons_letter hc,
        ← List.cons_append]
      exact trimEnd_append_joint hgap htext

lemma trim_of_letters {text : Text} (h : ∀ c ∈ text, ¬ isWhiteSpace c = true) :
    trim text = text := by
  have hlast : ∀ c ∈ text.getLast?, ¬ isWhiteSpace c = true :=
    fun c hc => h c (List.mem_of_getLast? hc)
  have htrim := trim_append_joint (Or.inl rfl) hlast
  rw [List.append_nil] at htrim
  rw [htrim]
  cases text with
  | nil => rfl
  | cons c text => exact trimStart_cons_letter (h c List.mem_cons_self) text

/-- Trimming a collapsed text squeezes it. -/
theorem trim_collapse_append {gap : Text} (hgap : IsJoint gap) (text : Text) :
    trim (collapse text ++ gap) = squeeze text := by
  rw [trim_append_joint hgap (getLast?_collapse text), squeeze_eq_trimStart]

end KernelCensus.Text
