import KernelCensus.Proofs.Declaration.Pieces

/-!
# What the erasure of attributes removes

The erasure of one keyword replaces what it takes for attributes: the keyword at the start of a
word, white space and an argument list. The next keyword meets what is left of the text, so that
its attributes may have others in them, in their arguments and before them. In the text itself they
are attributes all the same, and nothing else is removed.

* `exists_treats`: one keyword.
* `exists_pieces_of_eraseAll?`: all keywords.
* `eraseAll?_removes_attributes`: what is removed, and when the erasure fails.
-/

namespace KernelCensus.Attribute

open Unicode Text
open Name (isPart)
open Parentheses (Balanced balanced_of_closing? closing?)

/-! ## Attributes -/

/-- An attribute with the keyword: white space alone stands before its argument list. -/
def IsDirect (keyword part : Text) : Prop :=
  ∃ gap arguments, part = keyword ++ (gap ++ '(' :: (arguments ++ [')'])) ∧
    (∀ c ∈ gap, isWhiteSpace c = true) ∧ Balanced arguments

/-- An attribute with one of the keywords: white space and other attributes may stand before its
argument list, in which the parentheses are balanced. -/
inductive IsAttribute (keywords : List Text) : Text → Prop
  | intro {keyword : Text} {lead : List Piece} {arguments : Text} (hkeyword : keyword ∈ keywords)
    (hne : keyword ≠ []) (hblank : ∀ c ∈ leftOf lead, isWhiteSpace c = true)
    (hlead : ∀ part, Piece.erased part ∈ lead → IsAttribute keywords part)
    (harguments : Balanced arguments) :
    IsAttribute keywords (keyword ++ (textOf lead ++ '(' :: (arguments ++ [')'])))

/-- In a text that follows `previous`, the keyword starts a word, and behind it a parenthesis opens,
with `inner` behind it. -/
def Opens (keyword : Text) (previous : Option Char) (text inner : Text) : Prop :=
  ∃ before gap, text = before ++ (keyword ++ (gap ++ '(' :: inner)) ∧
    startsWord (before.getLast?.or previous) = true ∧ ∀ c ∈ gap, isWhiteSpace c = true

/-- The parenthesis before a text is not closed in it. -/
def Unclosed (inner : Text) : Prop :=
  ∀ arguments rest, inner = arguments ++ ')' :: rest → ¬ Balanced arguments

/-- Keywords are checked character by character. -/
lemma forall_isPart_of_all {keywords : List Text}
    (h : (keywords.all fun keyword => keyword.all isPart) = true) :
    ∀ keyword ∈ keywords, ∀ c ∈ keyword, isPart c = true := by
  simpa using h

/-- No word starts behind a character of an identifier. -/
lemma startsWord_of_isPart {c : Char} (hc : isPart c = true) : startsWord (some c) = false := by
  have hascii := Name.toNat_lt_of_isPart hc
  show (!(isAlphanumeric c || c == '_')) = false
  rw [isAlphanumeric, isAlphabetic, isNumeric, if_pos hascii, if_pos hascii, Bool.not_eq_false']
  exact hc

lemma getLast?_closed (front arguments : Text) :
    (front ++ '(' :: (arguments ++ [')'])).getLast? = some ')' := by
  rw [List.getLast?_append, List.getLast?_cons, List.getLast?_append]
  rfl

lemma IsDirect.getLast?_eq {keyword part : Text} (h : IsDirect keyword part) :
    part.getLast? = some ')' := by
  obtain ⟨gap, arguments, rfl, -, -⟩ := h
  rw [← List.append_assoc]
  exact getLast?_closed _ arguments

lemma IsAttribute.getLast?_eq {keywords : List Text} {part : Text} (h : IsAttribute keywords part) :
    part.getLast? = some ')' := by
  cases h with
  | @intro keyword lead arguments _ _ _ _ _ =>
    rw [← List.append_assoc]
    exact getLast?_closed _ arguments

/-- Balanced text goes on being balanced when its spaces are replaced by balanced text. -/
lemma balanced_textOf {pieces : List Piece} (h : Balanced (leftOf pieces))
    (herased : ∀ part, Piece.erased part ∈ pieces → Balanced part) : Balanced (textOf pieces) := by
  generalize hleft : leftOf pieces = left at h
  induction h generalizing pieces with
  | nil =>
    rw [List.map_eq_nil_iff.mp hleft]
    exact .nil
  | @other c rest hopen hclose _ ih =>
    obtain ⟨piece, pieces, rfl, hc, hrest⟩ := List.map_eq_cons_iff.mp hleft
    have hback := ih (fun part hmem => herased part (List.mem_cons_of_mem piece hmem)) hrest
    cases piece with
    | kept d =>
      subst hc
      exact .other hopen hclose hback
    | erased part => exact (herased part List.mem_cons_self).append hback
  | @group inner rest _ _ ihinner ihrest =>
    obtain ⟨front, back, rfl, hfront, hback⟩ := List.map_eq_append_iff.mp hleft
    obtain ⟨opening, middle, rfl, hopening, hmiddle⟩ := List.map_eq_cons_iff.mp hfront
    obtain ⟨closing, back, rfl, hclosing, hrest⟩ := List.map_eq_cons_iff.mp hback
    have hopening := Piece.eq_kept hopening (by decide)
    have hclosing := Piece.eq_kept hclosing (by decide)
    subst hopening hclosing
    have hinner : Balanced (textOf middle) :=
      ihinner (fun part hmem => herased part (by simp [hmem])) hmiddle
    have hrest : Balanced (textOf back) :=
      ihrest (fun part hmem => herased part (by simp [hmem])) hrest
    rw [textOf_append]
    exact .group hinner hrest

/-- A word is a balanced text. -/
lemma balanced_of_isWord {word : Text} (h : IsWord word) : Balanced word := by
  apply Balanced.of_all
  rw [List.all_eq_true]
  intro c hc
  simpa using (h.letters c hc).2

/-- The parentheses of an attribute are balanced. -/
lemma IsAttribute.balanced {keywords : List Text}
    (hkeywords : ∀ keyword ∈ keywords, ∀ c ∈ keyword, isPart c = true) {part : Text}
    (h : IsAttribute keywords part) : Balanced part := by
  induction h with
  | @intro keyword lead arguments hkeyword hne hblank _ harguments ih =>
    have hword := isWord_of_isPart hne (hkeywords keyword hkeyword)
    have hgap : Balanced (leftOf lead) := by
      apply Balanced.of_all
      rw [List.all_eq_true]
      intro c hc
      simpa using Parentheses.ne_of_blank (hblank c hc)
    have hlist : Balanced ('(' :: arguments ++ ')' :: []) := .group harguments .nil
    exact (balanced_of_isWord hword).append ((balanced_textOf hgap ih).append hlist)

/-- What an erasure covers is an attribute, if what an earlier one left of it is. -/
lemma isAttribute_textOf {keywords : List Text}
    (hkeywords : ∀ keyword ∈ keywords, ∀ c ∈ keyword, isPart c = true) {keyword : Text}
    (hkeyword : keyword ∈ keywords) (hne : keyword ≠ []) {covered : List Piece}
    (hdirect : IsDirect keyword (leftOf covered))
    (hcovered : ∀ part, Piece.erased part ∈ covered → IsAttribute keywords part) :
    IsAttribute keywords (textOf covered) := by
  obtain ⟨gap, arguments, heq, hgap, harguments⟩ := hdirect
  have hspace : ' ' ∉ keyword := fun hmem => absurd (hkeywords keyword hkeyword _ hmem) (by decide)
  -- the keyword and the outer parentheses of the attribute are no spaces, so they were there before
  obtain ⟨word, rest, rfl, hword, hrest⟩ := List.map_eq_append_iff.mp heq
  obtain ⟨lead, list, rfl, hlead, hlist⟩ := List.map_eq_append_iff.mp hrest
  obtain ⟨opening, body, rfl, hopening, hbody⟩ := List.map_eq_cons_iff.mp hlist
  obtain ⟨inner, single, rfl, hinner, hsingle⟩ := List.map_eq_append_iff.mp hbody
  obtain ⟨closing, rfl, hclosing⟩ := List.map_eq_singleton_iff.mp hsingle
  have hword := eq_map_kept_of_leftOf hword hspace
  have hopening := Piece.eq_kept hopening (by decide)
  have hclosing := Piece.eq_kept hclosing (by decide)
  subst hword hopening hclosing
  have hblank : ∀ c ∈ leftOf lead, isWhiteSpace c = true := by
    rw [leftOf, hlead]
    exact hgap
  have hbalanced : Balanced (textOf inner) := by
    have hleft : Balanced (leftOf inner) := by
      rw [leftOf, hinner]
      exact harguments
    refine balanced_textOf hleft fun part hmem => ?_
    exact (hcovered part (by simp [hmem])).balanced hkeywords
  have htext : textOf (keyword.map .kept ++ (lead ++ .kept '(' :: (inner ++ [.kept ')']))) =
      keyword ++ (textOf lead ++ '(' :: (textOf inner ++ [')'])) := by
    simp [Piece.text]
  rw [htext]
  refine .intro hkeyword hne hblank (fun part hmem => ?_) hbalanced
  exact hcovered part (by simp [hmem])

/-- One erasure after another erases attributes, if both do. -/
theorem Composes.erases {keywords : List Text}
    (hkeywords : ∀ keyword ∈ keywords, ∀ c ∈ keyword, isPart c = true) {keyword : Text}
    (hkeyword : keyword ∈ keywords) (hne : keyword ≠ []) {first second pieces : List Piece}
    (h : Composes first second pieces) {previous : Option Char}
    (hfirst : Erases (IsAttribute keywords) previous first)
    (hsecond : Erases (IsDirect keyword) previous second) :
    Erases (IsAttribute keywords) previous pieces := by
  intro front part back heq
  subst heq
  obtain ⟨first', first'', second', second'', rfl, rfl, hfront, hback⟩ := h.split
  cases hback with
  | kept hrest =>
    rw [← hfront.startsWord_eq rfl]
    exact hfirst first' part _ rfl
  | @erased covered _ _ _ hend hrest =>
    obtain ⟨hword, hdirect⟩ := hsecond second' (leftOf covered) _ rfl
    rw [hfront.leftOf_eq]
    refine ⟨hword, isAttribute_textOf hkeywords hkeyword hne hdirect fun part hmem => ?_⟩
    exact hfirst.of_mem (by simp [hmem])

/-! ## One keyword -/

/-- What a keyword is, going by the text behind it: bare if no parenthesis opens there, and
otherwise an attribute if that one is closed. -/
lemma ofArguments_cases (after : Text) :
    (ofArguments after = .bare after ∧
      ∀ gap inner, (∀ c ∈ gap, isWhiteSpace c = true) → after ≠ gap ++ '(' :: inner) ∨
    ∃ gap inner, after = gap ++ '(' :: inner ∧ (∀ c ∈ gap, isWhiteSpace c = true) ∧
      ((ofArguments after = .unclosed ∧ Unclosed inner) ∨
        ∃ arguments rest, ofArguments after = .closed rest ∧
          inner = arguments ++ ')' :: rest ∧ Balanced arguments) := by
  obtain ⟨gap, hsplit, hblank⟩ := exists_eq_append_trimStart after
  by_cases hopen : ∃ inner, trimStart after = '(' :: inner
  · obtain ⟨inner, hinner⟩ := hopen
    rw [hinner] at hsplit
    refine Or.inr ⟨gap, inner, hsplit, hblank, ?_⟩
    rw [hsplit, ofArguments_gap hblank]
    cases hclosing : closing? 0 inner with
    | none =>
      refine Or.inl ⟨rfl, ?_⟩
      intro arguments rest heq harguments
      rw [heq, harguments.closing?_append] at hclosing
      cases hclosing
    | some parts =>
      exact Or.inr ⟨parts.1, parts.2, rfl, Parentheses.eq_append_of_closing? hclosing,
        balanced_of_closing? hclosing⟩
  · left
    constructor
    · rw [ofArguments, openArguments?]
      split
      · next heq =>
        split at heq
        · rfl
        · rfl
      · next heq =>
        split at heq
        · next inner hinner => exact absurd ⟨inner, hinner⟩ hopen
        · cases heq
    · intro gap inner hgap heq
      apply hopen
      rw [heq, trimStart_append_blank hgap]
      exact ⟨inner, trimStart_cons_letter (by decide) inner⟩

section
variable {keyword : Text} {previous : Option Char}

/-- Text in front of other text. -/
lemma Opens.append {front text inner : Text}
    (h : Opens keyword (front.getLast?.or previous) text inner) :
    Opens keyword previous (front ++ text) inner := by
  obtain ⟨before, gap, rfl, hword, hgap⟩ := h
  refine ⟨front ++ before, gap, (List.append_assoc ..).symm, ?_, hgap⟩
  rw [List.getLast?_append, Option.or_assoc]
  exact hword

/-- A character in front of other text. -/
lemma Opens.cons {c : Char} {text inner : Text} (h : Opens keyword (some c) text inner) :
    Opens keyword previous (c :: text) inner := by
  have hfront : Opens keyword previous ([c] ++ text) inner := Opens.append h
  exact hfront

/-- Behind a character of an identifier, no keyword starts before the identifier ends. -/
lemma Keeps.of_append_parts {word : Text} (hword : ∀ c ∈ word, isPart c = true)
    (hprevious : startsWord previous = false) {pieces : List Piece}
    (h : Keeps keyword previous (word.map .kept ++ pieces)) :
    Keeps keyword (word.getLast?.or previous) pieces := by
  induction word generalizing previous with
  | nil => exact h
  | cons c word ih =>
    obtain ⟨hc, hrest⟩ := List.forall_mem_cons.mp hword
    rcases Keeps.of_cons h with ⟨hstarts, -⟩ | hlater
    · rw [hprevious] at hstarts
      cases hstarts
    · rw [getLast?_cons_or]
      exact ih hrest (startsWord_of_isPart hc) hlater

/-- What the erasure of a keyword makes of a text that follows `previous`. -/
structure Treats (keyword : Text) (previous : Option Char) (text : Text) (pieces : List Piece) :
    Prop where
  textOf_eq : textOf pieces = text
  erases : Erases (IsDirect keyword) previous pieces
  /-- The keyword stays nowhere with its parenthesis, or the erasure fails at one that is not
  closed. -/
  outcome :
    (eraseAfter? keyword previous text = some (leftOf pieces) ∧ ¬ Keeps keyword previous pieces) ∨
      (eraseAfter? keyword previous text = none ∧
        ∃ inner, Opens keyword previous (leftOf pieces) inner ∧ Unclosed inner)

/-- The end of a text. -/
lemma treats_nil : Treats keyword previous [] [] where
  textOf_eq := rfl
  erases := erases_nil
  outcome := by
    left
    constructor
    · rw [eraseAfter?]
      rfl
    · intro hkeeps
      obtain ⟨front, gap, back, heq, -, -⟩ := hkeeps
      simp at heq

/-- A character at which the keyword does not stand. -/
lemma Treats.other {c : Char} {rest : Text} {pieces : List Piece}
    (h : Treats keyword (some c) rest pieces) (hnot : ¬ keyword <+: c :: rest) :
    Treats keyword previous (c :: rest) (.kept c :: pieces) where
  textOf_eq := congrArg (c :: ·) h.textOf_eq
  erases := h.erases.cons_kept
  outcome := by
    rw [eraseAfter?_cons, front_of_not_isPrefix hnot]
    rcases h.outcome with ⟨hsome, hkeeps⟩ | ⟨hnone, inner, hopens, hunclosed⟩
    · left
      constructor
      · show (eraseAfter? keyword (some c) rest).map (c :: ·) = _
        rw [hsome]
        rfl
      · intro hkeeps'
        rcases hkeeps'.of_cons with ⟨-, gap, back, heq, -⟩ | hlater
        · have htext := congrArg textOf heq
          rw [textOf_cons, h.textOf_eq, textOf_append, textOf_kept, List.append_assoc] at htext
          exact hnot ⟨_, htext.symm⟩
        · exact hkeeps hlater
    · right
      constructor
      · show (eraseAfter? keyword (some c) rest).map (c :: ·) = _
        rw [hnone]
        rfl
      · exact ⟨inner, hopens.cons, hunclosed⟩

section
variable {c : Char} {rest after : Text} (heq : keyword ++ after = c :: rest)

include heq

/-- A keyword within a word, or with no parenthesis behind it. -/
lemma Treats.bare (hne : keyword ≠ []) (hparts : ∀ d ∈ keyword, isPart d = true)
    {pieces : List Piece} (h : Treats keyword keyword.getLast? after pieces)
    (hfront : front keyword previous c rest = .bare after)
    (hbare : startsWord previous = true → ∀ gap inner, (∀ d ∈ gap, isWhiteSpace d = true) →
      after ≠ gap ++ '(' :: inner) :
    Treats keyword previous (c :: rest) (keyword.map .kept ++ pieces) := by
  have hlast : keyword.getLast?.or previous = keyword.getLast? := by
    rw [List.getLast?_eq_some_getLast hne]
    rfl
  have herases := h.erases
  rw [← hlast] at herases
  refine ⟨?_, herases.append_kept, ?_⟩
  · rw [textOf_append, textOf_kept, h.textOf_eq, heq]
  rw [eraseAfter?_cons, hfront]
  rcases h.outcome with ⟨hsome, hkeeps⟩ | ⟨hnone, inner, hopens, hunclosed⟩
  · left
    constructor
    · show (eraseAfter? keyword keyword.getLast? after).map (keyword ++ ·) = _
      rw [hsome, leftOf_append, leftOf_kept]
      rfl
    · intro hkeeps'
      obtain ⟨k, word, rfl⟩ := List.exists_cons_of_ne_nil hne
      obtain ⟨hk, hword⟩ := List.forall_mem_cons.mp hparts
      rw [List.map_cons, List.cons_append] at hkeeps'
      rcases hkeeps'.of_cons with ⟨hstarts, gap, back, hhere, hgap⟩ | hlater
      · -- the parenthesis would be the one behind the keyword
        have htext := congrArg textOf hhere
        rw [← List.cons_append, ← List.map_cons, textOf_append, textOf_append, textOf_kept,
          textOf_kept, h.textOf_eq, List.append_assoc, List.append_cancel_left_eq,
          List.append_assoc] at htext
        exact hbare hstarts gap (textOf back) hgap htext
      · have hbehind := Keeps.of_append_parts hword (startsWord_of_isPart hk) hlater
        rw [← getLast?_cons_or, hlast] at hbehind
        exact hkeeps hbehind
  · right
    constructor
    · show (eraseAfter? keyword keyword.getLast? after).map (keyword ++ ·) = _
      rw [hnone]
      rfl
    · rw [leftOf_append, leftOf_kept]
      rw [← hlast] at hopens
      exact ⟨inner, hopens.append, hunclosed⟩

/-- A keyword with an argument list that is not closed. -/
lemma treats_unclosed (hfront : front keyword previous c rest = .unclosed)
    (hword : startsWord previous = true) {gap inner : Text} (hafter : after = gap ++ '(' :: inner)
    (hgap : ∀ d ∈ gap, isWhiteSpace d = true) (hunclosed : Unclosed inner) :
    Treats keyword previous (c :: rest) ((c :: rest).map .kept) where
  textOf_eq := textOf_kept _
  erases := erases_kept _
  outcome := by
    right
    rw [eraseAfter?_cons, hfront, leftOf_kept]
    refine ⟨rfl, inner, ⟨[], gap, ?_, hword, hgap⟩, hunclosed⟩
    rw [← heq, hafter]
    rfl

/-- An attribute. -/
lemma Treats.closed (hne : keyword ≠ []) {pieces : List Piece} {remainder : Text}
    (h : Treats keyword (some ' ') remainder pieces)
    (hfront : front keyword previous c rest = .closed remainder)
    (hword : startsWord previous = true) {gap arguments : Text}
    (hafter : after = gap ++ '(' :: (arguments ++ ')' :: remainder))
    (hgap : ∀ d ∈ gap, isWhiteSpace d = true) (harguments : Balanced arguments) :
    Treats keyword previous (c :: rest)
      (.erased (keyword ++ (gap ++ '(' :: (arguments ++ [')']))) :: pieces) where
  textOf_eq := by
    rw [textOf_cons, h.textOf_eq, ← heq, hafter]
    simp [Piece.text]
  erases := h.erases.cons_erased hword ⟨gap, arguments, rfl, hgap, harguments⟩
  outcome := by
    rw [eraseAfter?_cons, hfront]
    rcases h.outcome with ⟨hsome, hkeeps⟩ | ⟨hnone, inner, hopens, hunclosed⟩
    · left
      constructor
      · show (eraseAfter? keyword (some ' ') remainder).map (' ' :: ·) = _
        rw [hsome]
        rfl
      · intro hkeeps'
        rcases hkeeps'.of_cons with ⟨-, gap', back, hhere, -⟩ | hlater
        · obtain ⟨k, word, rfl⟩ := List.exists_cons_of_ne_nil hne
          cases (List.cons.inj hhere).1
        · exact hkeeps hlater
    · right
      constructor
      · show (eraseAfter? keyword (some ' ') remainder).map (' ' :: ·) = _
        rw [hnone]
        rfl
      · exact ⟨inner, hopens.cons, hunclosed⟩

end

/-- The erasure of a keyword treats every text in this way. -/
theorem exists_treats (hne : keyword ≠ []) (hparts : ∀ c ∈ keyword, isPart c = true)
    (previous : Option Char) (text : Text) : ∃ pieces, Treats keyword previous text pieces := by
  -- behind a keyword the erasure goes on, so the induction is on the length
  induction hlength : text.length using Nat.strongRecOn generalizing text previous with
  | _ n ih =>
    cases text with
    | nil => exact ⟨[], treats_nil⟩
    | cons c rest =>
      rw [List.length_cons] at hlength
      by_cases hhere : keyword <+: c :: rest
      · obtain ⟨after, heq⟩ := hhere
        have hshort : after.length < n := by
          have hlengths := congrArg List.length heq
          have hpos := List.length_pos_iff.mpr hne
          rw [List.length_append, List.length_cons] at hlengths
          omega
        have hfront : front keyword previous c rest =
            if startsWord previous then ofArguments after else .bare after :=
          front_of_append hne heq
        by_cases hword : startsWord previous = true
        · rw [if_pos hword] at hfront
          rcases ofArguments_cases after with ⟨hof, hbare⟩ | ⟨gap, inner, hafter, hgap, hinner⟩
          · obtain ⟨pieces, hpieces⟩ := ih _ hshort keyword.getLast? after rfl
            exact ⟨_, hpieces.bare heq hne hparts (hfront.trans hof) fun _ => hbare⟩
          · rcases hinner with ⟨hof, hunclosed⟩ | ⟨arguments, remainder, hof, rfl, harguments⟩
            · exact ⟨_, treats_unclosed heq (hfront.trans hof) hword hafter hgap hunclosed⟩
            · have hshorter : remainder.length < n := by
                simp only [hafter, List.length_append, List.length_cons] at hshort
                omega
              obtain ⟨pieces, hpieces⟩ := ih _ hshorter (some ' ') remainder rfl
              exact ⟨_, hpieces.closed heq hne (hfront.trans hof) hword hafter hgap harguments⟩
        · rw [if_neg hword] at hfront
          obtain ⟨pieces, hpieces⟩ := ih _ hshort keyword.getLast? after rfl
          exact ⟨_, hpieces.bare heq hne hparts hfront fun h => absurd h hword⟩
      · obtain ⟨pieces, hpieces⟩ := ih _ (by omega) (some c) rest rfl
        exact ⟨_, hpieces.other hhere⟩

end

/-! ## All keywords -/

/-- Empty keywords do not count. -/
lemma eraseAll?_nil_cons (keywords : List Text) (text : Text) :
    eraseAll? ([] :: keywords) text = eraseAll? keywords text := rfl

section
variable {keywords : List Text} (hkeywords : ∀ keyword ∈ keywords, ∀ c ∈ keyword, isPart c = true)

include hkeywords

/-- Keywords of a list, one after another, in what is left of pieces from which attributes have been
erased. -/
private lemma exists_pieces_of_sublist {later : List Text} (hlater : later ⊆ keywords)
    {first : List Piece} (hfirst : Erases (IsAttribute keywords) none first) :
    ∃ pieces, textOf pieces = textOf first ∧ Erases (IsAttribute keywords) none pieces ∧
      ((eraseAll? later (leftOf first) = some (leftOf pieces) ∧
          (∀ keyword, Keeps keyword none pieces → Keeps keyword none first) ∧
          ∀ keyword ∈ later, keyword ≠ [] → ¬ Keeps keyword none pieces) ∨
        (eraseAll? later (leftOf first) = none ∧ ∃ keyword ∈ keywords, keyword ≠ [] ∧
          ∃ inner, Opens keyword none (leftOf pieces) inner ∧ Unclosed inner)) := by
  induction later generalizing first with
  | nil => exact ⟨first, rfl, hfirst, Or.inl ⟨rfl, fun _ => id, List.forall_mem_nil _⟩⟩
  | cons keyword later ih =>
    obtain ⟨hkeyword, hrest⟩ := List.cons_subset.mp hlater
    by_cases hne : keyword = []
    · subst hne
      obtain ⟨pieces, htext, herases, houtcome⟩ := ih hrest hfirst
      refine ⟨pieces, htext, herases, ?_⟩
      rw [eraseAll?_nil_cons]
      refine houtcome.imp_left fun h => ⟨h.1, h.2.1, ?_⟩
      exact List.forall_mem_cons.mpr ⟨fun h => absurd rfl h, h.2.2⟩
    · have hparts := hkeywords keyword hkeyword
      rw [eraseAll?_cons_word (isWord_of_isPart hne hparts)]
      obtain ⟨second, htreats⟩ := exists_treats hne hparts none (leftOf first)
      obtain ⟨composed, hcomposed⟩ := exists_composes htreats.textOf_eq.symm
        fun part hmem => (htreats.erases.of_mem hmem).getLast?_eq
      have hattributes := hcomposed.erases hkeywords hkeyword hne hfirst htreats.erases
      rcases htreats.outcome with ⟨hsome, hkeeps⟩ | ⟨hnone, inner, hopens, hunclosed⟩
      · obtain ⟨pieces, htext, herases, houtcome⟩ := ih hrest hattributes
        rw [hcomposed.textOf_eq] at htext
        rw [hcomposed.leftOf_eq] at houtcome
        refine ⟨pieces, htext, herases, ?_⟩
        rw [hsome, Option.bind_some]
        refine houtcome.imp_left fun h => ⟨h.1, fun k hk => ?_, ?_⟩
        · exact (hcomposed.keeps (h.2.1 k hk)).1
        · refine List.forall_mem_cons.mpr ⟨fun _ hk => ?_, h.2.2⟩
          exact hkeeps (hcomposed.keeps (h.2.1 keyword hk)).2
      · refine ⟨composed, hcomposed.textOf_eq, hattributes, Or.inr ⟨?_, keyword, hkeyword, hne, ?_⟩⟩
        · rw [hnone]
          rfl
        · rw [hcomposed.leftOf_eq]
          exact ⟨inner, hopens, hunclosed⟩

/-- The erasure of all attributes: as far as it comes, attributes at the start of words are erased
and nothing else. If it comes to the end, no keyword stays together with its parenthesis; otherwise
it comes to a keyword with a parenthesis that is not closed. -/
theorem exists_pieces_of_eraseAll? (text : Text) :
    ∃ pieces, textOf pieces = text ∧ Erases (IsAttribute keywords) none pieces ∧
      ((eraseAll? keywords text = some (leftOf pieces) ∧
          ∀ keyword ∈ keywords, keyword ≠ [] → ¬ Keeps keyword none pieces) ∨
        (eraseAll? keywords text = none ∧ ∃ keyword ∈ keywords, keyword ≠ [] ∧
          ∃ inner, Opens keyword none (leftOf pieces) inner ∧ Unclosed inner)) := by
  have hwhole : Erases (IsAttribute keywords) none (text.map .kept) := erases_kept text
  obtain ⟨pieces, htext, herases, houtcome⟩ :=
    exists_pieces_of_sublist hkeywords (List.Subset.refl keywords) hwhole
  rw [textOf_kept] at htext
  rw [leftOf_kept] at houtcome
  exact ⟨pieces, htext, herases, houtcome.imp_left fun h => ⟨h.1, h.2.2⟩⟩

end

/-! ## What is removed -/

/-- Of the pieces only attributes are erased, each at the start of a word, with balanced parentheses
of which the last one closes it. -/
def ErasesAttributes (keywords : List Text) (pieces : List Piece) : Prop :=
  ∀ front part back, pieces = front ++ .erased part :: back →
    startsWord (textOf front).getLast? = true ∧ IsAttribute keywords part ∧ Balanced part ∧
      part.getLast? = some ')'

/-- Where a word starts in what is left, one starts in the text. -/
lemma startsWord_textOf {pieces : List Piece}
    (hend : ∀ part, Piece.erased part ∈ pieces → part.getLast? = some ')') :
    startsWord (textOf pieces).getLast? = startsWord (leftOf pieces).getLast? := by
  rcases List.eq_nil_or_concat pieces with rfl | ⟨front, piece, rfl⟩
  · rfl
  · rw [List.concat_eq_append, textOf_append, leftOf_append, List.getLast?_append,
      List.getLast?_append]
    cases piece with
    | kept c => rfl
    | erased part =>
      have hlast : (textOf [.erased part]).getLast? = some ')' := by
        simpa [Piece.text] using hend part (by simp)
      rw [hlast]
      exact startsWord_closing

lemma Erases.erasesAttributes {keywords : List Text}
    (hkeywords : ∀ keyword ∈ keywords, ∀ c ∈ keyword, isPart c = true) {pieces : List Piece}
    (h : Erases (IsAttribute keywords) none pieces) : ErasesAttributes keywords pieces := by
  intro front part back heq
  obtain ⟨hword, hpart⟩ := h front part back heq
  rw [Option.or_none, ← startsWord_textOf] at hword
  · exact ⟨hword, hpart, hpart.balanced hkeywords, hpart.getLast?_eq⟩
  · intro part' hmem
    exact (h.of_mem (by simp [heq, hmem])).getLast?_eq

/-- The erasure of attributes removes attributes and nothing else: of the pieces of the text, those
that are erased are attributes at the start of words, and all others stay. It fails only at a keyword
at the start of a word, in what is left of such pieces, with a parenthesis that is not closed. -/
theorem eraseAll?_removes_attributes {keywords : List Text}
    (hkeywords : ∀ keyword ∈ keywords, ∀ c ∈ keyword, isPart c = true) (text : Text) :
    (∀ left, eraseAll? keywords text = some left →
      ∃ pieces, textOf pieces = text ∧ leftOf pieces = left ∧ ErasesAttributes keywords pieces) ∧
    (eraseAll? keywords text = none →
      ∃ pieces, textOf pieces = text ∧ ErasesAttributes keywords pieces ∧
        ∃ keyword ∈ keywords, keyword ≠ [] ∧
          ∃ inner, Opens keyword none (leftOf pieces) inner ∧ Unclosed inner) := by
  obtain ⟨pieces, htext, herases, houtcome⟩ := exists_pieces_of_eraseAll? hkeywords text
  have hattributes := herases.erasesAttributes hkeywords
  constructor
  · intro left hleft
    rcases houtcome with ⟨hsome, -⟩ | ⟨hnone, -⟩
    · rw [hleft, Option.some.injEq] at hsome
      exact ⟨pieces, htext, hsome.symm, hattributes⟩
    · rw [hleft] at hnone
      cases hnone
  · intro hnone
    rcases houtcome with ⟨hsome, -⟩ | ⟨-, hunclosed⟩
    · rw [hnone] at hsome
      cases hsome
    · exact ⟨pieces, htext, hattributes, hunclosed⟩

/-- An attribute with another one before its argument list, and the same without the parenthesis
that closes the list. -/
theorem eraseAll?_removes_attributes_nested :
    let keywords := ["__attribute__".toList, "__launch_bounds__".toList]
    let text := "int __launch_bounds__ __attribute__((a)) (f(1)) k(int n)".toList
    let unclosed := "int __launch_bounds__ __attribute__((a)) (f(1) k".toList
    (∀ keyword ∈ keywords, ∀ c ∈ keyword, isPart c = true) ∧
      eraseAll? keywords text = some "int   k(int n)".toList ∧
      (∃ pieces, textOf pieces = text ∧ leftOf pieces = "int   k(int n)".toList ∧
        ErasesAttributes keywords pieces) ∧
      eraseAll? keywords unclosed = none ∧
      ∃ pieces, textOf pieces = unclosed ∧ ErasesAttributes keywords pieces ∧
        ∃ keyword ∈ keywords, keyword ≠ [] ∧
          ∃ inner, Opens keyword none (leftOf pieces) inner ∧ Unclosed inner := by
  intro keywords text unclosed
  have hkeywords := forall_isPart_of_all (by decide : (keywords.all fun k => k.all isPart) = true)
  have htext : eraseAll? keywords text = some "int   k(int n)".toList := by decide +kernel
  have hunclosed : eraseAll? keywords unclosed = none := by decide +kernel
  have hremoved := (eraseAll?_removes_attributes hkeywords text).1 _ htext
  have hfails := (eraseAll?_removes_attributes hkeywords unclosed).2 hunclosed
  exact ⟨hkeywords, htext, hremoved, hunclosed, hfails⟩

end KernelCensus.Attribute
