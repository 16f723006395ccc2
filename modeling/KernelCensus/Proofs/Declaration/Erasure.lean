import KernelCensus.Proofs.Declaration.Layout
import KernelCensus.Proofs.Name

/-!
# Erasure of attributes

The erasure goes through a text piece by piece. A piece without keyword stays, a piece that is an
attribute turns into a space, and no keyword spans two pieces if each ends before white space or a
parenthesis. What stands for a piece in the end is found keyword by keyword.

* `Passes`: what the erasure makes of a piece, whatever follows it.
* `passes_of_free`, `passes_attribute`: the two kinds of pieces.
* `eraseAll?_unclosed`: an argument list that is not closed.
-/

namespace KernelCensus

open Unicode Text

/-- A word: letters without white space and without parentheses. -/
structure IsWord (text : Text) : Prop where
  nonempty : text ≠ []
  letters : ∀ c ∈ text, ¬ isWhiteSpace c = true ∧ c ≠ '(' ∧ c ≠ ')'

instance (text : Text) : Decidable (IsWord text) :=
  decidable_of_iff
    (text ≠ [] ∧ text.all (fun c => !isWhiteSpace c && (c != '(' && c != ')')) = true) <| by
  constructor
  · rintro ⟨hne, hall⟩
    exact ⟨hne, by simpa using hall⟩
  · rintro ⟨hne, hall⟩
    exact ⟨hne, by simpa using hall⟩

/-- White space, at least one character of it. -/
structure IsGap (text : Text) : Prop where
  nonempty : text ≠ []
  blank : ∀ c ∈ text, isWhiteSpace c = true

instance (text : Text) : Decidable (IsGap text) :=
  decidable_of_iff (text ≠ [] ∧ text.all isWhiteSpace = true)
    ⟨fun h => ⟨h.1, List.all_eq_true.mp h.2⟩, fun h => ⟨h.nonempty, List.all_eq_true.mpr h.blank⟩⟩

/-- Whether a word ends before a character: white space or a parenthesis. -/
def EndsWord (c : Char) : Prop := isWhiteSpace c = true ∨ c = '(' ∨ c = ')'

lemma endsWord_of_blank {c : Char} (hc : isWhiteSpace c = true) : EndsWord c := Or.inl hc

lemma endsWord_open : EndsWord '(' := Or.inr (Or.inl rfl)

lemma endsWord_close : EndsWord ')' := Or.inr (Or.inr rfl)

/-- Whether a word ends before a text. -/
def Stops (text : Text) : Prop := ∀ c ∈ text.head?, EndsWord c

lemma stops_nil : Stops [] := fun _ h => nomatch h

lemma stops_cons {c : Char} {text : Text} (hc : EndsWord c) : Stops (c :: text) := by
  intro d hd
  cases hd
  exact hc

/-- Words end before white space, and without it they end before what follows. -/
lemma stops_gap_append {gap rest : Text} (hgap : ∀ c ∈ gap, isWhiteSpace c = true)
    (hrest : Stops rest) : Stops (gap ++ rest) := by
  cases gap with
  | nil => exact hrest
  | cons c gap => exact stops_cons (endsWord_of_blank (hgap c List.mem_cons_self))

lemma IsGap.stops_append {gap : Text} (hgap : IsGap gap) (rest : Text) : Stops (gap ++ rest) := by
  obtain ⟨c, tail, rfl⟩ := List.exists_cons_of_ne_nil hgap.nonempty
  exact stops_cons (endsWord_of_blank (hgap.blank c List.mem_cons_self))

/-- Words end at a front of a text at which they end. -/
lemma stops_of_isPrefix {front text : Text} (hfront : front <+: text) (h : Stops text) :
    Stops front := by
  cases front with
  | nil => exact stops_nil
  | cons c front =>
    obtain ⟨rest, rfl⟩ := hfront
    exact stops_cons (h c rfl)

lemma IsWord.not_blank {word : Text} (hword : IsWord word) :
    ∀ c ∈ word, ¬ isWhiteSpace c = true := fun c hc => (hword.letters c hc).1

/-- A word has no character before which it would end. -/
lemma IsWord.not_mem {word : Text} (hword : IsWord word) {c : Char} (hc : EndsWord c) :
    c ∉ word := by
  intro hmem
  obtain ⟨hblank, hopen, hclose⟩ := hword.letters c hmem
  rcases hc with h | h | h
  · exact hblank h
  · exact hopen h
  · exact hclose h

lemma isWord_of_isPart {word : Text} (hne : word ≠ [])
    (h : ∀ c ∈ word, Name.isPart c = true) : IsWord word := by
  refine ⟨hne, fun c hc => ⟨Name.letter_of_isPart (h c hc), ?_, ?_⟩⟩ <;> rintro rfl <;>
    exact absurd (h _ hc) (by decide)

/-! ## Texts without a word in them -/

section Free
variable {word : Text} (hword : IsWord word)

include hword

/-- A word at the start of two texts, one after the other, is in the first if it ends with it. -/
lemma isPrefix_of_stops {front back : Text} (hstops : Stops back) (h : word <+: front ++ back) :
    word <+: front := by
  rcases isPrefix_append_cases h with hinside | ⟨rest, heq, hover⟩
  · exact hinside
  · cases rest with
    | nil =>
      rw [heq, List.append_nil]
    | cons c rest =>
      obtain ⟨tail, rfl⟩ := hover
      exact absurd (heq ▸ by simp) (hword.not_mem (hstops c rfl))

/-- A word that is in two texts, one after the other, is in one of them if it ends with the first. -/
lemma not_isInfix_append {front back : Text} (hstops : Stops back) (hfront : ¬ word <:+: front)
    (hback : ¬ word <:+: back) : ¬ word <:+: front ++ back := by
  induction front with
  | nil => exact hback
  | cons c front ih =>
    -- what starts with a character of the first text ends in it as well
    have hrest := ih fun h => hfront (h.trans (List.infix_cons_iff.mpr (Or.inr (List.infix_refl _))))
    intro h
    rcases List.infix_cons_iff.mp h with hhere | hthere
    · exact hfront (isPrefix_of_stops hword hstops hhere).isInfix
    · exact hrest hthere

/-- No word starts with a character before which words end. -/
lemma not_isPrefix_cons {c : Char} (hc : EndsWord c) (text : Text) : ¬ word <+: c :: text := by
  intro h
  rcases List.prefix_cons_iff.mp h with hnil | ⟨rest, heq, -⟩
  · exact hword.nonempty hnil
  · exact hword.not_mem hc (heq ▸ List.mem_cons_self)

/-- Such a character in front of a text puts no word into it. -/
lemma not_isInfix_cons {c : Char} (hc : EndsWord c) {text : Text} (htext : ¬ word <:+: text) :
    ¬ word <:+: c :: text := by
  intro h
  rcases List.infix_cons_iff.mp h with hhere | hthere
  · exact not_isPrefix_cons hword hc text hhere
  · exact htext hthere

/-- White space in front of a text puts no word into it. -/
lemma not_isInfix_gap_append {gap back : Text} (hgap : ∀ c ∈ gap, isWhiteSpace c = true)
    (hback : ¬ word <:+: back) : ¬ word <:+: gap ++ back := by
  induction gap with
  | nil => exact hback
  | cons c gap ih =>
    have hrest := ih fun d hd => hgap d (List.mem_cons_of_mem c hd)
    exact not_isInfix_cons hword (endsWord_of_blank (hgap c List.mem_cons_self)) hrest

lemma not_isInfix_nil : ¬ word <:+: [] := fun h => hword.nonempty (List.infix_nil.mp h)

end Free

namespace Attribute

/-! ## One keyword -/

/-- A keyword that does not stand at the front of a text does not count there. -/
lemma front_of_not_isPrefix {keyword : Text} {c : Char} {rest : Text}
    (h : ¬ keyword <+: c :: rest) (previous : Option Char) :
    front keyword previous c rest = .other := by
  rw [front, if_neg fun hfront => h (List.isPrefixOf_iff_prefix.mp hfront)]

/-- What a keyword at the front of a text is goes by what follows it. -/
lemma front_of_append {keyword : Text} (hne : keyword ≠ []) {c : Char} {rest after : Text}
    (heq : keyword ++ after = c :: rest) {previous : Option Char} :
    front keyword previous c rest =
      if startsWord previous then ofArguments after else .bare after := by
  have hfront : keyword.isPrefixOf (c :: rest) = true :=
    List.isPrefixOf_iff_prefix.mpr ⟨after, heq⟩
  have hdrop : rest.drop (keyword.length - 1) = after := by
    obtain ⟨d, tail, rfl⟩ := List.exists_cons_of_ne_nil hne
    rw [List.cons_append, List.cons.injEq] at heq
    rw [← heq.2, List.length_cons, Nat.add_sub_cancel, List.drop_left]
  rw [front, if_pos hfront, hdrop]

lemma ofArguments_of_not_mem {text : Text} (htext : '(' ∉ text) :
    ofArguments text = .bare text := by
  have hnone : openArguments? text = none := by
    rw [openArguments?]
    split
    · next rest heq =>
      have hmem : '(' ∈ trimStart text := heq ▸ List.mem_cons_self
      exact absurd ((List.dropWhile_sublist _).subset hmem) htext
    · rfl
  rw [ofArguments, hnone]

/-- White space may stand between a keyword and its arguments. -/
lemma ofArguments_gap {gap : Text} (hgap : ∀ c ∈ gap, isWhiteSpace c = true) (inner : Text) :
    ofArguments (gap ++ '(' :: inner) =
      match Parentheses.closing? 0 inner with
      | none => .unclosed
      | some (_, remainder) => .closed remainder := by
  have htrim : trimStart (gap ++ '(' :: inner) = '(' :: inner := by
    induction gap with
    | nil => exact trimStart_cons_letter (by decide) inner
    | cons c gap ih =>
      rw [List.cons_append, trimStart_cons_blank (hgap c List.mem_cons_self)]
      exact ih fun d hd => hgap d (List.mem_cons_of_mem c hd)
  rw [ofArguments, openArguments?, htrim]
  rfl

section One
variable {keyword : Text} (hkeyword : IsWord keyword)

include hkeyword

/-- At a place where words end, the character before it does not count. -/
lemma eraseAfter?_of_stops {text : Text} (htext : Stops text) (previous previous' : Option Char) :
    eraseAfter? keyword previous text = eraseAfter? keyword previous' text := by
  cases text with
  | nil => rw [eraseAfter?, eraseAfter?]
  | cons c rest =>
    have hnot := not_isPrefix_cons hkeyword (htext c rfl) rest
    rw [eraseAfter?_cons, eraseAfter?_cons, front_of_not_isPrefix hnot,
      front_of_not_isPrefix hnot]

lemma stops_of_eraseAfter? {text left : Text} (htext : Stops text) {previous : Option Char}
    (hleft : eraseAfter? keyword previous text = some left) : Stops left := by
  cases text with
  | nil =>
    rw [eraseAfter?] at hleft
    cases hleft
    exact stops_nil
  | cons c rest =>
    have hnot := not_isPrefix_cons hkeyword (htext c rfl) rest
    rw [eraseAfter?_cons, front_of_not_isPrefix hnot, Option.map_eq_some_iff] at hleft
    obtain ⟨tail, -, rfl⟩ := hleft
    exact stops_cons (htext c rfl)

lemma eraseAfter?_append_of_free {piece : Text} (hpiece : ¬ keyword <:+: piece) {rest : Text}
    (hrest : Stops rest) (previous : Option Char) :
    eraseAfter? keyword previous (piece ++ rest) =
      (eraseAfter? keyword none rest).map (piece ++ ·) := by
  induction piece generalizing previous with
  | nil =>
    rw [List.nil_append, eraseAfter?_of_stops hkeyword hrest previous none]
    exact Option.map_id'.symm
  | cons c piece ih =>
    have hnot : ¬ keyword <+: c :: (piece ++ rest) := by
      intro h
      rw [← List.cons_append] at h
      exact hpiece (isPrefix_of_stops hkeyword hrest h).isInfix
    have hfree : ¬ keyword <:+: piece :=
      fun h => hpiece (h.trans (List.infix_cons_iff.mpr (Or.inr (List.infix_refl _))))
    rw [List.cons_append, eraseAfter?_cons, front_of_not_isPrefix hnot]
    dsimp only
    rw [ih hfree, Option.map_map]
    rfl

lemma eraseAfter?_of_not_mem {text : Text} (htext : '(' ∉ text) (previous : Option Char) :
    eraseAfter? keyword previous text = some text := by
  -- behind a keyword without arguments the erasure goes on, so the induction is on the length
  induction hlength : text.length using Nat.strongRecOn generalizing text previous with
  | _ n ih =>
    cases text with
    | nil => rw [eraseAfter?]
    | cons c rest =>
      rw [List.length_cons] at hlength
      rw [List.mem_cons, not_or] at htext
      rw [eraseAfter?_cons]
      by_cases hhere : keyword <+: c :: rest
      · obtain ⟨after, heq⟩ := hhere
        have hmem : '(' ∉ after := by
          intro h
          rcases List.mem_cons.mp (heq ▸ List.mem_append_right keyword h) with hc | hrest
          · exact htext.1 hc
          · exact htext.2 hrest
        have hshort : after.length < n := by
          have hlengths := congrArg List.length heq
          have hpos := List.length_pos_iff.mpr hkeyword.nonempty
          rw [List.length_append, List.length_cons] at hlengths
          omega
        rw [front_of_append hkeyword.nonempty heq, ofArguments_of_not_mem hmem, ite_self]
        dsimp only
        rw [ih _ hshort hmem _ rfl, Option.map_some, heq]
      · rw [front_of_not_isPrefix hhere]
        dsimp only
        rw [ih _ (by omega) htext.2 _ rfl]
        rfl

/-- White space stays, and a word may start after it. -/
lemma eraseAfter?_gap_append {gap : Text} (hgap : IsGap gap) (rest : Text)
    (previous : Option Char) :
    eraseAfter? keyword previous (gap ++ rest) =
      (eraseAfter? keyword none rest).map (gap ++ ·) := by
  obtain ⟨hne, hblank⟩ := hgap
  induction gap generalizing previous with
  | nil => exact absurd rfl hne
  | cons c gap ih =>
    have hc := hblank c List.mem_cons_self
    rw [List.cons_append, eraseAfter?_cons_blank hkeyword.nonempty hkeyword.not_blank previous hc]
    cases gap with
    | nil => rfl
    | cons d gap =>
      rw [ih none (List.cons_ne_nil d gap) fun e he => hblank e (List.mem_cons_of_mem c he),
        Option.map_map]
      rfl

lemma eraseAfter?_attribute {gap arguments : Text} (hgap : ∀ c ∈ gap, isWhiteSpace c = true)
    (harguments : Parentheses.Balanced arguments) (rest : Text) :
    eraseAfter? keyword none (keyword ++ (gap ++ '(' :: (arguments ++ ')' :: rest))) =
      (eraseAfter? keyword none rest).map (' ' :: ·) := by
  have hclosing : Parentheses.closing? 0 (arguments ++ ')' :: rest) = some (arguments, rest) := by
    rw [harguments.closing?_append, Parentheses.closing?, Option.map_some, List.append_nil]
  have hspace : startsWord (some ' ') = startsWord none := startsWord_of_blank isWhiteSpace_space
  obtain ⟨c, tail, heq⟩ := List.exists_cons_of_ne_nil hkeyword.nonempty
  have hcons : c :: (tail ++ (gap ++ '(' :: (arguments ++ ')' :: rest))) =
      keyword ++ (gap ++ '(' :: (arguments ++ ')' :: rest)) := by rw [heq]; rfl
  rw [← hcons, eraseAfter?_cons, front_of_append hkeyword.nonempty hcons.symm, ofArguments_gap hgap,
    hclosing]
  show (eraseAfter? keyword (some ' ') rest).map _ = _
  rw [eraseAfter?_congr keyword hspace]

/-- An argument list that is not closed stops the erasure. -/
lemma eraseAfter?_unclosed {gap arguments inner : Text}
    (hgap : ∀ c ∈ gap, isWhiteSpace c = true) (harguments : Parentheses.Balanced arguments)
    (hinner : inner <+: arguments) :
    eraseAfter? keyword none (keyword ++ (gap ++ '(' :: inner)) = none := by
  have hclosing : Parentheses.closing? 0 inner = none := harguments.closing?_of_isPrefix hinner 0
  obtain ⟨c, tail, heq⟩ := List.exists_cons_of_ne_nil hkeyword.nonempty
  have hcons : c :: (tail ++ (gap ++ '(' :: inner)) = keyword ++ (gap ++ '(' :: inner) := by
    rw [heq]; rfl
  rw [← hcons, eraseAfter?_cons, front_of_append hkeyword.nonempty hcons.symm, ofArguments_gap hgap,
    hclosing]
  rfl

end One

/-! ## All keywords -/

/-- What the erasure makes of a piece of text, whatever follows it, if words end there. -/
def Passes (keywords : List Text) (piece left : Text) : Prop :=
  ∀ rest, Stops rest →
    eraseAll? keywords (piece ++ rest) = (eraseAll? keywords rest).map (left ++ ·)

/-- The keywords are words, and none of them is in another one. -/
structure Separate (keywords : List Text) : Prop where
  word : ∀ keyword ∈ keywords, IsWord keyword
  apart : ∀ keyword ∈ keywords, ∀ other ∈ keywords, keyword <:+: other → keyword = other

lemma Separate.plain {keywords : List Text} (h : Separate keywords) : Plain keywords where
  nonempty := fun keyword hmem => (h.word keyword hmem).nonempty
  letters := fun keyword hmem => (h.word keyword hmem).not_blank

lemma eraseAll?_cons_word {keyword : Text} (hkeyword : IsWord keyword) (keywords : List Text)
    (text : Text) :
    eraseAll? (keyword :: keywords) text =
      (eraseAfter? keyword none text).bind (eraseAll? keywords) :=
  eraseAll?_cons hkeyword.nonempty hkeyword.not_blank keywords text

/-- A piece is erased for one keyword and then for the others. -/
lemma Passes.cons {keyword : Text} (hkeyword : IsWord keyword) {keywords : List Text}
    {piece middle left : Text}
    (hone : ∀ rest, Stops rest → eraseAfter? keyword none (piece ++ rest) =
      (eraseAfter? keyword none rest).map (middle ++ ·))
    (hothers : Passes keywords middle left) : Passes (keyword :: keywords) piece left := by
  intro rest hrest
  rw [eraseAll?_cons_word hkeyword, eraseAll?_cons_word hkeyword, hone rest hrest]
  -- the other keywords meet what this one leaves of the rest, and words still end there
  cases herase : eraseAfter? keyword none rest with
  | none => rfl
  | some after =>
    rw [Option.map_some, Option.bind_some, Option.bind_some]
    exact hothers after (stops_of_eraseAfter? hkeyword hrest herase)

lemma Passes.append {keywords : List Text} {piece left piece' left' : Text}
    (h : Passes keywords piece left) (h' : Passes keywords piece' left')
    (hstops : ∀ rest, Stops rest → Stops (piece' ++ rest)) :
    Passes keywords (piece ++ piece') (left ++ left') := by
  intro rest hrest
  rw [List.append_assoc, h _ (hstops rest hrest), h' rest hrest, Option.map_map]
  congr 1
  funext after
  exact (List.append_assoc left left' after).symm

/-- A piece without keywords stays. -/
theorem passes_of_free {keywords : List Text} (hwords : ∀ keyword ∈ keywords, IsWord keyword)
    {piece : Text} (hpiece : ∀ keyword ∈ keywords, ¬ keyword <:+: piece) :
    Passes keywords piece piece := by
  induction keywords with
  | nil => exact fun rest _ => rfl
  | cons keyword keywords ih =>
    have hkeyword := hwords keyword List.mem_cons_self
    have hfree := hpiece keyword List.mem_cons_self
    refine Passes.cons hkeyword (fun rest hrest => ?_)
      (ih (fun k hk => hwords k (List.mem_cons_of_mem _ hk))
        fun k hk => hpiece k (List.mem_cons_of_mem _ hk))
    exact eraseAfter?_append_of_free hkeyword hfree hrest none

lemma eraseAll?_of_not_mem {keywords : List Text} (hwords : ∀ keyword ∈ keywords, IsWord keyword)
    {text : Text} (htext : '(' ∉ text) : eraseAll? keywords text = some text := by
  induction keywords with
  | nil => rfl
  | cons keyword keywords ih =>
    have hkeyword := hwords keyword List.mem_cons_self
    rw [eraseAll?_cons_word hkeyword, eraseAfter?_of_not_mem hkeyword htext, Option.bind_some]
    exact ih fun k hk => hwords k (List.mem_cons_of_mem _ hk)

/-! ## Attributes -/

private lemma not_isInfix_attribute {keyword other gap gap' arguments : Text}
    (hkeyword : IsWord keyword) (hother : ¬ keyword <:+: other)
    (hgap : ∀ c ∈ gap, isWhiteSpace c = true) (hgap' : ∀ c ∈ gap', isWhiteSpace c = true)
    (hfree : ¬ keyword <:+: arguments) :
    ¬ keyword <:+: gap ++ (other ++ (gap' ++ '(' :: arguments)) := by
  have hopen : ¬ keyword <:+: '(' :: arguments :=
    not_isInfix_cons hkeyword endsWord_open hfree
  have hstops : Stops (gap' ++ '(' :: arguments) :=
    stops_gap_append hgap' (stops_cons endsWord_open)
  refine not_isInfix_gap_append hkeyword hgap (not_isInfix_append hkeyword hstops hother ?_)
  exact not_isInfix_gap_append hkeyword hgap' hopen

section
variable {keywords : List Text} {keyword gap gap' arguments : Text}
  (hwords : ∀ k ∈ keywords, IsWord k) (hkeyword : keyword ∈ keywords)
  (hapart : ∀ k ∈ keywords, k <:+: keyword → k = keyword) (hgap : IsGap gap)
  (hgap' : ∀ c ∈ gap', isWhiteSpace c = true) (harguments : Parentheses.Balanced arguments)
  (hfree : ∀ k ∈ keywords, ¬ k <:+: arguments)

include hwords hkeyword hapart hgap hgap' harguments hfree

/-- An attribute after white space turns into a space. -/
theorem passes_attribute :
    Passes keywords (gap ++ (keyword ++ (gap' ++ '(' :: (arguments ++ [')'])))) (gap ++ [' ']) := by
  induction keywords with
  | nil => cases hkeyword
  | cons first keywords ih =>
    have hfirst := hwords first List.mem_cons_self
    have hothers : ∀ k ∈ keywords, IsWord k := fun k hk => hwords k (List.mem_cons_of_mem _ hk)
    by_cases hsame : first = keyword
    · -- this keyword turns it into a space, and then there is no keyword in it
      have hspace : ∀ k ∈ keywords, ¬ k <:+: gap ++ [' '] := fun k hk =>
        not_isInfix_gap_append (hothers k hk) hgap.blank
          (not_isInfix_cons (hothers k hk) (endsWord_of_blank isWhiteSpace_space)
            (not_isInfix_nil (hothers k hk)))
      refine Passes.cons hfirst (fun rest hrest => ?_) (passes_of_free hothers hspace)
      have hsplit : gap ++ (keyword ++ (gap' ++ '(' :: (arguments ++ [')']))) ++ rest =
          gap ++ (keyword ++ (gap' ++ '(' :: (arguments ++ ')' :: rest))) := by simp
      rw [hsplit, eraseAfter?_gap_append hfirst hgap, hsame,
        eraseAfter?_attribute (hsame ▸ hfirst) hgap' harguments, Option.map_map]
      congr 1
      funext after
      simp
    -- another keyword leaves the attribute as it is, for a later one
    · have hmem : keyword ∈ keywords :=
        (List.mem_cons.mp hkeyword).resolve_left fun h => hsame h.symm
      have hnot : ¬ first <:+: keyword := fun h => hsame (hapart first List.mem_cons_self h)
      have hclose : ¬ first <:+: arguments ++ [')'] :=
        not_isInfix_append hfirst (stops_cons endsWord_close)
          (hfree first List.mem_cons_self)
          (not_isInfix_cons hfirst endsWord_close (not_isInfix_nil hfirst))
      have hpiece := not_isInfix_attribute hfirst hnot hgap.blank hgap' hclose
      refine Passes.cons hfirst (fun rest hrest => ?_)
        (ih hothers hmem (fun k hk => hapart k (List.mem_cons_of_mem _ hk))
          fun k hk => hfree k (List.mem_cons_of_mem _ hk))
      exact eraseAfter?_append_of_free hfirst hpiece hrest none

/-- An attribute whose argument list is not closed stops the erasure. -/
theorem eraseAll?_unclosed {inner : Text} (hinner : inner <+: arguments) :
    eraseAll? keywords (gap ++ (keyword ++ (gap' ++ '(' :: inner))) = none := by
  induction keywords with
  | nil => cases hkeyword
  | cons first keywords ih =>
    have hfirst := hwords first List.mem_cons_self
    rw [eraseAll?_cons_word hfirst]
    by_cases hsame : first = keyword
    · rw [eraseAfter?_gap_append hfirst hgap, hsame,
        eraseAfter?_unclosed (hsame ▸ hfirst) hgap' harguments hinner]
      rfl
    · have hmem : keyword ∈ keywords :=
        (List.mem_cons.mp hkeyword).resolve_left fun h => hsame h.symm
      have hnot : ¬ first <:+: keyword := fun h => hsame (hapart first List.mem_cons_self h)
      -- a keyword before this one leaves the text as it is, open argument list and all
      have hinnerFree : ¬ first <:+: inner := fun h =>
        hfree first List.mem_cons_self (h.trans hinner.isInfix)
      have hpiece := not_isInfix_attribute hfirst hnot hgap.blank hgap' hinnerFree
      have hstays := eraseAfter?_append_of_free hfirst hpiece stops_nil none
      rw [eraseAfter?, List.append_nil, Option.map_some, List.append_nil] at hstays
      rw [hstays, Option.bind_some]
      exact ih (fun k hk => hwords k (List.mem_cons_of_mem _ hk)) hmem
        (fun k hk => hapart k (List.mem_cons_of_mem _ hk))
        fun k hk => hfree k (List.mem_cons_of_mem _ hk)

end

end Attribute

end KernelCensus
