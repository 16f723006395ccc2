import KernelCensus.Proofs.Declaration.Removal

/-!
# What the erasure of attributes leaves

Each keyword is looked for once, from left to right, and a keyword with no parenthesis behind it is
passed over for good. When an attribute between the keyword and a parenthesis is erased, the keyword
comes to stand before that parenthesis and stays there all the same. This is the only way in which a
keyword is left with a parenthesis behind it, and where it does not happen nothing is left to erase.

* `eraseAll?_leaves_parted_keywords`: where a keyword is left with a parenthesis behind it, and when
  erasing once more changes nothing.
-/

namespace KernelCensus.Attribute

open Unicode Text
open Name (isPart)

/-- In what is left of pieces, the keyword stands behind `before`, and in the `gap` behind it a part
was erased. -/
def Parted (pieces : List Piece) (before keyword gap : Text) : Prop :=
  ∃ front lead back, pieces = front ++ (keyword.map .kept ++ (lead ++ back)) ∧
    leftOf front = before ∧ leftOf lead = gap ∧ ∃ part, Piece.erased part ∈ lead

/-- If some piece is erased, one of them is the first. -/
lemma exists_first_erased {pieces : List Piece} (h : ∃ part, Piece.erased part ∈ pieces) :
    ∃ (front : Text) (part : Text) (back : List Piece),
      pieces = front.map .kept ++ .erased part :: back := by
  obtain ⟨part, hpart⟩ := h
  induction pieces with
  | nil => cases hpart
  | cons piece pieces ih =>
    cases piece with
    | erased first => exact ⟨[], first, pieces, rfl⟩
    | kept c =>
      have hrest : Piece.erased part ∈ pieces := by simpa using hpart
      obtain ⟨front, first, back, rfl⟩ := ih hrest
      exact ⟨c :: front, first, back, rfl⟩

section
variable {keyword : Text}

/-- What has the keyword with a parenthesis behind it keeps it when nothing is erased. -/
lemma Opens.keeps {previous : Option Char} {text inner : Text}
    (h : Opens keyword previous text inner) : Keeps keyword previous (text.map .kept) := by
  obtain ⟨before, gap, rfl, hword, hgap⟩ := h
  refine ⟨before.map .kept, gap, inner.map .kept, ?_, ?_, hgap⟩
  · simp
  · rw [leftOf_kept]
    exact hword

/-- A keyword that is left with a parenthesis behind it was parted from it, or it stayed together
with it. -/
lemma parted_or_keeps (hspace : ' ' ∉ keyword) {pieces : List Piece} {before gap inner : Text}
    (hleft : leftOf pieces = before ++ (keyword ++ (gap ++ '(' :: inner)))
    (hword : startsWord before.getLast? = true) (hgap : ∀ c ∈ gap, isWhiteSpace c = true) :
    Parted pieces before keyword gap ∨ Keeps keyword none pieces := by
  -- what is left has one character for each piece, so the pieces split where it does
  obtain ⟨front, rest, rfl, hfront, hrest⟩ := List.map_eq_append_iff.mp hleft
  obtain ⟨word, rest, rfl, hkeyword, hrest⟩ := List.map_eq_append_iff.mp hrest
  obtain ⟨lead, rest, rfl, hlead, hrest⟩ := List.map_eq_append_iff.mp hrest
  obtain ⟨opening, back, rfl, hopening, -⟩ := List.map_eq_cons_iff.mp hrest
  have hkeyword := eq_map_kept_of_leftOf hkeyword hspace
  have hopening := Piece.eq_kept hopening (by decide)
  subst hkeyword hopening
  by_cases herased : ∃ part, Piece.erased part ∈ lead
  · left
    exact ⟨front, lead, _, rfl, hfront, hlead, herased⟩
  · right
    have hkept : lead = gap.map .kept := by
      rw [← hlead]
      exact eq_map_kept fun part hmem => herased ⟨part, hmem⟩
    refine ⟨front, gap, back, ?_, ?_, hgap⟩
    · simp [hkept]
    · rw [Option.or_none, leftOf, hfront]
      exact hword

/-- Where the keyword has nowhere a parenthesis behind it, nothing is erased. -/
lemma eraseAfter?_of_not_opens (hne : keyword ≠ []) (hparts : ∀ c ∈ keyword, isPart c = true)
    {text : Text} (h : ∀ inner, ¬ Opens keyword none text inner) :
    eraseAfter? keyword none text = some text := by
  obtain ⟨pieces, htreats⟩ := exists_treats hne hparts none text
  have hnone : ∀ part, Piece.erased part ∉ pieces := by
    intro part hmem
    -- before the first part that is erased, the text is still as it was
    obtain ⟨front, first, back, rfl⟩ := exists_first_erased ⟨part, hmem⟩
    obtain ⟨hword, gap, arguments, rfl, hgap, -⟩ := htreats.erases _ first back rfl
    rw [leftOf_kept] at hword
    apply h (arguments ++ ')' :: textOf back)
    refine ⟨front, gap, ?_, hword, hgap⟩
    rw [← htreats.textOf_eq]
    simp [Piece.text]
  have hpieces := eq_map_kept hnone
  have htext := htreats.textOf_eq
  rw [hpieces, textOf_kept] at htext
  rcases htreats.outcome with ⟨hsome, -⟩ | ⟨-, inner, hopens, -⟩
  · rw [hsome, htext]
  · rw [htext] at hopens
    exact absurd hopens (h inner)

end

section
variable {keywords : List Text} (hkeywords : ∀ keyword ∈ keywords, ∀ c ∈ keyword, isPart c = true)

include hkeywords

/-- Where no keyword has a parenthesis behind it, nothing is erased. -/
lemma eraseAll?_of_not_opens {text : Text}
    (h : ∀ keyword ∈ keywords, keyword ≠ [] → ∀ inner, ¬ Opens keyword none text inner) :
    eraseAll? keywords text = some text := by
  induction keywords with
  | nil => rfl
  | cons keyword keywords ih =>
    obtain ⟨hparts, hrest⟩ := List.forall_mem_cons.mp hkeywords
    obtain ⟨hopens, hothers⟩ := List.forall_mem_cons.mp h
    by_cases hne : keyword = []
    · subst hne
      rw [eraseAll?_nil_cons]
      exact ih hrest hothers
    · rw [eraseAll?_cons_word (isWord_of_isPart hne hparts),
        eraseAfter?_of_not_opens hne hparts (hopens hne), Option.bind_some]
      exact ih hrest hothers

end

/-- An attribute is longer than the space that takes its place. -/
lemma IsAttribute.one_lt_length {keywords : List Text} {part : Text} (h : IsAttribute keywords part) :
    1 < part.length := by
  cases h with
  | intro _ _ _ _ _ =>
    simp only [List.length_append, List.length_cons, List.length_nil]
    omega

/-- Pieces are no more than the characters of their text. -/
lemma length_le_textOf {pieces : List Piece}
    (h : ∀ part, Piece.erased part ∈ pieces → 1 < part.length) :
    pieces.length ≤ (textOf pieces).length := by
  induction pieces with
  | nil => exact Nat.le_refl 0
  | cons piece pieces ih =>
    have hrest := ih fun part hmem => h part (List.mem_cons_of_mem piece hmem)
    rw [textOf_cons, List.length_append, List.length_cons]
    cases piece with
    | kept c =>
      show pieces.length + 1 ≤ 1 + (textOf pieces).length
      omega
    | erased part =>
      have hpart := h part List.mem_cons_self
      show pieces.length + 1 ≤ part.length + (textOf pieces).length
      omega

/-- A text that is left as it was had nothing erased from it. -/
lemma not_erased_of_textOf_eq {pieces : List Piece} (heq : textOf pieces = leftOf pieces)
    (h : ∀ part, Piece.erased part ∈ pieces → 1 < part.length) (part : Text) :
    Piece.erased part ∉ pieces := by
  intro hmem
  have hpart := h part hmem
  -- the part makes up more than one character, and all other pieces at least one each
  obtain ⟨front, back, rfl⟩ := List.append_of_mem hmem
  have hfront := length_le_textOf fun other hother => h other (List.mem_append_left _ hother)
  have hback := length_le_textOf fun other hother =>
    h other (List.mem_append_right front (List.mem_cons_of_mem _ hother))
  have hlengths := congrArg List.length heq
  rw [textOf_append, textOf_cons, leftOf, List.length_map, List.length_append, List.length_append,
    List.length_append, List.length_cons] at hlengths
  change _ + (part.length + _) = _ at hlengths
  omega

section
variable {keywords : List Text} (hkeywords : ∀ keyword ∈ keywords, ∀ c ∈ keyword, isPart c = true)

include hkeywords

/-- Erasing attributes changes nothing just if no keyword has a parenthesis behind it. -/
lemma eraseAll?_eq_self_iff (text : Text) :
    eraseAll? keywords text = some text ↔
      ∀ keyword ∈ keywords, keyword ≠ [] → ∀ inner, ¬ Opens keyword none text inner := by
  constructor
  · intro hself keyword hkeyword hne inner hopens
    obtain ⟨pieces, htext, herases, houtcome⟩ := exists_pieces_of_eraseAll? hkeywords text
    rw [hself] at houtcome
    rcases houtcome with ⟨hleft, hkeeps⟩ | ⟨hnone, -⟩
    · obtain rfl := Option.some.inj hleft
      have hpieces := eq_map_kept <|
        not_erased_of_textOf_eq htext fun part hmem => (herases.of_mem hmem).one_lt_length
      apply hkeeps keyword hkeyword hne
      rw [hpieces]
      exact hopens.keeps
    · cases hnone
  · exact eraseAll?_of_not_opens hkeywords

/-- What the erasure of attributes leaves: a keyword that starts a word and has a parenthesis behind
it was parted from that parenthesis by an attribute. Where no keyword is left in this way, erasing
once more changes nothing, and only there. -/
theorem eraseAll?_leaves_parted_keywords {text left : Text}
    (hleft : eraseAll? keywords text = some left) :
    (∃ pieces, textOf pieces = text ∧ leftOf pieces = left ∧ ErasesAttributes keywords pieces ∧
      ∀ keyword ∈ keywords, keyword ≠ [] → ∀ before gap inner,
        left = before ++ (keyword ++ (gap ++ '(' :: inner)) →
        startsWord before.getLast? = true → (∀ c ∈ gap, isWhiteSpace c = true) →
        Parted pieces before keyword gap) ∧
    (eraseAll? keywords left = some left ↔
      ∀ keyword ∈ keywords, keyword ≠ [] → ∀ inner, ¬ Opens keyword none left inner) := by
  obtain ⟨pieces, htext, herases, houtcome⟩ := exists_pieces_of_eraseAll? hkeywords text
  rw [hleft] at houtcome
  rcases houtcome with ⟨hsome, hkeeps⟩ | ⟨hnone, -⟩
  · have hpieces := (Option.some.inj hsome).symm
    refine ⟨⟨pieces, htext, hpieces, herases.erasesAttributes hkeywords, ?_⟩, ?_⟩
    · intro keyword hkeyword hne before gap inner heq hword hgap
      have hspace : ' ' ∉ keyword := fun hmem =>
        absurd (hkeywords keyword hkeyword _ hmem) (by decide)
      rw [← hpieces] at heq
      rcases parted_or_keeps hspace heq hword hgap with hparted | hkept
      · exact hparted
      · exact absurd hkept (hkeeps keyword hkeyword hne)
    · exact eraseAll?_eq_self_iff hkeywords left
  · cases hnone

end

/-- An attribute between another keyword and its argument list. -/
theorem eraseAll?_leaves_parted_keywords_between :
    let keywords := ["__launch_bounds__".toList, "__attribute__".toList]
    let text := "__launch_bounds__ __attribute__((x)) (256)".toList
    let left := "__launch_bounds__   (256)".toList
    (∀ keyword ∈ keywords, ∀ c ∈ keyword, isPart c = true) ∧ eraseAll? keywords text = some left ∧
      (∃ pieces, textOf pieces = text ∧ leftOf pieces = left ∧ ErasesAttributes keywords pieces ∧
        Parted pieces [] "__launch_bounds__".toList "   ".toList) ∧
      ¬ ∀ keyword ∈ keywords, keyword ≠ [] → ∀ inner, ¬ Opens keyword none left inner := by
  intro keywords text left
  have hkeywords := forall_isPart_of_all (by decide : (keywords.all fun k => k.all isPart) = true)
  have hleft : eraseAll? keywords text = some left := by decide +kernel
  have hagain : eraseAll? keywords left ≠ some left := by decide +kernel
  obtain ⟨⟨pieces, htext, hpieces, herases, hparted⟩, hself⟩ :=
    eraseAll?_leaves_parted_keywords hkeywords hleft
  refine ⟨hkeywords, hleft, ⟨pieces, htext, hpieces, herases, ?_⟩, fun h => hagain (hself.mpr h)⟩
  have hblank : ∀ c ∈ "   ".toList, isWhiteSpace c = true :=
    List.all_eq_true.mp (by decide)
  exact hparted _ (by simp [keywords]) (by decide) [] _ "256)".toList rfl rfl hblank

/-- The erasure is not complete: a keyword is left with an argument list behind it, and erasing once
more removes both. -/
theorem eraseAll?_leaves_keyword :
    let keywords := ["__launch_bounds__".toList, "__attribute__".toList]
    let left := "__launch_bounds__   (256)".toList
    (∀ keyword ∈ keywords, ∀ c ∈ keyword, isPart c = true) ∧
      eraseAll? keywords "__launch_bounds__ __attribute__((x)) (256)".toList = some left ∧
      (∃ keyword ∈ keywords, ∃ inner, Opens keyword none left inner) ∧
      eraseAll? keywords left = some " ".toList := by
  intro keywords left
  have hkeywords := forall_isPart_of_all (by decide : (keywords.all fun k => k.all isPart) = true)
  have hopens : Opens "__launch_bounds__".toList none left "256)".toList :=
    ⟨[], "   ".toList, rfl, rfl, List.all_eq_true.mp (by decide)⟩
  refine ⟨hkeywords, by decide +kernel, ⟨_, ?_, _, hopens⟩, by decide +kernel⟩
  simp [keywords]

end KernelCensus.Attribute
