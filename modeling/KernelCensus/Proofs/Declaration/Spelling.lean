import KernelCensus.Proofs.Declaration.Erasure
import KernelCensus.Proofs.Name

/-!
# Spellings of declarations

A declaration is spelled as words and attributes, a qualified name and a parameter list, with white
space between them. The erasure takes the attributes out of it and leaves the rest, and of a front of
what stands before the parameter list it leaves nothing that could be taken for one.

* `passes_specifiers`: what the erasure makes of words and attributes.
* `unfinished_specifiers`: and of their fronts.
-/

namespace KernelCensus.Declaration

open Unicode Text

/-! ## Well-formed declarations -/

/-- What may stand between the declaration keyword and the name. -/
inductive Specifier
  | word (text : Text)
  /-- An attribute: a keyword applied to arguments in parentheses, with white space between. -/
  | applied (keyword gap arguments : Text)
deriving Repr, DecidableEq

namespace Specifier

/-- The text of a specifier. -/
def text : Specifier → Text
  | word text => text
  | applied keyword gap arguments => keyword ++ (gap ++ '(' :: (arguments ++ [')']))

/-- What the erasure of attributes leaves of a specifier. -/
def erased : Specifier → Text
  | word text => text
  | applied _ _ _ => [' ']

/-- A specifier that is well-formed for the keywords of attributes. -/
inductive WellFormed (keywords : List Text) : Specifier → Prop
  | word {text : Text} (hword : IsWord text) (hscope : ¬ [':', ':'] <:+ text)
    (hfree : ∀ keyword ∈ keywords, ¬ keyword <:+: text) : WellFormed keywords (.word text)
  | applied {keyword gap arguments : Text} (hkeyword : keyword ∈ keywords)
    (hgap : ∀ c ∈ gap, isWhiteSpace c = true) (harguments : Parentheses.Balanced arguments)
    (hfree : ∀ keyword ∈ keywords, ¬ keyword <:+: arguments) :
    WellFormed keywords (.applied keyword gap arguments)

end Specifier

/-- What follows the declaration keyword, up to the end of the parameter list. -/
structure Spelling where
  /-- The specifiers, each with the white space before it. -/
  specifiers : List (Text × Specifier)
  nameGap : Text
  name : Text
  listGap : Text
  parameters : Text
deriving Repr, DecidableEq

namespace Spelling

variable (spelling : Spelling)

/-- The specifiers as they are written. -/
def specifierText : Text := spelling.specifiers.flatMap fun part => part.1 ++ part.2.text

/-- What the erasure of attributes leaves of the specifiers. -/
def erasedText : Text := spelling.specifiers.flatMap fun part => part.1 ++ part.2.erased

/-- The name with the white space around it. -/
def nameText : Text := spelling.nameGap ++ (spelling.name ++ spelling.listGap)

/-- What is written. -/
def text : Text :=
  spelling.specifierText ++ (spelling.nameText ++ '(' :: (spelling.parameters ++ [')']))

/-- A spelling that is well-formed for the keywords of attributes. -/
structure WellFormed (keywords : List Text) : Prop where
  gaps : ∀ part ∈ spelling.specifiers, IsGap part.1
  specifiers : ∀ part ∈ spelling.specifiers, part.2.WellFormed keywords
  nameGap : IsGap spelling.nameGap
  name : Name.Qualified spelling.name
  listGap : ∀ c ∈ spelling.listGap, isWhiteSpace c = true
  parameters : Parentheses.Balanced spelling.parameters
  name_free : ∀ keyword ∈ keywords, ¬ keyword <:+: spelling.name
  parameters_free : ∀ keyword ∈ keywords, ¬ keyword <:+: spelling.parameters

end Spelling

/-! ## Parentheses in the parts -/

lemma open_not_mem_blank {gap : Text} (hgap : ∀ c ∈ gap, isWhiteSpace c = true) : '(' ∉ gap :=
  fun h => (Parentheses.ne_of_blank (hgap _ h)).1 rfl

lemma open_not_mem_name {name : Text} (hname : Name.Qualified name) : '(' ∉ name := by
  have hidentifier {text : Text} (htext : Name.IsIdentifier text) : '(' ∉ text := by
    obtain ⟨c, rest, rfl, hc, hrest⟩ := htext
    intro h
    rcases List.mem_cons.mp h with rfl | hmem
    · revert hc
      decide
    · have hpart := hrest _ hmem
      revert hpart
      decide
  induction hname with
  | identifier htext => exact hidentifier htext
  | qualified hfirst hbefore hafter _ ih =>
    simp only [List.mem_append, List.mem_cons, not_or]
    exact ⟨⟨⟨hidentifier hfirst, open_not_mem_blank hbefore⟩, by decide, by decide,
      open_not_mem_blank hafter⟩, ih⟩

/-- What the erasure leaves of specifiers has no opening parenthesis. -/
lemma open_not_mem_erased {keywords : List Text} {specifier : Specifier}
    (h : specifier.WellFormed keywords) : '(' ∉ specifier.erased := by
  cases h with
  | word hword => exact hword.not_mem endsWord_open
  | applied =>
    rw [Specifier.erased, List.mem_singleton]
    decide

/-! ## The erasure -/

/-- Words end at specifiers, if they end at what follows them. -/
lemma stops_specifiers {specifiers : List (Text × Specifier)}
    (hgaps : ∀ part ∈ specifiers, IsGap part.1) {rest : Text} (hrest : Stops rest) :
    Stops ((specifiers.flatMap fun part => part.1 ++ part.2.text) ++ rest) := by
  cases specifiers with
  | nil => exact hrest
  | cons part specifiers =>
    rw [List.flatMap_cons, List.append_assoc, List.append_assoc]
    exact (hgaps part List.mem_cons_self).stops_append _

/-- Whether the erasure leaves no opening parenthesis of a text, if it leaves anything. -/
def Unfinished (keywords : List Text) (text : Text) : Prop :=
  ∀ left, Attribute.eraseAll? keywords text = some left → '(' ∉ left

/-- What follows a piece that leaves no parenthesis decides whether the text is unfinished. -/
lemma Unfinished.append {piece left rest : Text} (hpiece : Attribute.Passes keywords piece left)
    (hleft : '(' ∉ left) (hstops : Stops rest) (hrest : Unfinished keywords rest) :
    Unfinished keywords (piece ++ rest) := by
  intro whole hwhole
  rw [hpiece rest hstops, Option.map_eq_some_iff] at hwhole
  obtain ⟨after, hafter, rfl⟩ := hwhole
  rw [List.mem_append, not_or]
  exact ⟨hleft, hrest after hafter⟩

section
variable {keywords : List Text} (hkeywords : Attribute.Separate keywords)

include hkeywords

lemma passes_specifier {gap : Text} (hgap : IsGap gap) {specifier : Specifier}
    (h : specifier.WellFormed keywords) :
    Attribute.Passes keywords (gap ++ specifier.text) (gap ++ specifier.erased) := by
  cases h with
  | word _ _ hfree =>
    refine Attribute.passes_of_free hkeywords.word fun keyword hmem => ?_
    exact not_isInfix_gap_append (hkeywords.word keyword hmem) hgap.blank (hfree keyword hmem)
  | applied hkeyword hgap' harguments hfree =>
    exact Attribute.passes_attribute hkeywords.word hkeyword
      (fun k hk h => hkeywords.apart k hk _ hkeyword h) hgap hgap' harguments hfree

/-- The erasure passes specifiers, whatever follows them. -/
theorem passes_specifiers {specifiers : List (Text × Specifier)}
    (hgaps : ∀ part ∈ specifiers, IsGap part.1)
    (hspecifiers : ∀ part ∈ specifiers, part.2.WellFormed keywords) :
    Attribute.Passes keywords (specifiers.flatMap fun part => part.1 ++ part.2.text)
      (specifiers.flatMap fun part => part.1 ++ part.2.erased) := by
  induction specifiers with
  | nil => exact fun rest _ => Option.map_id'.symm
  | cons part specifiers ih =>
    have hgaps' : ∀ p ∈ specifiers, IsGap p.1 := fun p hp => hgaps p (List.mem_cons_of_mem part hp)
    have hpart := passes_specifier hkeywords (hgaps part List.mem_cons_self)
      (hspecifiers part List.mem_cons_self)
    exact hpart.append (ih hgaps' fun p hp => hspecifiers p (List.mem_cons_of_mem part hp))
      fun rest hrest => stops_specifiers hgaps' hrest

/-! ## Fronts -/

lemma unfinished_of_not_mem {text : Text} (h : '(' ∉ text) : Unfinished keywords text := by
  intro left hleft
  rw [Attribute.eraseAll?_of_not_mem hkeywords.word h, Option.some.injEq] at hleft
  exact hleft ▸ h

lemma unfinished_specifier {gap : Text} (hgap : IsGap gap) {specifier : Specifier}
    (h : specifier.WellFormed keywords) {front : Text} (hfront : front <+: gap ++ specifier.text) :
    Unfinished keywords front := by
  have hblank := open_not_mem_blank hgap.blank
  have hwhole : Unfinished keywords (gap ++ specifier.text ++ []) := by
    refine Unfinished.append (passes_specifier hkeywords hgap h) ?_ stops_nil
      (unfinished_of_not_mem hkeywords List.not_mem_nil)
    rw [List.mem_append, not_or]
    exact ⟨hblank, open_not_mem_erased h⟩
  rw [List.append_nil] at hwhole
  cases h with
  | word hword =>
    refine unfinished_of_not_mem hkeywords fun hmem => ?_
    rcases List.mem_append.mp (hfront.subset hmem) with hmem | hmem
    · exact hblank hmem
    · exact hword.not_mem endsWord_open hmem
  | @applied keyword gap' arguments hkeyword hgap' harguments hfree =>
    have hword := hkeywords.word keyword hkeyword
    have hsplit : gap ++ (Specifier.applied keyword gap' arguments).text =
        gap ++ (keyword ++ gap') ++ '(' :: (arguments ++ [')']) := by simp [Specifier.text]
    have hbefore : '(' ∉ gap ++ (keyword ++ gap') := by
      rw [List.mem_append, List.mem_append, not_or, not_or]
      exact ⟨hblank, hword.not_mem endsWord_open, open_not_mem_blank hgap'⟩
    -- a front that ends in the argument list stops the erasure, so it leaves nothing
    have hunclosed {inner : Text} (hinner : inner <+: arguments) :
        Unfinished keywords (gap ++ (keyword ++ gap') ++ '(' :: inner) := by
      intro left hleft
      have hnone := Attribute.eraseAll?_unclosed hkeywords.word hkeyword
        (fun k hk h => hkeywords.apart k hk _ hkeyword h) hgap hgap' harguments hfree hinner
      rw [List.append_assoc, List.append_assoc, hnone] at hleft
      cases hleft
    rw [hsplit] at hfront
    -- the front ends before the opening parenthesis, in the arguments, or with the whole attribute
    rcases isPrefix_append_cases hfront with hinside | ⟨rest, rfl, hrest⟩
    · exact unfinished_of_not_mem hkeywords fun hmem => hbefore (hinside.subset hmem)
    · rcases List.prefix_cons_iff.mp hrest with rfl | ⟨inner, rfl, hinner⟩
      · rw [List.append_nil]
        exact unfinished_of_not_mem hkeywords hbefore
      · rcases isPrefix_append_cases hinner with harg | ⟨last, rfl, hlast⟩
        · exact hunclosed harg
        · rcases List.prefix_cons_iff.mp hlast with rfl | ⟨after, rfl, hafter⟩
          · rw [List.append_nil]
            exact hunclosed (List.prefix_refl arguments)
          · rw [List.prefix_nil.mp hafter, ← hsplit]
            exact hwhole

/-- The fronts of specifiers and of what follows them up to a parenthesis are unfinished. -/
theorem unfinished_specifiers {specifiers : List (Text × Specifier)}
    (hgaps : ∀ part ∈ specifiers, IsGap part.1)
    (hspecifiers : ∀ part ∈ specifiers, part.2.WellFormed keywords) {tail : Text}
    (htail : '(' ∉ tail) (hstops : Stops tail) {front : Text}
    (hfront : front <+: (specifiers.flatMap fun part => part.1 ++ part.2.text) ++ tail) :
    Unfinished keywords front := by
  induction specifiers generalizing front with
  | nil => exact unfinished_of_not_mem hkeywords fun hmem => htail (hfront.subset hmem)
  | cons part specifiers ih =>
    have hgap := hgaps part List.mem_cons_self
    have hpart := hspecifiers part List.mem_cons_self
    have hgaps' : ∀ p ∈ specifiers, IsGap p.1 := fun p hp => hgaps p (List.mem_cons_of_mem part hp)
    rw [List.flatMap_cons, List.append_assoc] at hfront
    rcases isPrefix_append_cases hfront with hinside | ⟨rest, rfl, hrest⟩
    · exact unfinished_specifier hkeywords hgap hpart hinside
    · refine Unfinished.append (passes_specifier hkeywords hgap hpart) ?_
        (stops_of_isPrefix hrest (stops_specifiers hgaps' hstops))
        (ih hgaps' (fun p hp => hspecifiers p (List.mem_cons_of_mem part hp)) hrest)
      rw [List.mem_append, not_or]
      exact ⟨open_not_mem_blank hgap.blank, open_not_mem_erased hpart⟩

end

end KernelCensus.Declaration
