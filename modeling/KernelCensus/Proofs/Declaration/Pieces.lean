import KernelCensus.Proofs.Declaration.Erasure

/-!
# Pieces of a text

When parts of a text are erased, each character of what is left is one that stays or the space that
stands for a part. So the text falls into pieces, one for each character of what is left. If what is
left is erased in its turn, the pieces of both erasures compose: a part that is erased the second
time covers pieces of the first.

* `Erases`: what is erased, and where.
* `Keeps`: a keyword with its parenthesis, of which nothing is erased.
* `exists_composes`, `Composes.split`: two erasures, one after the other.
-/

namespace KernelCensus

open Unicode Text

namespace Attribute

/-- A word starts behind a closing parenthesis just as it does behind a space. -/
lemma startsWord_closing : startsWord (some ')') = startsWord (some ' ') := by decide

/-- A piece of a text of which parts are erased. -/
inductive Piece
  | kept (c : Char)
  /-- A part that a space takes the place of. -/
  | erased (part : Text)
deriving Repr, DecidableEq

/-- What a piece is in the text. -/
def Piece.text : Piece → Text
  | kept c => [c]
  | erased part => part

/-- What is left of a piece. -/
def Piece.left : Piece → Char
  | kept c => c
  | erased _ => ' '

/-- The text that pieces make up. -/
def textOf (pieces : List Piece) : Text := pieces.flatMap Piece.text

/-- What is left of pieces. -/
def leftOf (pieces : List Piece) : Text := pieces.map Piece.left

@[simp] lemma textOf_nil : textOf [] = [] := rfl

@[simp] lemma textOf_cons (piece : Piece) (pieces : List Piece) :
    textOf (piece :: pieces) = piece.text ++ textOf pieces := rfl

@[simp] lemma textOf_append (front back : List Piece) :
    textOf (front ++ back) = textOf front ++ textOf back := List.flatMap_append

@[simp] lemma leftOf_nil : leftOf [] = [] := rfl

@[simp] lemma leftOf_cons (piece : Piece) (pieces : List Piece) :
    leftOf (piece :: pieces) = piece.left :: leftOf pieces := rfl

@[simp] lemma leftOf_append (front back : List Piece) :
    leftOf (front ++ back) = leftOf front ++ leftOf back := List.map_append

@[simp] lemma textOf_kept (text : Text) : textOf (text.map .kept) = text := by
  induction text with
  | nil => rfl
  | cons c text ih => simp [Piece.text, ih]

@[simp] lemma leftOf_kept (text : Text) : leftOf (text.map .kept) = text := by
  induction text with
  | nil => rfl
  | cons c text ih => simp [Piece.left, ih]

/-- A character that is not a space was there before. -/
lemma Piece.eq_kept {piece : Piece} {c : Char} (h : piece.left = c) (hc : c ≠ ' ') :
    piece = .kept c := by
  cases piece with
  | kept d => exact congrArg Piece.kept h
  | erased part => exact absurd h.symm hc

/-- Pieces of which none is erased are characters that stay. -/
lemma eq_map_kept {pieces : List Piece} (h : ∀ part, Piece.erased part ∉ pieces) :
    pieces = (leftOf pieces).map .kept := by
  induction pieces with
  | nil => rfl
  | cons piece pieces ih =>
    have hrest := ih fun part hmem => h part (List.mem_cons_of_mem piece hmem)
    cases piece with
    | kept c =>
      rw [leftOf_cons, List.map_cons, ← hrest]
      rfl
    | erased part => exact absurd List.mem_cons_self (h part)

/-- Without spaces in what is left, nothing was erased. -/
lemma eq_map_kept_of_leftOf {pieces : List Piece} {word : Text} (h : leftOf pieces = word)
    (hword : ' ' ∉ word) : pieces = word.map .kept := by
  subst h
  apply eq_map_kept
  intro part hmem
  exact hword (List.mem_map_of_mem hmem)

/-! ## What is erased and what is kept -/

/-- In pieces that follow `previous`, only parts of a kind are erased, each at the start of a
word. -/
def Erases (IsPart : Text → Prop) (previous : Option Char) (pieces : List Piece) : Prop :=
  ∀ front part back, pieces = front ++ .erased part :: back →
    startsWord ((leftOf front).getLast?.or previous) = true ∧ IsPart part

/-- In pieces that follow `previous`, the keyword starts a word, and it stays together with the
parenthesis behind it. -/
def Keeps (keyword : Text) (previous : Option Char) (pieces : List Piece) : Prop :=
  ∃ front gap back, pieces = front ++ ((keyword ++ (gap ++ ['('])).map .kept ++ back) ∧
    startsWord ((leftOf front).getLast?.or previous) = true ∧ ∀ c ∈ gap, isWhiteSpace c = true

section
variable {IsPart : Text → Prop} {previous : Option Char} {pieces : List Piece}

lemma erases_nil : Erases IsPart previous [] := by
  intro front part back heq
  simp at heq

/-- A character that stays in front of other pieces. -/
lemma Erases.cons_kept {c : Char} (h : Erases IsPart (some c) pieces) :
    Erases IsPart previous (.kept c :: pieces) := by
  intro front part back heq
  cases front with
  | nil => simp at heq
  | cons piece front =>
    obtain ⟨rfl, hrest⟩ := List.cons.inj heq
    rw [leftOf_cons, getLast?_cons_or]
    exact h front part back hrest

/-- A part that is erased in front of other pieces. -/
lemma Erases.cons_erased {part : Text} (hword : startsWord previous = true) (hpart : IsPart part)
    (h : Erases IsPart (some ' ') pieces) : Erases IsPart previous (.erased part :: pieces) := by
  intro front part' back heq
  cases front with
  | nil =>
    obtain ⟨heq, -⟩ := List.cons.inj heq
    cases heq
    exact ⟨hword, hpart⟩
  | cons piece front =>
    obtain ⟨rfl, hrest⟩ := List.cons.inj heq
    rw [leftOf_cons, getLast?_cons_or]
    exact h front part' back hrest

/-- Characters that stay in front of other pieces. -/
lemma Erases.append_kept {text : Text} (h : Erases IsPart (text.getLast?.or previous) pieces) :
    Erases IsPart previous (text.map .kept ++ pieces) := by
  induction text generalizing previous with
  | nil => exact h
  | cons c text ih =>
    rw [getLast?_cons_or] at h
    exact (ih h).cons_kept

/-- Where every character stays, nothing is erased. -/
lemma erases_kept (text : Text) : Erases IsPart previous (text.map .kept) := by
  intro front part back heq
  have hmem : Piece.erased part ∈ text.map Piece.kept := by
    rw [heq]
    exact List.mem_append_right front List.mem_cons_self
  simp at hmem

/-- Each part that is erased is of the kind. -/
lemma Erases.of_mem (h : Erases IsPart previous pieces) {part : Text}
    (hpart : Piece.erased part ∈ pieces) : IsPart part := by
  obtain ⟨front, back, heq⟩ := List.append_of_mem hpart
  exact (h front part back heq).2

/-- A keyword that stays is at the front of the pieces or behind the first of them. -/
lemma Keeps.of_cons {keyword : Text} {piece : Piece}
    (h : Keeps keyword previous (piece :: pieces)) :
    (startsWord previous = true ∧ ∃ gap back,
      piece :: pieces = (keyword ++ (gap ++ ['('])).map .kept ++ back ∧
        ∀ c ∈ gap, isWhiteSpace c = true) ∨ Keeps keyword (some piece.left) pieces := by
  obtain ⟨front, gap, back, heq, hword, hgap⟩ := h
  cases front with
  | nil => exact Or.inl ⟨hword, gap, back, heq, hgap⟩
  | cons first front =>
    obtain ⟨rfl, hrest⟩ := List.cons.inj heq
    rw [leftOf_cons, getLast?_cons_or] at hword
    exact Or.inr ⟨front, gap, back, hrest, hword, hgap⟩

end

/-! ## One erasure after another -/

/-- Pieces that come of an erasure, `first`, and an erasure of what it leaves, `second`. The parts
that are erased then end with a parenthesis. -/
inductive Composes : List Piece → List Piece → List Piece → Prop
  | nil : Composes [] [] []
  | kept {piece : Piece} {first second pieces : List Piece} (h : Composes first second pieces) :
    Composes (piece :: first) (.kept piece.left :: second) (piece :: pieces)
  | erased {covered first second pieces : List Piece} (hend : (leftOf covered).getLast? = some ')')
    (h : Composes first second pieces) :
    Composes (covered ++ first) (.erased (leftOf covered) :: second)
      (.erased (textOf covered) :: pieces)

/-- An erasure of what another one leaves composes with it. -/
theorem exists_composes {first second : List Piece} (h : leftOf first = textOf second)
    (hend : ∀ part, Piece.erased part ∈ second → part.getLast? = some ')') :
    ∃ pieces, Composes first second pieces := by
  induction second generalizing first with
  | nil =>
    rw [List.map_eq_nil_iff.mp h]
    exact ⟨[], .nil⟩
  | cons piece second ih =>
    have hend' : ∀ part, Piece.erased part ∈ second → part.getLast? = some ')' :=
      fun part hmem => hend part (List.mem_cons_of_mem piece hmem)
    obtain ⟨covered, rest, rfl, hcovered, hrest⟩ := List.map_eq_append_iff.mp h
    obtain ⟨pieces, hpieces⟩ := ih hrest hend'
    cases piece with
    | kept c =>
      obtain ⟨single, rfl, hsingle⟩ := List.map_eq_singleton_iff.mp hcovered
      subst hsingle
      exact ⟨_, .kept hpieces⟩
    | erased part =>
      have hpart : leftOf covered = part := hcovered
      subst hpart
      exact ⟨_, .erased (hend _ List.mem_cons_self) hpieces⟩

section
variable {first second pieces : List Piece} (h : Composes first second pieces)

include h

lemma Composes.textOf_eq : textOf pieces = textOf first := by
  induction h with
  | nil => rfl
  | kept _ ih => rw [textOf_cons, textOf_cons, ih]
  | erased _ _ ih =>
    rw [textOf_cons, textOf_append, ih]
    rfl

lemma Composes.leftOf_eq : leftOf pieces = leftOf second := by
  induction h with
  | nil => rfl
  | kept _ ih =>
    rw [leftOf_cons, leftOf_cons, ih]
    rfl
  | erased _ _ ih =>
    rw [leftOf_cons, leftOf_cons, ih]
    rfl

/-- A word starts behind the pieces if it starts behind what the first erasure leaves: instead of a
space, a closing parenthesis may stand there. -/
lemma Composes.startsWord_eq {previous previous' : Option Char}
    (hprevious : startsWord previous = startsWord previous') :
    startsWord ((leftOf first).getLast?.or previous) =
      startsWord ((leftOf pieces).getLast?.or previous') := by
  induction h generalizing previous previous' with
  | nil => exact hprevious
  | kept _ ih =>
    rw [leftOf_cons, leftOf_cons, getLast?_cons_or, getLast?_cons_or]
    exact ih rfl
  | @erased covered first _ pieces hend _ ih =>
    have hfirst : (leftOf (covered ++ first)).getLast?.or previous =
        (leftOf first).getLast?.or (some ')') := by
      rw [leftOf_append, List.getLast?_append, hend, Option.or_assoc]
      rfl
    rw [hfirst, leftOf_cons, getLast?_cons_or]
    exact ih startsWord_closing

end

/-- Pieces that compose come apart wherever the result does. -/
theorem Composes.split {first second front back : List Piece}
    (h : Composes first second (front ++ back)) :
    ∃ first' first'' second' second'', first = first' ++ first'' ∧ second = second' ++ second'' ∧
      Composes first' second' front ∧ Composes first'' second'' back := by
  induction front generalizing first second with
  | nil => exact ⟨[], first, [], second, rfl, rfl, .nil, h⟩
  | cons piece front ih =>
    cases h with
    | kept hrest =>
      obtain ⟨first', first'', second', second'', rfl, rfl, hfront, hback⟩ := ih hrest
      exact ⟨_, first'', _, second'', rfl, rfl, .kept hfront, hback⟩
    | @erased covered _ _ _ hend hrest =>
      obtain ⟨first', first'', second', second'', rfl, rfl, hfront, hback⟩ := ih hrest
      exact ⟨covered ++ first', first'', _, second'', (List.append_assoc ..).symm, rfl,
        .erased hend hfront, hback⟩

/-- What stays in the end stays both times. -/
lemma Composes.eq_of_kept {first second : List Piece} {text : Text}
    (h : Composes first second (text.map .kept)) :
    first = text.map .kept ∧ second = text.map .kept := by
  induction text generalizing first second with
  | nil =>
    cases h
    exact ⟨rfl, rfl⟩
  | cons c text ih =>
    cases h with
    | kept hrest =>
      obtain ⟨rfl, rfl⟩ := ih hrest
      exact ⟨rfl, rfl⟩

/-- A keyword that stays in the end stays both times. -/
theorem Composes.keeps {first second pieces : List Piece} (h : Composes first second pieces)
    {keyword : Text} {previous : Option Char} (hkeeps : Keeps keyword previous pieces) :
    Keeps keyword previous first ∧ Keeps keyword previous second := by
  obtain ⟨front, gap, back, rfl, hword, hgap⟩ := hkeeps
  obtain ⟨first', rest, second', rest', rfl, rfl, hfront, hrest⟩ := h.split
  obtain ⟨run, first'', run', second'', rfl, rfl, hrun, -⟩ := hrest.split
  obtain ⟨rfl, rfl⟩ := hrun.eq_of_kept
  constructor
  · rw [← hfront.startsWord_eq rfl] at hword
    exact ⟨first', gap, first'', rfl, hword, hgap⟩
  · rw [hfront.leftOf_eq] at hword
    exact ⟨second', gap, second'', rfl, hword, hgap⟩

end Attribute

end KernelCensus
