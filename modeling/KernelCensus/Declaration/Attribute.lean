import KernelCensus.Declaration.Parentheses

/-!
# Attributes

An attribute is a keyword at the start of a word with an argument list in parentheses, such as
`__launch_bounds__(256)`. Attributes say nothing about the name and the parameters of a kernel,
so each is replaced by a space before a declaration is read.
-/

namespace KernelCensus.Attribute

/-- Whether a word may start after the given character, or at the start of the text. -/
def startsWord (previous : Option Char) : Bool :=
  match previous with
  | some c => !(Unicode.isAlphanumeric c || c == '_')
  | none => true

/-- What follows the parenthesis that opens an argument list, white space before it aside. -/
def openArguments? (text : Text) : Option Text :=
  match Text.trimStart text with
  | '(' :: rest => some rest
  | _ => none

theorem length_of_openArguments? {text arguments : Text}
    (h : openArguments? text = some arguments) : arguments.length < text.length := by
  unfold openArguments? at h
  split at h
  · rename_i rest heq
    cases h
    have hle : (Text.trimStart text).length ≤ text.length := (List.dropWhile_sublist _).length_le
    rw [heq, List.length_cons] at hle
    omega
  · cases h

/-- What stands at the front of a text, as far as a keyword is concerned. -/
inductive Front
  /-- The keyword does not stand here. -/
  | other
  /-- The keyword stands here, but within a word or without arguments. -/
  | bare (after : Text)
  /-- The keyword opens an argument list that is not closed. -/
  | unclosed
  | closed (after : Text)
deriving Repr, DecidableEq

/-- What a keyword at the start of a word is, going by the text after it. -/
def ofArguments (after : Text) : Front :=
  match openArguments? after with
  | none => .bare after
  | some arguments =>
    match Parentheses.closing? 0 arguments with
    | none => .unclosed
    | some (_, remainder) => .closed remainder

/-- The front of the text that consists of `c` and `rest` and follows the character `previous`. -/
def front (keyword : Text) (previous : Option Char) (c : Char) (rest : Text) : Front :=
  if keyword.isPrefixOf (c :: rest) then
    if startsWord previous then ofArguments (rest.drop (keyword.length - 1))
    else .bare (rest.drop (keyword.length - 1))
  else .other

theorem eq_of_ofArguments_bare {text after : Text} (h : ofArguments text = .bare after) :
    after = text := by
  unfold ofArguments at h
  split at h
  · exact (Front.bare.inj h).symm
  · split at h <;> cases h

theorem length_of_ofArguments_closed {text after : Text}
    (h : ofArguments text = .closed after) : after.length < text.length := by
  unfold ofArguments at h
  split at h
  · cases h
  · rename_i arguments hopen
    split at h
    · cases h
    · rename_i hclose
      cases h
      exact Nat.lt_trans (Parentheses.length_after_lt hclose) (length_of_openArguments? hopen)

theorem length_of_front_bare {keyword : Text} {previous : Option Char} {c : Char}
    {rest after : Text} (h : front keyword previous c rest = .bare after) :
    after.length ≤ rest.length := by
  unfold front at h
  split at h
  · split at h
    · rw [eq_of_ofArguments_bare h, List.length_drop]
      exact Nat.sub_le ..
    · rw [← Front.bare.inj h, List.length_drop]
      exact Nat.sub_le ..
  · cases h

theorem length_of_front_closed {keyword : Text} {previous : Option Char} {c : Char}
    {rest after : Text} (h : front keyword previous c rest = .closed after) :
    after.length ≤ rest.length := by
  unfold front at h
  split at h
  · split at h
    · have hlt := length_of_ofArguments_closed h
      rw [List.length_drop] at hlt
      omega
    · cases h
  · cases h

/-- Replaces each attribute with `keyword` by a space, in a text that follows the character
`previous`. Any other occurrence of the keyword is passed over as a whole. There is no answer if an
argument list is not closed. -/
def eraseAfter? (keyword : Text) (previous : Option Char) : Text → Option Text
  | [] => some []
  | c :: rest =>
    match _h : front keyword previous c rest with
    | .other => (eraseAfter? keyword (some c) rest).map (c :: ·)
    | .bare after => (eraseAfter? keyword keyword.getLast? after).map (keyword ++ ·)
    | .unclosed => none
    | .closed after => (eraseAfter? keyword (some ' ') after).map (' ' :: ·)
termination_by text => text.length
decreasing_by
  · exact Nat.lt_succ_self _
  · exact Nat.lt_succ_of_le (length_of_front_bare _h)
  · exact Nat.lt_succ_of_le (length_of_front_closed _h)

/-- Replaces the attributes with any of the keywords, one keyword after another. White space
around a keyword does not count, and blank keywords are left out. -/
def eraseAll? (keywords : List Text) (text : Text) : Option Text :=
  ((keywords.map Text.trim).filter (!·.isEmpty)).foldlM
    (fun text keyword => eraseAfter? keyword none text) text

end KernelCensus.Attribute
