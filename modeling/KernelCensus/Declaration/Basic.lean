import KernelCensus.Declaration.Attribute
import KernelCensus.Name
import KernelCensus.Source

/-!
# Declarations

A declaration is the text from the declaration keyword up to the parenthesis that closes the
parameter list. It is named by the qualified name right before the parameter list.
-/

namespace KernelCensus

/-- A declaration whose parameter list is closed. -/
structure Declaration where
  head : Text
  parameters : Text
deriving Repr, DecidableEq

namespace Declaration

/-- Reads a declaration off the front of a text. There is none as long as the parameter list, or an
attribute before it, is not closed. -/
def ofText? (attributes : List Text) (text : Text) : Option Declaration := do
  let bare ← Attribute.eraseAll? attributes text
  let (head, rest) ← Text.cut? ['('] (Text.squeeze bare)
  let (parameters, _) ← Parentheses.closing? 0 rest
  some ⟨Text.trimEnd head, Text.trim parameters⟩

/-- The name of the declared kernel. It has to follow some text, or it is the declaration keyword
itself. -/
def name? (declaration : Declaration) : Option Text :=
  match Name.trailing? declaration.head with
  | none => none
  | some (before, name) =>
    if Text.isBlank before then none
    else some (name.filter fun c => !Unicode.isWhiteSpace c)

end Declaration

end KernelCensus
