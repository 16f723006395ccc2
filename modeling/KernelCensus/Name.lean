import KernelCensus.Text.Basic

/-!
# Identifiers and qualified names

An identifier is an ASCII letter or a low line, followed by ASCII letters, digits and low lines. A
qualified name is one or more identifiers with `::` between each two. Declarations may set white
space around the `::`, logs may not, so the two are recognised by different functions.
-/

namespace KernelCensus.Name

/-- A character that may start an identifier. -/
def isStart (c : Char) : Bool := c.isAlpha || c == '_'

/-- A character that may continue an identifier. -/
def isPart (c : Char) : Bool := c.isAlphanum || c == '_'

/-! ## Names without white space -/

/-- The longest continuation of a qualified name, for identifiers made of the characters that
`start` and `part` admit. A `::` belongs to it only if an identifier follows. -/
def continuation (start part : Char → Bool) : Text → Text
  | ':' :: ':' :: c :: rest =>
    if start c then ':' :: ':' :: c :: continuation start part rest else []
  | c :: rest => if part c then c :: continuation start part rest else []
  | [] => []

/-- The longest qualified name that a text starts with. -/
def leading? (start part : Char → Bool) : Text → Option Text
  | [] => none
  | c :: rest => if start c then some (c :: continuation start part rest) else none

/-! ## Names with white space around `::` -/

/-- A place in a qualified name. -/
inductive Place
  | inside
  /-- In the white space after an identifier. -/
  | past
  /-- In the white space after a `::`. -/
  | ahead
deriving Repr, DecidableEq

/-- Whether a text completes a qualified name from a place in it. White space may follow the
name. -/
def completes : Place → Text → Bool
  | .ahead, [] => false
  | .ahead, c :: rest =>
    if Unicode.isWhiteSpace c then completes .ahead rest
    else isStart c && completes .inside rest
  | _, [] => true
  | _, ':' :: ':' :: rest => completes .ahead rest
  | .inside, c :: rest =>
    if isPart c then completes .inside rest
    else Unicode.isWhiteSpace c && completes .past rest
  | .past, c :: rest => Unicode.isWhiteSpace c && completes .past rest

/-- Whether a text is a qualified name, with white space allowed around `::` and at the end. -/
def isSpaced : Text → Bool
  | [] => false
  | c :: rest => isStart c && completes .inside rest

/-- The longest end of a text that is a qualified name, and the text before it. -/
def trailing? : Text → Option (Text × Text)
  | [] => none
  | c :: rest =>
    if isSpaced (c :: rest) then some ([], c :: rest)
    else (trailing? rest).map fun parts => (c :: parts.1, parts.2)

end KernelCensus.Name
