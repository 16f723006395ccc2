import KernelCensus.Text.Basic

/-!
# Keywords as whole words

A keyword stands as a whole word where neither end of it continues a word. An end of the keyword
that is neither a letter nor a number nor a low line sets no condition.
-/

namespace KernelCensus.Keyword

/-- Whether a character, if there is one, belongs to a word. -/
def inWord (c : Option Char) : Bool := c.any Unicode.isWordChar

/-- Whether a word starts or ends between two neighbouring characters. -/
def isBoundary (left right : Option Char) : Bool := inWord left != inWord right

/-- Whether an end of a keyword asks for a word boundary. -/
def needsBoundary (last : Option Char) : Bool :=
  last.any fun c => Unicode.isAlphanumeric c || c == '_'

/-- Whether a text that follows `previous` starts with the keyword as a whole word. -/
def startsWith (keyword : Text) (previous : Option Char) (text : Text) : Bool :=
  keyword.isPrefixOf text &&
    (!needsBoundary keyword.head? || isBoundary previous keyword.head?) &&
    (!needsBoundary keyword.getLast? ||
      isBoundary keyword.getLast? (text.drop keyword.length).head?)

/-- Whether the keyword occurs as a whole word in a text that follows `previous`. -/
def occursAfter (keyword : Text) : Option Char → Text → Bool
  | previous, [] => startsWith keyword previous []
  | previous, c :: rest =>
    startsWith keyword previous (c :: rest) || occursAfter keyword (some c) rest

/-- Whether the keyword occurs as a whole word. -/
def occurs (keyword text : Text) : Bool := occursAfter keyword none text

end KernelCensus.Keyword
