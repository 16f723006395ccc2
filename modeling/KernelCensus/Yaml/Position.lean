import KernelCensus.Text.Basic

/-!
# Positions in a YAML text

YAML is read by line and column. A position is the text that is left together with the place where
it starts.
-/

namespace KernelCensus.Yaml

/-- A space or a tab. -/
def isBlank (c : Char) : Bool := c == ' ' || c == '\t'

/-- A character that ends a line. -/
def isBreak (c : Char) : Bool :=
  c == '\r' || c == '\n' || c == '\u0085' || c == '\u2028' || c == '\u2029'

/-- A character that may stand in names of anchors and directives. -/
def isWord (c : Char) : Bool := c.isAlphanum || c == '_' || c == '-'

/-- A character that may stand in a YAML text. -/
def isAllowed (c : Char) : Bool :=
  c == '\t' || c == '\n' || c == '\r' || (' ' ≤ c && c ≤ '~') || c == '\u0085'
    || ('\u00A0' ≤ c && c ≤ '\uFFFD') || 0x10000 ≤ c.toNat

/-- Whether a text is at its end, or at a blank or a line break. -/
def atGap : Text → Bool
  | [] => true
  | c :: _ => isBlank c || isBreak c

/-- A place in a text and what is left from there. -/
structure Position where
  rest : Text
  /-- How many characters come before. -/
  index : Nat
  /-- How many lines come before. -/
  line : Nat
  /-- How many characters of the line come before. -/
  column : Nat
deriving Repr, DecidableEq

namespace Position

def start (text : Text) : Position := ⟨text, 0, 0, 0⟩

def advance (at_ : Position) (count : Nat) : Position :=
  { at_ with
    rest := at_.rest.drop count
    index := at_.index + count
    column := at_.column + count }

/-- The position after the characters of a class. -/
def skipWhile (at_ : Position) (p : Char → Bool) : Position :=
  at_.advance (at_.rest.takeWhile p).length

/-- The position after a comment, if there is one. -/
def skipComment (at_ : Position) : Position :=
  match at_.rest with
  | '#' :: _ => at_.skipWhile fun c => !isBreak c
  | _ => at_

/-- The position after the line break at hand, and the break as it stands in a scalar. -/
def readBreak (at_ : Position) : Text × Position :=
  let next (count : Nat) (rest : Text) : Position := ⟨rest, at_.index + count, at_.line + 1, 0⟩
  match at_.rest with
  | '\r' :: '\n' :: rest => (['\n'], next 2 rest)
  | c :: rest =>
    if c == '\u2028' || c == '\u2029' then ([c], next 1 rest)
    else if isBreak c then (['\n'], next 1 rest)
    else ([], at_)
  | [] => ([], at_)

def atBreak (at_ : Position) : Bool := at_.rest.head?.any isBreak

/-- Whether the mark `---` or `...` of documents is at hand. -/
def atDocumentMark (at_ : Position) : Bool :=
  at_.column == 0 &&
    match at_.rest with
    | '-' :: '-' :: '-' :: rest => atGap rest
    | '.' :: '.' :: '.' :: rest => atGap rest
    | _ => false

end Position

end KernelCensus.Yaml
