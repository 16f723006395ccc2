import KernelCensus.Unicode.Classes

/-!
# Text

All text of the library is a list of characters, so that a law about it is proved by induction on
the characters. This module holds the operations that every other module shares: searching,
trimming, words and lines.
-/

namespace KernelCensus

/-- Text, as the list of its characters. -/
abbrev Text := List Char

instance : Coe String Text := ⟨String.toList⟩

namespace Text

/-- The decimal digits of a number. -/
def ofNat (n : Nat) : Text := Nat.toDigits 10 n

/-- Text with its ASCII letters in lower case. -/
def lowerAscii (text : Text) : Text := text.map Char.toLower

/-! ## Searching -/

/-- What stands before the first occurrence of `needle`, and what stands after it. -/
def cut? (needle : Text) : Text → Option (Text × Text)
  | [] => if needle.isEmpty then some ([], []) else none
  | c :: rest =>
    if needle.isPrefixOf (c :: rest) then some ([], (c :: rest).drop needle.length)
    else (cut? needle rest).map fun parts => (c :: parts.1, parts.2)

/-- Whether `needle` occurs in the text. -/
def contains (needle text : Text) : Bool := (cut? needle text).isSome

/-- The pieces of a text between the occurrences of a character, which may be empty. -/
def splitAt (separator : Char) : Text → List Text
  | [] => [[]]
  | c :: rest =>
    if c = separator then [] :: splitAt separator rest
    else match splitAt separator rest with
      | [] => [[c]]
      | piece :: pieces => (c :: piece) :: pieces

def concat (pieces : List Text) : Text := pieces.flatten

/-- Texts one after another with `separator` between each two. -/
def joinWith (separator : Text) (pieces : List Text) : Text := separator.intercalate pieces

/-! ## Blanks -/

/-- Whether a text has nothing but white space. -/
def isBlank (text : Text) : Bool := text.all Unicode.isWhiteSpace

def trimStart (text : Text) : Text := text.dropWhile Unicode.isWhiteSpace

def trimEnd (text : Text) : Text := (text.reverse.dropWhile Unicode.isWhiteSpace).reverse

def trim (text : Text) : Text := trimEnd (trimStart text)

/-- The words of a text: its longest pieces without white space. -/
def words : Text → List Text
  | [] => []
  | c :: rest =>
    if Unicode.isWhiteSpace c then words rest
    else match rest with
      | [] => [[c]]
      | d :: _ =>
        if Unicode.isWhiteSpace d then [c] :: words rest
        else match words rest with
          | [] => [[c]]
          | word :: others => (c :: word) :: others

/-- Text with its words set one space apart and no white space around them. -/
def squeeze (text : Text) : Text := joinWith [' '] (words text)

/-! ## Lines -/

/-- The lines of a text. A newline ends a line, together with one carriage return right before
it; text after the last newline is a line of its own. -/
def lines : Text → List Text
  | [] => []
  | '\n' :: rest => [] :: lines rest
  | '\r' :: '\n' :: rest => [] :: lines rest
  | c :: rest =>
    match lines rest with
    | [] => [[c]]
    | line :: others => (c :: line) :: others

/-- The text of lines, each ended by a newline. -/
def unlines (lines : List Text) : Text := lines.flatMap fun line => line ++ ['\n']

end Text

end KernelCensus
