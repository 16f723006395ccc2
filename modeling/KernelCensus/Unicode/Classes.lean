import KernelCensus.Unicode.Alphabetic
import KernelCensus.Unicode.Mark
import KernelCensus.Unicode.Number

/-!
# Character classes

The classes that the scanners ask for. On ASCII they are answered without the tables.
-/

namespace KernelCensus.Unicode

/-- Code points with the property White_Space. -/
def whiteSpaceRanges : Ranges :=
  [(0x9, 0xD), (0x20, 0x20), (0x85, 0x85), (0xA0, 0xA0), (0x1680, 0x1680), (0x2000, 0x200A),
   (0x2028, 0x2029), (0x202F, 0x202F), (0x205F, 0x205F), (0x3000, 0x3000)]

/-- Code points in the category Pc (connector punctuation), such as the low line. -/
def connectorRanges : Ranges :=
  [(0x5F, 0x5F), (0x203F, 0x2040), (0x2054, 0x2054), (0xFE33, 0xFE34), (0xFE4D, 0xFE4F),
   (0xFF3F, 0xFF3F)]

/-- Code points with the property Join_Control. -/
def joinControlRanges : Ranges :=
  [(0x200C, 0x200D)]

/-- A character with the property White_Space. -/
def isWhiteSpace (c : Char) : Bool :=
  whiteSpaceRanges.holds c.toNat

/-- A character with the property Alphabetic. -/
def isAlphabetic (c : Char) : Bool :=
  if c.toNat < 128 then c.isAlpha else alphabeticRanges.holds c.toNat

/-- A character in one of the categories of numbers. -/
def isNumeric (c : Char) : Bool :=
  if c.toNat < 128 then c.isDigit else numberRanges.holds c.toNat

/-- A letter or a number of any script. -/
def isAlphanumeric (c : Char) : Bool :=
  isAlphabetic c || isNumeric c

/-- A character of a word: alphabetic, a mark, a decimal digit, connector punctuation or a join
control. Numbers that are neither letters nor decimal digits are no word characters. -/
def isWordChar (c : Char) : Bool :=
  if c.toNat < 128 then c.isAlphanum || c == '_'
  else alphabeticRanges.holds c.toNat || markRanges.holds c.toNat ||
    decimalDigitRanges.holds c.toNat || connectorRanges.holds c.toNat ||
    joinControlRanges.holds c.toNat

end KernelCensus.Unicode
