import KernelCensus.Json.Basic

/-!
# Reading JSON

A text is read as one JSON value with white space around it and nothing else. The reader accepts the
grammar of JSON, at any depth of nesting, and leaves it to the users of a value to ask for more.
-/

namespace KernelCensus.Json

def isSpace (c : Char) : Bool := c == ' ' || c == '\t' || c == '\n' || c == '\r'

def skipSpace (text : Text) : Text := text.dropWhile isSpace

/-- What follows a given start of a text. -/
def after? (start text : Text) : Option Text :=
  if start.isPrefixOf text then some (text.drop start.length) else none

/-! ## Numbers -/

/-- Splits a text after the digits at its start, of which there has to be one. -/
def digits? (text : Text) : Option (Text × Text) :=
  let digits := text.takeWhile Char.isDigit
  if digits.isEmpty then none else some (digits, text.dropWhile Char.isDigit)

/-- Splits a text after the integer part at its start, which has no needless zero. -/
def integer? (text : Text) : Option (Text × Text) :=
  match digits? text with
  | some ('0' :: _ :: _, _) => none
  | other => other

/-- Splits a text after the fraction at its start, which may be missing. -/
def fraction? : Text → Option (Text × Text)
  | '.' :: rest => (digits? rest).map fun parts => ('.' :: parts.1, parts.2)
  | text => some ([], text)

/-- Splits a text after the sign at its start, which may be missing. -/
def exponentSign : Text → Text × Text
  | '+' :: rest => (['+'], rest)
  | '-' :: rest => (['-'], rest)
  | text => ([], text)

/-- Splits a text after the exponent at its start, which may be missing. -/
def exponent? : Text → Option (Text × Text)
  | c :: rest =>
    if c == 'e' || c == 'E' then
      let signed := exponentSign rest
      (digits? signed.2).map fun parts => (c :: signed.1 ++ parts.1, parts.2)
    else some ([], c :: rest)
  | [] => some ([], [])

/-- Splits a text after the unsigned number at its start. -/
def magnitude? (text : Text) : Option (Text × Text) := do
  let (whole, rest) ← integer? text
  let (fraction, rest) ← fraction? rest
  let (exponent, rest) ← exponent? rest
  some (whole ++ fraction ++ exponent, rest)

def number? : Text → Option (Text × Text)
  | '-' :: rest => (magnitude? rest).map fun parts => ('-' :: parts.1, parts.2)
  | text => magnitude? text

/-! ## Strings -/

def hexDigit? (c : Char) : Option Nat :=
  if c.isDigit then some (c.toNat - '0'.toNat)
  else if 'a' ≤ c ∧ c ≤ 'f' then some (c.toNat - 'a'.toNat + 10)
  else if 'A' ≤ c ∧ c ≤ 'F' then some (c.toNat - 'A'.toNat + 10)
  else none

def hexCode? (a b c d : Char) : Option Nat := do
  some (((← hexDigit? a) * 16 + (← hexDigit? b)) * 256 + ((← hexDigit? c) * 16 + (← hexDigit? d)))

/-- The character that a short escape stands for. -/
def shortEscape? : Char → Option Char
  | '"' => some '"'
  | '\\' => some '\\'
  | '/' => some '/'
  | 'b' => some '\x08'
  | 'f' => some '\x0c'
  | 'n' => some '\n'
  | 'r' => some '\r'
  | 't' => some '\t'
  | _ => none

/-- Reads a string after its opening quote: the codes in it, which may be halves of surrogate pairs,
and the text after its closing quote. -/
def codes? : Text → Option (List Nat × Text)
  | '"' :: rest => some ([], rest)
  | '\\' :: 'u' :: a :: b :: c :: d :: rest =>
    match hexCode? a b c d with
    | some code => (codes? rest).map fun parts => (code :: parts.1, parts.2)
    | none => none
  | '\\' :: c :: rest =>
    match shortEscape? c with
    | some escaped => (codes? rest).map fun parts => (escaped.toNat :: parts.1, parts.2)
    | none => none
  | c :: rest =>
    if c.toNat < 0x20 then none
    else (codes? rest).map fun parts => (c.toNat :: parts.1, parts.2)
  | [] => none

/-- Whether a code is the first half of a surrogate pair. -/
def isHighSurrogate (code : Nat) : Bool := 0xD800 ≤ code && code ≤ 0xDBFF

/-- Whether a code is the second half of a surrogate pair. -/
def isLowSurrogate (code : Nat) : Bool := 0xDC00 ≤ code && code ≤ 0xDFFF

/-- The code that a surrogate pair stands for. -/
def joinSurrogates (high low : Nat) : Nat := 0x10000 + (high - 0xD800) * 0x400 + (low - 0xDC00)

/-- The text that codes denote, unless a half of a surrogate pair stands alone. -/
def textOfCodes? : List Nat → Option Text
  | [] => some []
  | [code] =>
    if isHighSurrogate code || isLowSurrogate code then none else some [Char.ofNat code]
  | code :: next :: rest =>
    if isHighSurrogate code then
      if isLowSurrogate next then
        (textOfCodes? rest).map (Char.ofNat (joinSurrogates code next) :: ·)
      else none
    else if isLowSurrogate code then none
    else (textOfCodes? (next :: rest)).map (Char.ofNat code :: ·)

/-- Reads a string after its opening quote. -/
def content? (text : Text) : Option (Option Text × Text) :=
  (codes? text).map fun parts => (textOfCodes? parts.1, parts.2)

/-! ## Values -/

mutual

/-- Reads the value at the start of a text, white space before it aside, within `fuel` steps. -/
def value? : Nat → Text → Option (Json × Text)
  | 0, _ => none
  | fuel + 1, text =>
    match skipSpace text with
    | 'n' :: rest => (after? "ull" rest).map (null, ·)
    | 't' :: rest => (after? "rue" rest).map (bool true, ·)
    | 'f' :: rest => (after? "alse" rest).map (bool false, ·)
    | '"' :: rest => (content? rest).map fun parts => (string parts.1, parts.2)
    | '[' :: rest =>
      match skipSpace rest with
      | ']' :: rest => some (array [], rest)
      | rest => (items? fuel rest).map fun parts => (array parts.1, parts.2)
    | '\x7b' :: rest =>
      match skipSpace rest with
      | '\x7d' :: rest => some (object [], rest)
      | rest => (members? fuel rest).map fun parts => (object parts.1, parts.2)
    | text => (number? text).map fun parts => (number parts.1, parts.2)

/-- Reads the items of an array, of which there is at least one, and its end. -/
def items? : Nat → Text → Option (List Json × Text)
  | 0, _ => none
  | fuel + 1, text =>
    match value? fuel text with
    | none => none
    | some (item, rest) =>
      match skipSpace rest with
      | ']' :: rest => some ([item], rest)
      | ',' :: rest => (items? fuel rest).map fun parts => (item :: parts.1, parts.2)
      | _ => none

/-- Reads the members of an object, of which there is at least one, and its end. -/
def members? : Nat → Text → Option (List (Option Text × Json) × Text)
  | 0, _ => none
  | fuel + 1, text =>
    match skipSpace text with
    | '"' :: rest =>
      match content? rest with
      | none => none
      | some (key, rest) =>
        match skipSpace rest with
        | ':' :: rest =>
          match value? fuel rest with
          | none => none
          | some (value, rest) =>
            match skipSpace rest with
            | '\x7d' :: rest => some ([(key, value)], rest)
            | ',' :: rest =>
              (members? fuel rest).map fun parts => ((key, value) :: parts.1, parts.2)
            | _ => none
        | _ => none
    | _ => none

end

/-- Reads a text as a JSON value. No step reads less than one character, so the length of the text
bounds their number, two for each character. -/
def parse? (text : Text) : Option Json :=
  match value? (2 * text.length + 2) text with
  | some (value, rest) => if (skipSpace rest).isEmpty then some value else none
  | none => none

end KernelCensus.Json
