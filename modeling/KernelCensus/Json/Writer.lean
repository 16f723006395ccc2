import KernelCensus.Json.Basic

/-!
# Writing JSON

JSON is written in two layouts: compact, without any white space, and pretty, with one item or
member a line, two spaces of indentation a level, and `[]` for an empty array. Strings escape
quotes, backslashes and the control characters below U+0020, and nothing else.
-/

namespace KernelCensus.Json

/-- The lower-case hexadecimal digits of a code below 256, two of them. -/
def hexPair (code : Nat) : Text := [Nat.digitChar (code / 16), Nat.digitChar (code % 16)]

def escapeChar (c : Char) : Text :=
  match c with
  | '"' => ['\\', '"']
  | '\\' => ['\\', '\\']
  | '\x08' => ['\\', 'b']
  | '\x0c' => ['\\', 'f']
  | '\n' => ['\\', 'n']
  | '\r' => ['\\', 'r']
  | '\t' => ['\\', 't']
  | c => if c.toNat < 0x20 then "\\u00".toList ++ hexPair c.toNat else [c]

/-- The string that denotes a text, as written. -/
def quote (content : Text) : Text := '"' :: content.flatMap escapeChar ++ ['"']

/-- A string as written. One that denotes no text is written with the escape of a lone surrogate. -/
def writeString : Option Text → Text
  | some content => quote content
  | none => "\"\\ud800\""

/-! ## Compact layout -/

mutual

def compact : Json → Text
  | null => "null"
  | bool true => "true"
  | bool false => "false"
  | number literal => literal
  | string content => writeString content
  | array [] => "[]"
  | array (item :: items) => '[' :: compact item ++ compactItems items
  | object [] => ['\x7b', '\x7d']
  | object ((key, value) :: members) =>
    '\x7b' :: writeString key ++ ':' :: compact value ++ compactMembers members

/-- The items after the first and the end of their array. -/
def compactItems : List Json → Text
  | [] => [']']
  | item :: items => ',' :: compact item ++ compactItems items

/-- The members after the first and the end of their object. -/
def compactMembers : List (Option Text × Json) → Text
  | [] => ['\x7d']
  | (key, value) :: members =>
    ',' :: writeString key ++ ':' :: compact value ++ compactMembers members

end

/-! ## Pretty layout -/

def newLine (level : Nat) : Text := '\n' :: List.replicate (2 * level) ' '

mutual

/-- A value in the pretty layout, at a level of indentation. -/
def prettyAt : Nat → Json → Text
  | _, null => "null"
  | _, bool true => "true"
  | _, bool false => "false"
  | _, number literal => literal
  | _, string content => writeString content
  | _, array [] => "[]"
  | level, array (item :: items) =>
    '[' :: newLine (level + 1) ++ prettyAt (level + 1) item ++ prettyItems level items
  | _, object [] => ['\x7b', '\x7d']
  | level, object ((key, value) :: members) =>
    '\x7b' :: newLine (level + 1) ++ writeString key ++ ':' :: ' ' ::
      prettyAt (level + 1) value ++ prettyMembers level members

/-- The items after the first and the end of their array, which started at `level`. -/
def prettyItems (level : Nat) : List Json → Text
  | [] => newLine level ++ [']']
  | item :: items =>
    ',' :: newLine (level + 1) ++ prettyAt (level + 1) item ++ prettyItems level items

/-- The members after the first and the end of their object, which started at `level`. -/
def prettyMembers (level : Nat) : List (Option Text × Json) → Text
  | [] => newLine level ++ ['\x7d']
  | (key, value) :: members =>
    ',' :: newLine (level + 1) ++ writeString key ++ ':' :: ' ' ::
      prettyAt (level + 1) value ++ prettyMembers level members

end

def pretty (value : Json) : Text := prettyAt 0 value

end KernelCensus.Json
