import KernelCensus.Text.Utf8
import KernelCensus.Yaml.Scalar

/-!
# YAML tags

A tag is written in full between `!<` and `>`, or short, as a handle and a suffix. A handle stands
for the start of a tag, which a directive may set. Bytes of a tag may be written as `%` and two
hexadecimal digits.
-/

namespace KernelCensus.Yaml

/-- A character that may stand in a tag, written in full or short. -/
def isTagSign (full : Bool) (c : Char) : Bool :=
  isWord c || ";/?:@&=+$.%!~*'()".toList.contains c || (full && ",[]".toList.contains c)

/-- The bytes of a tag, with those that are written in hexadecimal. -/
def tagBytes? : Text → Option Bytes
  | [] => some []
  | '%' :: rest =>
    match rest with
    | high :: low :: rest => do
      let byte := UInt8.ofNat ((← hexDigit? high) * 16 + (← hexDigit? low))
      (tagBytes? rest).map fun bytes => byte :: bytes
    | _ => none
  | c :: rest => (tagBytes? rest).map fun bytes => Utf8.encode [c] ++ bytes

/-- Reads the characters of a tag at a position, possibly none. -/
def tagText? (full : Bool) (at_ : Position) : Option (Text × Position) := do
  let written := at_.rest.takeWhile (isTagSign full)
  let text ← (tagBytes? written).bind Utf8.decode?
  some (text, at_.advance written.length)

/-- A tag as written. -/
structure TagName where
  /-- The handle, empty for a tag in full. -/
  handle : Text
  suffix : Text
deriving Repr, DecidableEq

/-- Reads the tag at a position that holds an exclamation mark. -/
def TagName.read? (at_ : Position) : Option (TagName × Position) :=
  match at_.rest.drop 1 with
  | '<' :: _ => do
    let (text, next) ← tagText? true (at_.advance 2)
    if text.isEmpty || next.rest.head? != some '>' then none
    else some (⟨[], text⟩, next.advance 1)
  | rest => do
    let word := rest.takeWhile isWord
    let next := at_.advance (word.length + 1)
    if next.rest.head? == some '!' then
      let (suffix, next) ← tagText? false (next.advance 1)
      if suffix.isEmpty then none else some (⟨'!' :: word ++ ['!'], suffix⟩, next)
    else
      let (tail, next) ← tagText? false next
      let suffix := word ++ tail
      some (if suffix.isEmpty then ⟨[], ['!']⟩ else ⟨['!'], suffix⟩, next)

/-- What handles stand for, newest first. -/
abbrev Handles := List (Text × Text)

/-- The handles that need no directive. -/
def Handles.default : Handles := [(['!'], ['!']), (['!', '!'], "tag:yaml.org,2002:")]

/-- The whole tag. Its handle has to be known. -/
def TagName.resolve? (handles : Handles) (name : TagName) : Option Text :=
  if name.handle.isEmpty then some name.suffix
  else (handles.lookup name.handle).map fun start => start ++ name.suffix

def nullTag : Text := "tag:yaml.org,2002:null"

end KernelCensus.Yaml
