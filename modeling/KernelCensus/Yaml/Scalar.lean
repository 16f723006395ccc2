import KernelCensus.Yaml.Position

/-!
# YAML scalars

A scalar is written plain, in quotes, or as a block of lines. Line breaks inside plain and quoted
scalars are folded: a single break becomes a space, and of several breaks the first is dropped.
Each reader answers the text of the scalar and the position after it.
-/

namespace KernelCensus.Yaml

/-! ## Gaps between the words of a scalar -/

/-- The blanks and line breaks between two words of a scalar. -/
structure Gap where
  blanks : Text
  first : Option Text
  others : Text
deriving Repr, DecidableEq

namespace Gap

def none : Gap := ⟨[], Option.none, []⟩

/-- The gap that starts with an escaped line break, which leaves no trace. -/
def escaped : Gap := ⟨[], some [], []⟩

/-- What a gap becomes in the text of the scalar. -/
def fold (gap : Gap) : Text :=
  match gap.first with
  | Option.none => gap.blanks
  | some first =>
    if first == ['\n'] then (if gap.others.isEmpty then [' '] else gap.others)
    else first ++ gap.others

def hasBreak (gap : Gap) : Bool := gap.first.isSome

/-- Reads on in a gap. A tab must not stand before column `indent` of a line after the first. -/
def read? (indent : Nat) : Nat → Gap → Position → Option (Gap × Position)
  | 0, gap, at_ => some (gap, at_)
  | fuel + 1, gap, at_ =>
    match at_.rest with
    | [] => some (gap, at_)
    | c :: _ =>
      if isBlank c then
        if gap.hasBreak then
          if c == '\t' && at_.column < indent then Option.none
          else read? indent fuel gap (at_.advance 1)
        else read? indent fuel { gap with blanks := gap.blanks ++ [c] } (at_.advance 1)
      else if isBreak c then
        let (text, next) := at_.readBreak
        match gap.first with
        | Option.none => read? indent fuel { gap with blanks := [], first := some text } next
        | some _ => read? indent fuel { gap with others := gap.others ++ text } next
      else some (gap, at_)

end Gap

/-! ## Plain scalars -/

/-- The characters that end a plain scalar inside brackets. -/
def isFlowSign (c : Char) : Bool := [',', '[', ']', '\x7b', '\x7d'].contains c

/-- Splits a text after the word of a plain scalar at its start, inside brackets or not. Inside
brackets a colon must not stand before one of the signs of brackets. -/
def plainWord? (flow : Bool) : Text → Option (Text × Text)
  | [] => some ([], [])
  | c :: rest =>
    if isBlank c || isBreak c then some ([], c :: rest)
    else if flow && c == ':' && rest.head?.any (fun d => isFlowSign d || d == '?') then none
    else if (c == ':' && atGap rest) || (flow && isFlowSign c) then some ([], c :: rest)
    else (plainWord? flow rest).map fun parts => (c :: parts.1, parts.2)

/-- Reads the words of a plain scalar from the one at hand on. `text` was read so far, and `gap`
comes before the word. The answer tells whether the scalar ends with a line break. -/
def plainFrom? (flow : Bool) (indent : Nat) :
    Nat → Text → Gap → Position → Option (Text × Bool × Position)
  | 0, text, gap, at_ => some (text, gap.hasBreak, at_)
  | fuel + 1, text, gap, at_ =>
    if at_.atDocumentMark || at_.rest.head? == some '#' then some (text, gap.hasBreak, at_)
    else do
      let (word, rest) ← plainWord? flow at_.rest
      let next := at_.advance word.length
      let read := if word.isEmpty then text else text ++ gap.fold ++ word
      let before := if word.isEmpty then gap else Gap.none
      if rest.isEmpty || !atGap rest then some (read, before.hasBreak, next)
      else
        let (gap, next) ← before.read? indent next.rest.length next
        if !flow && next.column < indent then some (read, gap.hasBreak, next)
        else plainFrom? flow indent fuel read gap next

/-- Reads a plain scalar. Outside brackets its lines have to start at column `indent` or later. -/
def plain? (flow : Bool) (indent : Nat) (at_ : Position) : Option (Text × Bool × Position) :=
  plainFrom? flow indent (at_.rest.length + 1) [] Gap.none at_

/-! ## Quoted scalars -/

def hexDigit? (c : Char) : Option Nat :=
  if c.isDigit then some (c.toNat - '0'.toNat)
  else if 'a' ≤ c ∧ c ≤ 'f' then some (c.toNat - 'a'.toNat + 10)
  else if 'A' ≤ c ∧ c ≤ 'F' then some (c.toNat - 'A'.toNat + 10)
  else none

/-- The character that an escape of one letter stands for. -/
def escape? : Char → Option Char
  | '0' => some '\x00'
  | 'a' => some '\x07'
  | 'b' => some '\x08'
  | 't' => some '\t'
  | '\t' => some '\t'
  | 'n' => some '\n'
  | 'v' => some '\x0b'
  | 'f' => some '\x0c'
  | 'r' => some '\r'
  | 'e' => some '\x1b'
  | ' ' => some ' '
  | '"' => some '"'
  | '/' => some '/'
  | '\\' => some '\\'
  | 'N' => some '\u0085'
  | '_' => some '\u00A0'
  | 'L' => some '\u2028'
  | 'P' => some '\u2029'
  | _ => none

/-- How many hexadecimal digits follow the letter of an escape. -/
def escapeDigits? : Char → Option Nat
  | 'x' => some 2
  | 'u' => some 4
  | 'U' => some 8
  | _ => none

/-- The character with a code, unless the code is none of a character. -/
def charOfCode? (code : Nat) : Option Char :=
  if code.isValidChar then some (Char.ofNat code) else none

/-- The word of a quoted scalar at the start of a text, and what follows it. A word ends at a
blank, at a line break, even an escaped one, and at the closing quote. `pending` are the digits of
an escape that are still to come, and `code` is what they amount to so far. -/
def quotedWord? (double : Bool) : Nat → Nat → Text → Option (Text × Text)
  | 0, _, [] => some ([], [])
  | 0, _, c :: rest =>
    if isBlank c || isBreak c then some ([], c :: rest)
    else if double then
      if c == '"' then some ([], c :: rest)
      else if c == '\\' then
        match rest with
        | [] => none
        | d :: tail =>
          if isBreak d then some ([], c :: rest)
          else match escapeDigits? d with
            | some count => quotedWord? double count 0 tail
            | none =>
              match escape? d with
              | some escaped =>
                (quotedWord? double 0 0 tail).map fun parts => (escaped :: parts.1, parts.2)
              | none => none
      else (quotedWord? double 0 0 rest).map fun parts => (c :: parts.1, parts.2)
    else if c == '\'' then
      match rest with
      | '\'' :: tail => (quotedWord? double 0 0 tail).map fun parts => ('\'' :: parts.1, parts.2)
      | _ => some ([], c :: rest)
    else (quotedWord? double 0 0 rest).map fun parts => (c :: parts.1, parts.2)
  | _ + 1, _, [] => none
  | pending + 1, code, c :: rest =>
    match hexDigit? c with
    | none => none
    | some digit =>
      if pending = 0 then
        match charOfCode? (code * 16 + digit) with
        | some read => (quotedWord? double 0 0 rest).map fun parts => (read :: parts.1, parts.2)
        | none => none
      else quotedWord? double pending (code * 16 + digit) rest

/-- Reads a quoted scalar from a position within it. `text` was read so far. -/
def quotedFrom? (double : Bool) : Nat → Text → Position → Option (Text × Position)
  | 0, _, _ => none
  | fuel + 1, text, at_ =>
    if at_.atDocumentMark || at_.rest.isEmpty then none
    else do
      let (word, rest) ← quotedWord? double 0 0 at_.rest
      let next := at_.advance (at_.rest.length - rest.length)
      match rest with
      | [] => none
      | c :: _ =>
        if c == '\\' then
          let (gap, next) ← Gap.escaped.read? 0 next.rest.length (next.advance 1).readBreak.2
          quotedFrom? double fuel (text ++ word ++ gap.fold) next
        else if isBlank c || isBreak c then
          let (gap, next) ← Gap.none.read? 0 next.rest.length next
          quotedFrom? double fuel (text ++ word ++ gap.fold) next
        else some (text ++ word, next.advance 1)

def quoted? (double : Bool) (at_ : Position) : Option (Text × Position) :=
  quotedFrom? double (at_.rest.length + 1) [] (at_.advance 1)

/-! ## Block scalars -/

/-- What happens to the line breaks at the end of a block. -/
inductive Chomping
  | strip
  | clip
  | keep
deriving Repr, DecidableEq

def Chomping.ofSign? : Char → Option Chomping
  | '-' => some strip
  | '+' => some keep
  | _ => none

/-- The header of a block: the chomping, and how far the block is indented, if that is given. -/
structure BlockHeader where
  chomping : Chomping
  /-- The indentation against the surrounding block. -/
  increment : Option Nat
deriving Repr, DecidableEq

/-- The indentation that a digit gives. Zero is none. -/
def incrementOf? (c : Char) : Option Nat :=
  if c.isDigit && c != '0' then some (c.toNat - '0'.toNat) else none

/-- The header at the start of a text, and its length. -/
def blockHeader : Text → BlockHeader × Nat
  | c :: d :: _ =>
    match Chomping.ofSign? c, incrementOf? c with
    | some chomping, _ =>
      match incrementOf? d with
      | some increment => (⟨chomping, some increment⟩, 2)
      | none => (⟨chomping, none⟩, 1)
    | none, some increment =>
      match Chomping.ofSign? d with
      | some chomping => (⟨chomping, some increment⟩, 2)
      | none => (⟨.clip, some increment⟩, 1)
    | none, none => (⟨.clip, none⟩, 0)
  | [c] =>
    match Chomping.ofSign? c, incrementOf? c with
    | some chomping, _ => (⟨chomping, none⟩, 1)
    | none, some increment => (⟨.clip, some increment⟩, 1)
    | none, none => (⟨.clip, none⟩, 0)
  | [] => (⟨.clip, none⟩, 0)

/-- Reads the empty lines before a line of a block, and the indentation of that line. `indent` is
the indentation of the block, if it is known already; `deepest` is the greatest one seen so far.
The answer has the line breaks, the greatest indentation and the position. -/
def blockBreaks? (indent : Option Nat) :
    Nat → Text → Nat → Position → Option (Text × Nat × Position)
  | 0, breaks, deepest, at_ => some (breaks, deepest, at_)
  | fuel + 1, breaks, deepest, at_ =>
    let spaces := (at_.rest.takeWhile (· == ' ')).length
    let next := at_.advance (match indent with
      | some indent => min spaces (indent - at_.column)
      | none => spaces)
    let deepest := max deepest next.column
    let inIndentation := match indent with
      | some indent => next.column < indent
      | none => true
    if inIndentation && next.rest.head? == some '\t' then none
    else if next.atBreak then
      let (text, after) := next.readBreak
      blockBreaks? indent fuel (breaks ++ text) deepest after
    else some (breaks, deepest, next)

/-- The lines of a block that were read. -/
structure BlockText where
  text : Text
  lastBreak : Text
  emptyLines : Text
  /-- Whether the last line starts with a blank. -/
  wasIndented : Bool

/-- The text with the breaks before the next line. In a folded block the break between two lines
that do not start with a blank is folded. -/
def BlockText.joined (read : BlockText) (folded isIndented : Bool) : Text :=
  if folded && read.lastBreak == ['\n'] && !read.wasIndented && !isIndented then
    read.text ++ (if read.emptyLines.isEmpty then [' '] else read.emptyLines)
  else read.text ++ read.lastBreak ++ read.emptyLines

/-- Reads the lines of a block with a known indentation. -/
def blockLines? (folded : Bool) (indent : Nat) :
    Nat → BlockText → Position → Option (BlockText × Position)
  | 0, read, at_ => some (read, at_)
  | fuel + 1, read, at_ =>
    if at_.column != indent || at_.rest.isEmpty then some (read, at_)
    else do
      let isIndented := at_.rest.head?.any isBlank
      let line := at_.rest.takeWhile fun c => !isBreak c
      let (lastBreak, next) := (at_.advance line.length).readBreak
      let (emptyLines, _, next) ← blockBreaks? (some indent) next.rest.length.succ [] 0 next
      blockLines? folded indent fuel
        ⟨read.joined folded isIndented ++ line, lastBreak, emptyLines, isIndented⟩ next

def BlockText.chomped (read : BlockText) : Chomping → Text
  | .strip => read.text
  | .clip => read.text ++ read.lastBreak
  | .keep => read.text ++ read.lastBreak ++ read.emptyLines

/-- Reads a block scalar after its sign. `parent` is the indentation of the surrounding block, if
there is one. -/
def block? (folded : Bool) (parent : Option Nat) (at_ : Position) : Option (Text × Position) := do
  let (header, length) := blockHeader at_.rest
  let next := ((at_.advance length).skipWhile isBlank).skipComment
  if !(next.rest.isEmpty || next.atBreak) then none
  else
    let next := next.readBreak.2
    let given := header.increment.map fun increment => parent.getD 0 + increment
    let (breaks, deepest, next) ← blockBreaks? given next.rest.length.succ [] 0 next
    let indent := given.getD (max deepest (parent.elim 1 (· + 1)))
    let (read, next) ← blockLines? folded indent next.rest.length.succ ⟨[], [], breaks, false⟩ next
    some (read.chomped header.chomping, next)

end KernelCensus.Yaml
