import KernelCensus.Number.Natural
import KernelCensus.Yaml.Tag

/-!
# YAML tokens

A YAML text is a list of tokens. Blocks are told by the columns in which their lines start, so the
start and the end of a block are tokens too, without characters of their own. The key of a mapping
shows only at the colon behind it: until then every token at which a key may start is remembered
with its place in the list, and the colon puts the missing tokens there.
-/

namespace KernelCensus.Yaml

/-- A lexical unit of a YAML text. -/
inductive Token
  | version
  | handle (handle start : Text)
  | documentStart
  | documentEnd
  | blockSequence
  | blockMapping
  | blockEnd
  | item
  | openSequence
  | closeSequence
  | openMapping
  | closeMapping
  | comma
  /-- What comes next is the key of an entry. -/
  | key
  | value
  | aliasTo (name : Text)
  | anchor (name : Text)
  | tag (name : TagName)
  | scalar (text : Text) (isPlain : Bool)
deriving Repr, DecidableEq

/-- A token that may turn out to be a key. -/
structure PossibleKey where
  at_ : Position
  /-- How many tokens come before it. -/
  before : Nat
  /-- Whether nothing but a key may stand there. -/
  isRequired : Bool

/-- A text that is read in part. -/
structure Lexer where
  at_ : Position
  /-- The tokens so far, newest first. -/
  tokens : List Token
  /-- The columns of the open blocks, innermost first. -/
  blocks : List Nat
  /-- The last token that may be a key inside the innermost brackets. -/
  key : Option PossibleKey
  /-- The same for the brackets around them, innermost first. -/
  outerKeys : List (Option PossibleKey)
  keyAllowed : Bool

namespace Lexer

def start (text : Text) : Lexer := ⟨.start text, [], [], none, [], true⟩

def inBrackets (lexer : Lexer) : Bool := !lexer.outerKeys.isEmpty

def emit (lexer : Lexer) (token : Token) : Lexer := { lexer with tokens := token :: lexer.tokens }

def goTo (lexer : Lexer) (at_ : Position) : Lexer := { lexer with at_ }

def advance (lexer : Lexer) (count : Nat) : Lexer := lexer.goTo (lexer.at_.advance count)

/-- Says whether a key may start next. -/
def allowKey (lexer : Lexer) (keyAllowed : Bool) : Lexer := { lexer with keyAllowed }

/-! ## Keys -/

/-- How many characters a key may have. -/
def keyLimit : Nat := 1024

/-- Whether a key that starts at a position cannot reach another. A key has one line. -/
def isExpired (now : Position) (key : PossibleKey) : Bool :=
  key.at_.line < now.line || key.at_.index + keyLimit < now.index

/-- What is left of a possible key at a position. A required key must not expire. -/
def expireKey? (now : Position) : Option PossibleKey → Option (Option PossibleKey)
  | none => some none
  | some key => if isExpired now key then (if key.isRequired then none else some none) else some key

/-- Forgets the keys that the position is out of reach for. -/
def expireKeys? (lexer : Lexer) : Option Lexer := do
  let key ← expireKey? lexer.at_ lexer.key
  let outerKeys ← lexer.outerKeys.mapM (expireKey? lexer.at_)
  some { lexer with key, outerKeys }

/-- Forgets the innermost possible key. A required key must not be forgotten. -/
def dropKey? (lexer : Lexer) : Option Lexer :=
  if lexer.key.any PossibleKey.isRequired then none else some { lexer with key := none }

/-- Remembers that the next token may be a key, if one is allowed. It has to be one if it starts in
the column of the innermost block. -/
def offerKey? (lexer : Lexer) : Option Lexer :=
  if lexer.keyAllowed then do
    let isRequired := !lexer.inBrackets && lexer.blocks.head? == some lexer.at_.column
    let lexer ← lexer.dropKey?
    some { lexer with key := some ⟨lexer.at_, lexer.tokens.length, isRequired⟩ }
  else some lexer

/-! ## Blocks -/

/-- Ends the blocks that start in a column or right of it. Inside brackets there are no blocks. -/
def closeBlocks (lexer : Lexer) (column : Nat) : Lexer :=
  if lexer.inBrackets then lexer
  else
    let closed := lexer.blocks.takeWhile (column ≤ ·)
    { lexer with
      tokens := closed.map (fun _ => Token.blockEnd) ++ lexer.tokens
      blocks := lexer.blocks.drop closed.length }

/-- Whether a line in a column starts a block. -/
def opensBlock (lexer : Lexer) (column : Nat) : Bool :=
  !lexer.inBrackets && lexer.blocks.head?.all (· < column)

/-- Starts a block at the position, unless it is open already. -/
def openBlock (lexer : Lexer) (token : Token) : Lexer :=
  if lexer.opensBlock lexer.at_.column then
    { lexer.emit token with blocks := lexer.at_.column :: lexer.blocks }
  else lexer

/-- Starts a block for a sign that needs a place where a key is allowed, brackets aside. -/
def openBlockFor? (lexer : Lexer) (token : Token) : Option Lexer :=
  if lexer.inBrackets then some lexer
  else if lexer.keyAllowed then some (lexer.openBlock token)
  else none

/-- Puts the tokens before a possible key that show it to be one. -/
def insertKey (lexer : Lexer) (key : PossibleKey) : Lexer :=
  let newer := lexer.tokens.length - key.before
  let opens := lexer.opensBlock key.at_.column
  { lexer with
    tokens := lexer.tokens.take newer ++
      Token.key :: (if opens then [Token.blockMapping] else []) ++ lexer.tokens.drop newer
    blocks := if opens then key.at_.column :: lexer.blocks else lexer.blocks
    key := none }

/-! ## Directives and documents -/

/-- Ends all blocks, as directives and document marks do. -/
def closeDocument? (lexer : Lexer) : Option Lexer := do
  let lexer ← (lexer.closeBlocks 0).dropKey?
  some (lexer.allowKey false)

/-- Reads a mark of three characters. -/
def documentMark? (lexer : Lexer) (token : Token) : Option Lexer := do
  let lexer ← lexer.closeDocument?
  some ((lexer.advance 3).emit token)

def versionNumber? (at_ : Position) : Option (Nat × Position) :=
  let digits := at_.rest.takeWhile Char.isDigit
  if digits.isEmpty || 9 < digits.length then none
  else some (Natural.ofDigits digits, at_.advance digits.length)

/-- Reads a version. It has to be 1.1 or 1.2. -/
def version? (at_ : Position) : Option (Token × Position) := do
  let (major, next) ← versionNumber? at_
  if next.rest.head? != some '.' then none
  let (minor, next) ← versionNumber? (next.advance 1)
  if major = 1 ∧ (minor = 1 ∨ minor = 2) then some (.version, next) else none

def handle? (at_ : Position) : Option (Token × Position) := do
  if at_.rest.head? != some '!' then none
  let word := (at_.rest.drop 1).takeWhile isWord
  let next := at_.advance (word.length + 1)
  let isClosed := next.rest.head? == some '!'
  if !isClosed && !word.isEmpty then none
  let next := if isClosed then next.advance 1 else next
  if !next.rest.head?.any isBlank then none
  let (start, next) ← tagText? true (next.skipWhile isBlank)
  if start.isEmpty || !atGap next.rest then none
  some (.handle ('!' :: word ++ if isClosed then ['!'] else []) start, next)

def directiveAt? (at_ : Position) : Option (Token × Position) := do
  let name := at_.rest.takeWhile isWord
  let next := at_.advance name.length
  if !atGap next.rest then none
  let next := next.skipWhile isBlank
  let (token, next) ←
    if name = "YAML".toList then version? next
    else if name = "TAG".toList then handle? next
    else none
  let next := (next.skipWhile isBlank).skipComment
  if next.rest.isEmpty || next.atBreak then some (token, next.readBreak.2) else none

def directive? (lexer : Lexer) : Option Lexer := do
  let lexer ← lexer.closeDocument?
  let (token, next) ← directiveAt? (lexer.at_.advance 1)
  some ((lexer.goTo next).emit token)

/-! ## Brackets and signs -/

def open? (lexer : Lexer) (token : Token) : Option Lexer := do
  let lexer ← lexer.offerKey?
  some { (lexer.advance 1).emit token with
    key := none, outerKeys := lexer.key :: lexer.outerKeys, keyAllowed := true }

/-- Reads a closing bracket. One too many is left for the reader of tokens to reject. -/
def close? (lexer : Lexer) (token : Token) : Option Lexer := do
  let lexer ← lexer.dropKey?
  let lexer := ((lexer.advance 1).emit token).allowKey false
  match lexer.outerKeys with
  | [] => some lexer
  | key :: outerKeys => some { lexer with key, outerKeys }

def comma? (lexer : Lexer) : Option Lexer := do
  let lexer ← lexer.dropKey?
  some (((lexer.advance 1).emit .comma).allowKey true)

def item? (lexer : Lexer) : Option Lexer := do
  let lexer ← (← lexer.openBlockFor? .blockSequence).dropKey?
  some (((lexer.advance 1).emit .item).allowKey true)

def key? (lexer : Lexer) : Option Lexer := do
  let lexer ← (← lexer.openBlockFor? .blockMapping).dropKey?
  some (((lexer.advance 1).emit .key).allowKey !lexer.inBrackets)

def value? (lexer : Lexer) : Option Lexer := do
  let next ← match lexer.key with
    | some key => some ((lexer.insertKey key).allowKey false)
    | none => (lexer.openBlockFor? .blockMapping).map fun next => next.allowKey !next.inBrackets
  some ((next.advance 1).emit .value)

/-! ## Names, tags and scalars -/

/-- Reads the name of an anchor or an alias, after its sign. -/
def anchorName? (at_ : Position) : Option (Text × Position) :=
  let name := at_.rest.takeWhile isWord
  let next := at_.advance name.length
  let isEnded := atGap next.rest || next.rest.head?.any "?:,]\x7d%@\x60".toList.contains
  if name.isEmpty || !isEnded then none else some (name, next)

def anchor? (lexer : Lexer) (token : Text → Token) : Option Lexer := do
  let lexer ← lexer.offerKey?
  let (name, next) ← anchorName? (lexer.at_.advance 1)
  some (((lexer.goTo next).emit (token name)).allowKey false)

def tag? (lexer : Lexer) : Option Lexer := do
  let lexer ← lexer.offerKey?
  let (name, next) ← TagName.read? lexer.at_
  if atGap next.rest || (lexer.inBrackets && next.rest.head? == some ',') then
    some (((lexer.goTo next).emit (.tag name)).allowKey false)
  else none

def block? (lexer : Lexer) (folded : Bool) : Option Lexer := do
  let lexer ← lexer.dropKey?
  let (text, next) ← Yaml.block? folded lexer.blocks.head? (lexer.at_.advance 1)
  some (((lexer.goTo next).emit (.scalar text false)).allowKey true)

def quoted? (lexer : Lexer) (double : Bool) : Option Lexer := do
  let lexer ← lexer.offerKey?
  let (text, next) ← Yaml.quoted? double lexer.at_
  some (((lexer.goTo next).emit (.scalar text false)).allowKey false)

/-- Reads a plain scalar. A key may follow if it ended with its line. -/
def plain? (lexer : Lexer) : Option Lexer := do
  let lexer ← lexer.offerKey?
  let indent := lexer.blocks.head?.elim 0 (· + 1)
  let (text, endsLine, next) ← Yaml.plain? lexer.inBrackets indent lexer.at_
  some (((lexer.goTo next).emit (.scalar text true)).allowKey endsLine)

/-- Whether a plain scalar may start with `c`, before `rest`. -/
def startsPlain (lexer : Lexer) (c : Char) (rest : Text) : Bool :=
  !("-?:,[]\x7b\x7d#&*!|>'\"%@\x60".toList.contains c)
    || (c == '-' && !rest.head?.any isBlank)
    || (!lexer.inBrackets && (c == '?' || c == ':') && !atGap rest)

/-! ## The whole text -/

/-- Skips blanks, comments and line breaks. Outside brackets a tab is skipped only where no key may
start. -/
def skipGap : Nat → Lexer → Lexer
  | 0, lexer => lexer
  | fuel + 1, lexer =>
    let tabs := lexer.inBrackets || !lexer.keyAllowed
    let at_ :=
      if lexer.at_.index = 0 ∧ lexer.at_.rest.head? = some '\uFEFF' then lexer.at_.advance 1
      else lexer.at_
    let at_ := (at_.skipWhile fun c => c == ' ' || (tabs && c == '\t')).skipComment
    if at_.atBreak then
      skipGap fuel { lexer with
        at_ := at_.readBreak.2, keyAllowed := lexer.keyAllowed || !lexer.inBrackets }
    else lexer.goTo at_

/-- Reads the token at a position that holds `c` before `rest`. -/
def token? (lexer : Lexer) (c : Char) (rest : Text) : Option Lexer :=
  if c == '%' && lexer.at_.column == 0 then lexer.directive?
  else if lexer.at_.atDocumentMark then
    lexer.documentMark? (if c == '-' then .documentStart else .documentEnd)
  else if c == '[' then lexer.open? .openSequence
  else if c == '\x7b' then lexer.open? .openMapping
  else if c == ']' then lexer.close? .closeSequence
  else if c == '\x7d' then lexer.close? .closeMapping
  else if c == ',' then lexer.comma?
  else if c == '-' && atGap rest then lexer.item?
  else if c == '?' && (lexer.inBrackets || atGap rest) then lexer.key?
  else if c == ':' && (lexer.inBrackets || atGap rest) then lexer.value?
  else if c == '*' then lexer.anchor? .aliasTo
  else if c == '&' then lexer.anchor? .anchor
  else if c == '!' then lexer.tag?
  else if c == '|' && !lexer.inBrackets then lexer.block? false
  else if c == '>' && !lexer.inBrackets then lexer.block? true
  else if c == '\'' then lexer.quoted? false
  else if c == '"' then lexer.quoted? true
  else if lexer.startsPlain c rest then lexer.plain?
  else none

/-- Reads on up to the end of the text. Every step but the last takes a character. -/
def run? : Nat → Lexer → Option (List Token)
  | 0, _ => none
  | fuel + 1, lexer => do
    let lexer ← (skipGap lexer.at_.rest.length.succ lexer).expireKeys?
    let lexer := lexer.closeBlocks (lexer.at_.column + 1)
    match lexer.at_.rest with
    | [] => (lexer.closeDocument?).map fun lexer => lexer.tokens.reverse
    | c :: rest => run? fuel (← lexer.token? c rest)

end Lexer

/-- The tokens of a text, if it is one of YAML. -/
def Token.ofText? (text : Text) : Option (List Token) :=
  if text.all isAllowed then (Lexer.start text).run? (text.length + 1) else none

end KernelCensus.Yaml
