import KernelCensus.Yaml.Token

/-!
# YAML nodes

A YAML document is a tree of nodes. An anchor gives a node a number, by which aliases refer to it.
The number of an anchor is how many other names of anchors come before it; if anchors share a
number, aliases mean the last of them.
-/

namespace KernelCensus.Yaml

/-- What may be written before a node. -/
structure Properties where
  anchor : Option Nat
  tag : Option Text
deriving Repr, DecidableEq

namespace Properties

def none : Properties := ⟨Option.none, Option.none⟩

/-- Whether there are no properties. -/
def isEmpty (properties : Properties) : Bool :=
  properties.anchor.isNone && properties.tag.isNone

/-- The properties without a tag that is a bare exclamation mark. -/
def dropBareTag (properties : Properties) : Properties :=
  if properties.tag == some ['!'] then { properties with tag := Option.none } else properties

end Properties

/-- A part of a YAML document. -/
inductive Node
  | aliasTo (anchor : Nat)
  | scalar (properties : Properties) (text : Text) (isPlain : Bool)
  | sequence (properties : Properties) (items : List Node)
  | mapping (properties : Properties) (entries : List (Node × Node))
deriving Repr

namespace Node

/-- The node that is left out in a text. -/
def empty : Node := scalar .none [] true

/-- The number of a node, if it has one. -/
def anchor? : Node → Option Nat
  | aliasTo _ => none
  | scalar properties _ _ => properties.anchor
  | sequence properties _ => properties.anchor
  | mapping properties _ => properties.anchor

/-! ## Aliases -/

mutual

/-- A node and all nodes within it, in the order in which they start. -/
def nodes : Node → List Node
  | aliasTo anchor => [aliasTo anchor]
  | scalar properties text isPlain => [scalar properties text isPlain]
  | sequence properties items => sequence properties items :: nodesOfItems items
  | mapping properties entries => mapping properties entries :: nodesOfEntries entries

def nodesOfItems : List Node → List Node
  | [] => []
  | item :: items => nodes item ++ nodesOfItems items

def nodesOfEntries : List (Node × Node) → List Node
  | [] => []
  | (key, value) :: entries => nodes key ++ nodes value ++ nodesOfEntries entries

end

/-- The last node of a document with a number. -/
def anchored? (document : Node) (anchor : Nat) : Option Node :=
  document.nodes.reverse.find? fun node => node.anchor? == some anchor

/-- What a node of a document means: an alias stands for the node with its number. -/
def target? (document : Node) : Node → Option Node
  | aliasTo anchor => document.anchored? anchor
  | node => some node

end Node

/-! ## Nodes of tokens -/

/-- A list of tokens that is read in part. -/
structure Reader where
  tokens : List Token
  /-- The names of the anchors so far with their numbers, newest first. -/
  anchors : List (Text × Nat)
  handles : Handles

namespace Reader

def goTo (reader : Reader) (tokens : List Token) : Reader := { reader with tokens }

def nextAnchor (reader : Reader) : Nat := (reader.anchors.map (·.1)).eraseDups.length

/-- Reads an anchor, if there is one. -/
def anchor (reader : Reader) : Option Nat × Reader :=
  match reader.tokens with
  | .anchor name :: tokens =>
    (some reader.nextAnchor,
      { reader with tokens, anchors := (name, reader.nextAnchor) :: reader.anchors })
  | _ => (none, reader)

/-- Reads a tag, if there is one. Its handle has to be known. -/
def tag? (reader : Reader) : Option (Option Text × Reader) :=
  match reader.tokens with
  | .tag name :: tokens =>
    (name.resolve? reader.handles).map fun tag => (some tag, reader.goTo tokens)
  | _ => some (none, reader)

/-- Reads the properties of a node, an anchor and a tag in either order. -/
def properties? (reader : Reader) : Option (Properties × Reader) :=
  match reader.tokens with
  | .tag _ :: _ => do
    let (tag, reader) ← reader.tag?
    let (anchor, reader) := reader.anchor
    some (⟨anchor, tag⟩, reader)
  | _ => do
    let (anchor, reader) := reader.anchor
    let (tag, reader) ← reader.tag?
    some (⟨anchor, tag⟩, reader)

/-- Where a node stands, which decides whether it may be a block. -/
inductive Place
  | brackets
  | block
  /-- In a mapping of lines, where the items of a sequence need not be indented. -/
  | entry
deriving Repr, DecidableEq

/-- Tokens before which an item of a block is left out. -/
def endsItem : Token → Bool
  | .item | .blockEnd => true
  | _ => false

/-- Tokens before which an item without indentation is left out. -/
def endsBareItem : Token → Bool
  | .item | .key | .value | .blockEnd => true
  | _ => false

/-- Tokens before which a key or a value of a block is left out. -/
def endsEntry : Token → Bool
  | .key | .value | .blockEnd => true
  | _ => false

/-- Tokens before which a key or a value inside brackets is left out. -/
def endsInBrackets (close : Token) (token : Token) : Bool := token == .comma || token == close

mutual

def node? (place : Place) : Nat → Reader → Option (Node × Reader)
  | 0, _ => none
  | fuel + 1, reader =>
    match reader.tokens with
    | .aliasTo name :: tokens =>
      (reader.anchors.lookup name).map fun anchor => (.aliasTo anchor, reader.goTo tokens)
    | _ => do
      let (properties, reader) ← reader.properties?
      match reader.tokens, place with
      | .item :: _, .entry =>
        let (items, reader) ← bareItems? fuel reader
        some (.sequence properties items, reader)
      | .scalar text isPlain :: tokens, _ =>
        some (.scalar properties.dropBareTag text isPlain, reader.goTo tokens)
      | .openSequence :: tokens, _ =>
        let (items, reader) ← flowItems? true fuel (reader.goTo tokens)
        some (.sequence properties items, reader)
      | .openMapping :: tokens, _ =>
        let (entries, reader) ← flowEntries? true fuel (reader.goTo tokens)
        some (.mapping properties entries, reader)
      | token :: tokens, _ =>
        if token == .blockSequence && place != .brackets then
          let (items, reader) ← blockItems? fuel (reader.goTo tokens)
          some (.sequence properties items, reader)
        else if token == .blockMapping && place != .brackets then
          let (entries, reader) ← blockEntries? fuel (reader.goTo tokens)
          some (.mapping properties entries, reader)
        else if properties.isEmpty then none
        else some (.scalar properties [] true, reader)
      | [], _ => if properties.isEmpty then none else some (.scalar properties [] true, reader)

/-- Reads a node, unless it is left out before the next token or at the end. -/
def nodeUnless? (place : Place) (isEnd : Token → Bool) :
    Nat → Reader → Option (Node × Reader)
  | 0, _ => none
  | fuel + 1, reader =>
    if reader.tokens.head?.all isEnd then some (.empty, reader) else node? place fuel reader

/-- Reads the value of an entry, which is left out if there is no colon. -/
def value? (place : Place) (isEnd : Token → Bool) : Nat → Reader → Option (Node × Reader)
  | 0, _ => none
  | fuel + 1, reader =>
    match reader.tokens with
    | .value :: tokens => nodeUnless? place isEnd fuel (reader.goTo tokens)
    | _ => some (.empty, reader)

/-- Reads the items of a block up to its end. -/
def blockItems? : Nat → Reader → Option (List Node × Reader)
  | 0, _ => none
  | fuel + 1, reader =>
    match reader.tokens with
    | .blockEnd :: tokens => some ([], reader.goTo tokens)
    | .item :: tokens => do
      let (item, reader) ← nodeUnless? .block endsItem fuel (reader.goTo tokens)
      let (items, reader) ← blockItems? fuel reader
      some (item :: items, reader)
    | _ => none

/-- Reads the items of a sequence that is not indented. It ends where no item follows. -/
def bareItems? : Nat → Reader → Option (List Node × Reader)
  | 0, _ => none
  | fuel + 1, reader =>
    match reader.tokens with
    | .item :: tokens => do
      let (item, reader) ← nodeUnless? .block endsBareItem fuel (reader.goTo tokens)
      let (items, reader) ← bareItems? fuel reader
      some (item :: items, reader)
    | _ => some ([], reader)

/-- Reads the entries of a block up to its end. -/
def blockEntries? : Nat → Reader → Option (List (Node × Node) × Reader)
  | 0, _ => none
  | fuel + 1, reader =>
    match reader.tokens with
    | .blockEnd :: tokens => some ([], reader.goTo tokens)
    | .key :: tokens => do
      let (key, reader) ← nodeUnless? .entry endsEntry fuel (reader.goTo tokens)
      let (value, reader) ← value? .entry endsEntry fuel reader
      let (entries, reader) ← blockEntries? fuel reader
      some ((key, value) :: entries, reader)
    | _ => none

/-- Reads the items inside brackets up to the closing one. An item may be a single entry, which
stands for a mapping. A question mark takes the next sign with it if the key is left out. -/
def flowItems? (isFirst : Bool) : Nat → Reader → Option (List Node × Reader)
  | 0, _ => none
  | fuel + 1, reader =>
    match reader.tokens with
    | .closeSequence :: tokens => some ([], reader.goTo tokens)
    | token :: tokens => do
      if !isFirst && token != .comma then none
      let reader := if isFirst then reader else reader.goTo tokens
      match reader.tokens with
      | .closeSequence :: tokens => some ([], reader.goTo tokens)
      | .key :: tokens =>
        let isEnd := endsInBrackets .closeSequence
        let leftOut := tokens.head?.any fun next => next == .value || isEnd next
        let (key, reader) ←
          if leftOut then some (.empty, reader.goTo (tokens.drop 1))
          else node? .brackets fuel (reader.goTo tokens)
        let (value, reader) ← value? .brackets isEnd fuel reader
        let (items, reader) ← flowItems? false fuel reader
        some (.mapping .none [(key, value)] :: items, reader)
      | _ =>
        let (item, reader) ← node? .brackets fuel reader
        let (items, reader) ← flowItems? false fuel reader
        some (item :: items, reader)
    | [] => none

/-- Reads the entries inside brackets up to the closing one. -/
def flowEntries? (isFirst : Bool) : Nat → Reader → Option (List (Node × Node) × Reader)
  | 0, _ => none
  | fuel + 1, reader =>
    match reader.tokens with
    | .closeMapping :: tokens => some ([], reader.goTo tokens)
    | token :: tokens => do
      if !isFirst && token != .comma then none
      let reader := if isFirst then reader else reader.goTo tokens
      match reader.tokens with
      | .closeMapping :: tokens => some ([], reader.goTo tokens)
      | .key :: tokens =>
        let isEnd := endsInBrackets .closeMapping
        let (key, reader) ← nodeUnless? .brackets (fun next => next == .value || isEnd next) fuel
          (reader.goTo tokens)
        let (value, reader) ← value? .brackets isEnd fuel reader
        let (entries, reader) ← flowEntries? false fuel reader
        some ((key, value) :: entries, reader)
      | _ =>
        let (key, reader) ← node? .brackets fuel reader
        let (entries, reader) ← flowEntries? false fuel reader
        some ((key, .empty) :: entries, reader)
    | [] => none

end

/-- Reads the directives before a document. None may repeat. -/
def directives? (hasVersion : Bool) (handles : Handles) : List Token → Option (Handles × List Token)
  | .version :: tokens => if hasVersion then none else directives? true handles tokens
  | .handle handle start :: tokens =>
    if (handles.lookup handle).isSome then none
    else directives? hasVersion ((handle, start) :: handles) tokens
  | tokens => some (handles, tokens)

def endsDocument : Token → Bool
  | .version | .handle .. | .documentStart | .documentEnd => true
  | _ => false

/-- Reads a document after its directives. It has to be marked if there are any. -/
def document? (marked : Bool) (fuel : Nat) (reader : Reader) : Option (Node × Reader) :=
  match reader.tokens with
  | .documentStart :: tokens => nodeUnless? .block endsDocument fuel (reader.goTo tokens)
  | _ => if marked then none else node? .block fuel reader

end Reader

/-- The document of a list of tokens, which must be the only one. -/
def Node.ofTokens? (tokens : List Token) : Option Node := do
  let (handles, body) ← Reader.directives? false [] tokens
  let reader : Reader := ⟨body, [], handles ++ Handles.default⟩
  -- Of any three calls in a row one reads a token.
  let fuel := 3 * tokens.length + 3
  let (node, reader) ← reader.document? (body.length < tokens.length) fuel
  if reader.tokens.all (· == .documentEnd) then some node else none

def Node.ofText? (text : Text) : Option Node := (Token.ofText? text).bind Node.ofTokens?

end KernelCensus.Yaml
