import KernelCensus.Text.Basic

/-!
# JSON values

Objects keep the order and the repetitions of their members. Numbers keep the text they were written
as. A string can hold an escape for one half of a surrogate pair without the other; such a string is
valid JSON but denotes no text.
-/

namespace KernelCensus

/-- A JSON value. -/
inductive Json
  | null
  | bool (value : Bool)
  /-- A number, as written. -/
  | number (literal : Text)
  /-- A string, with the text it denotes, if any. -/
  | string (content : Option Text)
  | array (items : List Json)
  /-- An object. A key is a string, so it may denote no text. -/
  | object (members : List (Option Text × Json))
deriving Repr

namespace Json

def text (content : Text) : Json := string (some content)

def count (n : Nat) : Json := number (Text.ofNat n)

def record (fields : List (Text × Json)) : Json :=
  object (fields.map fun field => (some field.1, field.2))

def texts (items : List Text) : Json := array (items.map text)

mutual

/-- How deep arrays and objects are nested in a value. -/
def depth : Json → Nat
  | array items => itemsDepth items + 1
  | object members => membersDepth members + 1
  | _ => 0

/-- The greatest depth among items. -/
def itemsDepth : List Json → Nat
  | [] => 0
  | item :: items => max item.depth (itemsDepth items)

/-- The greatest depth among the values of members. -/
def membersDepth : List (Option Text × Json) → Nat
  | [] => 0
  | (_, value) :: members => max value.depth (membersDepth members)

end

end Json

end KernelCensus
