import KernelCensus.Json.Basic
import KernelCensus.Number.Natural

/-!
# Decoding JSON values

A record is given as an object or as an array of its fields in order. In an object the order does
not matter, unknown keys are skipped, and a known key must not repeat. In an array fields may be
missing at the end only.
-/

namespace KernelCensus.Json

/-! ## Plain values -/

def text? : Json → Option Text
  | string content => content
  | _ => none

def bool? : Json → Option Bool
  | bool value => some value
  | _ => none

/-- The counts that fit in a machine word. -/
def countLimit : Nat := UInt64.size

/-- A count: a number without sign, fraction and exponent that fits in a machine word. -/
def count? : Json → Option Nat
  | number literal =>
    if literal.all Char.isDigit && Natural.ofDigits literal < countLimit then
      some (Natural.ofDigits literal)
    else none
  | _ => none

/-- The items of an array, each decoded. -/
def list? {α : Type} (decode : Json → Option α) : Json → Option (List α)
  | array items => items.mapM decode
  | _ => none

/-- A decoded value, or `null` for none. -/
def nullable? {α : Type} (decode : Json → Option α) : Json → Option (Option α)
  | null => some none
  | value => (decode value).map some

/-! ## Records -/

/-- The fields of a record that are given. -/
structure Fields where
  get? : Text → Option Json
  /-- Whether the fields were given in order instead of by key. -/
  inOrder : Bool

def hasKey (key : Text) (member : Option Text × Json) : Bool := member.1 == some key

/-- The value of the first member with a key. -/
def member? (members : List (Option Text × Json)) (key : Text) : Option Json :=
  members.lookup (some key)

def occurrences (members : List (Option Text × Json)) (key : Text) : Nat :=
  members.countP (hasKey key)

def fields? (keys : List Text) : Json → Option Fields
  | object members =>
    if members.all (fun member => member.1.isSome)
        && keys.all (fun key => occurrences members key ≤ 1) then
      some ⟨member? members, false⟩
    else none
  | array items =>
    if items.length ≤ keys.length then some ⟨fun key => (keys.zip items).lookup key, true⟩
    else none
  | _ => none

namespace Fields

variable {α : Type}

/-- A field that has to be given. -/
def required (fields : Fields) (key : Text) (decode : Json → Option α) : Option α :=
  (fields.get? key).bind decode

/-- A field that has a default. -/
def withDefault (fields : Fields) (key : Text) (default : α) (decode : Json → Option α) :
    Option α :=
  match fields.get? key with
  | some value => decode value
  | none => some default

/-- A field that may be `null`, and that may be left out of an object. -/
def optional (fields : Fields) (key : Text) (decode : Json → Option α) : Option (Option α) :=
  match fields.get? key with
  | some value => nullable? decode value
  | none => if fields.inOrder then none else some none

end Fields

/-! ## Names of cases -/

/-- The text that names a case without contents: a string, or an object with `null` under the name
as its only key. -/
def caseName? : Json → Option Text
  | string content => content
  | object [(key, null)] => key
  | _ => none

end KernelCensus.Json
