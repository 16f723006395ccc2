import KernelCensus.Yaml.Node

/-!
# Decoding YAML nodes

Whatever is asked for decides how a scalar is read: as a text it is what was written, however much
it looks like a number. A sequence or a record that is left out is empty. Tags are skipped, except
where a case or a null value is asked for. In a record unknown keys are skipped, and a known key
must not repeat. All decoders look through aliases, for which they need the whole document.
-/

namespace KernelCensus.Yaml

abbrev Decoder (α : Type) := Node → Node → Option α

namespace Node

def text? : Decoder Text := fun document node => do
  match ← document.target? node with
  | scalar _ text _ => some text
  | _ => none

/-- The items of a sequence, each decoded. -/
def list? {α : Type} (decode : Decoder α) : Decoder (List α) := fun document node => do
  match ← document.target? node with
  | sequence _ items => items.mapM (decode document)
  | scalar _ [] true => some []
  | _ => none

/-- The plain scalars that stand for a null value. -/
def nullTexts : List Text := ["null", "Null", "NULL", "~"]

/-- A decoded value, or a plain scalar that is empty or null for none. A scalar with the tag of null
has to be null, and one with another tag is not. -/
def nullable? {α : Type} (decode : Decoder α) : Decoder (Option α) := fun document node => do
  match ← document.target? node with
  | scalar properties text true =>
    match properties.tag with
    | none =>
      if text.isEmpty || nullTexts.contains text then some none
      else (decode document node).map some
    | some tag =>
      if tag != nullTag then (decode document node).map some
      else if nullTexts.contains text then some none
      else none
  | _ => (decode document node).map some

/-- The text that names a case without contents: a scalar, or a tag with nothing behind it. -/
def caseName? : Decoder Text := fun document node => do
  match ← document.target? node with
  | scalar properties text isPlain =>
    match properties.tag with
    | some ('!' :: name) =>
      if isPlain && (text.isEmpty || nullTexts.contains text) then some name else none
    | _ => some text
  | _ => none

/-! ## Records -/

/-- The fields of a record that are given. -/
structure Fields where
  document : Node
  values : List (Text × Node)

def fields? (keys : List Text) (document node : Node) : Option Fields := do
  let entries ← match ← document.target? node with
    | mapping _ entries => some entries
    | scalar _ [] true => some []
    | _ => none
  let values ← entries.mapM fun entry => (text? document entry.1).map fun key => (key, entry.2)
  if keys.all fun key => values.countP (fun value => value.1 == key) ≤ 1 then
    some ⟨document, values⟩
  else none

namespace Fields

variable {α : Type}

def required (fields : Fields) (key : Text) (decode : Decoder α) : Option α :=
  (fields.values.lookup key).bind (decode fields.document)

def withDefault (fields : Fields) (key : Text) (default : α) (decode : Decoder α) : Option α :=
  match fields.values.lookup key with
  | some value => decode fields.document value
  | none => some default

end Fields

end Node

end KernelCensus.Yaml
