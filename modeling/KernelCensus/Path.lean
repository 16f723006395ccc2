import KernelCensus.Text.Basic

/-!
# Paths

A path keeps the text it was written as, which is also how it is shown. What it means is its list of
parts: repeated slashes and inner `.` are left out, while a leading `.` and every `..` are kept. Two
paths with the same parts are the same path even if their texts differ.
-/

namespace KernelCensus

/-- A path, as written. -/
structure Path where
  text : Text
deriving Repr, DecidableEq

namespace Path

/-- One step of a path. -/
inductive Part
  | root
  /-- A leading `.`. -/
  | here
  /-- A step to the parent directory. -/
  | up
  | entry (name : Text)
deriving Repr, DecidableEq

/-- The part that a piece between slashes stands for, if any. -/
def Part.ofPiece? (piece : Text) : Option Part :=
  if piece = [] ∨ piece = ['.'] then none
  else if piece = ['.', '.'] then some .up
  else some (.entry piece)

/-- Whether a path starts at the root directory. -/
def isAbsolute (path : Path) : Bool := path.text.head? == some '/'

def parts (path : Path) : List Part :=
  let pieces := Text.splitAt '/' path.text
  let steps := pieces.filterMap Part.ofPiece?
  if path.isAbsolute then .root :: steps
  else if pieces.head? = some ['.'] then .here :: steps
  else steps

/-- Whether two paths have the same parts. -/
def same (p q : Path) : Bool := p.parts == q.parts

/-- The name of the last part, unless the path ends in `.`, `..` or the root. -/
def fileName? (path : Path) : Option Text :=
  match path.parts.getLast? with
  | some (.entry name) => some name
  | _ => none

/-- The text of a name up to its last dot and the text after that dot. A dot at the very start does
not count. -/
def splitAtLastDot? (name : Text) : Option (Text × Text) :=
  let suffix := name.reverse.takeWhile (· != '.')
  match name.reverse.drop suffix.length with
  | '.' :: c :: stem => some ((c :: stem).reverse, suffix.reverse)
  | _ => none

/-- The text after the last dot of the file name. -/
def extension? (path : Path) : Option Text :=
  path.fileName?.bind fun name => (splitAtLastDot? name).map (·.2)

/-- The second path as seen from the first. An absolute path stays as it is. -/
def join (base path : Path) : Path :=
  if path.isAbsolute then path
  else if base.text = [] ∨ base.text.getLast? = some '/' then ⟨base.text ++ path.text⟩
  else ⟨base.text ++ '/' :: path.text⟩

/-! ## Order -/

/-- Names are ordered by the code points of their characters. -/
def nameLe : Text → Text → Bool
  | [], _ => true
  | _ :: _, [] => false
  | c :: cs, d :: ds => if c = d then nameLe cs ds else c.toNat < d.toNat

/-- The kinds of parts in their order: root, `.`, `..`, entries. -/
def Part.rank : Part → Nat
  | root => 0
  | here => 1
  | up => 2
  | entry _ => 3

/-- The order of parts: by kind, and entries by name. -/
def Part.le : Part → Part → Bool
  | entry m, entry n => nameLe m n
  | p, q => p.rank ≤ q.rank

/-- The order of lists of parts: the first two parts that differ decide. -/
def partsLe : List Part → List Part → Bool
  | [], _ => true
  | _ :: _, [] => false
  | p :: ps, q :: qs => if p = q then partsLe ps qs else p.le q

/-- The order of paths by their parts. -/
def le (p q : Path) : Bool := partsLe p.parts q.parts

end Path

end KernelCensus
