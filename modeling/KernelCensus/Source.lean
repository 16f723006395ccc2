import KernelCensus.Path

/-!
# Sources and the signatures found in them

Logs refer to a source by its base name only, so the base name is kept beside the path.
-/

namespace KernelCensus

/-- A source file. -/
structure SourceFile where
  path : Path
  /-- The name that logs and reports use for it. -/
  name : Text
deriving Repr, DecidableEq

namespace SourceFile

/-- The source at a path, under its file name, or under the text of the path if that has none. -/
def ofPath (path : Path) : SourceFile := ⟨path, path.fileName?.getD path.text⟩

/-- The name without what follows its last dot, unless that dot is its first character. -/
def stem (source : SourceFile) : Text :=
  ((Path.splitAtLastDot? source.name).map (·.1)).getD source.name

end SourceFile

/-- A kernel declaration recovered from a source. -/
structure Signature where
  source : SourceFile
  name : Text
  /-- What stands between the parentheses of the parameter list, with words one space apart. -/
  parameters : Text
  /-- Whether a template keyword stands between the tag and the declaration. -/
  isTemplate : Bool
deriving Repr, DecidableEq

end KernelCensus
