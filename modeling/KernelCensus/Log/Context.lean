import KernelCensus.Name
import KernelCensus.Unicode.CaseFolding

/-!
# Kernel-context lines

A line of a log names the kernel that the lines after it are about, either as `label: name` or as
`label=name`, where a quote may stand before the name. Case does not count: two characters are the
same if they have the same simple case folding, so that the long s and the Kelvin sign are letters
of names here.
-/

namespace KernelCensus.Log

/-- A character that may start an identifier, whatever its case. -/
def isNameStart (c : Char) : Bool := Name.isStart (Unicode.foldCase c)

/-- A character that may continue an identifier, whatever its case. -/
def isNamePart (c : Char) : Bool := Name.isPart (Unicode.foldCase c)

/-- The two forms in which a line names a kernel. -/
inductive ContextForm
  /-- The form `label: name`. -/
  | colon
  /-- The form `label=name`. -/
  | assignment
deriving Repr, DecidableEq

namespace ContextForm

def sign : ContextForm → Char
  | colon => ':'
  | assignment => '='

/-- What may stand between the sign and the name, white space aside, is removed. -/
def unquote : ContextForm → Text → Text
  | assignment, '"' :: rest => rest
  | assignment, '\'' :: rest => rest
  | _, text => text

end ContextForm

/-- What follows the label, if the text starts with it. -/
def afterLabel? : Text → Text → Option Text
  | [], text => some text
  | _ :: _, [] => none
  | l :: label, c :: text =>
    if Unicode.foldCase l = Unicode.foldCase c then afterLabel? label text else none

/-- The name in a text that starts with a label in the given form. -/
def nameAfterLabel? (form : ContextForm) (label text : Text) : Option Text :=
  match afterLabel? label text with
  | none => none
  | some rest =>
    match Text.trimStart rest with
    | [] => none
    | c :: rest =>
      if c = form.sign then
        Name.leading? isNameStart isNamePart (form.unquote (Text.trimStart rest))
      else none

/-- The name at the first place of a text where a label in the given form starts a word. `previous`
is the character before the text. -/
def nameIn? (form : ContextForm) (label : Text) : Option Char → Text → Option Text
  | _, [] => none
  | previous, c :: rest =>
    let here := if previous.any isNamePart then none else nameAfterLabel? form label (c :: rest)
    match here with
    | some name => some name
    | none => nameIn? form label (some c) rest

/-- The kernel that a line names. The form with a colon goes first, even where it stands later in
the line. -/
def context? (label line : Text) : Option Text :=
  let label := Text.trim label
  match nameIn? .colon label none line with
  | some name => some name
  | none => nameIn? .assignment label none line

end KernelCensus.Log
