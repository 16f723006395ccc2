import KernelCensus.Declaration.Basic
import KernelCensus.Declaration.Keyword
import KernelCensus.Markers
import KernelCensus.Notice

/-!
# Extraction of tagged declarations

A source is read line by line. A tag arms the extraction, the declaration keyword starts a capture,
and the capture ends with the parameter list. Each tag leads to exactly one finding: a signature,
or a drop with its cause. Nothing of an unfinished declaration survives the next tag.
-/

namespace KernelCensus.Extraction

/-- Where the extraction stands between two lines. -/
inductive Phase
  | idle
  /-- A tag was seen, and its declaration has not started. -/
  | armed (tagLine : Nat) (isTemplate : Bool)
  /-- A declaration has started, and its parameter list is not closed. -/
  | capturing (tagLine : Nat) (isTemplate : Bool) (buffer : Text)
deriving Repr, DecidableEq

/-- A declaration that was captured, before it is named. -/
structure Capture where
  tagLine : Nat
  /-- Whether the template keyword stands between the tag and the declaration. -/
  isTemplate : Bool
  declaration : Declaration
deriving Repr, DecidableEq

/-- What became of a tag. -/
inductive Finding
  | declared (tagLine : Nat) (signature : Signature)
  | dropped (tagLine : Nat) (cause : DropCause)
deriving Repr, DecidableEq

namespace Finding

def tagLine : Finding → Nat
  | declared tagLine _ => tagLine
  | dropped tagLine _ => tagLine

/-- The signature, if the tag led to one. -/
def signature? : Finding → Option Signature
  | declared _ signature => some signature
  | dropped .. => none

def notice? (source : SourceFile) : Finding → Option Notice
  | declared .. => none
  | dropped tagLine cause => some (.dropped source.name tagLine cause)

end Finding

/-! ## Code fragments -/

/-- A line without the comment at its end. -/
def stripComment (marker line : Text) : Text :=
  if marker.isEmpty then line
  else match Text.cut? marker line with
    | some (code, _) => code
    | none => line

/-- Whether a code fragment holds the template keyword as a whole word. -/
def mentionsTemplate (markers : Markers) (code : Text) : Bool :=
  !Text.isBlank markers.template && Keyword.occurs (Text.trim markers.template) code

/-- Ends a capture if its parameter list is closed, and goes on with it otherwise. -/
def close (markers : Markers) (tagLine : Nat) (isTemplate : Bool) (buffer : Text) :
    Phase × Option Capture :=
  match Declaration.ofText? markers.attributes buffer with
  | some declaration => (.idle, some ⟨tagLine, isTemplate, declaration⟩)
  | none => (.capturing tagLine isTemplate buffer, none)

/-- A capture goes on: the words of `code` are added to the text captured so far. -/
def extend (buffer code : Text) : Text :=
  let piece := Text.trim code
  if piece.isEmpty then buffer
  else if buffer.isEmpty then piece
  else buffer ++ ' ' :: piece

/-- The step for a code fragment without comments. -/
def Phase.onCode (markers : Markers) (code : Text) : Phase → Phase × Option Capture
  | .idle => (.idle, none)
  | .armed tagLine isTemplate =>
    match Text.cut? markers.declaration code with
    | some (before, after) =>
      close markers tagLine (isTemplate || mentionsTemplate markers before)
        (Text.trim (markers.declaration ++ after))
    | none => (.armed tagLine (isTemplate || mentionsTemplate markers code), none)
  | .capturing tagLine isTemplate buffer => close markers tagLine isTemplate (extend buffer code)

/-! ## Tags -/

/-- What a tag finds pending, which it drops. -/
def Phase.interrupted? : Phase → Option Finding
  | .idle => none
  | .armed tagLine _ => some (.dropped tagLine .tagFollows)
  | .capturing tagLine _ _ => some (.dropped tagLine .tagInterrupts)

def Phase.ofTag (line : Nat) : Phase := .armed line false

/-- What the end of the text finds pending. -/
def Phase.unfinished? : Phase → Option Finding
  | .idle => none
  | .armed tagLine _ => some (.dropped tagLine .noDeclaration)
  | .capturing tagLine _ _ => some (.dropped tagLine .unterminated)

/-- Names a captured declaration, or drops it. -/
def Capture.finding (source : SourceFile) (capture : Capture) : Finding :=
  match capture.declaration.name? with
  | some name =>
    .declared capture.tagLine
      ⟨source, name, capture.declaration.parameters, capture.isTemplate⟩
  | none => .dropped capture.tagLine (.unnamed capture.declaration.head)

/-! ## Lines -/

/-- The step for a line. A tag is looked for in the whole line, for it usually stands in a comment;
only the code after it goes on. -/
def Phase.onLine (markers : Markers) (source : SourceFile) (phase : Phase) (number : Nat)
    (line : Text) : Phase × List Finding :=
  let code := stripComment markers.lineComment line
  match Text.cut? markers.tag line with
  | some (before, _) =>
    let step := (Phase.ofTag number).onCode markers
      (code.drop (before.length + markers.tag.length))
    (step.1, phase.interrupted?.toList ++ (step.2.map (Capture.finding source)).toList)
  | none =>
    let step := phase.onCode markers code
    (step.1, (step.2.map (Capture.finding source)).toList)

/-- The findings in lines, from a phase and the number of the first line on. -/
def findingsFrom (markers : Markers) (source : SourceFile) :
    Phase → Nat → List Text → List Finding
  | phase, _, [] => phase.unfinished?.toList
  | phase, number, line :: lines =>
    let step := phase.onLine markers source number line
    step.2 ++ findingsFrom markers source step.1 (number + 1) lines

/-- The findings in a source, in the order of its lines. -/
def findings (markers : Markers) (source : SourceFile) (text : Text) : List Finding :=
  findingsFrom markers source .idle 1 (Text.lines text)

/-- The signatures in a source, in the order of their declarations. -/
def signatures (markers : Markers) (source : SourceFile) (text : Text) : List Signature :=
  (findings markers source text).filterMap Finding.signature?

/-- The notices of a scan: one for each dropped tag, and one for the scan. -/
def notices (markers : Markers) (source : SourceFile) (text : Text) : List Notice :=
  (findings markers source text).filterMap (Finding.notice? source) ++
    [.scannedSource source.name (signatures markers source text).length]

end KernelCensus.Extraction
