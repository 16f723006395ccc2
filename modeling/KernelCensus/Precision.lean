import KernelCensus.Text.Basic

/-!
# Numeric precisions

Benchmarks run under one of three precisions. A precision has one name in reports and several
spellings that the command line accepts.
-/

namespace KernelCensus

/-- The numeric precision of a benchmark run. -/
inductive Precision
  | double
  | float
  | half
deriving Repr, DecidableEq

namespace Precision

/-- All precisions, in the order in which benchmarks run. -/
def all : List Precision := [double, float, half]

/-- The name of a precision in reports, logs and configurations. -/
def name : Precision → Text
  | double => "double"
  | float => "float"
  | half => "half"

def spellings : Precision → List Text
  | double => ["double", "fp64", "f64"]
  | float => ["float", "single", "fp32", "f32"]
  | half => ["half", "fp16", "f16"]

def ofName? (text : Text) : Option Precision := all.find? fun precision => precision.name = text

/-- The precision that a text spells, whatever the case of its ASCII letters and the white space
around it. -/
def ofText? (text : Text) : Option Precision :=
  all.find? fun precision => precision.spellings.contains (Text.lowerAscii (Text.trim text))

end Precision

/-- A text that spells no precision. -/
structure UnknownPrecision where
  text : Text
deriving Repr, DecidableEq

/-- The message for a text that spells no precision. -/
def UnknownPrecision.message (error : UnknownPrecision) : Text :=
  Text.concat ["Unknown precision '", error.text, "'. Allowed: double, float, half"]

def Precision.parse (text : Text) : Except UnknownPrecision Precision :=
  match ofText? text with
  | some precision => .ok precision
  | none => .error ⟨text⟩

end KernelCensus
