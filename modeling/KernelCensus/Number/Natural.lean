import KernelCensus.Text.Basic

/-!
# Reading natural numbers
-/

namespace KernelCensus.Natural

def ofDigits (digits : Text) : Nat :=
  digits.foldl (fun n c => 10 * n + (c.toNat - '0'.toNat)) 0

/-- A text without the plus sign it may start with. -/
def dropPlus : Text → Text
  | '+' :: rest => rest
  | text => text

/-- Reads a number below `limit`: decimal digits, at least one, with a plus sign allowed before
them. -/
def parse? (limit : Nat) (text : Text) : Option Nat :=
  let digits := dropPlus text
  if !digits.isEmpty && digits.all Char.isDigit && ofDigits digits < limit then
    some (ofDigits digits)
  else none

end KernelCensus.Natural
