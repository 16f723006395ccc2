import KernelCensus.Number.Natural

/-!
# Reading binary floating-point numbers

A decimal text is read as the nearest number of the IEEE 754 format binary64, ties going to the even
neighbour. All arithmetic is on natural numbers, so the result is exact.
-/

namespace KernelCensus

/-- A number of the format binary64. All NaNs are one. -/
inductive Binary64
  | nan
  /-- A number, by its sign and its other 63 bits. -/
  | signed (negative : Bool) (magnitude : Nat)
deriving Repr, DecidableEq

namespace Binary64

/-- The 63 bits of infinity. -/
def infinity : Nat := 0x7FF <<< 52

/-- The exponent of the least unit, of which every finite number is a multiple. -/
def leastExponent : Int := -1074

/-- The integer nearest to `num / den`, ties going to the even one. -/
def roundDiv (num den : Nat) : Nat :=
  let quotient := num / den
  let twice := 2 * (num % den)
  if twice > den || (twice == den && quotient % 2 == 1) then quotient + 1 else quotient

/-- The greatest `e` with `2 ^ e ≤ num / den`, for positive numbers. -/
def floorLog2 (num den : Nat) : Int :=
  let e : Int := (num.log2 : Int) - (den.log2 : Int)
  -- the quotient lies between the powers for `e - 1` and `e + 1`
  if num <<< (-e).toNat < den <<< e.toNat then e - 1 else e

/-- The 63 bits of the number nearest to `num / den`, for positive numbers. The unit in the last
place is the one of the binade of the quotient, and no less than the least one. Rounding up to the
next power of two carries into the exponent bits, as it should. -/
def ofRatio (num den : Nat) : Nat :=
  let unit := max (floorLog2 num den - 52) leastExponent
  let digits := roundDiv (num <<< (-unit).toNat) (den <<< unit.toNat)
  min infinity ((unit - leastExponent).toNat <<< 52 + digits)

/-- The 63 bits of the number nearest to `digits * 10 ^ exponent`. Exponents so far out that the
result is certain are answered without computing the power. -/
def ofDecimal (digits : Nat) (exponent : Int) : Nat :=
  if digits = 0 then 0
  else
    -- the value lies between 10 ^ (size - 1) and 10 ^ size
    let size : Int := exponent + (Text.ofNat digits).length
    if size > 400 then infinity
    else if size < -400 then 0
    else ofRatio (digits * Nat.pow 10 exponent.toNat) (Nat.pow 10 (-exponent).toNat)

/-! ## Texts -/

/-- The sign that a text starts with, and the rest. -/
def splitSign : Text → Bool × Text
  | '-' :: rest => (true, rest)
  | '+' :: rest => (false, rest)
  | text => (false, text)

/-- The exponent that a text is, or zero for none. -/
def exponent? : Text → Option Int
  | [] => some 0
  | c :: rest =>
    if c == 'e' || c == 'E' then
      let (negative, digits) := splitSign rest
      if !digits.isEmpty && digits.all Char.isDigit then
        some (if negative then -(Natural.ofDigits digits : Int) else Natural.ofDigits digits)
      else none
    else none

/-- The digits before and after the point of a text, and what follows them. -/
def splitPoint (text : Text) : Text × Text × Text :=
  let whole := text.takeWhile Char.isDigit
  match text.dropWhile Char.isDigit with
  | '.' :: rest => (whole, rest.takeWhile Char.isDigit, rest.dropWhile Char.isDigit)
  | rest => (whole, [], rest)

/-- The 63 bits for an unsigned decimal number: digits with or without a point, at least one digit,
and an exponent or none. -/
def decimal? (text : Text) : Option Nat :=
  let (whole, fraction, rest) := splitPoint text
  if whole.isEmpty && fraction.isEmpty then none
  else (exponent? rest).map fun exponent =>
    ofDecimal (Natural.ofDigits (whole ++ fraction)) (exponent - fraction.length)

/-- Reads a number: a decimal number, `inf`, `infinity` or `nan`, in any case, with a sign allowed
before it. -/
def parse? (text : Text) : Option Binary64 :=
  let (negative, rest) := splitSign text
  let word := Text.lowerAscii rest
  if word = "inf" ∨ word = "infinity" then some (signed negative infinity)
  else if word = "nan" then some nan
  else (decimal? rest).map (signed negative)

/-- The 64 bits of a number. NaN has the bits of the quiet one without payload. -/
def bits : Binary64 → Nat
  | nan => infinity + 1 <<< 51
  | signed negative magnitude => if negative then 1 <<< 63 + magnitude else magnitude

end Binary64

end KernelCensus
