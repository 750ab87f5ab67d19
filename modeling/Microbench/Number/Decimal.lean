import Microbench.Number.Fixed

/-!
# Decimal numbers as text

Reading a decimal number into the nearest floating point number.  A number is
digits with an optional point among or beside them and an optional power of ten;
the words for the infinities and for no number are read in any letter case.

## Main definitions

* `Decimal.nearestBits` — the bits of the floating point number nearest to a quotient.
* `Decimal.nearest` — the floating point number nearest to `mantissa * 10 ^ exponent`.
* `Decimal.read` — read a whole text, with the two ways in which that fails.
-/

namespace Microbench.Decimal

/-- Why a text is not a number. -/
inductive Error
  /-- There is no character at all. -/
  | empty
  /-- The characters are not those of a number. -/
  | malformed
  deriving DecidableEq, Repr, Inhabited

/-- The wording of an error. -/
def Error.message : Error → String
  | .empty => "cannot parse float from empty string"
  | .malformed => "invalid float literal"

/-- Whether a character is a decimal digit. -/
def isDigit (c : Char) : Bool := 48 ≤ c.toNat && c.toNat ≤ 57

/-- The number that digits write. -/
def value (digits : List Char) : Nat :=
  digits.foldl (fun n c => 10 * n + (c.toNat - 48)) 0

/-- The infinite number. -/
def infinity : Float := 1.0 / 0.0

/-- The value that is no number. -/
def undefined : Float := 0.0 / 0.0

/-- The exponent of the first binary digit of `num / den`, or one more. -/
def leadBound (num den : Nat) : Int := (num.log2 : Int) - den.log2

/-- The exponent of the first binary digit of `num / den`. -/
def lead (num den : Nat) : Int :=
  let bound := leadBound num den
  let isBelow :=
    if bound < 0 then num * Nat.pow 2 (-bound).toNat < den else num < den * Nat.pow 2 bound.toNat
  if isBelow then bound - 1 else bound

/-- The bits of infinity. -/
def infinityBits : Nat := Binary.topExponent * Binary.fractionCount

/-- The bits of the floating point number nearest to `num / den`: the quotient in units of the
last place, rounded, a half to the even neighbour, below the exponent of that place.  A mantissa
that rounding makes one digit longer moves up into the exponent by itself. -/
def nearestBits (num den : Nat) : Nat :=
  let unit := max Binary.leastExponent (lead num den - 52)
  let units :=
    if unit < 0 then roundDiv (num * Nat.pow 2 (-unit).toNat) den
    else roundDiv num (den * Nat.pow 2 unit.toNat)
  min infinityBits ((unit - Binary.leastExponent).toNat * Binary.fractionCount + units)

/-- The floating point number nearest to `mantissa * 10 ^ exponent`; what is beyond the
range is infinite, what is too near to zero is zero. -/
def nearest (mantissa : Nat) (exponent : Int) : Float :=
  if mantissa = 0 then 0.0
  else
    let size := (Nat.toDigits 10 mantissa).length + exponent
    if 400 < size then infinity
    else if size < -400 then 0.0
    else Float.ofBits (UInt64.ofNat (
      if exponent < 0 then nearestBits mantissa (Nat.pow 10 (-exponent).toNat)
      else nearestBits (mantissa * Nat.pow 10 exponent.toNat) 1))

/-- Give a number a sign. -/
def signed (negative : Bool) (x : Float) : Float := if negative then -x else x

/-- A sign in front, and the rest. -/
def takeSign : List Char → Bool × List Char
  | '-' :: cs => (true, cs)
  | '+' :: cs => (false, cs)
  | cs => (false, cs)

/-- The power of ten at the end of a number: nothing, or the letter and an integer. -/
def readPower : List Char → Option Int
  | [] => some 0
  | c :: cs =>
    if c = 'e' ∨ c = 'E' then
      let (negative, digits) := takeSign cs
      if digits ≠ [] ∧ digits.all isDigit then
        some (if negative then -(value digits : Int) else value digits)
      else none
    else none

/-- The digits after a point, and the rest; no point, no digits. -/
def takeFraction : List Char → List Char × List Char
  | '.' :: cs => (cs.takeWhile isDigit, cs.dropWhile isDigit)
  | cs => ([], cs)

/-- Read a number without its sign. -/
def readUnsigned (cs : List Char) : Option Float :=
  let word := String.ofList (cs.map Char.toLower)
  if word = "inf" ∨ word = "infinity" then some infinity
  else if word = "nan" then some undefined
  else
    let whole := cs.takeWhile isDigit
    let (fraction, rest) := takeFraction (cs.dropWhile isDigit)
    if whole = [] ∧ fraction = [] then none
    else (readPower rest).map fun power =>
      nearest (value (whole ++ fraction)) (power - fraction.length)

/-- Read a number. -/
def read (cs : List Char) : Except Error Float :=
  if cs = [] then .error .empty
  else
    let (negative, rest) := takeSign cs
    match readUnsigned rest with
    | some x => .ok (signed negative x)
    | none => .error .malformed

end Microbench.Decimal
