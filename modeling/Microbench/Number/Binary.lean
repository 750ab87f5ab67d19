/-!
# Binary floating point numbers taken apart

A 64-bit floating point number is a sign and a whole number of units in the last
place, or it is infinite, or it is no number.  What prints or compares such
numbers exactly works on these parts in whole arithmetic.

## Main definitions

* `Parts` — the parts.
* `Parts.ofFloat` — take a number apart.
* `isNegative`, `isFinite`, `magnitude` — the sign bit, finiteness and the number without its sign.
-/

namespace Microbench.Binary

/-- The parts of a floating point number. -/
inductive Parts
  /-- No number. -/
  | undefined
  /-- An infinity; the flag tells the negative one. -/
  | infinite (negative : Bool)
  /-- The number `mantissa * 2 ^ exponent`, negated if the flag is set. -/
  | finite (negative : Bool) (mantissa : Nat) (exponent : Int)
  deriving DecidableEq, Repr, Inhabited

/-- The value of the sign bit. -/
def signUnit : Nat := 0x8000000000000000

/-- How many fractions there are; the fraction is what is stored of a mantissa. -/
def fractionCount : Nat := 0x10000000000000

/-- How many exponents there are. -/
def exponentCount : Nat := 0x800

/-- The exponent, as it is stored, of what is not finite. -/
def topExponent : Nat := exponentCount - 1

/-- The exponent of the unit of the smallest numbers. -/
def leastExponent : Int := -1074

/-- The parts of a number given by its bits. -/
def Parts.ofBits (bits : Nat) : Parts :=
  let negative := bits / signUnit % 2 == 1
  let field := bits / fractionCount % exponentCount
  let fraction := bits % fractionCount
  if field = topExponent then
    if fraction = 0 then .infinite negative else .undefined
  else if field = 0 then .finite negative fraction leastExponent
  else .finite negative (fractionCount + fraction) (leastExponent + (field - 1 : Nat))

/-- The parts of a number. -/
def Parts.ofFloat (x : Float) : Parts := Parts.ofBits x.toBits.toNat

/-- Whether the sign bit is set. -/
def isNegative (x : Float) : Bool := x.toBits.toNat / signUnit == 1

/-- Whether a number is neither infinite nor undefined. -/
def isFinite (x : Float) : Bool :=
  x.toBits.toNat / fractionCount % exponentCount != topExponent

/-- Whether this is no number. -/
def isUndefined (x : Float) : Bool :=
  x.toBits.toNat / fractionCount % exponentCount == topExponent &&
    x.toBits.toNat % fractionCount != 0

/-- The number with its sign bit cleared. -/
def magnitude (x : Float) : Float := Float.ofBits (UInt64.ofNat (x.toBits.toNat % signUnit))

end Microbench.Binary
