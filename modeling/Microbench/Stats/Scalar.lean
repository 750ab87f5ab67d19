/-!
# Arithmetic on samples

What the statistics of this library ask of a sample: the four operations, an
order test, and a few constants.  Floating point numbers are samples; so are the
elements of an ordered field, in which the laws of the statistics are exact.

## Main definitions

* `Scalar` — the operations.
* `Scalar.sum`, `Scalar.ceilWhole` — what is built from them here.
-/

namespace Microbench

/-- The arithmetic of samples. -/
class Scalar (α : Type) extends Add α, Sub α, Mul α, Div α where
  /-- A natural number as a sample. -/
  ofCount : Nat → α
  /-- The sum of no samples. -/
  nothing : α
  /-- The value of a statistic that does not exist. -/
  undefined : α
  /-- Whether a value is not a number. -/
  isUndefined : α → Bool
  /-- Whether one value is below another. -/
  less : α → α → Bool
  /-- The whole part of a value, zero for one that is negative or no number. -/
  wholePart : α → Nat

namespace Scalar

/-- Floating point samples.  Their sum starts at the negative zero, which leaves every
first term as it is. -/
instance : Scalar Float where
  ofCount := Float.ofNat
  nothing := -0.0
  undefined := 0.0 / 0.0
  isUndefined x := !(x == x)
  less x y := x < y
  wholePart x := x.toUInt64.toNat

variable {α : Type} [Scalar α]

/-- The sum of samples, from the left. -/
def sum (xs : List α) : α := xs.foldl (· + ·) nothing

/-- The least natural number that is not below a value. -/
def ceilWhole (x : α) : Nat :=
  let n := wholePart x
  if less (ofCount n) x then n + 1 else n

/-- The smaller of two values; what is no number gives way. -/
def smaller (x y : α) : α := if isUndefined x then y else if less y x then y else x

/-- The greater of two values; what is no number gives way. -/
def greater (x y : α) : α := if isUndefined x then y else if less x y then y else x

end Scalar

end Microbench
