import Microbench.Number.Decimal
import Microbench.Number.Shortest
import Microbench.Number.Whole

/-!
# Structured values

The values of the JSON data format.  A number is kept as it is written, since
only the place where it is used tells whether it is to be a count or a
measurement.

## Main definitions

* `Numeral` — a number as written; `Numeral.toNat?` and `Numeral.toFloat?` give it a meaning.
* `Json` — a value.
-/

namespace Microbench

/-- A number as it is written. -/
structure Numeral where
  /-- Whether a minus sign stands in front. -/
  negative : Bool
  /-- The digits before the point. -/
  whole : List Char
  /-- The digits after the point. -/
  fraction : Option (List Char) := none
  /-- The sign and the digits of the power of ten. -/
  power : Option (Bool × List Char) := none
  deriving DecidableEq, Repr

namespace Numeral

/-- The largest coefficient that is read exactly. -/
def maxCoefficient : Nat := Whole.max64

/-- Read digits onto a coefficient until it would no longer be exact: the coefficient, and the
digits that are left. -/
def accumulate : Nat → List Char → Nat × List Char
  | acc, [] => (acc, [])
  | acc, c :: cs =>
    let next := acc * 10 + (c.toNat - 48)
    if maxCoefficient < next then (acc, c :: cs) else accumulate next cs

/-- The number as a natural number, if it is written as one and at most `limit`. -/
def toNat? (limit : Nat) (n : Numeral) : Option Nat :=
  if n.negative ∨ n.fraction.isSome ∨ n.power.isSome then none
  else
    let value := Decimal.value n.whole
    if value ≤ min limit maxCoefficient then some value else none

/-- The exponent from which on powers of ten are beyond the range. -/
def topPower : Nat := 308

/-- Divide by powers of ten until the result is zero or the power is used up. -/
def scaleDown (x : Float) (power : Nat) : Float :=
  if topPower < power then
    if x == 0.0 then x else scaleDown (x / Decimal.nearest 1 topPower) (power - topPower)
  else x / Decimal.nearest 1 power
termination_by power
decreasing_by simp only [topPower] at *; omega

/-- The number `coefficient * 10 ^ exponent`, the coefficient first rounded and then scaled;
`none` beyond the range. -/
def scaled (coefficient : Nat) (exponent : Int) : Option Float :=
  let x := Float.ofNat coefficient
  if exponent < 0 then some (scaleDown x (-exponent).toNat)
  else if (topPower : Int) < exponent then if x == 0.0 then some x else none
  else
    let y := x * Decimal.nearest 1 exponent
    if Binary.isFinite y then some y else none

/-- The largest power of ten that is told apart from larger ones. -/
def maxPower : Nat := 0x7fffffff

/-- The least exponent there is. -/
def minExponent : Int := -2147483648

/-- The greatest exponent there is. -/
def maxExponent : Int := 2147483647

/-- An exponent kept within its bounds. -/
def saturate (e : Int) : Int := max minExponent (min maxExponent e)

/-- A coefficient with an exponent and the written power of ten, without its sign. -/
def applyPower (coefficient : Nat) (exponent : Int) : Option (Bool × List Char) → Option Float
  | none => scaled coefficient exponent
  | some (negative, digits) =>
    let power := Decimal.value digits
    if maxPower < power then
      if coefficient ≠ 0 ∧ !negative then none else some 0.0
    else scaled coefficient (saturate (if negative then exponent - power else exponent + power))

/-- The number without its sign.  Digits beyond those of an exact coefficient only count
before the point. -/
def magnitude? (n : Numeral) : Option Float :=
  let (coefficient, rest) := accumulate 0 n.whole
  match n.fraction with
  | none => applyPower coefficient rest.length n.power
  | some digits =>
    let (longer, dropped) := accumulate coefficient digits
    applyPower longer (rest.length - (digits.length - dropped.length : Nat)) n.power

/-- The number as a measurement; `none` beyond the range. -/
def toFloat? (n : Numeral) : Option Float := n.magnitude?.map (Decimal.signed n.negative)

/-- A natural number, written. -/
def ofNat (n : Nat) : Numeral := ⟨false, Nat.toDigits 10 n, none, none⟩

/-- The characters of a number. -/
def chars (n : Numeral) : List Char :=
  (if n.negative then ['-'] else []) ++ n.whole ++
    (match n.fraction with
      | none => []
      | some digits => '.' :: digits) ++
    match n.power with
    | none => []
    | some (negative, digits) => 'e' :: ((if negative then '-' else '+') :: digits)

end Numeral

/-- A value. -/
inductive Json
  /-- No value. -/
  | null
  /-- A truth value. -/
  | bool (b : Bool)
  /-- A number. -/
  | number (n : Numeral)
  /-- A text. -/
  | string (s : String)
  /-- Values in order. -/
  | array (items : List Json)
  /-- Named values in the order in which they are written; a name may occur again. -/
  | object (members : List (String × Json))
  /-- What is written as a text or an object but holds half of a surrogate pair. -/
  | malformed
  deriving Inhabited

end Microbench
