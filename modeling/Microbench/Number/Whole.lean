/-!
# Whole numbers as text

Reading whole numbers of a bounded range in any base up to sixteen, and the four
ways in which that fails.  Digits are taken from the left, and a value that has
left the range is reported before a later character that is no digit.

## Main definitions

* `Whole.Error` — why a text is no number of the range.
* `Whole.readNat`, `Whole.readInt` — natural numbers below a bound, integers between two.
* `Whole.text` — the decimal text of a natural number.
* `Whole.total` — the sum of natural numbers.
-/

namespace Microbench.Whole

/-- Why a text is not a whole number of the range asked for. -/
inductive Error
  /-- There is no character at all. -/
  | empty
  /-- A character is not a digit, or there is a sign and nothing else. -/
  | badDigit
  /-- The number is above the range. -/
  | tooLarge
  /-- The number is below the range. -/
  | tooSmall
  deriving DecidableEq, Repr, Inhabited

/-- The wording of an error. -/
def Error.message : Error → String
  | .empty => "cannot parse integer from empty string"
  | .badDigit => "invalid digit found in string"
  | .tooLarge => "number too large to fit in target type"
  | .tooSmall => "number too small to fit in target type"

/-- The value of a digit in a base. -/
def digit? (base : Nat) (c : Char) : Option Nat :=
  let n := c.toNat
  let value :=
    if 48 ≤ n ∧ n ≤ 57 then some (n - 48)
    else if 97 ≤ n ∧ n ≤ 122 then some (n - 87)
    else if 65 ≤ n ∧ n ≤ 90 then some (n - 55)
    else none
  value.filter (· < base)

/-- Read digits onto a number: `limit` is the largest value allowed, and `overflow`
names the error when it is exceeded. -/
def readDigits (base limit : Nat) (overflow : Error) : Nat → List Char → Except Error Nat
  | acc, [] => .ok acc
  | acc, c :: cs =>
    match digit? base c with
    | none => .error .badDigit
    | some d =>
      let next := acc * base + d
      if limit < next then .error overflow else readDigits base limit overflow next cs

/-- Read a natural number of at most `limit`; a plus sign may stand in front. -/
def readNat (base limit : Nat) : List Char → Except Error Nat
  | [] => .error .empty
  | ['+'] => .error .badDigit
  | ['-'] => .error .badDigit
  | '+' :: cs => readDigits base limit .tooLarge 0 cs
  | cs => readDigits base limit .tooLarge 0 cs

/-- Read an integer from `-(limit + 1)` to `limit`; a sign may stand in front. -/
def readInt (limit : Nat) : List Char → Except Error Int
  | [] => .error .empty
  | ['+'] => .error .badDigit
  | ['-'] => .error .badDigit
  | '-' :: cs => (readDigits 10 (limit + 1) .tooSmall 0 cs).map fun n => -(n : Int)
  | '+' :: cs => (readDigits 10 limit .tooLarge 0 cs).map Int.ofNat
  | cs => (readDigits 10 limit .tooLarge 0 cs).map Int.ofNat

/-- The largest value of an eight-bit word. -/
def max8 : Nat := 0xff

/-- The largest value of a 32-bit word. -/
def max32 : Nat := 0xffffffff

/-- The largest value of a 64-bit word. -/
def max64 : Nat := 0xffffffffffffffff

/-- The largest value of a signed 64-bit word. -/
def maxSigned64 : Nat := 0x7fffffffffffffff

/-- Read a natural number of 32 bits in base ten. -/
def read32 (s : String) : Except Error UInt32 :=
  (readNat 10 max32 s.toList).map UInt32.ofNat

/-- Read a natural number of 64 bits in base ten. -/
def read64 (s : String) : Except Error Nat := readNat 10 max64 s.toList

/-- The decimal text of a natural number. -/
def text (n : Nat) : String := String.ofList (Nat.toDigits 10 n)

/-- The sum of natural numbers. -/
def total : List Nat → Nat
  | [] => 0
  | n :: ns => n + total ns

end Microbench.Whole
