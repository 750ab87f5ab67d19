import Microbench.Number.Binary

/-!
# The shortest decimal that reads back

A floating point number stands for an interval of reals: those that round to it.
Its shortest text has the fewest significant digits of any decimal in that
interval, and of those with that many digits it is the nearest to the number.

## Main definitions

* `Shortest.digits` — that decimal, as digits and a power of ten.
* `Shortest.layout` — where the point and the exponent of the text stand.
* `Shortest.text` — the text of a finite number.
-/

namespace Microbench.Shortest

/-- The number `scaled * 10 ^ power` of a decimal grid, compared in exact arithmetic
with the number `4 * mantissa * 2 ^ (exponent - 2)` and the ends of its interval. -/
structure Interval where
  /-- The lower end, in quarter units of the last place. -/
  low : Nat
  /-- The number itself, in quarter units of the last place. -/
  mid : Nat
  /-- The upper end, in quarter units of the last place. -/
  high : Nat
  /-- The exponent of a quarter unit. -/
  exponent : Int
  /-- Whether the ends belong to the interval. -/
  closed : Bool
  deriving Repr

/-- The interval of the reals that round to `mantissa * 2 ^ exponent`; below a power of
two the neighbours are nearer. -/
def Interval.of (mantissa : Nat) (exponent : Int) : Interval :=
  let narrow := mantissa = Binary.fractionCount ∧ exponent ≠ Binary.leastExponent
  { low := 4 * mantissa - (if narrow then 1 else 2)
    mid := 4 * mantissa
    high := 4 * mantissa + 2
    exponent := exponent - 2
    closed := mantissa % 2 = 0 }

/-- The two numbers `n * 2 ^ e` and `d * 10 ^ k`, for given `e` and `k`, as whole multiples
of one unit: the factor of `n` and the factor of `d`. -/
def factors (e k : Int) : Nat × Nat :=
  ((if 0 ≤ e then Nat.pow 2 e.toNat else 1) * (if k < 0 then Nat.pow 10 (-k).toNat else 1),
   (if e < 0 then Nat.pow 2 (-e).toNat else 1) * (if 0 ≤ k then Nat.pow 10 k.toNat else 1))

/-- The decimal with unit `10 ^ k` inside the interval that is nearest to its number. -/
def Interval.nearest? (i : Interval) (k : Int) : Option Nat :=
  let (fn, fd) := factors i.exponent k
  let mid := i.mid * fn
  let inside (d : Nat) : Bool :=
    if i.closed then decide (i.low * fn ≤ d * fd ∧ d * fd ≤ i.high * fn)
    else decide (i.low * fn < d * fd ∧ d * fd < i.high * fn)
  let below := mid / fd
  let above := below + 1
  let down := mid - below * fd
  let up := above * fd - mid
  let first := if up < down ∨ (up = down ∧ below % 2 = 1) then above else below
  let second := if first = below then above else below
  if inside first then some first else if inside second then some second else none

/-- Try the units from `10 ^ k` downwards; the list bounds their number. -/
def Interval.search (i : Interval) (k : Int) : Nat → Option (Nat × Int)
  | 0 => none
  | fuel + 1 =>
    match i.nearest? k with
    | some d => if d = 0 then i.search (k - 1) fuel else some (d, k)
    | none => i.search (k - 1) fuel

/-- The number of decimal digits of a natural number. -/
def digitCount (n : Nat) : Nat := (Nat.toDigits 10 n).length

/-- A power of ten of which the number has at most one digit. -/
def topPower (mantissa : Nat) (exponent : Int) : Int :=
  if 0 ≤ exponent then digitCount (mantissa * Nat.pow 2 exponent.toNat)
  else
    let scale := (-exponent).toNat
    (digitCount (mantissa * Nat.pow 10 scale / Nat.pow 2 scale) : Int) - scale

/-- Drop the zeros at the end of a decimal. -/
def stripZeros (d : Nat) (k : Int) : Nat → Nat × Int
  | 0 => (d, k)
  | fuel + 1 => if d ≠ 0 ∧ d % 10 = 0 then stripZeros (d / 10) (k + 1) fuel else (d, k)

/-- The shortest decimal `d * 10 ^ k` that rounds to `mantissa * 2 ^ exponent`, unless that is
zero. -/
def digits (mantissa : Nat) (exponent : Int) : Nat × Int :=
  match (Interval.of mantissa exponent).search (topPower mantissa exponent) 40 with
  | some (d, k) => stripZeros d k 20
  | none => (mantissa, 0)

/-- Positional text up to sixteen digits before the point and four zeros after it,
otherwise one digit before the point and a signed power of ten. -/
def layout (ds : List Char) (k : Int) : List Char :=
  let point := (ds.length : Int) + k
  if 0 ≤ k ∧ point ≤ 16 then ds ++ List.replicate k.toNat '0' ++ ['.', '0']
  else if 0 < point ∧ point ≤ 16 then ds.take point.toNat ++ '.' :: ds.drop point.toNat
  else if -5 < point ∧ point ≤ 0 then
    ['0', '.'] ++ List.replicate (-point).toNat '0' ++ ds
  else
    let power := point - 1
    let sign := if power < 0 then ['-'] else ['+']
    let tail := 'e' :: (sign ++ Nat.toDigits 10 power.natAbs)
    match ds with
    | [d] => d :: tail
    | ds => ds.take 1 ++ '.' :: ds.drop 1 ++ tail

/-- The text of a finite number; `none` for the others. -/
def text (x : Float) : Option String :=
  match Binary.Parts.ofFloat x with
  | .finite negative mantissa exponent =>
    let sign := if negative then ['-'] else []
    if mantissa = 0 then some (String.ofList (sign ++ ['0', '.', '0']))
    else
      let (d, k) := digits mantissa exponent
      some (String.ofList (sign ++ layout (Nat.toDigits 10 d) k))
  | _ => none

end Microbench.Shortest
