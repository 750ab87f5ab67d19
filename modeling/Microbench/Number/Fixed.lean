import Microbench.Number.Binary

/-!
# Numbers with a fixed count of decimal places

A number is written with as many decimal places as asked for: its exact value is
rounded to the nearest such decimal, a half to the even neighbour.

## Main definitions

* `roundDiv` — the whole number nearest to a quotient, a half to the even neighbour.
* `places` — a whole number of units of the last place, as text.
* `fixed` — the text of a floating point number.
-/

namespace Microbench

/-- The whole number nearest to `num / den`; a half goes to the even neighbour. -/
def roundDiv (num den : Nat) : Nat :=
  let q := num / den
  let r := num % den
  if 2 * r < den then q
  else if den < 2 * r then q + 1
  else if q % 2 = 0 then q else q + 1

/-- A whole number of units of the last of `count` decimal places. -/
def places (count units : Nat) : List Char :=
  let digits := Nat.toDigits 10 units
  let padded := List.replicate (count + 1 - digits.length) '0' ++ digits
  let whole := padded.take (padded.length - count)
  if count = 0 then whole else whole ++ '.' :: padded.drop (padded.length - count)

/-- The text of a number with `count` decimal places. -/
def fixed (count : Nat) (x : Float) : String :=
  match Binary.Parts.ofFloat x with
  | .undefined => "NaN"
  | .infinite negative => if negative then "-inf" else "inf"
  | .finite negative mantissa exponent =>
    let units :=
      if 0 ≤ exponent then mantissa * Nat.pow 2 exponent.toNat * Nat.pow 10 count
      else roundDiv (mantissa * Nat.pow 10 count) (Nat.pow 2 (-exponent).toNat)
    String.ofList ((if negative then ['-'] else []) ++ places count units)

/-- Rounding is within half a unit of the quotient. -/
theorem roundDiv_within (num : Nat) {den : Nat} (h : 0 < den) :
    2 * num ≤ 2 * (roundDiv num den * den) + den ∧
      2 * (roundDiv num den * den) ≤ 2 * num + den := by
  have hdiv := Nat.div_add_mod num den
  have hlt := Nat.mod_lt num h
  have hc : den * (num / den) = num / den * den := Nat.mul_comm _ _
  have hs : (num / den + 1) * den = num / den * den + den := Nat.succ_mul _ _
  unfold roundDiv
  dsimp only
  split
  · omega
  · split
    · omega
    · split <;> omega

end Microbench
