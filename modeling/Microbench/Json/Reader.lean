import Microbench.Json.Value

/-!
# Reading structured values

The grammar of the JSON data format, read from left to right.

## Main definitions

* `Json.Reader.value` — one value and the rest of the text; `fuel` bounds the nesting and is
  never used up when it starts above the length of the text.
* `Json.parse` — a whole text, with blanks allowed around the value.
-/

namespace Microbench.Json.Reader

/-- The blanks of the format. -/
def isSpace (c : Char) : Bool := c == ' ' || c == '\n' || c == '\t' || c == '\r'

/-- Drop the blanks at the start. -/
def skip (cs : List Char) : List Char := cs.dropWhile isSpace

/-- What a string literal holds: a character, or half of a surrogate pair. -/
inductive Piece
  /-- A character. -/
  | char (c : Char)
  /-- The first half of a pair. -/
  | high (n : Nat)
  /-- The second half of a pair. -/
  | low (n : Nat)

/-- The value of a hexadecimal digit. -/
def hexDigit? (c : Char) : Option Nat :=
  let n := c.toNat
  if 48 ≤ n ∧ n ≤ 57 then some (n - 48)
  else if 97 ≤ n ∧ n ≤ 102 then some (n - 87)
  else if 65 ≤ n ∧ n ≤ 70 then some (n - 55)
  else none

/-- What a UTF-16 unit stands for. -/
def pieceOfUnit (n : Nat) : Piece :=
  if 0xd800 ≤ n ∧ n < 0xdc00 then .high n
  else if 0xdc00 ≤ n ∧ n < 0xe000 then .low n
  else .char (Char.ofNat n)

/-- What an escape letter other than `u` stands for. -/
def escaped? : Char → Option Char
  | '"' => some '"'
  | '\\' => some '\\'
  | '/' => some '/'
  | 'b' => some '\x08'
  | 'f' => some '\x0c'
  | 'n' => some '\n'
  | 'r' => some '\r'
  | 't' => some '\t'
  | _ => none

/-- Read a string literal after its opening quote; the pieces come last first. -/
def pieces (acc : List Piece) : List Char → Option (List Piece × List Char)
  | [] => none
  | '"' :: cs => some (acc, cs)
  | '\\' :: 'u' :: a :: b :: c :: d :: cs =>
    match hexDigit? a, hexDigit? b, hexDigit? c, hexDigit? d with
    | some a, some b, some c, some d =>
      pieces (pieceOfUnit (((a * 16 + b) * 16 + c) * 16 + d) :: acc) cs
    | _, _, _, _ => none
  | '\\' :: e :: cs =>
    match escaped? e with
    | some c => pieces (.char c :: acc) cs
    | none => none
  | c :: cs => if c.toNat < 32 ∨ c = '\\' then none else pieces (.char c :: acc) cs

/-- Put pieces together, given last first; `none` if half of a pair stands alone. -/
def assemble (acc : List Char) : List Piece → Option (List Char)
  | [] => some acc
  | .char c :: rest => assemble (c :: acc) rest
  | .low l :: .high h :: rest =>
    assemble (Char.ofNat (0x10000 + (h - 0xd800) * 0x400 + (l - 0xdc00)) :: acc) rest
  | _ => none

/-- Read a string literal after its opening quote; the text is `none` if half of a pair
stands alone in it. -/
def stringLiteral (cs : List Char) : Option (Option String × List Char) :=
  (pieces [] cs).map fun (ps, rest) => ((assemble [] ps).map String.ofList, rest)

/-- The digits at the start, and the rest. -/
def digits (cs : List Char) : List Char × List Char :=
  (cs.takeWhile Decimal.isDigit, cs.dropWhile Decimal.isDigit)

/-- The digits before the point: a zero alone, or digits that do not start with one. -/
def wholeDigits (cs : List Char) : Option (List Char × List Char) :=
  match digits cs with
  | ([], _) => none
  | ('0' :: _ :: _, _) => none
  | found => some found

/-- The digits after a point, if there is a point. -/
def fractionDigits : List Char → Option (Option (List Char) × List Char)
  | '.' :: cs =>
    match digits cs with
    | ([], _) => none
    | (ds, rest) => some (some ds, rest)
  | cs => some (none, cs)

/-- The power of ten, if there is one. -/
def powerDigits : List Char → Option (Option (Bool × List Char) × List Char)
  | c :: cs =>
    if c = 'e' ∨ c = 'E' then
      let (negative, cs) := Decimal.takeSign cs
      match digits cs with
      | ([], _) => none
      | (ds, rest) => some (some (negative, ds), rest)
    else some (none, c :: cs)
  | [] => some (none, [])

/-- Read a number. -/
def numeral (cs : List Char) : Option (Numeral × List Char) := do
  let (negative, cs) := match cs with
    | '-' :: cs => (true, cs)
    | cs => (false, cs)
  let (whole, cs) ← wholeDigits cs
  let (fraction, cs) ← fractionDigits cs
  let (power, cs) ← powerDigits cs
  return (⟨negative, whole, fraction, power⟩, cs)

/-- The members of an object, given last first, as a value; a name that is no text spoils it. -/
def objectOf (members : List (Option String × Json)) : Json :=
  match members.reverse.mapM fun m => m.1.map fun k => (k, m.2) with
  | some ms => .object ms
  | none => .malformed

mutual

/-- Read one value. -/
def value (fuel : Nat) (cs : List Char) : Option (Json × List Char) :=
  match fuel with
  | 0 => none
  | fuel + 1 =>
    match skip cs with
    | 'n' :: 'u' :: 'l' :: 'l' :: rest => some (.null, rest)
    | 't' :: 'r' :: 'u' :: 'e' :: rest => some (.bool true, rest)
    | 'f' :: 'a' :: 'l' :: 's' :: 'e' :: rest => some (.bool false, rest)
    | '"' :: rest =>
      (stringLiteral rest).map fun (s, rest) =>
        ((match s with
          | some s => .string s
          | none => .malformed), rest)
    | '[' :: rest =>
      match skip rest with
      | ']' :: rest => some (.array [], rest)
      | rest => items fuel [] rest
    | '\x7b' :: rest =>
      match skip rest with
      | '\x7d' :: rest => some (.object [], rest)
      | rest => members fuel [] rest
    | rest => (numeral rest).map fun (n, rest) => (.number n, rest)

/-- Read the items of an array up to its end; those read come last first. -/
def items (fuel : Nat) (acc : List Json) (cs : List Char) : Option (Json × List Char) :=
  match fuel with
  | 0 => none
  | fuel + 1 =>
    match value fuel cs with
    | none => none
    | some (v, rest) =>
      match skip rest with
      | ',' :: rest => items fuel (v :: acc) rest
      | ']' :: rest => some (.array (v :: acc).reverse, rest)
      | _ => none

/-- Read the members of an object up to its end; those read come last first. -/
def members (fuel : Nat) (acc : List (Option String × Json)) (cs : List Char) :
    Option (Json × List Char) :=
  match fuel with
  | 0 => none
  | fuel + 1 =>
    match skip cs with
    | '"' :: rest =>
      match stringLiteral rest with
      | none => none
      | some (k, rest) =>
        match skip rest with
        | ':' :: rest =>
          match value fuel rest with
          | none => none
          | some (v, rest) =>
            match skip rest with
            | ',' :: rest => members fuel ((k, v) :: acc) rest
            | '\x7d' :: rest => some (objectOf ((k, v) :: acc), rest)
            | _ => none
        | _ => none
    | _ => none

end

end Reader

/-- Read a value from a whole text. -/
def parse (cs : List Char) : Option Json :=
  match Reader.value (2 * cs.length + 2) cs with
  | some (v, rest) => if Reader.skip rest = [] then some v else none
  | none => none

end Microbench.Json
