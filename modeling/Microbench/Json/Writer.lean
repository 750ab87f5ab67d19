import Microbench.Json.Value
import Microbench.Text.Quoted

/-!
# Writing structured values

The compact text of a value: no blanks, members in their order, and only the
characters escaped that must be.  A number that is not finite is written as no
value, since the format has no word for it.

## Main definitions

* `Json.ofFloat`, `Json.ofNat` — numbers as values.
* `Json.chars` — the text of a value.
-/

namespace Microbench.Json

/-- A natural number. -/
def ofNat (n : Nat) : Json := .number (.ofNat n)

/-- A measurement: the shortest decimal that reads back. -/
def ofFloat (x : Float) : Json :=
  match Shortest.text x with
  | none => .null
  | some s =>
    match s.toList with
    | '-' :: cs => .number ⟨true, cs, none, none⟩
    | cs => .number ⟨false, cs, none, none⟩

/-- A code point below 256 as two hexadecimal digits. -/
def hexByte (n : Nat) : List Char :=
  [Nat.digitChar (n / 16), Nat.digitChar (n % 16)]

/-- How a character stands in a string literal. -/
def escapeChar (c : Char) : List Char :=
  if c = '"' then ['\\', '"']
  else if c = '\\' then ['\\', '\\']
  else if c = '\x08' then ['\\', 'b']
  else if c = '\x0c' then ['\\', 'f']
  else if c = '\n' then ['\\', 'n']
  else if c = '\r' then ['\\', 'r']
  else if c = '\t' then ['\\', 't']
  else if c.toNat < 32 then ['\\', 'u', '0', '0'] ++ hexByte c.toNat
  else [c]

/-- A string literal. -/
def quoted (s : String) : List Char := '"' :: (s.toList.flatMap escapeChar ++ ['"'])

mutual

/-- The text of a value. -/
def chars : Json → List Char
  | null => "null".toList
  | malformed => "null".toList
  | bool true => "true".toList
  | bool false => "false".toList
  | number n => n.chars
  | string s => quoted s
  | array [] => ['[', ']']
  | array (v :: vs) => '[' :: (chars v ++ itemsChars vs)
  | object [] => ['\x7b', '\x7d']
  | object ((k, v) :: ms) => '\x7b' :: (quoted k ++ ':' :: (chars v ++ membersChars ms))

/-- The items of an array after the first, and its end. -/
def itemsChars : List Json → List Char
  | [] => [']']
  | v :: vs => ',' :: (chars v ++ itemsChars vs)

/-- The members of an object after the first, and its end. -/
def membersChars : List (String × Json) → List Char
  | [] => ['\x7d']
  | (k, v) :: ms => ',' :: (quoted k ++ ':' :: (chars v ++ membersChars ms))

end

/-- The text of a value. -/
def text (v : Json) : String := String.ofList v.chars

end Microbench.Json
