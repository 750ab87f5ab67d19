import Microbench.Text.Unprintable

/-!
# Quoted text

The form in which messages quote a text that a reader gave: between double
quotes, with the characters that would break the line or the quotes escaped.
Control characters, and the characters without a glyph of their own, are written
by code point; everything else stands as it is.

## Main definitions

* `escapeChar` — how one character is written between the quotes.
* `quote` — the whole text, quotes included.
-/

namespace Microbench.Text

/-- The hexadecimal digits of a code point, lower case and without leading zeros. -/
def hexDigits (n : Nat) : List Char := Nat.toDigits 16 n

/-- The characters with the Unicode property `Control`. -/
def isControl (c : Char) : Bool := c.toNat < 32 || (127 ≤ c.toNat && c.toNat < 160)

/-- How a character is written inside quotes. -/
def escapeChar (c : Char) : List Char :=
  if c = '"' then ['\\', '"']
  else if c = '\\' then ['\\', '\\']
  else if c = '\n' then ['\\', 'n']
  else if c = '\r' then ['\\', 'r']
  else if c = '\t' then ['\\', 't']
  else if c = '\x00' then ['\\', '0']
  else if isControl c || isUnprintable c then ['\\', 'u', '\x7b'] ++ hexDigits c.toNat ++ ['\x7d']
  else [c]

/-- A text between double quotes. -/
def quote (s : String) : String :=
  String.ofList ('"' :: (s.toList.flatMap escapeChar ++ ['"']))

end Microbench.Text
