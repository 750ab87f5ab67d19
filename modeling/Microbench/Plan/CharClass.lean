/-!
# Classes of characters

The sets of characters that one position of a pattern may take.

## Main definitions

* `CharClass` — a class.
* `CharClass.contains` — its members.
* `CharClass.digit`, `CharClass.space`, `CharClass.word` — the classes with a name.
-/

namespace Microbench

/-- A class of characters. -/
inductive CharClass
  /-- No character. -/
  | none
  /-- The characters from one to another. -/
  | range (low high : Char)
  /-- The characters of either class. -/
  | union (a b : CharClass)
  /-- The characters that are not in a class. -/
  | complement (a : CharClass)
  /-- The characters of a class and those that differ from them by letter case only. -/
  | anyCase (a : CharClass)
  deriving DecidableEq, Repr, Inhabited

/-- The other forms of a letter: small for capital and capital for small, as far as the Latin
letters go.  The micro sign goes with the Greek letter. -/
def Text.otherCases (c : Char) : List Char :=
  let n := c.toNat
  if c.isUpper ∨ (0xc0 ≤ n ∧ n ≤ 0xde ∧ n ≠ 0xd7) then [Char.ofNat (n + 32)]
  else if c = 'k' then ['K', '\u212a']
  else if c = 's' then ['S', '\u017f']
  else if c = '\u00e5' then ['\u00c5', '\u212b']
  else if c.isLower ∨ (0xe0 ≤ n ∧ n ≤ 0xfe ∧ n ≠ 0xf7) then [Char.ofNat (n - 32)]
  else if n = 0xff then ['\u0178']
  else if n = 0xb5 then ['\u039c', '\u03bc']
  else if n = 0x3bc then ['\u00b5', '\u039c']
  else if n = 0x39c then ['\u00b5', '\u03bc']
  else []

namespace CharClass

/-- Whether a character is in a class. -/
def contains : CharClass → Char → Bool
  | none, _ => false
  | range low high, c => low ≤ c && c ≤ high
  | union a b, c => a.contains c || b.contains c
  | complement a, c => !a.contains c
  | anyCase a, c => a.contains c || (Text.otherCases c).any a.contains

/-- The class of one character. -/
def single (c : Char) : CharClass := range c c

/-- The characters of any of some classes. -/
def unions (classes : List CharClass) : CharClass := classes.foldr union none

/-- All characters. -/
def any : CharClass := complement none

/-- All characters but the line feed. -/
def anyInLine : CharClass := complement (single '\n')

/-- Digits. -/
def digit : CharClass := range '0' '9'

/-- White space. -/
def space : CharClass :=
  unions [range '\t' '\x0d', single ' ', single '\u0085', single '\u00a0', single '\u1680',
    range '\u2000' '\u200a', single '\u2028', single '\u2029', single '\u202f', single '\u205f',
    single '\u3000']

/-- Letters: those of the Latin and the Greek alphabet. -/
def letter : CharClass :=
  unions [range 'a' 'z', range 'A' 'Z', single '\u00aa', single '\u00b5', single '\u00ba',
    range '\u00c0' '\u00d6', range '\u00d8' '\u00f6', range '\u00f8' '\u02c1',
    range '\u0386' '\u0386', range '\u0388' '\u03ff']

/-- The characters of words. -/
def word : CharClass := unions [letter, digit, single '_']

end CharClass

end Microbench
