import Microbench.Config.Toml
import Microbench.Number.Decimal
import Microbench.Text.Pieces

/-!
# Reading configuration documents

The grammar of TOML documents, read from left to right.  Every reader gives what
it has read and the rest of the text, or nothing if the text does not fit.

## Main definitions

* `TomlReader.value` — a value.
* `TomlReader.statement` — a header or a key with its value.
* `Toml.parse` — a whole document.
-/

namespace Microbench.TomlReader

/-- A reader. -/
abbrev Reader (α : Type) := List Char → Option (α × List Char)

/-- Whether a character is a blank within a line. -/
def isBlank (c : Char) : Bool := c == ' ' || c == '\t'

/-- Whether a control character must not stand in a comment or a string. -/
def isForbidden (c : Char) : Bool := (c.toNat < 32 && c != '\t') || c.toNat == 127

/-- Drop the blanks at the start. -/
def skip (cs : List Char) : List Char := cs.dropWhile isBlank

/-- Drop a comment up to the end of its line. -/
def comment : List Char → Option (List Char)
  | '#' :: cs =>
    match cs.dropWhile fun c => !isForbidden c with
    | [] => some []
    | '\n' :: rest => some ('\n' :: rest)
    | '\r' :: '\n' :: rest => some ('\n' :: rest)
    | _ => none
  | cs => some cs

/-- The end of a line, or of the text. -/
def lineEnd : List Char → Option (List Char)
  | [] => some []
  | '\n' :: cs => some cs
  | '\r' :: '\n' :: cs => some cs
  | _ => none

/-- Drop blanks, comments and line ends; the fuel is the length of the text. -/
def skipLines : Nat → List Char → Option (List Char)
  | 0, cs => some cs
  | fuel + 1, cs =>
    match skip cs with
    | '#' :: rest => comment ('#' :: rest) >>= skipLines fuel
    | '\n' :: rest => skipLines fuel rest
    | '\r' :: '\n' :: rest => skipLines fuel rest
    | rest => some rest

/-! ### Strings -/

/-- A code point written with hexadecimal digits. -/
def codePoint (digits : List Char) : Option Char := do
  let values ← digits.mapM fun c =>
    let n := c.toNat
    if 48 ≤ n ∧ n ≤ 57 then some (n - 48)
    else if 97 ≤ n ∧ n ≤ 102 then some (n - 87)
    else if 65 ≤ n ∧ n ≤ 70 then some (n - 55)
    else none
  let n := values.foldl (fun acc d => acc * 16 + d) 0
  if n < 0xd800 ∨ (0xdfff < n ∧ n < 0x110000) then some (Char.ofNat n) else none

/-- An escape after its backslash. -/
def escape : Reader Char
  | 'b' :: cs => some ('\x08', cs)
  | 't' :: cs => some ('\t', cs)
  | 'n' :: cs => some ('\n', cs)
  | 'f' :: cs => some ('\x0c', cs)
  | 'r' :: cs => some ('\r', cs)
  | '"' :: cs => some ('"', cs)
  | '\\' :: cs => some ('\\', cs)
  | 'u' :: cs => if 4 ≤ cs.length then (codePoint (cs.take 4)).map (·, cs.drop 4) else none
  | 'U' :: cs => if 8 ≤ cs.length then (codePoint (cs.take 8)).map (·, cs.drop 8) else none
  | _ => none

/-- The rest of a basic string; the fuel is the length of the text. -/
def basic : Nat → List Char → Reader (List Char)
  | 0, _, _ => none
  | fuel + 1, acc, cs =>
    match cs with
    | '"' :: rest => some (acc.reverse, rest)
    | '\\' :: rest => do
      let (c, rest) ← escape rest
      basic fuel (c :: acc) rest
    | c :: rest => if isForbidden c then none else basic fuel (c :: acc) rest
    | [] => none

/-- The rest of a literal string. -/
def literal (cs : List Char) : Option (List Char × List Char) :=
  let body := cs.takeWhile fun c => c != '\'' && !isForbidden c
  match cs.drop body.length with
  | '\'' :: rest => some (body, rest)
  | _ => none

/-- The line break right after the opening quotes of a long string is dropped. -/
def dropFirstBreak : List Char → List Char
  | '\n' :: cs => cs
  | '\r' :: '\n' :: cs => cs
  | cs => cs

/-- The closing quotes of a long string, with up to two quotes that still belong to it. -/
def closing (quote : Char) (acc cs : List Char) : Option (List Char × List Char) :=
  let quotes := min (cs.takeWhile (· == quote)).length 5
  if 3 ≤ quotes then
    some ((List.replicate (quotes - 3) quote ++ acc).reverse, cs.drop quotes)
  else none

/-- Drop blanks and line breaks at the start. -/
def skipBreaks : List Char → List Char
  | ' ' :: cs => skipBreaks cs
  | '\t' :: cs => skipBreaks cs
  | '\n' :: cs => skipBreaks cs
  | '\r' :: '\n' :: cs => skipBreaks cs
  | cs => cs

/-- A backslash at the end of a line takes the blanks and line breaks after it along; this is
what follows them, if a line break is among them. -/
def continued (cs : List Char) : Option (List Char) :=
  match skip cs with
  | '\n' :: rest => some (skipBreaks rest)
  | '\r' :: '\n' :: rest => some (skipBreaks rest)
  | _ => none

/-- The rest of a long basic string; the fuel is the length of the text. -/
def longBasic : Nat → List Char → Reader (List Char)
  | 0, _, _ => none
  | fuel + 1, acc, cs =>
    match closing '"' acc cs with
    | some found => some found
    | none =>
      match cs with
      | '\\' :: rest =>
        match continued rest with
        | some rest => longBasic fuel acc rest
        | none => do
          let (c, rest) ← escape rest
          longBasic fuel (c :: acc) rest
      | '\r' :: '\n' :: rest => longBasic fuel ('\n' :: acc) rest
      | '\n' :: rest => longBasic fuel ('\n' :: acc) rest
      | c :: rest => if isForbidden c then none else longBasic fuel (c :: acc) rest
      | [] => none

/-- The rest of a long literal string; the fuel is the length of the text. -/
def longLiteral : Nat → List Char → Reader (List Char)
  | 0, _, _ => none
  | fuel + 1, acc, cs =>
    match closing '\'' acc cs with
    | some found => some found
    | none =>
      match cs with
      | '\r' :: '\n' :: rest => longLiteral fuel ('\n' :: acc) rest
      | '\n' :: rest => longLiteral fuel ('\n' :: acc) rest
      | c :: rest => if isForbidden c then none else longLiteral fuel (c :: acc) rest
      | [] => none

/-- A string of any kind. -/
def string : Reader String := fun cs =>
  let fuel := cs.length + 1
  let found := match cs with
    | '"' :: '"' :: '"' :: rest => longBasic fuel [] (dropFirstBreak rest)
    | '\'' :: '\'' :: '\'' :: rest => longLiteral fuel [] (dropFirstBreak rest)
    | '"' :: rest => basic fuel [] rest
    | '\'' :: rest => literal rest
    | _ => none
  found.map fun (s, rest) => (String.ofList s, rest)

/-! ### Keys -/

/-- Whether a character may stand in a bare key. -/
def isBare (c : Char) : Bool := c.isAlphanum || c == '_' || c == '-'

/-- One part of a key. -/
def simpleKey : Reader String := fun cs =>
  match cs with
  | '"' :: rest => (basic (cs.length + 1) [] rest).map fun (s, r) => (String.ofList s, r)
  | '\'' :: rest => (literal rest).map fun (s, r) => (String.ofList s, r)
  | _ =>
    let word := cs.takeWhile isBare
    if word.isEmpty then none else some (String.ofList word, cs.drop word.length)

/-- How deep keys and values may be nested. -/
def maxDepth : Nat := 79

/-- A key of at most `room` parts: its path and its last part; those read come last first. -/
def keyParts : Nat → List String → Reader (List String × String)
  | 0, _, _ => none
  | room + 1, path, cs => do
    let (part, rest) ← simpleKey (skip cs)
    match skip rest with
    | '.' :: rest => keyParts room (part :: path) rest
    | rest => return ((path.reverse, part), rest)

/-- A key: its path and its last part. -/
def key : Reader (List String × String) := keyParts maxDepth []

/-! ### Numbers and times -/

/-- Whether a digit belongs to a base of at most sixteen. -/
def isDigitOf (base : Nat) (c : Char) : Bool :=
  let n := c.toNat
  (48 ≤ n && n ≤ 57 && n - 48 < base) || (10 < base && ((97 ≤ n && n ≤ 102) || (65 ≤ n && n ≤ 70)))

/-- Digits with underscores, each between two digits: the digits alone. -/
def digits (base : Nat) (cs : List Char) : Option (List Char) :=
  let parts := Text.pieces '_' cs
  if parts.all fun p => !p.isEmpty && p.all (isDigitOf base) then some parts.flatten else none

/-- The value of digits in a base. -/
def valueOf (base : Nat) (cs : List Char) : Nat :=
  cs.foldl (fun acc c =>
    let n := c.toNat
    acc * base + (if n ≤ 57 then n - 48 else if n ≤ 70 then n - 55 else n - 87)) 0

/-- The least whole number of a document. -/
def minInteger : Int := -0x8000000000000000

/-- The greatest whole number of a document. -/
def maxInteger : Int := 0x7fffffffffffffff

/-- A whole number within its bounds. -/
def bounded (n : Int) : Option Toml :=
  if minInteger ≤ n ∧ n ≤ maxInteger then some (.integer n) else none

/-- A word as a whole number in a base. -/
def based (base : Nat) (cs : List Char) : Option Toml :=
  (digits base cs).bind fun ds => bounded (valueOf base ds)

/-- Decimal digits without a zero in front. -/
def plainDigits (cs : List Char) : Option (List Char) :=
  match digits 10 cs with
  | some ('0' :: _ :: _) => none
  | found => found

/-- Whether a word is the fraction and the power of ten of a floating point number. -/
def isFloatTail (cs : List Char) : Bool :=
  let power (cs : List Char) : Bool := (digits 10 (Decimal.takeSign cs).2).isSome
  let isMark (c : Char) : Bool := c == 'e' || c == 'E'
  match cs with
  | '.' :: rest =>
    let fraction := rest.takeWhile fun c => !isMark c
    (digits 10 fraction).isSome &&
      match rest.drop fraction.length with
      | [] => true
      | _ :: tail => power tail
  | c :: rest => isMark c && power rest
  | [] => false

/-- Whether a decimal number does not lie above the range of floating point numbers. -/
def isRepresentable (negative : Bool) (cs : List Char) : Bool :=
  negative ||
    match Decimal.readUnsigned (cs.filter (· != '_')) with
    | some x => Binary.isFinite x
    | none => false

/-- A word as a decimal number. -/
def decimal (negative : Bool) (cs : List Char) : Option Toml :=
  if cs = ['i', 'n', 'f'] ∨ cs = ['n', 'a', 'n'] then some .float
  else
    let whole := cs.takeWhile fun c => isDigitOf 10 c || c == '_'
    match plainDigits whole, cs.drop whole.length with
    | none, _ => none
    | some ds, [] =>
      let n := valueOf 10 ds
      bounded (if negative then -(n : Int) else n)
    | some _, tail => if isFloatTail tail && isRepresentable negative cs then some .float else none

/-- Two digits of at least `low` and at most `high`. -/
def twoDigits (low high : Nat) : Reader Nat
  | a :: b :: cs =>
    let n := valueOf 10 [a, b]
    if isDigitOf 10 a ∧ isDigitOf 10 b ∧ low ≤ n ∧ n ≤ high then some (n, cs) else none
  | _ => none

/-- The number of days of a month. -/
def daysIn (year month : Nat) : Nat :=
  if month = 2 then
    if year % 4 = 0 ∧ (year % 100 ≠ 0 ∨ year % 400 = 0) then 29 else 28
  else if month = 4 ∨ month = 6 ∨ month = 9 ∨ month = 11 then 30
  else 31

/-- A date. -/
def date : Reader Unit
  | a :: b :: c :: d :: '-' :: cs => do
    if !([a, b, c, d].all (isDigitOf 10)) then none
    let year := valueOf 10 [a, b, c, d]
    let (month, cs) ← twoDigits 1 12 cs
    match cs with
    | '-' :: cs =>
      let (_, cs) ← twoDigits 1 (daysIn year month) cs
      return ((), cs)
    | _ => none
  | _ => none

/-- A time of day. -/
def timeOfDay (cs : List Char) : Option (Unit × List Char) := do
  let (_, cs) ← twoDigits 0 23 cs
  match cs with
  | ':' :: cs =>
    let (_, cs) ← twoDigits 0 59 cs
    match cs with
    | ':' :: cs =>
      let (_, cs) ← twoDigits 0 60 cs
      match cs with
      | '.' :: cs =>
        let fraction := cs.takeWhile (isDigitOf 10)
        if fraction.isEmpty then none else return ((), cs.drop fraction.length)
      | cs => return ((), cs)
    | _ => none
  | _ => none

/-- The distance from universal time, which may be missing. -/
def offset : Reader Unit
  | 'Z' :: cs => some ((), cs)
  | 'z' :: cs => some ((), cs)
  | sign :: cs =>
    if sign = '+' ∨ sign = '-' then do
      let (_, cs) ← twoDigits 0 23 cs
      match cs with
      | ':' :: cs =>
        let (_, cs) ← twoDigits 0 59 cs
        return ((), cs)
      | _ => none
    else some ((), sign :: cs)
  | [] => some ((), [])

/-- A date, a time of day, or both. -/
def dateTime (cs : List Char) : Option (Toml × List Char) :=
  match date cs with
  | some (_, rest) =>
    match rest with
    | c :: after =>
      if c = 'T' ∨ c = 't' ∨ c = ' ' then
        match timeOfDay after with
        | some (_, after) => (offset after).map fun (_, r) => (.time, r)
        | none => if c = ' ' then some (.time, rest) else none
      else some (.time, rest)
    | [] => some (.time, [])
  | none => (timeOfDay cs).map fun (_, rest) => (.time, rest)

/-- Whether a character may stand in a number. -/
def isNumberChar (c : Char) : Bool :=
  c.isAlphanum || c == '_' || c == '+' || c == '-' || c == '.'

/-- A word as a number. -/
def numberWord (cs : List Char) : Option Toml :=
  match cs with
  | '0' :: 'x' :: rest => based 16 rest
  | '0' :: 'o' :: rest => based 8 rest
  | '0' :: 'b' :: rest => based 2 rest
  | _ =>
    let (negative, rest) := Decimal.takeSign cs
    decimal negative rest

/-- A number or a time. -/
def scalar : Reader Toml := fun cs =>
  match dateTime cs with
  | some found => some found
  | none =>
    let word := cs.takeWhile isNumberChar
    (numberWord word).map (·, cs.drop word.length)

/-! ### Values -/

mutual

/-- A value; the fuel bounds the number of steps, the room the nesting. -/
def value (fuel room : Nat) (cs : List Char) : Option (Toml × List Char) :=
  match fuel with
  | 0 => none
  | fuel + 1 =>
    match cs with
    | '"' :: _ => (string cs).map fun (s, rest) => (.string s, rest)
    | '\'' :: _ => (string cs).map fun (s, rest) => (.string s, rest)
    | 't' :: 'r' :: 'u' :: 'e' :: rest => some (.bool true, rest)
    | 'f' :: 'a' :: 'l' :: 's' :: 'e' :: rest => some (.bool false, rest)
    | '[' :: rest =>
      match room with
      | 0 => none
      | room + 1 => items fuel room [] rest
    | '\x7b' :: rest =>
      match room with
      | 0 => none
      | room + 1 =>
        match skip rest with
        | '\x7d' :: rest => some (.table .inline [], rest)
        | rest => entries fuel room (.header, []) rest
    | _ => scalar cs

/-- The items of an array up to its end; those read come last first. -/
def items (fuel room : Nat) (acc : List Toml) (cs : List Char) : Option (Toml × List Char) :=
  match fuel with
  | 0 => none
  | fuel + 1 =>
    match skipLines (cs.length + 1) cs with
    | none => none
    | some (']' :: rest) => some (.array acc.reverse, rest)
    | some cs =>
      match value fuel room cs with
      | none => none
      | some (v, rest) =>
        match skipLines (rest.length + 1) rest with
        | some (',' :: rest) => items fuel room (v :: acc) rest
        | some (']' :: rest) => some (.array (v :: acc).reverse, rest)
        | _ => none

/-- The entries of an inline table up to its end. -/
def entries (fuel room : Nat) (table : Toml.Table) (cs : List Char) : Option (Toml × List Char) :=
  match fuel with
  | 0 => none
  | fuel + 1 =>
    match key cs with
    | some ((path, k), '=' :: rest) =>
      match value fuel room (skip rest) with
      | none => none
      | some (v, rest) =>
        match Toml.addEntry path k v table with
        | none => none
        | some table =>
          match skip rest with
          | ',' :: rest => entries fuel room table rest
          | '\x7d' :: rest => some (.table .inline table.2, rest)
          | _ => none
    | _ => none

end

/-- A header or a key with its value. -/
def statement (fuel : Nat) (cs : List Char) : Option (Toml.Statement × List Char) :=
  match cs with
  | '[' :: '[' :: rest => do
    let ((path, k), rest) ← key rest
    match rest with
    | ']' :: ']' :: rest => return (.arrayHeader path k, rest)
    | _ => none
  | '[' :: rest => do
    let ((path, k), rest) ← key rest
    match rest with
    | ']' :: rest => return (.header path k, rest)
    | _ => none
  | _ => do
    let ((path, k), rest) ← key cs
    match rest with
    | '=' :: rest =>
      let (v, rest) ← value fuel maxDepth (skip rest)
      return (.entry path k v, rest)
    | _ => none

/-- The statements of a document, each on a line of its own. -/
def statements : Nat → Toml.Document → List Char → Option Toml.Document
  | 0, _, _ => none
  | fuel + 1, d, cs =>
    match skipLines (cs.length + 1) cs with
    | none => none
    | some [] => some d
    | some cs => do
      let (s, rest) ← statement (2 * cs.length + 2) cs
      let d ← d.add s
      let rest ← comment (skip rest)
      let rest ← lineEnd rest
      statements fuel d rest

end TomlReader

/-- Read a document: the entries of its root table. -/
def Toml.parse (s : String) : Option (List (String × Toml)) :=
  let cs := match s.toList with
    | '\ufeff' :: cs => cs
    | cs => cs
  (TomlReader.statements (cs.length + 1) {} cs).map fun d => d.root.2

end Microbench
