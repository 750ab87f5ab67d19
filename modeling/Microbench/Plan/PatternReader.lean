import Microbench.Number.Whole
import Microbench.Plan.Pattern

/-!
# Reading patterns

The notation of patterns, read from left to right.  Flags in round brackets count
up to the end of the brackets around them.

## Main definitions

* `PatternReader.Flags` — the flags.
* `PatternReader.branches` — the reader.
* `Pattern.parse` — a whole pattern.
-/

namespace Microbench.PatternReader

/-- What changes the meaning of a notation. -/
structure Flags where
  /-- Letter case does not matter. -/
  anyCase : Bool := false
  /-- Lines have a start and an end of their own. -/
  lines : Bool := false
  /-- The point takes line feeds too. -/
  pointAny : Bool := false
  deriving DecidableEq, Repr, Inhabited

/-- The greatest number of repetitions; a pattern that asks for more is too large. -/
def maxTimes : Nat := 65536

/-- A class under the flags. -/
def Flags.cased (f : Flags) (c : CharClass) : CharClass := if f.anyCase then .anyCase c else c

/-- The flags with one of them changed. -/
def Flags.change (f : Flags) (on : Bool) : Char → Option Flags
  | 'i' => some { f with anyCase := on }
  | 'm' => some { f with lines := on }
  | 's' => some { f with pointAny := on }
  | 'U' => some f
  | 'u' => some f
  | _ => none

/-- The flags up to the character that ends them, which is given too. -/
def readFlags (on : Bool) (f : Flags) : List Char → Option (Flags × Char × List Char)
  | [] => none
  | c :: cs =>
    if c = ')' ∨ c = ':' then some (f, c, cs)
    else if c = '-' ∧ on then readFlags false f cs
    else (f.change on c).bind fun f => readFlags on f cs

/-! ### Escapes -/

/-- What an escape stands for. -/
inductive Escape
  /-- A character. -/
  | char (c : Char)
  /-- A class of characters. -/
  | oneOf (c : CharClass)
  /-- A place in the text. -/
  | place (p : Pattern)

/-- A character given by the hexadecimal digits of its number. -/
def numbered (digits : List Char) : Option Char := do
  if digits.isEmpty then none
  let n ← digits.foldlM (fun n c => (Whole.digit? 16 c).map (n * 16 + ·)) 0
  if n < 0xd800 ∨ (0xdfff < n ∧ n < 0x110000) then some (Char.ofNat n) else none

/-- The character after the mark of a number: so many digits, or any in braces. -/
def numberedAfter (count : Nat) : List Char → Option (Char × List Char)
  | '\x7b' :: cs =>
    let digits := cs.takeWhile (· != '\x7d')
    match cs.drop digits.length with
    | _ :: rest => (numbered digits).map (·, rest)
    | [] => none
  | cs => if count ≤ cs.length then (numbered (cs.take count)).map (·, cs.drop count) else none

/-- Whether a character stands for itself after a backslash. -/
def isEscapable (c : Char) : Bool :=
  32 < c.toNat && c.toNat < 127 && !c.isAlphanum && c != '<' && c != '>'

/-- An escape after its backslash. -/
def escape : List Char → Option (Escape × List Char)
  | [] => none
  | 'n' :: cs => some (.char '\n', cs)
  | 't' :: cs => some (.char '\t', cs)
  | 'r' :: cs => some (.char '\r', cs)
  | 'a' :: cs => some (.char '\x07', cs)
  | 'f' :: cs => some (.char '\x0c', cs)
  | 'v' :: cs => some (.char '\x0b', cs)
  | 'd' :: cs => some (.oneOf .digit, cs)
  | 'D' :: cs => some (.oneOf (.complement .digit), cs)
  | 's' :: cs => some (.oneOf .space, cs)
  | 'S' :: cs => some (.oneOf (.complement .space), cs)
  | 'w' :: cs => some (.oneOf .word, cs)
  | 'W' :: cs => some (.oneOf (.complement .word), cs)
  | 'A' :: cs => some (.place (.start false), cs)
  | 'z' :: cs => some (.place (.finish false), cs)
  | 'b' :: cs => some (.place (.wordEdge true), cs)
  | 'B' :: cs => some (.place (.wordEdge false), cs)
  | 'x' :: cs => (numberedAfter 2 cs).map fun (c, rest) => (.char c, rest)
  | 'u' :: cs => (numberedAfter 4 cs).map fun (c, rest) => (.char c, rest)
  | 'U' :: cs => (numberedAfter 8 cs).map fun (c, rest) => (.char c, rest)
  | c :: cs => if isEscapable c then some (.char c, cs) else none

/-! ### Classes in square brackets -/

/-- The named classes of the form `[:name:]`. -/
def namedClass? : String → Option CharClass
  | "alpha" => some (.unions [.range 'a' 'z', .range 'A' 'Z'])
  | "lower" => some (.range 'a' 'z')
  | "upper" => some (.range 'A' 'Z')
  | "digit" => some .digit
  | "alnum" => some (.unions [.range 'a' 'z', .range 'A' 'Z', .digit])
  | "word" => some (.unions [.range 'a' 'z', .range 'A' 'Z', .digit, .single '_'])
  | "space" => some (.unions [.range '\t' '\x0d', .single ' '])
  | "blank" => some (.unions [.single '\t', .single ' '])
  | "punct" => some (.unions [.range '!' '/', .range ':' '@', .range '[' '\x60', .range '\x7b' '~'])
  | "xdigit" => some (.unions [.digit, .range 'a' 'f', .range 'A' 'F'])
  | _ => none

/-- A named class after its opening bracket. -/
def namedClass (cs : List Char) : Option (CharClass × List Char) :=
  match cs with
  | ':' :: cs =>
    let (negated, cs) := match cs with
      | '^' :: rest => (true, rest)
      | _ => (false, cs)
    let name := cs.takeWhile Char.isLower
    match namedClass? (String.ofList name), cs.drop name.length with
    | some c, ':' :: ']' :: rest => some (if negated then .complement c else c, rest)
    | _, _ => none
  | _ => none

/-- One member of a class: a character that may start a range, or a class. -/
def member : List Char → Option (Escape × List Char)
  | [] => none
  | '\\' :: cs => escape cs
  | c :: cs => some (.char c, cs)

/-- Whether a range goes on after its first character. -/
def isRange : List Char → Bool
  | '-' :: ']' :: _ => false
  | '-' :: '-' :: _ => false
  | '-' :: _ :: _ => true
  | _ => false

mutual

/-- The members of a class up to its closing bracket.  A closing bracket that comes `first`
is a member. -/
def members (fuel : Nat) (f : Flags) (first : Bool) (acc : CharClass) (cs : List Char) :
    Option (CharClass × List Char) :=
  match fuel with
  | 0 => none
  | fuel + 1 =>
    match cs with
    | ']' :: rest =>
      if first then members fuel f false (.union acc (.single ']')) rest else some (acc, rest)
    | '[' :: rest =>
      match namedClass rest with
      | some (c, rest) => members fuel f false (.union acc (f.cased c)) rest
      | none =>
        match bracketed fuel f rest with
        | some (c, rest) => members fuel f false (.union acc c) rest
        | none => none
    | _ =>
      match member cs with
      | some (.oneOf c, rest) => members fuel f false (.union acc (f.cased c)) rest
      | some (.char low, rest) =>
        if isRange rest then
          match member (rest.drop 1) with
          | some (.char high, rest) =>
            if low ≤ high then members fuel f false (.union acc (f.cased (.range low high))) rest
            else none
          | _ => none
        else members fuel f false (.union acc (f.cased (.single low))) rest
      | _ => none

/-- A class after its opening bracket. -/
def bracketed (fuel : Nat) (f : Flags) (cs : List Char) : Option (CharClass × List Char) :=
  match fuel with
  | 0 => none
  | fuel + 1 =>
    match cs with
    | '^' :: rest => (members fuel f true .none rest).map fun (c, rest) => (.complement c, rest)
    | _ => members fuel f true .none cs

end

/-! ### Repetition -/

/-- A number with blanks around it. -/
def count (cs : List Char) : Option (Nat × List Char) :=
  let cs := cs.dropWhile Char.isWhitespace
  let digits := cs.takeWhile Char.isDigit
  if digits.isEmpty then none
  else
    let n := digits.foldl (fun n c => n * 10 + (c.toNat - 48)) 0
    if n ≤ maxTimes then some (n, (cs.drop digits.length).dropWhile Char.isWhitespace) else none

/-- The bounds of a repetition after the opening brace. -/
def bounds (cs : List Char) : Option ((Nat × Option Nat) × List Char) := do
  let (low, rest) ← count cs
  match rest with
  | '\x7d' :: rest => return ((low, some low), rest)
  | ',' :: rest =>
    match rest.dropWhile Char.isWhitespace with
    | '\x7d' :: rest => return ((low, none), rest)
    | rest =>
      let (high, rest) ← count rest
      match rest with
      | '\x7d' :: rest => if low ≤ high then return ((low, some high), rest) else none
      | _ => none
  | _ => none

/-- Drop the mark that asks for few repetitions: what is matched does not depend on it. -/
def dropLazy : List Char → List Char
  | '?' :: cs => cs
  | cs => cs

/-- The marks of repetition after a pattern; the fuel is the length of the text. -/
def repeated : Nat → Pattern → List Char → Option (Pattern × List Char)
  | 0, p, cs => some (p, cs)
  | fuel + 1, p, cs =>
    match cs with
    | '*' :: rest => repeated fuel (.times p 0 none) (dropLazy rest)
    | '+' :: rest => repeated fuel (.times p 1 none) (dropLazy rest)
    | '?' :: rest => repeated fuel (.times p 0 (some 1)) (dropLazy rest)
    | '\x7b' :: rest => do
      let ((low, high), rest) ← bounds rest
      repeated fuel (.times p low high) (dropLazy rest)
    | _ => some (p, cs)

/-! ### Patterns -/

/-- Whether a character may not start a pattern. -/
def isMark (c : Char) : Bool := c == '*' || c == '+' || c == '?' || c == '\x7b'

/-- The rest of a group after the name that it may have. -/
def afterName (cs : List Char) : Option (List Char) :=
  let name := cs.takeWhile fun c => c.isAlphanum || c == '_' || c == '.' || c == '[' || c == ']'
  match name, cs.drop name.length with
  | c :: _, '>' :: rest => if c.isAlpha || c == '_' then some rest else none
  | _, _ => none

/-- How a group starts after its opening bracket: with a pattern to be read under the flags, or
with flags only. -/
def groupStart (f : Flags) : List Char → Option (Bool × Flags × List Char)
  | '?' :: 'P' :: '<' :: cs => (afterName cs).map fun rest => (true, f, rest)
  | '?' :: '<' :: cs => (afterName cs).map fun rest => (true, f, rest)
  | '?' :: ')' :: _ => none
  | '?' :: cs => do
    let (f, c, rest) ← readFlags true f cs
    return (c = ':', f, rest)
  | cs => some (true, f, cs)

mutual

/-- Branches up to a closing bracket or the end. -/
def branches (fuel : Nat) (f : Flags) (cs : List Char) : Option (Pattern × List Char) :=
  match fuel with
  | 0 => none
  | fuel + 1 =>
    match branch fuel f .empty cs with
    | none => none
    | some (p, f, '|' :: rest) => (branches fuel f rest).map fun (q, rest) => (.alt p q, rest)
    | some (p, _, rest) => some (p, rest)

/-- The rest of a branch after what has been read of it. -/
def branch (fuel : Nat) (f : Flags) (acc : Pattern) (cs : List Char) :
    Option (Pattern × Flags × List Char) :=
  match fuel with
  | 0 => none
  | fuel + 1 =>
    match cs with
    | [] => some (acc, f, [])
    | '|' :: _ => some (acc, f, cs)
    | ')' :: _ => some (acc, f, cs)
    | '(' :: rest =>
      match groupStart f rest with
      | none => none
      | some (false, f, rest) =>
        if rest.head?.any isMark then none else branch fuel f acc rest
      | some (true, inner, rest) =>
        match branches fuel inner rest with
        | some (p, ')' :: rest) =>
          match repeated rest.length p rest with
          | some (p, rest) => branch fuel f (.seq acc p) rest
          | none => none
        | _ => none
    | _ =>
      match piece fuel f cs with
      | none => none
      | some (p, rest) =>
        match repeated rest.length p rest with
        | some (p, rest) => branch fuel f (.seq acc p) rest
        | none => none

/-- A character, a class or a place. -/
def piece (fuel : Nat) (f : Flags) (cs : List Char) : Option (Pattern × List Char) :=
  match cs with
  | [] => none
  | '^' :: rest => some (.start f.lines, rest)
  | '$' :: rest => some (.finish f.lines, rest)
  | '.' :: rest => some (.one (if f.pointAny then .any else .anyInLine), rest)
  | '[' :: rest => (bracketed fuel f rest).map fun (c, rest) => (.one c, rest)
  | '\\' :: rest =>
    match escape rest with
    | some (.char c, rest) => some (.one (f.cased (.single c)), rest)
    | some (.oneOf c, rest) => some (.one c, rest)
    | some (.place p, rest) => some (p, rest)
    | none => none
  | c :: rest => if isMark c then none else some (.one (f.cased (.single c)), rest)

end

end PatternReader

/-- Read a pattern. -/
def Pattern.parse (s : String) : Option Pattern :=
  let cs := s.toList
  match PatternReader.branches (2 * cs.length + 2) {} cs with
  | some (p, []) => some p
  | _ => none

end Microbench
