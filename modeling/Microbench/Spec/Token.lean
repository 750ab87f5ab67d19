/-!
# Tokens of a specification line

The line form of a specification is text cut by sentinels.  Text is escaped so
that it never holds an equals sign, and every sentinel starts with one, so a line
is cut into tokens from left to right without looking back.

## Main definitions

* `Sentinel`, `Token` — what a line consists of.
* `escape` — text as it stands in a line.
* `Token.scan` — cut a line into tokens.
* `Token.split` — cut a list of tokens at a sentinel.
-/

namespace Microbench.Spec

/-- What stands between texts in a line. -/
inductive Sentinel
  /-- Between two fields. -/
  | field
  /-- Between two items of a list. -/
  | item
  /-- Between two entries of a dictionary. -/
  | entry
  /-- Between a key and its value. -/
  | key
  /-- In place of a setting that is not given. -/
  | absent
  /-- In place of a collection without items. -/
  | empty
  deriving DecidableEq, Repr

namespace Sentinel

/-- The word inside a sentinel. -/
def word : Sentinel → List Char
  | field => [',']
  | item => ['S', 'E', 'P']
  | entry => ['P', 'A', 'I', 'R']
  | key => ['K', 'E', 'Y']
  | absent => ['N', 'O', 'N', 'E']
  | empty => ['E', 'M', 'P', 'T', 'Y']

/-- The three equals signs around a word. -/
def fence : List Char := ['=', '=', '=']

/-- The characters of a sentinel. -/
def chars (s : Sentinel) : List Char := fence ++ s.word ++ fence

/-- All sentinels. -/
def all : List Sentinel := [field, item, entry, key, absent, empty]

/-- The sentinel that a text starts with. -/
def startOf? (cs : List Char) : Option Sentinel := all.find? fun s => s.chars.isPrefixOf cs

end Sentinel

/-- How a character stands in a line. -/
def escapeChar (c : Char) : List Char :=
  if c = '\\' then ['\\', '\\']
  else if c = '=' then ['\\', 'q']
  else if c = '\n' then ['\\', 'n']
  else if c = '\r' then ['\\', 'r']
  else [c]

/-- How a text stands in a line. -/
def escape (cs : List Char) : List Char := cs.flatMap escapeChar

/-- The character that an escape stands for. -/
def unescape? : Char → Option Char
  | '\\' => some '\\'
  | 'q' => some '='
  | 'n' => some '\n'
  | 'r' => some '\r'
  | _ => none

/-- A piece of a line. -/
inductive Token
  /-- Text, unescaped. -/
  | text (cs : List Char)
  /-- A sentinel. -/
  | mark (s : Sentinel)
  deriving DecidableEq, Repr

namespace Token

/-- Why a line cannot be cut into tokens; the place is counted in bytes. -/
inductive Error
  /-- A backslash starts no escape. -/
  | badEscape (place : Nat)
  /-- An equals sign starts no sentinel. -/
  | unknownSentinel (place : Nat)
  deriving DecidableEq, Repr

/-- A text as a token, unless it is empty; the characters are given last first. -/
def flush (pending : List Char) : List Token :=
  if pending.isEmpty then [] else [text pending.reverse]

/-- Cut a line into tokens, at a byte place, with the characters of the current text
collected last first. -/
def scanFrom (place : Nat) (pending : List Char) : List Char → Except Error (List Token)
  | [] => .ok (flush pending)
  | '=' :: cs =>
    match Sentinel.startOf? ('=' :: cs) with
    | none => .error (.unknownSentinel place)
    | some s => do
      let rest ← scanFrom (place + s.chars.length) [] (cs.drop (s.chars.length - 1))
      return flush pending ++ mark s :: rest
  | ['\\'] => .error (.badEscape place)
  | '\\' :: e :: cs =>
    match unescape? e with
    | none => .error (.badEscape place)
    | some c => scanFrom (place + 2) (c :: pending) cs
  | c :: cs => scanFrom (place + c.utf8Size) (c :: pending) cs
termination_by cs => cs.length
decreasing_by all_goals (simp only [List.length_cons, List.length_drop]; omega)

/-- Cut a line into tokens. -/
def scan (line : List Char) : Except Error (List Token) := scanFrom 0 [] line

/-- Cut tokens at every occurrence of a sentinel, which belongs to no part. -/
def split (s : Sentinel) : List Token → List (List Token)
  | [] => [[]]
  | t :: ts =>
    match split s ts with
    | part :: parts => if t = mark s then [] :: part :: parts else (t :: part) :: parts
    | [] => []

/-- Cut tokens at the first occurrence of a sentinel. -/
def cut? (s : Sentinel) : List Token → Option (List Token × List Token)
  | [] => none
  | t :: ts =>
    if t = mark s then some ([], ts) else (cut? s ts).map fun (a, b) => (t :: a, b)

/-- Splitting leaves at least one part. -/
theorem split_ne_nil (s : Sentinel) (ts : List Token) : split s ts ≠ [] := by
  induction ts with
  | nil => simp [split]
  | cons t ts ih =>
    unfold split
    split
    · split <;> simp
    · next h => exact absurd h ih

end Token

end Microbench.Spec
