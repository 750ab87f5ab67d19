import Microbench.Plan.CharClass

/-!
# Patterns

Regular expressions over the names of tasks.  A pattern relates the position
where it starts to the positions where it may end, and it matches a text if it
ends anywhere after starting somewhere.

## Main definitions

* `Pattern` — a pattern.
* `Pattern.ends` — the positions where it may end.
* `Pattern.isMatch` — whether it occurs in a text.
* `Pattern.selects` — a filter, which may be a pattern or none, as what it selects.
-/

namespace Microbench

/-- A pattern. -/
inductive Pattern
  /-- The empty text. -/
  | empty
  /-- The start of the text; of any line if `lines` is set. -/
  | start (lines : Bool)
  /-- The end of the text; of any line if `lines` is set. -/
  | finish (lines : Bool)
  /-- A place between a word and what is no word, or if not `expected`, any other place. -/
  | wordEdge (expected : Bool)
  /-- One character. -/
  | one (members : CharClass)
  /-- One pattern after another. -/
  | seq (a b : Pattern)
  /-- Either of two patterns. -/
  | alt (a b : Pattern)
  /-- A pattern at least `low` times and at most `high` times, if that is given. -/
  | times (a : Pattern) (low : Nat) (high : Option Nat)
  deriving DecidableEq, Repr, Inhabited

namespace Pattern

/-- Whether a word goes on to one side of a position. -/
def isWordAt (text : Array Char) (i : Nat) : Bool :=
  match text[i]? with
  | some c => CharClass.word.contains c
  | none => false

/-- Whether a position is between a word and what is no word. -/
def isWordEdge (text : Array Char) (i : Nat) : Bool :=
  (i != 0 && isWordAt text (i - 1)) != isWordAt text i

/-- The positions without those that occur again. -/
def distinct (positions : List Nat) : List Nat := positions.eraseDups

/-- The positions after some rounds of a step. -/
def rounds (step : Nat → List Nat) : Nat → List Nat → List Nat
  | 0, places => places
  | n + 1, places => rounds step n (distinct (places.flatMap step))

/-- The positions after at most some rounds of a step. -/
def upToRounds (step : Nat → List Nat) : Nat → List Nat → List Nat
  | 0, places => places
  | n + 1, places => upToRounds step n (distinct (places ++ places.flatMap step))

/-- The positions of a text where a pattern may end that starts at a position.  A round that
adds no position adds none later either, so no more rounds are needed than there are
positions. -/
def ends (text : Array Char) : Pattern → Nat → List Nat
  | empty, i => [i]
  | start lines, i =>
    if i = 0 ∨ (lines ∧ text[i - 1]? = some '\n') then [i] else []
  | finish lines, i =>
    if i = text.size ∨ (lines ∧ text[i]? = some '\n') then [i] else []
  | wordEdge expected, i => if isWordEdge text i = expected then [i] else []
  | one cls, i =>
    match text[i]? with
    | some c => if cls.contains c then [i + 1] else []
    | none => []
  | seq a b, i => distinct ((a.ends text i).flatMap (b.ends text))
  | alt a b, i => distinct (a.ends text i ++ b.ends text i)
  | times a low high, i =>
    let more := match high with
      | some h => min (h - low) (text.size + 1)
      | none => text.size + 1
    upToRounds (a.ends text) more (rounds (a.ends text) low [i])

/-- Whether a pattern occurs in a text. -/
def isMatch (p : Pattern) (s : String) : Bool :=
  let text := s.toList.toArray
  (List.range (text.size + 1)).any fun i => !(p.ends text i).isEmpty

/-- What a filter selects: everything, if there is none. -/
def selects (filter : Option Pattern) (s : String) : Bool := filter.all (·.isMatch s)

instance : CoeFun (Option Pattern) fun _ => String → Bool := ⟨selects⟩

end Pattern

end Microbench
