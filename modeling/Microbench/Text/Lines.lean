import Microbench.Wire.Line

/-!
# Texts as lines

A captured text is cut at its line feeds.  What follows the last one is a line
too, unless it is empty, and the first line that is not UTF-8 ends the text.

## Main definitions

* `Text.lineBytes` — the lines as bytes.
* `Text.lines` — the lines as texts.
-/

namespace Microbench.Text

/-- Cut bytes at the line feeds; the parts keep theirs. -/
def lineBytes : List UInt8 → List (List UInt8)
  | [] => []
  | b :: bs =>
    if b = ByteSource.newline then [b] :: lineBytes bs
    else
      match lineBytes bs with
      | [] => [[b]]
      | line :: rest => (b :: line) :: rest

/-- A line without its line feed and the carriage return before it. -/
def chomp (line : List UInt8) : List UInt8 :=
  match line.reverse with
  | b :: rest =>
    if b = ByteSource.newline then
      match rest with
      | c :: rest => if c = ByteSource.carriageReturn then rest.reverse else (c :: rest).reverse
      | [] => []
    else line
  | [] => []

/-- The texts at the front of some lines. -/
def textsOf : List (List UInt8) → List String
  | [] => []
  | line :: rest =>
    match String.fromUTF8? ⟨(chomp line).toArray⟩ with
    | some s => s :: textsOf rest
    | none => []

/-- The lines of a captured text. -/
def lines (bytes : ByteArray) : List String := textsOf (lineBytes bytes.toList)

end Microbench.Text
