import Microbench.Number.Decimal
import Microbench.Number.Whole
import Microbench.Text.Blank

/-!
# Samples

A sampling tool writes one line for each sample: the process, the time, the
event, the address, and where that address belongs.

`4242 18233.104511: cycles:  7f3a2b1c4d5e memchr (/usr/lib/libc.so.6)`

## Main definitions

* `Sample` — a sample.
* `Sample.parse` — a line as a sample.
-/

namespace Microbench

/-- A sample. -/
structure Sample where
  /-- The process. -/
  pid : Nat
  /-- The time in seconds. -/
  time : Float
  /-- The event. -/
  event : String
  /-- The address. -/
  address : Nat
  /-- The name of the function, as far as it is known. -/
  symbol : String
  /-- The program or library. -/
  image : String
  deriving Inhabited

namespace Sample

/-- A word without the colon at its end. -/
def dropColon (word : List Char) : Option (List Char) :=
  match word.reverse with
  | ':' :: rest => some rest.reverse
  | _ => none

/-- A word without the marks of a hexadecimal number at its start. -/
def dropHexMarks : List Char → List Char
  | '0' :: 'x' :: cs => dropHexMarks cs
  | cs => cs

/-- Cut at the last blank that an opening bracket follows; neither of them belongs to a part. -/
def cutLastOpening : List Char → Option (List Char × List Char)
  | [] => none
  | c :: cs =>
    match cutLastOpening cs with
    | some (before, after) => some (c :: before, after)
    | none =>
      match c, cs with
      | ' ', '(' :: after => some ([], after)
      | _, _ => none

/-- The name of a function and the image in brackets after it. -/
def splitSymbol (cs : List Char) : List Char × List Char :=
  let parts := match cutLastOpening cs, cs with
    | some parts, _ => some parts
    | none, '(' :: after => some ([], after)
    | none, _ => none
  match parts with
  | none => (cs, [])
  | some (name, image) =>
    match image.reverse with
    | ')' :: rest => (Text.trim name, rest.reverse)
    | _ => (cs, [])

/-- A line as a sample. -/
def parse (line : String) : Option Sample := do
  let (process, rest) ← Text.cutBlank (Text.trim line.toList)
  let pid ← (Whole.readNat 10 Whole.max32 (process.takeWhile (· != '/'))).toOption
  let (time, rest) ← Text.cutBlank (Text.trimStart rest)
  let time ← (Decimal.read (← dropColon time)).toOption
  let (event, rest) ← Text.cutBlank (Text.trimStart rest)
  let event ← dropColon event
  let rest := Text.trimStart rest
  let (address, rest) := (Text.cutBlank rest).getD (rest, [])
  let address ← (Whole.readNat 16 Whole.max64 (dropHexMarks address)).toOption
  let (symbol, image) := splitSymbol (Text.trim rest)
  return ⟨pid, time, String.ofList event, address, String.ofList symbol, String.ofList image⟩

end Sample

end Microbench
