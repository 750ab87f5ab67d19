/-!
# Lines of a byte stream

The channel between controller and worker is made of lines.  A line is UTF-8
text of bounded length; whatever is longer, is no text, or ends before its line
break is told apart from it.

## Main definitions

* `Line.maxSize` — the bound.
* `ByteSource`, `ByteSource.readLine` — what is left of a stream, and its next line.
* `Line.check` — the text of a line as bytes for the stream, or why it cannot be one.
* `Line.append` — write a line, or leave the stream alone.
-/

namespace Microbench

namespace Line

/-- The largest number of bytes in a line, its end not counted. -/
def maxSize : Nat := 16 * 1024 * 1024

/-- Why there is no line to read or to write. -/
inductive Error
  /-- The bytes are no text. -/
  | notText
  /-- The line is longer than the bound. -/
  | tooLarge
  /-- A line to be written holds a line break. -/
  | lineBreak
  /-- The stream ends before the line does. -/
  | ended
  deriving DecidableEq, Repr, Inhabited

/-- What the stream says of bytes that are no text. -/
def Error.notTextReason : String := "stream did not contain valid UTF-8"

/-- The wording of an error. -/
def Error.message : Error → String
  | notText => "I/O error: " ++ notTextReason
  | tooLarge => "Frame too large: more than 16777216 bytes"
  | lineBreak => "Invalid frame: line contains a line break"
  | ended => "End of stream"

/-- Whether a text holds a character that ends a line. -/
def hasBreak (s : String) : Bool := s.any fun c => c == '\n' || c == '\r'

/-- A text as a line of the stream, its end included. -/
def check (s : String) : Except Error String :=
  if hasBreak s then .error .lineBreak
  else if maxSize < s.utf8ByteSize then .error .tooLarge
  else .ok (s ++ "\n")

/-- Append a text to what has been written; one that is no line leaves that as it is. -/
def append (written s : String) : String × Except Error Unit :=
  match check s with
  | .ok line => (written ++ line, .ok ())
  | .error e => (written, .error e)

/-- Append texts one after the other, whatever becomes of those before. -/
def appendAll (written : String) : List String → String × List (Except Error Unit)
  | [] => (written, [])
  | s :: rest =>
    let (written, result) := append written s
    let (written, results) := appendAll written rest
    (written, result :: results)

end Line

/-- A byte stream that is read from a place on. -/
structure ByteSource where
  /-- The whole stream. -/
  bytes : ByteArray
  /-- How many bytes have been read. -/
  place : Nat := 0
  /-- Whether anything was asked for yet; nothing is fetched before. -/
  asked : Bool := false

namespace ByteSource

/-- The byte that ends a line. -/
def newline : UInt8 := 10

/-- The byte that may stand before the end of a line. -/
def carriageReturn : UInt8 := 13

/-- The place of the next line end from `i` on and before `stop`. -/
def findEnd (bytes : ByteArray) (stop i : Nat) : Option Nat :=
  if i < stop then
    if bytes.get! i == newline then some i else findEnd bytes stop (i + 1)
  else none
termination_by stop - i

/-- The bytes of a line without the carriage return at their end. -/
def dropReturn (bytes : ByteArray) : ByteArray :=
  if 0 < bytes.size ∧ bytes.get! (bytes.size - 1) = carriageReturn then
    bytes.extract 0 (bytes.size - 1)
  else bytes

/-- Read the next line.  At most one byte more than the bound is looked at, and what was
looked at is used up, also by a line that is refused. -/
def readLine (s : ByteSource) : Except Line.Error String × ByteSource :=
  let stop := min s.bytes.size (s.place + Line.maxSize + 1)
  match findEnd s.bytes stop s.place with
  | some i =>
    let rest := { s with place := i + 1, asked := true }
    match String.fromUTF8? (s.bytes.extract s.place i) with
    | none => (.error .notText, rest)
    | some _ =>
      match String.fromUTF8? (dropReturn (s.bytes.extract s.place i)) with
      | some line => (.ok line, rest)
      | none => (.error .notText, rest)
  | none =>
    let rest := { s with place := stop, asked := true }
    if stop ≤ s.place then (.error .ended, rest)
    else
      match String.fromUTF8? (s.bytes.extract s.place stop) with
      | none => (.error .notText, rest)
      | some _ =>
        if Line.maxSize < stop - s.place then (.error .tooLarge, rest) else (.error .ended, rest)

/-- Whether bytes have been fetched that are not read yet. -/
def hasData (s : ByteSource) : Bool := s.asked && s.place < s.bytes.size

/-- Whether a whole line has been fetched that is not read yet. -/
def hasLine (s : ByteSource) : Bool :=
  s.asked && (findEnd s.bytes s.bytes.size s.place).isSome

end ByteSource

end Microbench
