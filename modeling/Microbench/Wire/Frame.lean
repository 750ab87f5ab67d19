import Microbench.Wire.Codec
import Microbench.Wire.Line

/-!
# Frames

A worker's output carries messages and, between them, whatever else the worker
prints.  A line that starts with the marker is a message; every other line is
log text and passes through.

## Main definitions

* `Frame.marker` — what messages start with.
* `Frame`, `Frame.ofLine` — a line of a worker, and how it is understood.
* `Message.line` — a message as a line.
-/

namespace Microbench

/-- A line of a worker. -/
inductive Frame
  /-- A message. -/
  | message (m : Message)
  /-- Anything else. -/
  | log (text : String)
  deriving Inhabited

/-- Why there is no frame. -/
inductive FrameError
  /-- There is no line. -/
  | line (e : Line.Error)
  /-- The line starts like a message and is none. -/
  | unreadable
  deriving DecidableEq, Repr, Inhabited

namespace Frame

/-- What messages start with. -/
def marker : String := "@@trialbench "

/-- What follows the marker in a line that starts with it. -/
def payload? (cs : List Char) : Option (List Char) :=
  let mark := marker.toList
  if mark.isPrefixOf cs then some (cs.drop mark.length) else none

/-- How a line is understood; `none` if it starts like a message and is none. -/
def ofLine (line : String) : Option Frame :=
  match payload? line.toList with
  | some cs => (Message.parse? cs).map message
  | none => some (log line)

/-- Read the next frame of a stream. -/
def read (s : ByteSource) : Except FrameError Frame × ByteSource :=
  match s.readLine with
  | (.error e, rest) => (.error (.line e), rest)
  | (.ok line, rest) =>
    match ofLine line with
    | some frame => (.ok frame, rest)
    | none => (.error .unreadable, rest)

end Frame

/-- A message as a line. -/
def Message.line (m : Message) : String := Frame.marker ++ m.text

end Microbench
