import Microbench.Duration
import Microbench.Profiler.Sample
import Microbench.Stats.Metric

/-!
# Hot symbols

Where a process spends its events.  Of all samples only those of the process and
of the events asked for count, and those of the first part of the recording are
left out.  An address belongs to the symbol that it was first seen with.

## Main definitions

* `Hotspots` — the samples that count.
* `Hotspots.collect` — choose them.
* `Hotspots.top` — the symbols with most samples of an event.
* `Hotspots.metrics` — all events with their hottest symbols as metrics.
-/

namespace Microbench

/-- Where an address belongs. -/
structure Symbol where
  /-- The function. -/
  name : String
  /-- The program or library; none if it is not known. -/
  image : String
  deriving DecidableEq, Repr, Inhabited

namespace Symbol

/-- Where the addresses of the kernel belong. -/
def kernel : Symbol := ⟨"<kernel>", ""⟩

/-- Where addresses belong that no symbol is known for. -/
def unknown : Symbol := ⟨"<unknown>", ""⟩

/-- The lowest address of the kernel. -/
def kernelStart : Nat := 0xffff800000000000

/-- The order of symbols: by function, then by image. -/
def compare (a b : Symbol) : Ordering :=
  (Ord.compare a.name b.name).then (Ord.compare a.image b.image)

/-- A symbol as text. -/
def text (s : Symbol) : String := if s.image = "" then s.name else s.name ++ " (" ++ s.image ++ ")"

end Symbol

/-- The samples that count, each with the event that it is counted for. -/
structure Hotspots where
  /-- The events asked for. -/
  events : List String := []
  /-- The samples, each with one of these events. -/
  samples : List Sample := []

/-- A duration in seconds. -/
def Duration.inSeconds (d : Duration) : Float :=
  Float.ofNat d.seconds + Float.ofNat d.subsecond / 1e9

namespace Hotspots

/-- Whether a sample's event is an event asked for, perhaps with a modifier. -/
def isEvent (seen asked : String) : Bool :=
  seen = asked || (asked ++ ":").toList.isPrefixOf seen.toList

/-- The event that a sample counts for. -/
def eventOf (events : List String) (seen : String) : Option String := events.find? (isEvent seen)

/-- A sample as it counts, if it does: it is of the process, not too early after the start, and
of one of the events. -/
def counted (pid : Nat) (skip : Duration) (events : List String) (start : Float) (s : Sample) :
    Option Sample :=
  if s.pid ≠ pid ∨ s.time - start < skip.inSeconds then none
  else (eventOf events s.event).map fun event => { s with event }

/-- Choose the samples that count.  The recording starts with its first sample, of whatever
process, and lines that are no samples are left out. -/
def collect (lines : List String) (pid : Nat) (skip : Duration) (events : List String) : Hotspots :=
  let samples := lines.filterMap Sample.parse
  match samples with
  | [] => { events }
  | first :: _ => { events, samples := samples.filterMap (counted pid skip events first.time) }

/-- Whether a sample tells where its address belongs. -/
def isNamed (s : Sample) : Bool := s.symbol != "" && s.symbol != "[unknown]"

/-- Where an address belongs. -/
def resolve (h : Hotspots) (address : Nat) : Symbol :=
  if Symbol.kernelStart ≤ address then .kernel
  else
    match h.samples.find? fun s => s.address = address ∧ isNamed s with
    | some s => ⟨s.symbol, s.image⟩
    | none => .unknown

/-- The samples of an event. -/
def ofEvent (h : Hotspots) (event : String) : List Sample :=
  if h.events.contains event then h.samples.filter (·.event = event) else []

/-- How many samples there are of an event. -/
def total (h : Hotspots) (event : String) : Nat := (h.ofEvent event).length

/-- Whether there is no sample at all. -/
def isEmpty (h : Hotspots) : Bool := h.samples.isEmpty

/-- Whether a symbol does not come after another: the one with more samples comes first. -/
def notAfter (a b : Symbol × Nat) : Bool :=
  b.2 < a.2 || (a.2 = b.2 && a.1.compare b.1 != .gt)

/-- The symbols with most samples of an event, the hottest first, with their counts. -/
def top (h : Hotspots) (event : String) (n : Nat) : List (Symbol × Nat) :=
  let symbols := (h.ofEvent event).map fun s => h.resolve s.address
  let counts := symbols.eraseDups.map fun s => (s, symbols.count s)
  (counts.mergeSort notAfter).take n

/-- The events in the order of their names, each of them once. -/
def eventNames (h : Hotspots) : List String :=
  (h.events.eraseDups).mergeSort fun a b => !(b < a)

/-- The metrics of an event: how many samples there are, and the shares of the hottest symbols
in per cent. -/
def eventMetrics (h : Hotspots) (n : Nat) (event : String) : List Metric :=
  let total := h.total event
  let label := "·perf." ++ event
  .scalar label (Float.ofNat total) "#" .sum ::
    (h.top event n).map fun (symbol, count) =>
      .scalar (label ++ ": " ++ symbol.text) (Float.ofNat count * 100.0 / Float.ofNat total) "%"
        .average

/-- All events with their hottest symbols as metrics; none if there is no sample. -/
def metrics (h : Hotspots) (n : Nat) : List Metric :=
  if h.isEmpty then [] else h.eventNames.flatMap (h.eventMetrics n)

end Hotspots

end Microbench
