/-!
# Sink for values

Values handed to a sink must look used without costing much.  Each one advances
a linear congruential generator, and only when the low bits of its state under a
growing mask are all zero is the value stored, so stores become exponentially
rare.

## Main definitions

* `Sink` — the generator, the mask and the last values stored.
* `Sink.tick` — one step of the generator.
* `Sink.keep` — store a value.
* `Sink.consume` — hand a value to the sink.
-/

namespace Microbench

/-- What can be handed to a sink. -/
inductive Consumed
  /-- An integer. -/
  | word (value : UInt64)
  /-- A floating point number. -/
  | float (value : Float)
  /-- A truth value. -/
  | truth (value : Bool)
  /-- Anything else, of which only its place is stored. -/
  | other

/-- A sink. -/
structure Sink where
  /-- The state of the generator. -/
  state : UInt64
  /-- The bits of the state that must be zero for a store. -/
  mask : UInt64 := 1
  /-- The last integer stored. -/
  word : UInt64 := 0
  /-- The last floating point number stored. -/
  float : Float := 0.0
  /-- How many values were stored. -/
  stores : Nat := 0

namespace Sink

/-- The multiplier of the generator. -/
def multiplier : UInt64 := 6364136223846793005

/-- The increment of the generator. -/
def increment : UInt64 := 1442695040888963407

/-- A sink with a seed. -/
def ofSeed (seed : UInt64) : Sink := { state := seed }

/-- The state of the generator after one more step. -/
def next (s : Sink) : UInt64 := s.state * multiplier + increment

/-- Advance the generator, and say whether the value of this step is stored. -/
def tick (s : Sink) : Bool × Sink :=
  if s.next &&& s.mask = 0 then
    (true, { s with state := s.next, mask := (s.mask <<< 1) ||| 1, stores := s.stores + 1 })
  else (false, { s with state := s.next })

/-- Store a value in the place for values of its kind. -/
def keep (s : Sink) : Consumed → Sink
  | .word w => { s with word := w }
  | .truth b => { s with word := if b then 1 else 0 }
  | .float x => { s with float := x }
  | .other => s

/-- Hand a value to the sink. -/
def consume (s : Sink) (value : Consumed) : Sink :=
  if s.tick.1 then s.tick.2.keep value else s.tick.2

/-- Hand several values to the sink. -/
def consumeAll (s : Sink) (values : List Consumed) : Sink := values.foldl consume s

end Sink

end Microbench
