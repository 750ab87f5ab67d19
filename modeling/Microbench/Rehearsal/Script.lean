import Microbench.Rehearsal.World
import Microbench.Spec.Line
import Microbench.Task.Bindings
import Microbench.Task.Registry

/-!
# Scripted tasks

A scripted task does what its script says: which of its calls fail and how, and
what each invocation of each thread reports.

## Main definitions

* `Raise` — a way to fail.
* `Act` — what an invocation does.
* `Script` — a whole script.
* `Script.task`, `Script.entry` — the task that follows it.
-/

namespace Microbench.Rehearsal

/-- A way to fail. -/
inductive Raise
  /-- An error with a text. -/
  | error (text : String)
  /-- An error of the operating system. -/
  | io (text : String)
  /-- Breaking off with a text. -/
  | panic (text : String)
  /-- Breaking off without a text. -/
  | panicOther
  deriving DecidableEq, Repr, Inhabited

/-- The error that a task raises. -/
def Raise.taskError : Raise → TaskError
  | error text => .message text
  | io text => .io text
  | panic text => .panicked text
  | panicOther => .panicked unknownPanic

/-- What a way to fail comes to where nothing guards the call: breaking off is no error there. -/
def Raise.unguarded : Raise → Abort TaskError
  | panic text => .breakdown ⟨text⟩
  | panicOther => .breakdown ⟨unknownPanic⟩
  | raise => .error raise.taskError

/-- The types that a parameter can be read as. -/
inductive ReadType
  /-- A number of eight bits. -/
  | word8
  /-- A number of 32 bits. -/
  | word32
  /-- A number of 64 bits. -/
  | word64
  /-- A signed number of 64 bits. -/
  | signed64
  /-- A truth value. -/
  | truth
  /-- One character. -/
  | character
  /-- Any text. -/
  | text
  /-- A floating point number. -/
  | float
  /-- A mode. -/
  | mode
  /-- A unit of time. -/
  | unit
  deriving DecidableEq, Repr

/-- A parameter after reading. -/
inductive ReadValue
  /-- Its text. -/
  | text (s : String)
  /-- A floating point number. -/
  | float (x : Float)

/-- Read a parameter. -/
def readBinding (bindings : Dict String) (name : String) (type : ReadType) :
    Except TaskError ReadValue :=
  let natural (limit : Nat) :=
    (bindings.bound name (fun s => Whole.readNat 10 limit s.toList) Whole.Error.message).map
      fun n => ReadValue.text (Whole.text n)
  match type with
  | .word8 => natural Whole.max8
  | .word32 => natural Whole.max32
  | .word64 => natural Whole.max64
  | .signed64 =>
    (bindings.bound name (fun s => Whole.readInt Whole.maxSigned64 s.toList)
      Whole.Error.message).map fun n => .text (toString n)
  | .truth =>
    (bindings.bound name Spec.parseBool fun _ => Spec.boolMessage).map fun b =>
      .text (Spec.boolText b)
  | .character =>
    (bindings.bound name readCharacter CharacterError.message).map fun c =>
      .text (String.singleton c)
  | .text => (bindings.bound name (fun s => (.ok s : Except Empty String)) nofun).map .text
  | .float =>
    (bindings.bound name (fun s => Decimal.read s.toList) Decimal.Error.message).map .float
  | .mode => (bindings.bound name Mode.parse UnknownMode.message).map fun m => .text m.label
  | .unit => (bindings.bound name TimeUnit.parse UnknownUnit.message).map fun u => .text u.suffix

/-- What an invocation gives as its outcome. -/
inductive Value
  /-- The clock tells. -/
  | timed
  /-- The counter of the shared state. -/
  | shared
  /-- The counter of the state of the group. -/
  | group
  /-- The counter of the state of the thread. -/
  | thread
  /-- The seat, its parts as digits of one number. -/
  | seat
  /-- A parameter, read as a number. -/
  | binding (name : String)
  /-- A number. -/
  | number (x : Float)
  deriving Inhabited

/-- What an invocation does. -/
inductive Act
  /-- It fails. -/
  | fail (raise : Raise)
  /-- It records samples and gives an outcome. -/
  | give (value : Value) (recordings : List Recording)
  deriving Inhabited

/-- A call of a fixture that fails. -/
structure FixtureFault where
  /-- Which fixture. -/
  key : FixtureKey
  /-- Which of its calls, counted from zero. -/
  nth : Nat
  /-- How it fails. -/
  raise : Raise

/-- A piece of state that fails to build. -/
structure BuildFault where
  /-- Its scope. -/
  scope : Scope
  /-- Its index. -/
  index : Nat
  /-- How it fails. -/
  raise : Raise

/-- What a task does. -/
structure Script where
  /-- What it declares. -/
  declaration : Declaration
  /-- How making an instance fails. -/
  createFault : Option Raise := none
  /-- The parameters that are read when an instance is made. -/
  reads : List (String × ReadType) := []
  /-- The pieces of state that fail to build. -/
  buildFaults : List BuildFault := []
  /-- The declared fixtures. -/
  fixtures : Fixtures := .none
  /-- The calls of fixtures that fail. -/
  fixtureFaults : List FixtureFault := []
  /-- What the invocations of the threads do, in turn. -/
  acts : Array (Array Act) := #[]
  /-- Whether calls are logged. -/
  logged : Bool := false

/-- The name of a scope for pieces of state. -/
def stateName : Scope → String
  | .benchmark => "shared"
  | .group => "group"
  | .thread => "thread"

/-- The name of a scope for fixtures. -/
def scopeName : Scope → String
  | .benchmark => "benchmark"
  | .group => "group"
  | .thread => "thread"

/-- The name of a stage. -/
def stageName : Stage → String
  | .setup => "setup"
  | .teardown => "teardown"

/-- The index of a target among those of its scope. -/
def targetIndex : Target → Nat
  | .benchmark => 0
  | .group seat => seat.index
  | .thread seat => seat.index

/-- The lane of the log that a fixture belongs to. -/
def laneOf : Target → String
  | .benchmark => "b"
  | .group seat => "g" ++ Whole.text seat.index
  | .thread seat => "t" ++ Whole.text seat.index

/-- A seat, its parts as digits of one number. -/
def seatNumber (s : Seat) : Nat :=
  s.index * 100000 + s.total * 10000 + s.groupIndex * 1000 + s.indexInGroup * 100 +
    s.groupThreads.toNat * 10 + s.groupName.utf8ByteSize % 10

namespace Script

/-- Write into the log, if calls are logged. -/
def note (s : Script) (lane text : String) : Scene Unit :=
  if s.logged then World.note lane text else pure ()

/-- Build a piece of state. -/
def build (s : Script) (target : Target) : ExceptT TaskError Scene Reply := do
  let index := targetIndex target
  s.note "b" ("state " ++ stateName target.scope ++ " " ++ Whole.text index)
  match s.buildFaults.find? fun f => f.scope = target.scope ∧ f.index = index with
  | some f => throw f.raise.taskError
  | none => return {}

/-- Run a fixture. -/
def fixture (s : Script) (stage : Stage) (level : Level) (target : Target) :
    ExceptT TaskError Scene Reply := do
  let index := targetIndex target
  let key : FixtureKey := ⟨stage, level, target.scope, index⟩
  s.note (laneOf target) (stageName stage ++ " " ++ level.text ++ " " ++ scopeName target.scope ++
    " " ++ Whole.text index)
  let n ← World.countFixture key
  match s.fixtureFaults.find? fun f => f.key = key ∧ f.nth = n with
  | some f => throw f.raise.taskError
  | none => return {}

/-- The act of an invocation. -/
def actAt (s : Script) (thread invocation : Nat) : Act :=
  let acts := s.acts.getD (thread % s.acts.size) #[]
  acts.getD (invocation % acts.size) (.give .timed [])

/-- Invoke the task once in a thread. -/
def invoke (s : Script) (bindings : Dict String) (seat : Seat) :
    ExceptT TaskError Scene Reply := do
  let w ← get
  let shared := w.shared
  let (group, groups) := Counters.bump w.groups seat.groupIndex
  let (thread, threads) := Counters.bump w.threads seat.index
  set { w with shared := shared + 1, groups, threads }
  s.note ("t" ++ Whole.text seat.index)
    ("invoke " ++ Whole.text seat.index ++ " " ++ Whole.text thread)
  match s.actAt seat.index thread with
  | .fail raise => throw raise.taskError
  | .give value recordings =>
    let count (n : Nat) : Reply := { outcome := .reported (Float.ofNat n), recordings }
    match value with
    | .timed => return { outcome := .timed, recordings }
    | .shared => return count shared
    | .group => return count group
    | .thread => return count thread
    | .seat => return count (seatNumber seat)
    | .number x => return { outcome := .reported x, recordings }
    | .binding name =>
      match readBinding bindings name .float with
      | .ok (.float x) => return { outcome := .reported x, recordings }
      | .ok (.text _) => return { outcome := .timed, recordings }
      | .error e => throw e

/-- The task that follows the script. -/
def task (s : Script) (bindings : Dict String) : Task Scene where
  fixtures := s.fixtures
  call c := do
    World.tick
    match c with
    | .build target => s.build target
    | .fixture stage level target => s.fixture stage level target
    | .invoke seat => s.invoke bindings seat

/-- Make an instance: the parameters are read in order. -/
def create (s : Script) (bindings : Dict String) :
    ExceptT (Abort TaskError) Scene (Task Scene) := do
  match s.createFault with
  | some raise => throw raise.unguarded
  | none =>
    for (name, type) in s.reads do
      match readBinding bindings name type with
      | .ok _ => pure ()
      | .error e => throw (.error e)
    World.enter
    return s.task bindings

/-- The registered task that follows the script. -/
def entry (s : Script) : TaskEntry Scene := ⟨s.declaration, s.create⟩

end Script

end Microbench.Rehearsal
