import Microbench.Duration.Exact
import Microbench.Spec
import Microbench.Spec.Token
import Microbench.Text.Quoted

/-!
# Specifications as lines

The line form of a specification: its twenty-two fields in a fixed order, each a
text, a list, a dictionary, or the mark of what is not given.  The form loses
nothing, and the reader names the first field that it cannot accept.

## Main definitions

* `Spec.fieldNames` — the fields in their order.
* `Spec.encode` — a specification as a line.
* `Spec.decode` — the reader.
* `Spec.DecodeError` — why a line is no specification.
-/

namespace Microbench.Spec

/-- The fields of a line, in their order. -/
def fieldNames : List String :=
  ["name", "mode", "thread_groups", "threads", "warmup_iterations", "warmup_time",
   "warmup_batch_size", "measurement_iterations", "measurement_time", "measurement_batch_size",
   "forks", "warmup_forks", "launch_args", "launch_args_prepend", "launch_args_append", "params",
   "time_unit", "bindings", "sync_iterations", "fail_on_error", "timeout", "scale"]

/-! ### Writing -/

/-- Parts with a sentinel between them. -/
def joined (s : Sentinel) (parts : List (List Char)) : List Char := s.chars.intercalate parts

/-- A text as a field. -/
def writeText (s : String) : List Char := escape s.toList

/-- A setting that may not be given. -/
def writeOptional {α : Type} (write : α → List Char) : Option α → List Char
  | none => Sentinel.absent.chars
  | some a => write a

/-- A list of texts. -/
def writeList : List String → List Char
  | [] => Sentinel.empty.chars
  | items => joined .item (items.map writeText)

/-- A dictionary. -/
def writeDict {α : Type} (write : α → List Char) (d : Dict α) : List Char :=
  match d.toList with
  | [] => Sentinel.empty.chars
  | entries => joined .entry (entries.map fun e =>
      writeText e.1 ++ Sentinel.key.chars ++ write e.2)

/-- A number of 32 bits. -/
def write32 (n : UInt32) : List Char := writeText (Whole.text n.toNat)

/-- A number of 64 bits. -/
def write64 (n : UInt64) : List Char := writeText (Whole.text n.toNat)

/-- A duration. -/
def writeDuration (d : Duration) : List Char := writeText d.exact

/-- A truth value as text. -/
def boolText (b : Bool) : String := if b then "true" else "false"

/-- A truth value. -/
def writeBool (b : Bool) : List Char := writeText (boolText b)

/-- The fields of a specification, in their order. -/
def fields (s : Spec) : List (List Char) :=
  [writeText s.name,
   writeText s.mode.label,
   writeList (s.groupSizes.map fun n => Whole.text n.toNat),
   writeOptional write32 s.threads,
   writeOptional write32 s.warmup.iterations,
   writeOptional writeDuration s.warmup.time,
   writeOptional write64 s.warmup.batch,
   writeOptional write32 s.measurement.iterations,
   writeOptional writeDuration s.measurement.time,
   writeOptional write64 s.measurement.batch,
   writeOptional write32 s.forks,
   writeOptional write32 s.warmupForks,
   writeOptional writeList s.launch.args,
   writeOptional writeList s.launch.before,
   writeOptional writeList s.launch.after,
   writeOptional (writeDict writeList) s.params,
   writeOptional (fun u => writeText u.suffix) s.unit,
   writeDict writeText s.bindings,
   writeOptional writeBool s.syncIterations,
   writeOptional writeBool s.failOnError,
   writeOptional writeDuration s.timeout,
   writeOptional writeBool s.scale]

/-- A specification as a line. -/
def encode (s : Spec) : String := String.ofList (joined .field s.fields)

/-! ### Reading -/

/-- Why a field is not accepted. -/
inductive FieldError
  /-- There is more than one text. -/
  | notSingle
  /-- An entry of a dictionary has no key. -/
  | noKey
  /-- The text is no duration. -/
  | badTime (text : String)
  /-- The text does not read as what it should, with the reader's message. -/
  | unreadable (text message : String)
  deriving DecidableEq, Repr

/-- The wording of a reason. -/
def FieldError.message : FieldError → String
  | notSingle => "expected a single value"
  | noKey => "map entry without key separator"
  | badTime text => "bad time value " ++ Text.quote text
  | unreadable text message => Text.quote text ++ ": " ++ message

/-- Why a line is no specification. -/
inductive DecodeError
  /-- The number of fields is wrong. -/
  | fieldCount (got : Nat)
  /-- A field is not accepted. -/
  | invalidField (field : String) (reason : FieldError)
  /-- A backslash at this byte starts no escape. -/
  | badEscape (place : Nat)
  /-- An equals sign at this byte starts no sentinel. -/
  | unknownSentinel (place : Nat)
  deriving DecidableEq, Repr

/-- The wording of an error. -/
def DecodeError.message : DecodeError → String
  | fieldCount got =>
    "expected " ++ Whole.text fieldNames.length ++ " fields, got " ++ Whole.text got
  | invalidField field reason => "invalid field " ++ field ++ ": " ++ reason.message
  | badEscape place => "invalid escape sequence at byte " ++ Whole.text place
  | unknownSentinel place => "unknown sentinel at byte " ++ Whole.text place

/-- A field that fails to cut into tokens is reported at its place. -/
def DecodeError.ofToken : Token.Error → DecodeError
  | .badEscape place => badEscape place
  | .unknownSentinel place => unknownSentinel place

/-- A single text; no token at all is the empty text. -/
def readText : List Token → Except FieldError String
  | [] => .ok ""
  | [.text cs] => .ok (String.ofList cs)
  | _ => .error .notSingle

/-- A setting that may not be given. -/
def readOptional {α : Type} (read : List Token → Except FieldError α) (ts : List Token) :
    Except FieldError (Option α) :=
  if ts = [.mark .absent] then .ok none else (read ts).map some

/-- A list of texts. -/
def readList (ts : List Token) : Except FieldError (List String) :=
  if ts = [.mark .empty] then .ok [] else (Token.split .item ts).mapM readText

/-- The keys of a dictionary, each with the tokens of its value. -/
def readEntries (ts : List Token) : Except FieldError (List (String × List Token)) :=
  if ts = [.mark .empty] then .ok []
  else (Token.split .entry ts).mapM fun entry =>
    match Token.cut? .key entry with
    | none => .error .noKey
    | some (key, value) => (readText key).map fun k => (k, value)

/-- A dictionary: first all keys are read, then the values. -/
def readDict {α : Type} (read : List Token → Except FieldError α) (ts : List Token) :
    Except FieldError (Dict α) := do
  let entries ← readEntries ts
  let read ← entries.mapM fun e => (read e.2).map fun v => (e.1, v)
  return Dict.ofList read

/-- A text that a reader of its own understands. -/
def readAs {α ε : Type} (read : String → Except ε α) (message : ε → String) (ts : List Token) :
    Except FieldError α := do
  let text ← readText ts
  match read text with
  | .ok a => .ok a
  | .error e => .error (.unreadable text (message e))

/-- A number of 32 bits. -/
def read32 : List Token → Except FieldError UInt32 := readAs Whole.read32 Whole.Error.message

/-- A number of 64 bits. -/
def read64 : List Token → Except FieldError UInt64 :=
  readAs (fun s => (Whole.read64 s).map UInt64.ofNat) Whole.Error.message

/-- A truth value as text. -/
def parseBool : String → Except Unit Bool
  | "true" => .ok true
  | "false" => .ok false
  | _ => .error ()

/-- The wording for a text that is no truth value. -/
def boolMessage : String := "provided string was not `true` or `false`"

/-- A truth value. -/
def readBool : List Token → Except FieldError Bool := readAs parseBool fun _ => boolMessage

/-- A duration. -/
def readDuration (ts : List Token) : Except FieldError Duration := do
  let text ← readText ts
  match Duration.parseExact text with
  | some d => .ok d
  | none => .error (.badTime text)

/-- The sizes of thread groups: a list of numbers, all read as texts first. -/
def readSizes (ts : List Token) : Except FieldError (List UInt32) := do
  (← readList ts).mapM fun s =>
    match Whole.read32 s with
    | .ok n => .ok n
    | .error e => .error (.unreadable s e.message)

/-- Read one field of a line by its place. -/
def readField {α : Type} (cells : List (List Token)) (place : Nat)
    (read : List Token → Except FieldError α) : Except DecodeError α :=
  match read (cells.getD place []) with
  | .ok a => .ok a
  | .error e => .error (.invalidField (fieldNames.getD place "") e)

/-- Read a specification from its fields, the first error in the order of fields winning. -/
def ofCells (cells : List (List Token)) : Except DecodeError Spec := do
  let name ← readField cells 0 readText
  let mode ← readField cells 1 (readAs Mode.parse UnknownMode.message)
  let groupSizes ← readField cells 2 readSizes
  let threads ← readField cells 3 (readOptional read32)
  let warmupIterations ← readField cells 4 (readOptional read32)
  let warmupTime ← readField cells 5 (readOptional readDuration)
  let warmupBatch ← readField cells 6 (readOptional read64)
  let iterations ← readField cells 7 (readOptional read32)
  let time ← readField cells 8 (readOptional readDuration)
  let batch ← readField cells 9 (readOptional read64)
  let forks ← readField cells 10 (readOptional read32)
  let warmupForks ← readField cells 11 (readOptional read32)
  let args ← readField cells 12 (readOptional readList)
  let before ← readField cells 13 (readOptional readList)
  let after ← readField cells 14 (readOptional readList)
  let params ← readField cells 15 (readOptional (readDict readList))
  let unit ← readField cells 16 (readOptional (readAs TimeUnit.parse UnknownUnit.message))
  let bindings ← readField cells 17 (readDict readText)
  let syncIterations ← readField cells 18 (readOptional readBool)
  let failOnError ← readField cells 19 (readOptional readBool)
  let timeout ← readField cells 20 (readOptional readDuration)
  let scale ← readField cells 21 (readOptional readBool)
  return {
    name, mode, groupSizes, threads
    warmup := ⟨warmupIterations, warmupTime, warmupBatch⟩
    measurement := ⟨iterations, time, batch⟩
    forks, warmupForks
    launch := ⟨args, before, after⟩
    params, unit, bindings, syncIterations, failOnError, timeout, scale }

/-- Read a specification from a line. -/
def decode (line : String) : Except DecodeError Spec :=
  match Token.scan line.toList with
  | .error e => .error (.ofToken e)
  | .ok tokens =>
    let cells := Token.split .field tokens
    if cells.length = fieldNames.length then ofCells cells
    else .error (.fieldCount cells.length)

end Microbench.Spec
