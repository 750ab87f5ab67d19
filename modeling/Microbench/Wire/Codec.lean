import Microbench.Json.Reader
import Microbench.Json.Writer
import Microbench.Wire.Message

/-!
# Messages as structured values

The form in which messages travel.  A record is written as an object with its
fields in a fixed order; it is read from an object with its fields in any order,
none twice and others ignored, or from an array with them in the fixed order.
One of several cases is an object with the case's name as its only member, and a
case without content may be its name alone.

## Main definitions

* `Shape.fields?`, `Shape.case?` — the two ways in which values are put together.
* `Message.toJson`, `Message.ofJson?` — messages as values and back.
-/

namespace Microbench

namespace Shape

/-- The values of the named fields of a record; `none` in the list for a field that is not
there.  An array gives as many fields from the front as it has items. -/
def fields? (names : List String) : Json → Option (List (Option Json))
  | .object members =>
    names.mapM fun name =>
      match members.filter fun m => m.1 = name with
      | [] => some none
      | [m] => some (some m.2)
      | _ => none
  | .array items =>
    if items.length ≤ names.length then
      some (items.map some ++ List.replicate (names.length - items.length) none)
    else none
  | _ => none

/-- The name and the content of one of several cases. -/
def case? : Json → Option (String × Option Json)
  | .string name => some (name, none)
  | .object [(name, content)] => some (name, some content)
  | _ => none

/-- Whether a case stands without content. -/
def isBare : Option Json → Bool
  | none => true
  | some .null => true
  | some _ => false

/-- A text. -/
def text? : Json → Option String
  | .string s => some s
  | _ => none

/-- A natural number of at most `limit`. -/
def nat? (limit : Nat) : Json → Option Nat
  | .number n => n.toNat? limit
  | _ => none

/-- A number of 32 bits. -/
def word32? (v : Json) : Option UInt32 := (nat? Whole.max32 v).map UInt32.ofNat

/-- A measurement. -/
def float? : Json → Option Float
  | .number n => n.toFloat?
  | _ => none

/-- Values in order. -/
def list? {α : Type} (read : Json → Option α) : Json → Option (List α)
  | .array items => items.mapM read
  | _ => none

/-- A value that may be missing. -/
def optional? {α : Type} (read : Json → Option α) : Json → Option (Option α)
  | .null => some none
  | v => (read v).map some

/-- A dictionary; of two entries with one key the later wins. -/
def dict? {α : Type} (read : Json → Option α) : Json → Option (Dict α)
  | .object members => (members.mapM fun m => (read m.2).map fun v => (m.1, v)).map Dict.ofList
  | _ => none

/-- One of several words. -/
def word? {α : Type} (words : List (String × α)) (v : Json) : Option α := do
  let (name, content) ← case? v
  if isBare content then (words.find? fun w => w.1 = name).map Prod.snd else none

end Shape

open Shape

/-- The words for what a metric measures. -/
def MetricKind.words : List (String × MetricKind) :=
  [("SingleShot", .singleShot), ("AverageTime", .averageTime), ("Throughput", .throughput),
   ("SampleTime", .sampleTime), ("ScalarDerived", .scalar)]

/-- The words for roles. -/
def Role.words : List (String × Role) := [("Primary", .primary), ("Secondary", .secondary)]

/-- The words for policies. -/
def Policy.words : List (String × Policy) := [("Average", .average), ("Sum", .sum), ("Max", .max)]

/-- The words for levels. -/
def Level.words : List (String × Level) :=
  [("Trial", .trial), ("Iteration", .iteration), ("Invocation", .invocation)]

/-- The words for phases. -/
def Phase.words : List (String × Phase) := [("Warmup", .warmup), ("Measurement", .measurement)]

/-- The word of a vocabulary for a value. -/
def wordOf {α : Type} [DecidableEq α] (words : List (String × α)) (a : α) : Json :=
  match words.find? fun w => w.2 = a with
  | some (name, _) => .string name
  | none => .null

namespace Metric

/-- A metric as a value. -/
def toJson (m : Metric) : Json :=
  .object [("kind", wordOf MetricKind.words m.kind), ("role", wordOf Role.words m.role),
    ("label", .string m.label), ("unit", .string m.unit),
    ("policy", wordOf Policy.words m.policy), ("statistics", .array (m.samples.map Json.ofFloat))]

/-- Read a metric. -/
def ofJson? (v : Json) : Option Metric := do
  let [kind, role, label, unit, policy, samples] ←
    fields? ["kind", "role", "label", "unit", "policy", "statistics"] v | none
  return {
    kind := ← word? MetricKind.words (← kind)
    role := ← word? Role.words (← role)
    label := ← text? (← label)
    unit := ← text? (← unit)
    policy := ← word? Policy.words (← policy)
    samples := ← list? float? (← samples) }

end Metric

namespace IterationResult

/-- The result of an iteration as a value. -/
def toJson (r : IterationResult) : Json :=
  .object [("primary", match r.primary with
      | some m => m.toJson
      | none => .null),
    ("secondary", .object (r.secondary.toList.map fun e => (e.1, e.2.toJson))),
    ("threads", .ofNat r.threads), ("operations", .ofNat r.operations)]

/-- Read the result of an iteration; only the primary metric may be left out of an object. -/
def ofJson? (v : Json) : Option IterationResult := do
  let [primary, secondary, threads, operations] ←
    fields? ["primary", "secondary", "threads", "operations"] v | none
  return {
    primary := ← optional? Metric.ofJson? (primary.getD .null)
    secondary := ← dict? Metric.ofJson? (← secondary)
    threads := ← nat? Whole.max64 (← threads)
    operations := ← nat? Whole.max64 (← operations) }

end IterationResult

namespace Report

/-- A report as a value; warnings are written only if there are any. -/
def toJson (r : Report) : Json :=
  .object ([("phase", wordOf Phase.words r.phase), ("index", .ofNat r.index.toNat),
    ("result", r.result.toJson)] ++
    if r.warnings.isEmpty then [] else [("warnings", .array (r.warnings.map .string))])

/-- Read a report; the warnings may be left out. -/
def ofJson? (v : Json) : Option Report := do
  let [phase, index, result, warnings] ←
    fields? ["phase", "index", "result", "warnings"] v | none
  return {
    phase := ← word? Phase.words (← phase)
    index := ← word32? (← index)
    result := ← IterationResult.ofJson? (← result)
    warnings := ← list? text? (warnings.getD (.array [])) }

end Report

namespace Site

/-- A site as a value. -/
def toJson : Site → Json
  | configuration => .string "Configuration"
  | setup level => .object [("Setup", wordOf Level.words level)]
  | invocation => .string "Invocation"
  | teardown level => .object [("Teardown", wordOf Level.words level)]

/-- Read a site. -/
def ofJson? (v : Json) : Option Site := do
  let (name, content) ← case? v
  match name with
  | "Configuration" => if isBare content then some configuration else none
  | "Invocation" => if isBare content then some invocation else none
  | "Setup" => return setup (← word? Level.words (← content))
  | "Teardown" => return teardown (← word? Level.words (← content))
  | _ => none

end Site

namespace Failure

/-- A failure as a value. -/
def toJson (f : Failure) : Json :=
  .object [("task", .string f.task), ("site", f.site.toJson),
    ("thread", match f.thread with
      | some n => .ofNat n
      | none => .null),
    ("message", .string f.message)]

/-- Read a failure; in an object the thread may be left out. -/
def ofJson? (v : Json) : Option Failure := do
  let [task, site, thread, message] ← fields? ["task", "site", "thread", "message"] v | none
  return {
    task := ← text? (← task)
    site := ← Site.ofJson? (← site)
    thread := ← optional? (nat? Whole.max64) (thread.getD .null)
    message := ← text? (← message) }

end Failure

namespace Message

/-- A message as a value. -/
def toJson : Message → Json
  | hello version pid task =>
    .object [("Hello", .object [("protocol_version", .ofNat version.toNat),
      ("pid", .ofNat pid.toNat), ("task", .string task)])]
  | iteration report => .object [("Iteration", report.toJson)]
  | failure f => .object [("Failure", f.toJson)]
  | complete n => .object [("Complete", .object [("iterations", .ofNat n.toNat)])]

/-- Read a message. -/
def ofJson? (v : Json) : Option Message := do
  let (name, content) ← case? v
  let content ← content
  match name with
  | "Hello" =>
    let [version, pid, task] ← fields? ["protocol_version", "pid", "task"] content | none
    return hello (← word32? (← version)) (← word32? (← pid)) (← text? (← task))
  | "Iteration" => return iteration (← Report.ofJson? content)
  | "Failure" => return failure (← Failure.ofJson? content)
  | "Complete" =>
    let [n] ← fields? ["iterations"] content | none
    return complete (← word32? (← n))
  | _ => none

/-- The text of a message. -/
def text (m : Message) : String := m.toJson.text

/-- Read the text of a message. -/
def parse? (cs : List Char) : Option Message := Json.parse cs >>= ofJson?

end Message

end Microbench
