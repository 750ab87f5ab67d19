import Microbench.Text.Blank

/-!
# What a benchmark measures

The modes of measurement, their labels, and how they are read.

## Main definitions

* `Mode` — the modes; `all` stands for the four concrete ones in turn.
* `Mode.label`, `Mode.parse` — the short label and the reader, which knows more names.
* `Mode.expand` — the concrete modes that a mode stands for.
-/

namespace Microbench

/-- What a benchmark measures. -/
inductive Mode
  /-- Operations per unit of time. -/
  | throughput
  /-- Average time of one operation. -/
  | averageTime
  /-- The distribution of the times of single invocations. -/
  | sampleTime
  /-- The time of one cold batch of invocations. -/
  | singleShot
  /-- Every concrete mode in turn. -/
  | all
  deriving DecidableEq, Repr, Inhabited

/-- A word that names no mode; it is kept trimmed and in lower case. -/
structure UnknownMode where
  /-- The word. -/
  word : String
  deriving DecidableEq, Repr

/-- The wording of the error. -/
def UnknownMode.message (e : UnknownMode) : String := "unknown benchmark mode: " ++ e.word

namespace Mode

/-- The concrete modes, in the order in which `all` runs them. -/
def concrete : List Mode := [throughput, averageTime, sampleTime, singleShot]

/-- The short label. -/
def label : Mode → String
  | throughput => "thrpt"
  | averageTime => "avgt"
  | sampleTime => "sample"
  | singleShot => "ss"
  | all => "all"

/-- The concrete modes that a mode stands for. -/
def expand : Mode → List Mode
  | all => concrete
  | m => [m]

/-- Place of a mode in the order of modes. -/
def rank : Mode → Nat
  | throughput => 0
  | averageTime => 1
  | sampleTime => 2
  | singleShot => 3
  | all => 4

/-- The mode that a word in lower case names. -/
def ofWord? : String → Option Mode
  | "thrpt" | "throughput" => some throughput
  | "avgt" | "averagetime" | "average-time" => some averageTime
  | "sample" | "sampletime" | "sample-time" => some sampleTime
  | "ss" | "singleshot" | "single-shot" => some singleShot
  | "all" => some all
  | _ => none

/-- Read a mode; blanks around it and letter case do not matter. -/
def parse (s : String) : Except UnknownMode Mode :=
  let word := String.ofList ((Text.trim s.toList).map Char.toLower)
  match ofWord? word with
  | some m => .ok m
  | none => .error ⟨word⟩

/-- The label of a mode names it. -/
theorem ofWord?_label (m : Mode) : ofWord? m.label = some m := by cases m <;> rfl

/-- Expanding leaves no mode to expand. -/
theorem all_notMem_expand (m : Mode) : all ∉ m.expand := by cases m <;> simp [expand, concrete]

/-- Modes of one rank are one mode. -/
theorem rank_inj {a b : Mode} (h : a.rank = b.rank) : a = b := by
  cases a <;> cases b <;> first | rfl | simp [rank] at h

end Mode

end Microbench
