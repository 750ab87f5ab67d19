import Microbench.Stats.Describe
import Microbench.Text.Lines
import Microbench.Trial.Outcome

/-!
# Summaries

The results of a run as text: every trial in detail, and a table with a row for
every metric.

## Main definitions

* `Summary.details` — a trial in detail.
* `Summary.table` — the table of scores.
* `Summary.text` — the whole text.
-/

namespace Microbench.Summary

/-- The line of a secondary metric. -/
def secondaryLine (m : Metric) : String :=
  "  " ++ m.label ++ ": " ++ numberText m.score ++ " " ++ m.unit ++ "\n"

/-- The lines of the primary metric. -/
def primaryLines : Option Metric → String
  | some m => String.join ((Text.lines m.describe.toUTF8).map fun line => "  " ++ line ++ "\n")
  | none => "  no primary result\n"

/-- A trial in detail. -/
def details (t : TrialResult) : String :=
  match t.failure with
  | some failure => "✗ " ++ t.spec.label ++ "\n  error: " ++ failure ++ "\n"
  | none =>
    "✓ " ++ t.spec.label ++ "\n" ++ primaryLines t.totals.primary ++
      String.join (t.secondaries.map secondaryLine) ++
      String.join (t.warnings.map fun w => "  warning: " ++ w ++ "\n")

/-! ### The table -/

/-- A row: benchmark, mode, number of samples, score, error and unit. -/
abbrev Row := List String

/-- The row at the top. -/
def header : Row := ["Benchmark", "Mode", "Cnt", "Score", "Error", "Units"]

/-- The error of a score; none if it is undefined. -/
def errorText (x : Float) : String := if Binary.isUndefined x then "" else "± " ++ numberText x

/-- The row of a metric. -/
def metricRow (name mode : String) (m : Metric) : Row :=
  [name, mode, Whole.text m.samples.length, numberText m.score, errorText m.scoreError, m.unit]

/-- The rows of a trial. -/
def rows (t : TrialResult) : List Row :=
  let name := t.spec.label
  let mode := t.spec.mode.label
  let first := match t.totals.primary with
    | some m => metricRow name mode m
    | none => [name, mode, "0", "failed", "", ""]
  first :: t.secondaries.map fun m => metricRow (name ++ ":" ++ m.label) mode m

/-- The width of each column. -/
def widths (table : List Row) : List Nat :=
  table.foldl (fun ws row => ws.zipWith max (row.map String.length)) [0, 0, 0, 0, 0, 0]

/-- A cell filled up to its width: the first and the last column are flush left. -/
def fill (column width : Nat) (cell : String) : String :=
  if column = 0 ∨ column = 5 then padRight width cell else padLeft width cell

/-- A row as a line without blanks at its end. -/
def rowLine (ws : List Nat) (row : Row) : String :=
  let cells := (row.zip ws).zipIdx.map fun ((cell, width), column) => fill column width cell
  String.ofList (Text.trimEnd ("  ".intercalate cells).toList) ++ "\n"

/-- A line of one character. -/
def ruler (c : Char) : String := String.ofList (List.replicate 60 c) ++ "\n"

/-- The table of scores. -/
def table (trials : List TrialResult) : String :=
  match trials.flatMap rows with
  | [] => "No trials run\n"
  | body =>
    let all := header :: body
    ruler '-' ++ String.join (all.map (rowLine (widths all)))

/-- The whole text. -/
def text (trials : List TrialResult) : String :=
  "\nTrialbench Results\n" ++ ruler '=' ++ "\n" ++
    String.join (trials.map fun t => details t ++ "\n") ++ table trials

end Microbench.Summary
