import Microbench.Profiler.Probe
import Microbench.Profiler.Sampling
import Microbench.Text.Quoted

/-!
# Selected profilers

Profilers are attached by name.  Probes run inside the worker and are only named
here, monitors run around it.

## Main definitions

* `Selection` — the attached profilers.
* `Selection.resolve` — from names to profilers.
* `Selection.available` — all profilers that can be attached.
-/

namespace Microbench

/-- The attached profilers, in the order of attachment. -/
structure Selection where
  /-- The names of the probes. -/
  probes : List String := []
  /-- The settings of each sampling monitor. -/
  monitors : List Sampling := []
  deriving DecidableEq, Repr, Inhabited

/-- Why profilers cannot be attached. -/
inductive SelectionError
  /-- There is no profiler of this name. -/
  | unknown (e : UnknownProbe)
  /-- Its settings cannot be used. -/
  | config (e : ConfigError)
  deriving DecidableEq, Repr

/-- The wording of an error. -/
def SelectionError.message : SelectionError → String
  | unknown e => e.message
  | config e => e.message

namespace Selection

/-- Attach one more profiler. -/
def attach (config : ProfilersConfig) (s : Selection) (name : String) :
    Except SelectionError Selection :=
  if Probe.builtIn.any (·.1 = name) then .ok { s with probes := s.probes ++ [name] }
  else if name = Sampling.name then
    match Sampling.ofConfig config.sampling with
    | .ok settings => .ok { s with monitors := s.monitors ++ [settings] }
    | .error e => .error (.config e)
  else .error (.unknown ⟨name⟩)

/-- Attach profilers by name. -/
def resolve (names : List String) (config : ProfilersConfig) : Except SelectionError Selection :=
  names.foldlM (attach config) {}

/-- Texts in square brackets. -/
def quotedList (l : List String) : String := "[" ++ ", ".intercalate (l.map Text.quote) ++ "]"

/-- A selection as text. -/
def describe (s : Selection) : String :=
  "ProfilerSelection \x7b internal: " ++ quotedList s.probes ++ ", external: " ++
    quotedList (s.monitors.map fun _ => Sampling.name) ++ " \x7d"

/-- The kinds of profilers. -/
inductive Kind
  /-- It runs inside the worker. -/
  | internal
  /-- It runs around the worker. -/
  | external
  deriving DecidableEq, Repr

/-- The name of a kind. -/
def Kind.name : Kind → String
  | internal => "internal"
  | external => "external"

/-- All profilers that can be attached, with their kinds and descriptions. -/
def available : List (String × Kind × String) :=
  Probe.builtIn.map (fun (name, description) => (name, .internal, description)) ++
    [(Sampling.name, .external, Sampling.description)]

end Selection

end Microbench
