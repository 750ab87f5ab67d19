/-!
# Errors of profilers

What can go wrong in a hook of a profiler that is guarded.  Such an error fails no
trial.

## Main definitions

* `ProfilerError`, `ProfilerError.message` — the errors and their wording.
-/

namespace Microbench

/-- An error raised by a hook of a profiler. -/
inductive ProfilerError
  /-- The profiler cannot be used here. -/
  | unavailable (text : String)
  /-- The profiler did not do its work. -/
  | failed (text : String)
  /-- The profiler broke off. -/
  | panicked (text : String)
  /-- The operating system says so. -/
  | io (text : String)
  deriving DecidableEq, Repr, Inhabited

/-- The wording of an error. -/
def ProfilerError.message : ProfilerError → String
  | unavailable text => "profiler unavailable: " ++ text
  | failed text => "profiler failed: " ++ text
  | panicked text => "profiler panicked: " ++ text
  | io text => text

end Microbench
