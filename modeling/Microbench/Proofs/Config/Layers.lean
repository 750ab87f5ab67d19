import Microbench.Config.Runner
import Microbench.Proofs.Worlds

/-!
# Layers of settings

Settings come in layers: those of a file lie below those of the command line.  Layers can be
put together before anything is written into a specification, or be written one after the
other.  Both come to the same, down to the first setting that cannot be used, because
a text that another one hides is never read.

## Main definitions

* `Runner.Readings`, `Runner.readings` — the settings that are written as texts, read.
* `Runner.write` — settings written into a specification once their texts have been read.

## Main results

* `Runner.applied_eq` — settings are read and then written.
* `Runner.readings_merged`, `Runner.write_merged` — layers are read, and written, one after the
  other.
* `Runner.merged_layers` — **putting layers together is writing one after the other.**
-/

namespace Microbench

/-! ### Reading what may be missing -/

section

variable {ε α β : Type}

/-- Where the lower value can be read, a value over it is read in its place. -/
theorem mapM_or {f : α → Except ε β} {base : Option α} {v : Option β} (h : base.mapM f = .ok v)
    (top : Option α) : (top.or base).mapM f = (top.mapM f).map (·.or v) := by
  cases top with
  | none =>
    rw [Option.none_or, h]
    rfl
  | some a =>
    rw [Option.some_or, Option.mapM_some]
    cases f a <;> rfl

end

namespace Runner

/-! ### Settings that are written as texts -/

theorem duration?_eq (text : Option String) :
    duration? text = text.mapM fun t => (Duration.parse t).mapError .duration := by
  cases text with
  | none => rfl
  | some t =>
    rw [duration?, Option.mapM_some]
    cases Duration.parse t <;> rfl

theorem unit?_eq (text : Option String) :
    unit? text = text.mapM fun t => (TimeUnit.parse t).mapError .timeUnit := by
  cases text with
  | none => rfl
  | some t =>
    rw [unit?, Option.mapM_some]
    cases TimeUnit.parse t <;> rfl

theorem duration?_or {base : Option String} {time : Option Duration} (h : duration? base = .ok time)
    (top : Option String) : duration? (top.or base) = (duration? top).map (·.or time) := by
  rw [duration?_eq] at h ⊢
  rw [duration?_eq, mapM_or h]

theorem unit?_or {base : Option String} {unit : Option TimeUnit} (h : unit? base = .ok unit)
    (top : Option String) : unit? (top.or base) = (unit? top).map (·.or unit) := by
  rw [unit?_eq] at h ⊢
  rw [unit?_eq, mapM_or h]

/-- The settings that are written as texts, read. -/
structure Readings where
  /-- The time of a warmup iteration. -/
  warmupTime : Option Duration
  /-- The time of a measured iteration. -/
  time : Option Duration
  /-- The longest wait for one answer of a worker. -/
  timeout : Option Duration
  /-- The unit of the score. -/
  unit : Option TimeUnit

/-- Readings of one layer over those of another. -/
def Readings.over (top base : Readings) : Readings where
  warmupTime := top.warmupTime.or base.warmupTime
  time := top.time.or base.time
  timeout := top.timeout.or base.timeout
  unit := top.unit.or base.unit

/-- Read the texts in the order in which the settings are written. -/
def readings (r : Runner) : Except ConfigError Readings := do
  let warmupTime ← duration? r.warmupTime
  let time ← duration? r.time
  let timeout ← duration? r.timeout
  let unit ← unit? r.unit
  return { warmupTime, time, timeout, unit }

/-- Write settings whose texts have been read into a specification. -/
def write (r : Runner) (x : Readings) (s : Spec) : Spec :=
  applyUnit x.unit (r.applyTimeout x.timeout (r.applyMeasurement x.time
    (r.applyWarmup x.warmupTime (r.applyForks s))))

/-- **Settings are read and then written.** -/
theorem applied_eq (r : Runner) (s : Spec) :
    r.applied s = r.readings.map fun x => r.write x s := by
  unfold applied apply readings
  cases duration? r.warmupTime with
  | error e => rfl
  | ok warmupTime =>
    cases duration? r.time with
    | error e => rfl
    | ok time =>
      cases duration? r.timeout with
      | error e => rfl
      | ok timeout => cases unit? r.unit <;> rfl

/-- Settings that can all be read are all written. -/
theorem applied_eq_ok_iff {r : Runner} {s written : Spec} :
    r.applied s = .ok written ↔ ∃ x, r.readings = .ok x ∧ written = r.write x s := by
  rw [applied_eq]
  cases r.readings with
  | error e => simp [Except.map]
  | ok x => simp [Except.map, eq_comm]

/-- The settings of a run name no task. -/
theorem applied_name {r : Runner} {s written : Spec} (h : r.applied s = .ok written) :
    written.name = s.name := by
  obtain ⟨_, -, rfl⟩ := applied_eq_ok_iff.1 h
  rfl

theorem readings_eq_ok_iff {r : Runner} {x : Readings} :
    r.readings = .ok x ↔ duration? r.warmupTime = .ok x.warmupTime ∧
      duration? r.time = .ok x.time ∧ duration? r.timeout = .ok x.timeout ∧
      unit? r.unit = .ok x.unit := by
  constructor
  · intro h
    obtain ⟨warmupTime, hwarmup, h⟩ := exists_of_bind_ok h
    obtain ⟨time, htime, h⟩ := exists_of_bind_ok h
    obtain ⟨timeout, htimeout, h⟩ := exists_of_bind_ok h
    obtain ⟨unit, hunit, h⟩ := exists_of_bind_ok h
    cases h
    exact ⟨hwarmup, htime, htimeout, hunit⟩
  · rintro ⟨hwarmup, htime, htimeout, hunit⟩
    rw [readings, hwarmup, htime, htimeout, hunit]
    rfl

/-! ### One layer over another -/

theorem merged_assoc (a b c : Runner) : (a.merged b).merged c = a.merged (b.merged c) := by
  simp only [merged, Option.or_assoc]

theorem merged_empty (a : Runner) : a.merged {} = a := by simp only [merged, Option.none_or]

theorem empty_merged (a : Runner) : ({} : Runner).merged a = a := by
  simp only [merged, Option.or_none]

/-- Where the lower layer can be read, the upper one decides whether both can. -/
theorem readings_merged {a : Runner} {x : Readings} (h : a.readings = .ok x) (b : Runner) :
    (a.merged b).readings = b.readings.map (·.over x) := by
  obtain ⟨hwarmup, htime, htimeout, hunit⟩ := readings_eq_ok_iff.1 h
  unfold readings merged
  rw [duration?_or hwarmup, duration?_or htime, duration?_or htimeout, unit?_or hunit]
  -- the first text of the upper layer that cannot be read ends both
  cases duration? b.warmupTime with
  | error e => rfl
  | ok warmupTime =>
    cases duration? b.time with
    | error e => rfl
    | ok time =>
      cases duration? b.timeout with
      | error e => rfl
      | ok timeout => cases unit? b.unit <;> rfl

/-- Both layers are written by writing the lower one first. -/
theorem write_merged (a b : Runner) (x y : Readings) (s : Spec) :
    (a.merged b).write (y.over x) s = b.write y (a.write x s) := by
  simp only [write, applyUnit, applyTimeout, applyMeasurement, applyWarmup, applyForks, merged,
    Readings.over, Option.or_assoc]

theorem applied_merged {a : Runner} {s written : Spec} (h : a.applied s = .ok written)
    (b : Runner) : (a.merged b).applied s = b.applied written := by
  obtain ⟨x, hx, rfl⟩ := applied_eq_ok_iff.1 h
  rw [applied_eq, applied_eq, readings_merged hx]
  cases b.readings with
  | error e => rfl
  | ok y => exact congrArg Except.ok (write_merged a b x y s)

/-- **Putting layers together is writing one after the other.**  Layers can be put together in any
grouping, a layer without settings changes nothing, and whatever becomes of a specification into
which the lower layer has been written, the same becomes of it when both are put together first:
the same specification, or the same complaint. -/
theorem merged_layers (a b c : Runner) (s : Spec) :
    (a.merged b).merged c = a.merged (b.merged c) ∧
      ({} : Runner).merged a = a ∧ a.merged {} = a ∧
      ∀ written, a.applied s = .ok written → (a.merged b).applied s = b.applied written :=
  ⟨merged_assoc a b c, empty_merged a, merged_empty a, fun _ h => applied_merged h b⟩

/-- The settings of a file. -/
def careful : Runner where
  forks := some 3
  warmupTime := some "200ms"
  unit := some "us"

/-- Settings over them, with a unit that there is not. -/
def hurried : Runner where
  forks := some 0
  time := some "250ms"
  unit := some "fortnight"

/-- The unit of the file is not there to fall back on. -/
theorem merged_layers_hurried :
    let written := careful.write ⟨some ⟨200000000⟩, none, none, some .microseconds⟩ .idle
    careful.applied .idle = .ok written ∧
      (careful.merged hurried).applied .idle = hurried.applied written ∧
      (careful.merged hurried).applied .idle = .error (.timeUnit ⟨"fortnight"⟩) := by
  intro written
  have hcareful : careful.applied .idle = .ok written := rfl
  have hlayers := (merged_layers careful hurried {} .idle).2.2.2 written hcareful
  exact ⟨hcareful, hlayers, hlayers.trans rfl⟩

end Runner

end Microbench
