import Microbench.Proofs.Plan.Product
import Microbench.Proofs.Trial.Resolution

/-!
# Which length of the iterations counts

The iterations of a phase have a time or a number of invocations, and both can come from a
file and from the flags of the command line.  Two precedences meet here.  The flags lie over
the file, setting by setting; and when the settings are put to use, a number of invocations
goes before a time.  So the flags have the last word on each of the two settings, but
not on the length that comes of them: a number of invocations in the file goes before a time
of the flags.

## Main definitions

* `Runner.timeOf`, `Runner.batchOf` — the settings of a phase.
* `Plan.Heeds` — which of the settings of a file and of flags make the length.

## Main results

* `Plan.phase_of_mem_runnable` — the settings of a phase in what has been planned.
* `Plan.build_heeds` — **which length counts**, in every trial of every plan.
-/

namespace Microbench

namespace Runner

/-- The time of the iterations of a phase, as it is written. -/
def timeOf (r : Runner) : Phase → Option String
  | .warmup => r.warmupTime
  | .measurement => r.time

/-- The number of invocations of the iterations of a phase. -/
def batchOf (r : Runner) : Phase → Option UInt64
  | .warmup => r.warmupBatch
  | .measurement => r.batch

theorem timeOf_merged (file flags : Runner) (phase : Phase) :
    (file.merged flags).timeOf phase = (flags.timeOf phase).or (file.timeOf phase) := by
  cases phase <;> rfl

theorem batchOf_merged (file flags : Runner) (phase : Phase) :
    (file.merged flags).batchOf phase = (flags.batchOf phase).or (file.batchOf phase) := by
  cases phase <;> rfl

/-- What is written into a specification that says nothing about its phases. -/
theorem phase_of_applied {r : Runner} {name : String} {mode : Mode} {written : Spec}
    (h : r.applied { name, mode } = .ok written) (phase : Phase) :
    (written.phase phase).batch = r.batchOf phase ∧
      duration? (r.timeOf phase) = .ok (written.phase phase).time := by
  obtain ⟨x, hx, rfl⟩ := applied_eq_ok_iff.1 h
  obtain ⟨hwarmup, htime, -, -⟩ := readings_eq_ok_iff.1 hx
  cases phase with
  | warmup =>
    refine ⟨Option.or_none, ?_⟩
    show _ = Except.ok (x.warmupTime.or none)
    rw [Option.or_none]
    exact hwarmup
  | measurement =>
    refine ⟨Option.or_none, ?_⟩
    show _ = Except.ok (x.time.or none)
    rw [Option.or_none]
    exact htime

end Runner

namespace Plan

/-- What has been planned has the settings of the run for its phases. -/
theorem phase_of_mem_runnable {options : PlanOptions} {d : Declaration} {specs : List Spec}
    (h : runnable options d = .ok specs) {s : Spec} (hs : s ∈ specs) (phase : Phase) :
    (s.phase phase).batch = options.runner.batchOf phase ∧
      Runner.duration? (options.runner.timeOf phase) = .ok (s.phase phase).time := by
  obtain ⟨written, hwritten, hform⟩ := eq_template_of_mem (runnable_ok h).1
  have hphase : s.phase phase = written.phase phase := by
    rw [(hform s hs).2]
    cases phase <;> rfl
  rw [hphase]
  exact Runner.phase_of_applied hwritten phase

/-- Which of the settings of a file, and of flags that lie over it, make the length of an
iteration. -/
structure Heeds (file flags : Runner) (mode : Mode) (phase : Phase) (length : IterationLength) :
    Prop where
  /-- A number of invocations that the flags give counts, whatever the file says. -/
  batch : ∀ n, flags.batchOf phase = some n → length = .invocations n
  /-- One that the file gives counts otherwise, even where the flags give a time. -/
  fileBatch : ∀ n, flags.batchOf phase = none → file.batchOf phase = some n →
    length = .invocations n
  /-- Where neither gives one, a time that the flags give counts, whatever time the file gives;
  only a single shot takes no time. -/
  time : ∀ text t, flags.batchOf phase = none → file.batchOf phase = none →
    flags.timeOf phase = some text → Duration.parse text = .ok t → mode ≠ .singleShot →
    length = .time t

/-- **Which length counts.**  Every trial of a plan for settings of a file with flags over them
can be run, and its iterations are as long as said, for each phase. -/
theorem build_heeds {tasks : List Declaration} {selects : String → Bool} {options : PlanOptions}
    {file flags : Runner} {plan : List Spec} (hrunner : options.runner = file.merged flags)
    (h : build tasks selects options = .ok plan) :
    ∀ s ∈ plan, (∃ d ∈ tasks, d.id = s.name ∧ ∃ settings, Settings.resolve s d = .ok settings) ∧
      ∀ d settings, Settings.resolve s d = .ok settings →
        ∀ phase, Heeds file flags s.mode phase (settings.phase phase).length := by
  intro s hs
  obtain ⟨d, hd, specs, hrunnable, hs⟩ := exists_runnable_of_mem_build h hs
  refine ⟨⟨d, hd, (name_of_mem_runnable hrunnable hs).symm, (runnable_ok hrunnable).2 s hs⟩, ?_⟩
  intro d' settings hresolve phase
  obtain ⟨hbatch, htime⟩ := phase_of_mem_runnable hrunnable hs phase
  rw [hrunner, Runner.batchOf_merged] at hbatch
  rw [hrunner, Runner.timeOf_merged] at htime
  have hlength : (settings.phase phase).length = (s.phase phase).lengthIn s.mode := by
    obtain ⟨hrunnable', rfl⟩ := Settings.resolve_eq_ok_iff.1 hresolve
    exact (Settings.isSound_settled hrunnable').length phase
  rw [hlength, PhaseSpec.lengthIn, hbatch]
  constructor
  · intro n hflags
    rw [hflags, Option.some_or]
  · intro n hflags hfile
    rw [hflags, Option.none_or, hfile]
  · intro text t hflags hfile htext hparse hmode
    rw [htext, Option.some_or, Runner.duration?, hparse] at htime
    rw [hflags, hfile, Option.none_or, ← Except.ok.inj htime]
    exact if_neg hmode

/-- A task without groups and parameters. -/
def plain : Declaration := ⟨"plain", .averageTime, [], []⟩

/-- A file that asks for a thousand invocations. -/
def thousandfold : Runner := { warmupBatch := some 1000, batch := some 1000 }

/-- Flags that ask for seven warmup invocations, and then for a quarter of a second. -/
def quarter : Runner := { warmupBatch := some 7, time := some "250ms" }

/-- What is planned for the task. -/
def plainThousand : Spec where
  name := "plain"
  mode := .averageTime
  warmup := { batch := some 7 }
  measurement := { time := some ⟨250000000⟩, batch := some 1000 }

/-- What the run is asked for. -/
def plainOptions : PlanOptions := { runner := thousandfold.merged quarter }

/-- The time of the flags is planned and does not count. -/
theorem build_heeds_thousand :
    plainOptions.runner = thousandfold.merged quarter ∧
      build [plain] (fun _ => true) plainOptions = .ok [plainThousand] ∧
      Duration.parse "250ms" = .ok ⟨250000000⟩ ∧
      ∃ settings, Settings.resolve plainThousand plain = .ok settings ∧
        settings.warmup.length = .invocations 7 ∧
        settings.measurement.length = .invocations 1000 := by
  have hbuild : build [plain] (fun _ => true) plainOptions = .ok [plainThousand] := by
    show Except.ok ([plainThousand].mergeSort Spec.notAfter) = _
    rw [List.mergeSort_singleton]
  have hheeds := build_heeds rfl hbuild plainThousand List.mem_cons_self
  obtain ⟨d, hd, -, settings, hresolve⟩ := hheeds.1
  obtain rfl := List.mem_singleton.1 hd
  refine ⟨rfl, hbuild, rfl, settings, hresolve, ?_, ?_⟩
  · exact (hheeds.2 plain settings hresolve .warmup).batch 7 rfl
  · exact (hheeds.2 plain settings hresolve .measurement).fileBatch 1000 rfl rfl

end Plan

end Microbench
