import Microbench.Proofs.Plan.Product
import Microbench.Proofs.Session.Serving

/-!
# What has been planned is what a worker runs

A planned specification goes to a worker as a line.  The planner has resolved it, the
durations in it come from a configuration and so fit 64 bits, and the line form loses
nothing else.  A worker with the same tasks therefore hears the specification that was
planned and gets the settings that the planner got: neither the specification nor its
settings can be what it complains about.

## Main definitions

* `Session.Accepted` — the session is past its first line.
* `Session.Begins` — how a session begins with a specification that resolves.
* `Plan.Arrives` — what becomes of a specification on its way.

## Main results

* `Duration.nanos_of_parse` — a duration of a configuration fits 64 bits.
* `Plan.overlong?_of_mem` — so do those of a planned specification.
* `Session.serve_accepted` — a specification that has been read is not complained about.
* `Session.begins` — what a worker makes of a specification that resolves.
* `Plan.build_arrives` — **what has been planned is what a worker runs.**
-/

namespace Microbench

/-! ### Durations of a configuration -/

/-- A duration of a configuration is cut off at 64 bits. -/
theorem Duration.nanos_of_parse {s : String} {d : Duration} (h : Duration.parse s = .ok d) :
    d.nanos ≤ Duration.maxNanos := by
  unfold Duration.parse at h
  dsimp only at h
  split at h
  · next parsed hparsed =>
    cases h
    split at hparsed
    · cases hparsed
    · obtain ⟨value, -, hparsed⟩ := Option.bind_eq_some_iff.1 hparsed
      split at hparsed
      · cases hparsed
      · obtain ⟨scale, -, hparsed⟩ := Option.bind_eq_some_iff.1 hparsed
        cases hparsed
        -- whatever the product of number and unit is, it has become a number of 64 bits
        exact Nat.le_of_lt_succ (UInt64.toNat_lt _)
  · cases h

theorem Runner.overlong_of_duration? {setting : Option String} {time : Option Duration}
    (h : Runner.duration? setting = .ok time) : Spec.overlong time = none := by
  unfold Runner.duration? at h
  split at h
  · cases h
    rfl
  · split at h
    · next hparse =>
      cases h
      have hnanos := Duration.nanos_of_parse hparse
      simpa [Spec.overlong] using hnanos
    · cases h

/-- The settings of a run bring no duration into a specification that does not fit. -/
theorem Runner.overlong?_of_applied {r : Runner} {name : String} {mode : Mode} {written : Spec}
    (h : r.applied { name, mode } = .ok written) : written.overlong? = none := by
  obtain ⟨x, hx, rfl⟩ := applied_eq_ok_iff.1 h
  obtain ⟨hwarmup, htime, htimeout, -⟩ := readings_eq_ok_iff.1 hx
  have hwarmup := overlong_of_duration? hwarmup
  have htime := overlong_of_duration? htime
  have htimeout := overlong_of_duration? htimeout
  simp [Spec.overlong?, Spec.times, write, applyUnit, applyTimeout, applyMeasurement, applyWarmup,
    applyForks, hwarmup, htime, htimeout]

/-- **All durations of a planned specification fit 64 bits.** -/
theorem Plan.overlong?_of_mem {options : PlanOptions} {task : Declaration} {specs : List Spec}
    (h : runnable options task = .ok specs) {s : Spec} (hs : s ∈ specs) : s.overlong? = none := by
  obtain ⟨written, hwritten, hform⟩ := eq_template_of_mem (runnable_ok h).1
  rw [(hform s hs).2]
  show written.overlong? = none
  exact Runner.overlong?_of_applied hwritten

/-! ### A line that has been written -/

/-- A line that has been written behind others is read when these have been. -/
theorem ByteSource.readLine_append {source : ByteSource} {before line : String} {rest : ByteArray}
    (hline : Line.Fits line)
    (hbytes : source.bytes = (Line.append before line).1.toUTF8 ++ rest)
    (hplace : source.place = before.utf8ByteSize) : source.readLine.1 = .ok line := by
  have hparts : source.bytes = before.toUTF8 ++ ((line ++ "\n").toUTF8 ++ rest) := by
    rw [hbytes, Line.append, Line.check_of_fits hline]
    simp only [String.toUTF8_eq_toByteArray, String.toByteArray_append, ByteArray.append_assoc]
  rw [readLine_of_fits hline hparts hplace]

/-! ### A session past its first line -/

namespace Session

variable {σ : Type} {w : Workshop (StateM σ)}

/-- The specification has been read: the session does not wait for it any more, and has not ended
because of it. -/
def Accepted : Session (StateM σ) → Prop
  | .waiting => False
  | .serving _ _ => True
  | .ended result => ∀ e, result ≠ .error (.spec e)

theorem accepted_serving (c : Conductor (StateM σ)) (position : Lifecycle) :
    Accepted (.serving c position) := True.intro

theorem accepted_done : Accepted (σ := σ) (.ended (.ok ())) := by
  rintro e ⟨⟩

theorem accepted_line (e : Line.Error) : Accepted (σ := σ) (.ended (.error (.line e))) := by
  rintro e' ⟨⟩

theorem accepted_breakdown (b : Breakdown) :
    Accepted (σ := σ) (.ended (.error (.breakdown b))) := by
  rintro e' ⟨⟩

/-- Writing leads on, unless a line cannot be written. -/
theorem write_cases (next : Session (StateM σ)) (lines : List String) :
    (write next lines).2 = next ∨ ∃ e, (write next lines).2 = .ended (.error (.line e)) := by
  induction lines with
  | nil => exact .inl rfl
  | cons line lines ih =>
    rw [write]
    split
    · exact .inr ⟨_, rfl⟩
    · exact ih

theorem write_accepted {next : Session (StateM σ)} (h : Accepted next) (lines : List String) :
    Accepted (write next lines).2 := by
  rcases write_cases next lines with hnext | ⟨e, hended⟩
  · rwa [hnext]
  · rw [hended]
    exact accepted_line e

theorem fail_accepted (f : Failure) : Accepted (fail (m := StateM σ) f).2 :=
  write_accepted accepted_done _

/-- No command is a specification. -/
theorem command_accepted (c : Conductor (StateM σ)) (position : Lifecycle) (line : String) :
    Always (command c position line) fun r => Accepted r.2 := by
  unfold command
  split
  · refine Always.pure ?_
    rintro e' ⟨⟩
  · refine Always.bind Always.trivial fun r _ => ?_
    split
    · exact Always.pure (fail_accepted _)
    · exact Always.pure (write_accepted (accepted_serving _ _) _)
  · refine Always.bind Always.trivial fun r _ => ?_
    split
    · exact Always.pure (fail_accepted _)
    · exact Always.pure (write_accepted accepted_done _)

theorem hear_accepted {session : Session (StateM σ)} (h : Accepted session)
    (input : Except Line.Error String) : Always (hear w session input) fun r => Accepted r.2 := by
  cases session with
  | waiting => exact h.elim
  | serving c position =>
    cases input with
    | error e => exact Always.pure (accepted_line e)
    | ok line => exact command_accepted c position line
  | ended result => exact Always.pure h

theorem andThen_accepted {first : Reaction (StateM σ)} {second : StateM σ (Reaction (StateM σ))}
    (hfirst : ∀ result, first.2 = .ended result → Accepted first.2)
    (hsecond : Always second fun r => Accepted r.2) :
    Always (andThen first second) fun r => Accepted r.2 := by
  obtain ⟨written, session⟩ := first
  cases session with
  | ended result => exact Always.pure (hfirst result rfl)
  | waiting => exact Always.bind hsecond fun r hr => Always.pure hr
  | serving c position => exact Always.bind hsecond fun r hr => Always.pure hr

/-- What follows a specification that has been read is not about it. -/
theorem greet_accepted {line : String} {s : Spec} (hspec : Spec.decode line = .ok s) :
    Always (greet w line) fun r => Accepted r.2 := by
  rw [greet, hspec]
  refine andThen_accepted (fun result hended => ?_) (Always.bind Always.trivial fun r _ => ?_)
  -- Where the greeting cannot be written, the session ends because of that.
  · rcases write_cases (σ := σ) .waiting [(Message.hello protocolVersion w.pid s.name).line] with
      hnext | ⟨e, hline⟩
    · rw [hnext] at hended
      cases hended
    · rw [hline]
      exact accepted_line e
  · split
    · exact Always.pure (fail_accepted _)
    · exact Always.pure (accepted_breakdown _)
    · refine Always.bind Always.trivial fun r _ => ?_
      split
      · exact Always.pure (fail_accepted _)
      · exact Always.pure (accepted_serving _ _)

theorem serveLines_accepted (n : Nat) {session : Session (StateM σ)} (h : Accepted session)
    (source : ByteSource) : Always (serveLines w n session source) fun r =>
      ∀ e, r.2 ≠ .error (.spec e) := by
  -- Induction on the number of lines: whatever is heard, the session stays accepted.
  induction n generalizing session source with
  | zero =>
    cases session with
    | waiting => exact h.elim
    | serving c position => exact Always.pure (accepted_line (σ := σ) .ended)
    | ended result => exact Always.pure h
  | succ n ih =>
    cases session with
    | waiting => exact h.elim
    | serving c position =>
      exact Always.bind (hear_accepted h _) fun r hr =>
        Always.bind (ih hr _) fun more hmore => Always.pure hmore
    | ended result => exact Always.pure h

/-- **A specification that has been read is not complained about**, however the session goes on. -/
theorem serve_accepted {source : ByteSource} {line : String} {s : Spec}
    (hread : source.readLine.1 = .ok line) (hspec : Spec.decode line = .ok s) :
    Always (serve w source) fun r => ∀ e, r.2 ≠ .error (.spec e) := by
  have hfirst : Always (hear w .waiting source.readLine.1) fun r => Accepted r.2 :=
    hread ▸ greet_accepted hspec
  exact Always.bind hfirst fun r hr =>
    Always.bind (serveLines_accepted _ hr _) fun more hmore => Always.pure hmore

end Session

/-! ### The trial that a worker prepares -/

namespace Session

variable {σ : Type} {w : Workshop (StateM σ)} {s : Spec} {entry : TaskEntry (StateM σ)}
  {settings : Settings} {world : σ}

/-- The trial of a task with these settings. -/
def equipped (w : Workshop (StateM σ)) (settings : Settings) (task : Task (StateM σ))
    (probes : List (Probe (StateM σ))) : Conductor (StateM σ) :=
  { task, settings, host := w.host, probes }

/-- What a session that has greeted does with a failure. -/
def refusal (w : Workshop (StateM σ)) (s : Spec) (f : Failure) : Reaction (StateM σ) :=
  (greeting w s :: (fail (m := StateM σ) f).1, (fail f).2)

/-- How a session begins with a specification that resolves to these settings.  No way is about
the specification, and none about its settings. -/
inductive Begins (w : Workshop (StateM σ)) (s : Spec) (entry : TaskEntry (StateM σ))
    (settings : Settings) (world : σ) : Reaction (StateM σ) × σ → Prop
  /-- The greeting is too large. -/
  | ungreeted (large : Line.maxSize < (greeting w s).utf8ByteSize) :
      Begins w s entry settings world (([], .ended (.error (.line .tooLarge))), world)
  /-- A probe is not known. -/
  | unknownProbe {e : UnknownProbe} (unknown : Conductor.probesNamed w.host w.probes = .error e) :
      Begins w s entry settings world (refusal w s (configurationFailure s e.message), world)
  /-- The task makes no instance of itself for the parameter values. -/
  | uncreated {probes : List (Probe (StateM σ))} {e : TaskError} {world₁ : σ}
      (known : Conductor.probesNamed w.host w.probes = .ok probes)
      (created : (entry.create settings.bindings).run.run world = (.error (.error e), world₁)) :
      Begins w s entry settings world (refusal w s (configurationFailure s e.text), world₁)
  /-- The task breaks off while it makes an instance of itself: nothing is said of that. -/
  | brokenOff {probes : List (Probe (StateM σ))} {b : Breakdown} {world₁ : σ}
      (known : Conductor.probesNamed w.host w.probes = .ok probes)
      (created : (entry.create settings.bindings).run.run world = (.error (.breakdown b), world₁)) :
      Begins w s entry settings world
        (([greeting w s], .ended (.error (.breakdown b))), world₁)
  /-- The trial with these settings cannot be set up. -/
  | notSetUp {probes : List (Probe (StateM σ))} {task : Task (StateM σ)} {f : Failure}
      {position : Lifecycle} {world₁ world₂ : σ}
      (known : Conductor.probesNamed w.host w.probes = .ok probes)
      (created : (entry.create settings.bindings).run.run world = (.ok task, world₁))
      (failed : ((equipped w settings task probes).setUp .ready).run world₁ =
        ((.error f, position), world₂)) :
      Begins w s entry settings world (refusal w s f, world₂)
  /-- The trial with these settings is set up. -/
  | setUp {probes : List (Probe (StateM σ))} {task : Task (StateM σ)} {position : Lifecycle}
      {world₁ world₂ : σ} (known : Conductor.probesNamed w.host w.probes = .ok probes)
      (created : (entry.create settings.bindings).run.run world = (.ok task, world₁))
      (started : ((equipped w settings task probes).setUp .ready).run world₁ =
        ((.ok (), position), world₂)) :
      Begins w s entry settings world
        (([greeting w s], .serving (equipped w settings task probes) position), world₂)

/-- **What a worker makes of a line from which it reads a specification that resolves.** -/
theorem begins {line : String} (hspec : Spec.decode line = .ok s)
    (hget : w.registry.get? s.name = some entry)
    (hresolve : Settings.resolve s entry.declaration = .ok settings) :
    Begins w s entry settings world ((hear w .waiting (.ok line)).run world) := by
  rcases Nat.lt_or_ge Line.maxSize (greeting w s).utf8ByteSize with hlarge | hsmall
  · rw [run_hear_ungreeted hspec hlarge]
    exact .ungreeted hlarge
  have hprepared := Conductor.run_prepare w.host hresolve w.probes world
  rw [← Conductor.ofRegistry_eq w.host hget] at hprepared
  cases hprobes : Conductor.probesNamed w.host w.probes with
  | error e =>
    rw [hprobes] at hprepared
    rw [run_hear_unprepared hspec hsmall hprepared]
    exact .unknownProbe hprobes
  | ok probes =>
    rcases hcreated : (entry.create settings.bindings).run.run world with
      ⟨(e | b) | task, world₁⟩
    · rw [hprobes, hcreated] at hprepared
      rw [run_hear_unprepared hspec hsmall hprepared]
      exact .uncreated hprobes hcreated
    · rw [hprobes, hcreated] at hprepared
      rw [run_hear_brokenOff hspec hsmall hprepared]
      exact .brokenOff hprobes hcreated
    · rw [hprobes, hcreated] at hprepared
      rcases hsetUp : ((equipped w settings task probes).setUp .ready).run world₁ with
        ⟨⟨f | ⟨⟩, position⟩, world₂⟩
      · rw [run_hear_notSetUp hspec hsmall hprepared hsetUp]
        exact .notSetUp hprobes hcreated hsetUp
      · rw [run_hear_setUp hspec hsmall hprepared hsetUp]
        exact .setUp hprobes hcreated hsetUp

end Session

namespace Plan

variable {σ : Type}

/-- What becomes of a specification on its way to a worker: `entry` is what is registered under its
name, `settings` what it has been resolved to. -/
structure Arrives (w : Workshop (StateM σ)) (s : Spec) (entry : TaskEntry (StateM σ))
    (settings : Settings) : Prop where
  /-- It can be written behind whatever has been written. -/
  written : ∀ before : String,
    Line.append before s.encode = (before ++ (s.encode ++ "\n"), .ok ())
  /-- When what was written before it has been read, its line is read. -/
  read : ∀ (source : ByteSource) (before : String) (rest : ByteArray),
    source.bytes = (Line.append before s.encode).1.toUTF8 ++ rest →
    source.place = before.utf8ByteSize → source.readLine.1 = .ok s.encode
  /-- The line is understood as the specification. -/
  decoded : Spec.decode s.encode = .ok s
  /-- What is understood resolves to the settings once more. -/
  resolved : ∀ heard, Spec.decode s.encode = .ok heard →
    Settings.resolve heard entry.declaration = .ok settings
  /-- A worker that hears the line begins a trial with these settings, or does not for a reason that
  is neither in the specification nor in its settings. -/
  begun : ∀ world, Session.Begins w s entry settings world
    ((Session.hear w .waiting (.ok s.encode)).run world)
  /-- A session that reads the line does not end because of the specification. -/
  served : ∀ source : ByteSource, source.readLine.1 = .ok s.encode → ∀ world e,
    ((Session.serve w source).run world).1.2 ≠ .error (.spec e)

/-- **What has been planned is what a worker runs**: a planned specification whose line is not too
large arrives at every worker with the same tasks, with the settings that the planner got. -/
theorem build_arrives (entries : List (TaskEntry (StateM σ))) (selects : String → Bool)
    (options : PlanOptions) (plan : List Spec)
    (h : build ((Registry.ofList entries).values.map (·.declaration)) selects options = .ok plan)
    (s : Spec) (hs : s ∈ plan) (hsize : s.encode.utf8ByteSize ≤ Line.maxSize) :
    ∃ entry settings, (Registry.ofList entries).get? s.name = some entry ∧
      (∃ specs, runnable options entry.declaration = .ok specs ∧ s ∈ specs) ∧
      Settings.resolve s entry.declaration = .ok settings ∧
      ∀ w : Workshop (StateM σ), w.registry = Registry.ofList entries →
        Arrives w s entry settings := by
  obtain ⟨entry, specs, hget, -, hrunnable, hmem⟩ :=
    exists_of_mem_build (Registry.keyed_ofList entries) h hs
  obtain ⟨settings, hresolve⟩ := (runnable_ok hrunnable).2 s hmem
  have hfits := s.fits_encode hsize
  have hdecode : Spec.decode s.encode = .ok s := by
    rw [Spec.decode_encode, overlong?_of_mem hrunnable hmem]
  refine ⟨entry, settings, hget, ⟨specs, hrunnable, hmem⟩, hresolve, fun w hregistry => ?_⟩
  exact {
    written := fun before => by rw [Line.append, Line.check_of_fits hfits]
    read := fun _ _ _ hbytes hplace => ByteSource.readLine_append hfits hbytes hplace
    decoded := hdecode
    resolved := fun heard hheard => by
      cases hdecode.symm.trans hheard
      exact hresolve
    begun := fun _ => Session.begins hdecode (hregistry ▸ hget) hresolve
    served := fun _ hread world => Session.serve_accepted hread hdecode world }

/-- The first of the planned queues arrives at the worker that has queue and stack. -/
theorem build_arrives_shelf :
    shot "fifo" "16" ∈ shots ∧ (shot "fifo" "16").encode.utf8ByteSize ≤ Line.maxSize ∧
    ∃ entry settings, (Registry.ofList shelf).get? "queue" = some entry ∧
      (∃ specs, runnable bothKinds entry.declaration = .ok specs ∧ shot "fifo" "16" ∈ specs) ∧
      Settings.resolve (shot "fifo" "16") entry.declaration = .ok settings ∧
      ∀ w : Workshop (StateM Nat), w.registry = Registry.ofList shelf →
        Arrives w (shot "fifo" "16") entry settings := by
  have hmem : shot "fifo" "16" ∈ shots := List.mem_cons_self
  have hsize : (shot "fifo" "16").encode.utf8ByteSize ≤ Line.maxSize :=
    Nat.le_trans (Spec.size_encode_le _) (by decide +kernel)
  exact ⟨hmem, hsize, build_arrives shelf anyQueue bothKinds shots build_shelf
    (shot "fifo" "16") hmem hsize⟩

end Plan

end Microbench
