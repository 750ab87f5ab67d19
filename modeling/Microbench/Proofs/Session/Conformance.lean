import Microbench.Proofs.Engine.Harvest
import Microbench.Proofs.Session.Serving

/-!
# Sessions conform

Whatever a worker hears and whatever its task does, it writes a session: its
greeting, the reports of the first iterations of the schedule, each after the line
that shows it to a reader, and at most one message that ends it.  A session is
followed step by step: the trial is set up, each command to iterate adds a report,
and from every place reached so there are only so many ways to end.

## Main definitions

* `Session.Serves` — how far a session has come.
* `Session.Course` — what is said in a session, and how it ends.
* `Session.Ends` — the ways in which a session ends.

## Main results

* `Serves.positions` — the reports are those of the first iterations of the schedule.
* `Ends.run` — a session ends in one of the ways only as it runs.
* `exists_ends` — every session ends in one of the ways.
* `serve_conforms` — all of it, for every stream.
-/

namespace Microbench.Session

variable {σ : Type}

/-- What a worker writes of an iteration: the line for a reader, then the message. -/
def reportLines (task : String) (r : Report) : List String :=
  [progressLine task r, (Message.iteration r).line]

/-- A text is not too large for a line. -/
abbrev Small (l : String) : Prop := l.utf8ByteSize ≤ Line.maxSize

/-- How far a session has come that serves a trial: what runs the trial, the iterations that have
been reported, and the world.  The lines are those that can be heard one after the other. -/
inductive Serves (w : Workshop (StateM σ)) (s : Spec) (line : Nat → Except Line.Error String)
    (world : σ) : Conductor (StateM σ) → List Report → σ → Prop
  /-- The worker has greeted, and the trial has been set up. -/
  | setUp {c : Conductor (StateM σ)} {position : Lifecycle} {world₁ world₂ : σ}
      (greeted : Small (greeting w s))
      (prepared : (Conductor.ofRegistry w.host w.registry s w.probes).run.run world =
        (.ok c, world₁))
      (started : (c.setUp .ready).run world₁ = ((.ok (), position), world₂)) :
      Serves w s line world c [] world₂
  /-- One more iteration was asked for, has been run and is reported. -/
  | report {c : Conductor (StateM σ)} {reports : List Report} {l : String} {r : Report}
      {position : Lifecycle} {world₁ world₂ : σ}
      (served : Serves w s line world c reports world₁)
      (heard : line (reports.length + 1) = .ok l)
      (asked : Command.parse l = .ok .iterate)
      (ran : (c.iterate (.reached c.settings reports.length)).run world₁ =
        ((.ok r, position), world₂))
      (written : ∀ l ∈ reportLines s.name r, Small l) :
      Serves w s line world c (reports ++ [r]) world₂

/-- What is said in a session, and how it ends. -/
structure Course where
  /-- The iterations that are reported. -/
  reports : List Report
  /-- The message that ends the session, if there is one. -/
  last : Option Message
  /-- How the session ends. -/
  result : Except WorkerError Unit
  /-- How many lines are heard. -/
  heard : Nat

/-- The lines of a session, from the greeting on. -/
def Course.lines (w : Workshop (StateM σ)) (s : Spec) (course : Course) : List String :=
  greeting w s :: (course.reports.flatMap (reportLines s.name) ++
    (course.last.map Message.line).toList)

/-- The ways in which a session ends, and the world afterwards. -/
inductive Ends (w : Workshop (StateM σ)) (s : Spec) (line : Nat → Except Line.Error String)
    (world : σ) : Course → σ → Prop
  /-- The greeting is too large. -/
  | ungreeted (large : ¬ Small (greeting w s)) :
      Ends w s line world ⟨[], none, .error (.line .tooLarge), 1⟩ world
  /-- The trial cannot be prepared: no command is heard. -/
  | unprepared {f : Failure} {world₁ : σ} (greeted : Small (greeting w s))
      (failed : (Conductor.ofRegistry w.host w.registry s w.probes).run.run world =
        (.error (.error f), world₁)) :
      Ends w s line world ⟨[], some (.failure f), .ok (), 1⟩ world₁
  /-- Preparing the trial breaks off: no command is heard, and no message ends the session. -/
  | brokenOff {b : Breakdown} {world₁ : σ} (greeted : Small (greeting w s))
      (breaks : (Conductor.ofRegistry w.host w.registry s w.probes).run.run world =
        (.error (.breakdown b), world₁)) :
      Ends w s line world ⟨[], none, .error (.breakdown b), 1⟩ world₁
  /-- The trial cannot be set up: no command is heard. -/
  | notSetUp {c : Conductor (StateM σ)} {f : Failure} {position : Lifecycle} {world₁ world₂ : σ}
      (greeted : Small (greeting w s))
      (prepared : (Conductor.ofRegistry w.host w.registry s w.probes).run.run world =
        (.ok c, world₁))
      (failed : (c.setUp .ready).run world₁ = ((.error f, position), world₂)) :
      Ends w s line world ⟨[], some (.failure f), .ok (), 1⟩ world₂
  /-- The stream has no further line. -/
  | unheard {c : Conductor (StateM σ)} {reports : List Report} {e : Line.Error} {world₁ : σ}
      (served : Serves w s line world c reports world₁)
      (heard : line (reports.length + 1) = .error e) :
      Ends w s line world ⟨reports, none, .error (.line e), reports.length + 2⟩ world₁
  /-- The line is no command. -/
  | unknown {c : Conductor (StateM σ)} {reports : List Report} {l : String} {e : UnknownCommand}
      {world₁ : σ} (served : Serves w s line world c reports world₁)
      (heard : line (reports.length + 1) = .ok l) (parsed : Command.parse l = .error e) :
      Ends w s line world ⟨reports, none, .error (.command e), reports.length + 2⟩ world₁
  /-- The iteration that was asked for fails. -/
  | notIterated {c : Conductor (StateM σ)} {reports : List Report} {l : String} {f : Failure}
      {position : Lifecycle} {world₁ world₂ : σ}
      (served : Serves w s line world c reports world₁)
      (heard : line (reports.length + 1) = .ok l) (asked : Command.parse l = .ok .iterate)
      (failed : (c.iterate (.reached c.settings reports.length)).run world₁ =
        ((.error f, position), world₂)) :
      Ends w s line world ⟨reports, some (.failure f), .ok (), reports.length + 2⟩ world₂
  /-- The report of the iteration that was asked for is too large. -/
  | unreported {c : Conductor (StateM σ)} {reports : List Report} {l : String} {r : Report}
      {position : Lifecycle} {world₁ world₂ : σ}
      (served : Serves w s line world c reports world₁)
      (heard : line (reports.length + 1) = .ok l) (asked : Command.parse l = .ok .iterate)
      (ran : (c.iterate (.reached c.settings reports.length)).run world₁ =
        ((.ok r, position), world₂))
      (large : ¬ ∀ l ∈ reportLines s.name r, Small l) :
      Ends w s line world ⟨reports ++ [r], none, .error (.line .tooLarge), reports.length + 2⟩
        world₂
  /-- The trial was to be torn down, and that fails. -/
  | notTornDown {c : Conductor (StateM σ)} {reports : List Report} {l : String} {f : Failure}
      {position : Lifecycle} {world₁ world₂ : σ}
      (served : Serves w s line world c reports world₁)
      (heard : line (reports.length + 1) = .ok l) (asked : Command.parse l = .ok .terminate)
      (failed : (c.tearDown (.reached c.settings reports.length)).run world₁ =
        ((.error f, position), world₂)) :
      Ends w s line world ⟨reports, some (.failure f), .ok (), reports.length + 2⟩ world₂
  /-- The trial was to be torn down, and has been. -/
  | completed {c : Conductor (StateM σ)} {reports : List Report} {l : String}
      {world₁ world₂ : σ} (served : Serves w s line world c reports world₁)
      (heard : line (reports.length + 1) = .ok l) (asked : Command.parse l = .ok .terminate)
      (tornDown : (c.tearDown (.reached c.settings reports.length)).run world₁ =
        ((.ok (.ofNat reports.length), .done), world₂)) :
      Ends w s line world
        ⟨reports, some (.complete (.ofNat reports.length)), .ok (), reports.length + 2⟩ world₂

/-! ### How far a session can come -/

section Serves

variable {w : Workshop (StateM σ)} {s : Spec} {line : Nat → Except Line.Error String} {world : σ}
  {c : Conductor (StateM σ)} {reports : List Report} {world₁ : σ}

/-- The trial is one of a registered task, with the settings of the specification. -/
theorem Serves.registered (h : Serves w s line world c reports world₁) :
    ∃ entry, w.registry.get? s.name = some entry ∧
      Settings.resolve s entry.declaration = .ok c.settings := by
  induction h with
  | setUp _ prepared _ => exact Conductor.ofRegistry_ok world _ (congrArg Prod.fst prepared)
  | report _ _ _ _ _ ih => exact ih

theorem Serves.task_eq (h : Serves w s line world c reports world₁) : c.settings.task = s.name := by
  obtain ⟨entry, -, hsettings⟩ := h.registered
  exact (resolve_ok hsettings).1

theorem Serves.total_eq (h : Serves w s line world c reports world₁) :
    c.settings.total = s.warmups + s.measurements := by
  obtain ⟨entry, -, hsettings⟩ := h.registered
  exact (schedule_of_resolve hsettings).2

theorem Serves.schedule_eq (h : Serves w s line world c reports world₁) :
    c.settings.schedule = schedule s.warmups s.measurements := by
  obtain ⟨entry, -, hsettings⟩ := h.registered
  exact (schedule_of_resolve hsettings).1

/-- **The reports are those of the first iterations of the schedule**, and there are not more of
them than it has. -/
theorem Serves.positions (hfits : s.warmups + s.measurements ≤ Whole.max32)
    (h : Serves w s line world c reports world₁) :
    reports.length ≤ c.settings.total ∧
      reports.map Report.place = c.settings.schedule.take reports.length := by
  induction h with
  | setUp _ _ _ => exact ⟨Nat.zero_le _, rfl⟩
  | report served _ _ ran _ ih =>
    obtain ⟨hle, hplaces⟩ := ih
    rw [← served.total_eq] at hfits
    obtain ⟨hlt, -, hposition, -⟩ := Conductor.iterate_ok hfits hle ran
    rw [List.length_append, List.length_singleton]
    refine ⟨hlt, ?_⟩
    rw [List.map_append, hplaces, Settings.take_succ_schedule hlt, ← hposition]
    rfl

/-- What is to be written of an iteration does not break. -/
theorem Serves.unbroken_report (h : Serves w s line world c reports world₁)
    (hnames : ∀ name entry, w.registry.get? name = some entry → Line.hasBreak name = false)
    (hfits : s.warmups + s.measurements ≤ Whole.max32) {r : Report} {position : Lifecycle}
    {world₂ : σ}
    (hran : (c.iterate (.reached c.settings reports.length)).run world₁ =
      ((.ok r, position), world₂)) :
    ∀ l ∈ reportLines s.name r, Line.hasBreak l = false := by
  obtain ⟨entry, hentry, -⟩ := h.registered
  have hle := (h.positions hfits).1
  rw [← h.total_eq] at hfits
  obtain ⟨-, -, -, hin⟩ := Conductor.iterate_ok hfits hle hran
  simp only [reportLines, List.forall_mem_cons]
  exact ⟨hin.unbroken (hnames _ entry hentry), Message.hasBreak_line _, by simp⟩

/-- The lines that have been written so far are all small. -/
theorem Serves.small (h : Serves w s line world c reports world₁) :
    ∀ l ∈ greeting w s :: reports.flatMap (reportLines s.name), Small l := by
  induction h with
  | setUp greeted _ _ => simpa using greeted
  | report served _ _ _ written ih =>
    rw [List.flatMap_append, ← List.cons_append, List.forall_mem_append]
    exact ⟨ih, by simpa using written⟩

end Serves

/-! ### How a session runs -/

section Runs

variable {w : Workshop (StateM σ)} {s : Spec} {source : ByteSource} {first : String} {world : σ}
  {c : Conductor (StateM σ)} {reports : List Report} {world₁ : σ}

/-- A session that has come so far has written what is to be written of it, and goes on with the
rest of the stream. -/
theorem Serves.run (hfirst : source.line 0 = .ok first) (hspec : Spec.decode first = .ok s)
    (hnames : ∀ name entry, w.registry.get? name = some entry → Line.hasBreak name = false)
    (hfits : s.warmups + s.measurements ≤ Whole.max32)
    (h : Serves w s source.line world c reports world₁) :
    ∃ n, (source.after (reports.length + 1)).left < n ∧
      (serve w source).run world =
        before (greeting w s :: reports.flatMap (reportLines s.name))
          ((serveLines w n (.serving c (.reached c.settings reports.length))
            (source.after (reports.length + 1))).run world₁) := by
  induction h with
  | setUp greeted prepared started =>
    have hread : source.readLine.1 = .ok first := hfirst
    have hplace := Conductor.setUp_ok started
    subst hplace
    have hheard := run_hear_setUp hspec greeted prepared started
    rw [← hread] at hheard
    refine ⟨source.bytes.size + 1, ?_, run_serveLines_waiting hheard⟩
    have := ByteSource.readLine_advances hread
    show source.readLine.2.left < source.bytes.size + 1
    unfold ByteSource.left at this ⊢
    omega
  | report served heard asked ran written ih =>
    obtain ⟨n, hn, hrun⟩ := ih
    obtain ⟨n, rfl⟩ := Nat.exists_eq_add_one_of_ne_zero (Nat.ne_of_gt (Nat.zero_lt_of_lt hn))
    have hle := (served.positions hfits).1
    have htotal := hfits
    rw [← served.total_eq] at htotal
    obtain ⟨-, rfl, -, -⟩ := Conductor.iterate_ok htotal hle ran
    have hunbroken := served.unbroken_report hnames hfits ran
    have hheard := run_hear_iterated (w := w) asked ran
    rw [served.task_eq] at hheard
    rw [show [progressLine s.name _, (Message.iteration _).line] = reportLines s.name _ from rfl,
      write_of_fits fun l hl => ⟨hunbroken l hl, written l hl⟩, ← heard] at hheard
    rw [List.length_append, List.length_singleton, List.flatMap_append, List.flatMap_singleton,
      ← List.cons_append]
    refine ⟨n, ?_, ?_⟩
    · have := ByteSource.readLine_advances heard
      rw [ByteSource.after_succ]
      omega
    · rw [hrun, run_serveLines_serving hheard, before_before]
      rfl

/-- A session that ends with its first line. -/
theorem run_serve_first {written : List String} {result : Except WorkerError Unit}
    (h : (hear w .waiting source.readLine.1).run world = ((written, .ended result), world₁)) :
    (serve w source).run world = ((written, result), world₁) := by
  rw [serve, run_serveLines_waiting h, run_serveLines_ended]
  simp only [before, List.append_nil]

/-- A session that ends with the next command. -/
theorem Serves.run_last (hfirst : source.line 0 = .ok first) (hspec : Spec.decode first = .ok s)
    (hnames : ∀ name entry, w.registry.get? name = some entry → Line.hasBreak name = false)
    (hfits : s.warmups + s.measurements ≤ Whole.max32)
    (h : Serves w s source.line world c reports world₁) {written : List String}
    {result : Except WorkerError Unit} {world₂ : σ}
    (hheard : (hear w (.serving c (.reached c.settings reports.length))
      (source.line (reports.length + 1))).run world₁ = ((written, .ended result), world₂)) :
    (serve w source).run world =
      ((greeting w s :: reports.flatMap (reportLines s.name) ++ written, result), world₂) := by
  obtain ⟨n, hn, hrun⟩ := h.run hfirst hspec hnames hfits
  obtain ⟨n, rfl⟩ := Nat.exists_eq_add_one_of_ne_zero (Nat.ne_of_gt (Nat.zero_lt_of_lt hn))
  rw [hrun, run_serveLines_serving hheard, run_serveLines_ended]
  simp only [before, List.append_nil]

/-- The message that ends a session. -/
theorem write_last (m : Message) :
    write (m := StateM σ) (.ended (.ok ())) [m.line] =
      ((sent (.ok ()) [m.line]).1, .ended (sent (.ok ()) [m.line]).2) :=
  write_ended (List.forall_mem_singleton.2 m.hasBreak_line)

/-- What is sent of a session whose lines have been written up to the message that ends it. -/
theorem Course.sent_lines {course : Course}
    (hsmall : ∀ l ∈ greeting w s :: course.reports.flatMap (reportLines s.name), Small l) :
    sent course.result (course.lines w s) =
      (greeting w s :: course.reports.flatMap (reportLines s.name) ++
        (sent course.result (course.last.map Message.line).toList).1,
        (sent course.result (course.last.map Message.line).toList).2) := by
  rw [Course.lines, ← List.cons_append]
  exact sent_append hsmall _

/-- **A session ends in one of the ways only as it runs**: what it writes are its lines, up to the
first that is too large. -/
theorem Ends.run (hfirst : source.line 0 = .ok first) (hspec : Spec.decode first = .ok s)
    (hnames : ∀ name entry, w.registry.get? name = some entry → Line.hasBreak name = false)
    (hfits : s.warmups + s.measurements ≤ Whole.max32) {course : Course} {world' : σ}
    (h : Ends w s source.line world course world') :
    (serve w source).run world = (sent course.result (course.lines w s), world') := by
  have hread : source.readLine.1 = .ok first := hfirst
  have hgreeting (hgreeted : Small (greeting w s)) :
      ∀ l ∈ greeting w s :: ([] : List Report).flatMap (reportLines s.name), Small l := by
    simpa using hgreeted
  cases h with
  | ungreeted large =>
    have hlarge := Nat.lt_of_not_le large
    have hheard : (hear w .waiting (.ok first)).run world =
        (([], .ended (.error (.line .tooLarge))), world) := run_hear_ungreeted hspec hlarge
    rw [← hread] at hheard
    rw [run_serve_first hheard, Course.lines, sent, if_pos hlarge]
  | unprepared greeted failed =>
    have hheard := run_hear_unprepared hspec greeted failed
    rw [← hread, Session.fail, write_last] at hheard
    rw [run_serve_first hheard, Course.sent_lines (hgreeting greeted)]
    rfl
  | brokenOff greeted breaks =>
    have hheard := run_hear_brokenOff hspec greeted breaks
    rw [← hread] at hheard
    rw [run_serve_first hheard, Course.sent_lines (hgreeting greeted)]
    rfl
  | notSetUp greeted prepared failed =>
    have hheard := run_hear_notSetUp hspec greeted prepared failed
    rw [← hread, Session.fail, write_last] at hheard
    rw [run_serve_first hheard, Course.sent_lines (hgreeting greeted)]
    rfl
  | unheard served heard =>
    rw [served.run_last hfirst hspec hnames hfits (by rw [heard]; exact run_hear_unheard _),
      Course.sent_lines served.small]
    rfl
  | unknown served heard parsed =>
    rw [served.run_last hfirst hspec hnames hfits (by rw [heard]; exact run_hear_unknown parsed),
      Course.sent_lines served.small]
    rfl
  | notIterated served heard asked failed =>
    have hheard := run_hear_notIterated (w := w) asked failed
    rw [← heard, Session.fail, write_last] at hheard
    rw [served.run_last hfirst hspec hnames hfits hheard, Course.sent_lines served.small]
    rfl
  | @unreported c reports l r position world₁ world₂ served heard asked ran large =>
    -- the line for a reader may still have been written
    have hunbroken := served.unbroken_report hnames hfits ran
    have hlarge : ∃ l ∈ reportLines s.name r, Line.maxSize < l.utf8ByteSize := by
      simpa [Small] using large
    have hheard := run_hear_iterated (w := w) asked ran
    obtain ⟨hwrite, hresult⟩ := write_of_large (.serving c position) hunbroken hlarge
      (.error (.line .tooLarge))
    rw [served.task_eq, ← heard] at hheard
    rw [show [progressLine s.name r, (Message.iteration r).line] = reportLines s.name r from rfl,
      hwrite] at hheard
    rw [served.run_last hfirst hspec hnames hfits hheard, Course.lines, List.flatMap_append,
      List.flatMap_singleton, ← List.cons_append, ← List.cons_append, List.append_assoc,
      sent_append served.small]
    simp only [Option.map_none, Option.toList_none, List.append_nil, hresult]
  | notTornDown served heard asked failed =>
    have hheard := run_hear_notTornDown (w := w) asked failed
    rw [← heard, Session.fail, write_last] at hheard
    rw [served.run_last hfirst hspec hnames hfits hheard, Course.sent_lines served.small]
    rfl
  | completed served heard asked tornDown =>
    have hheard := run_hear_tornDown (w := w) asked tornDown
    rw [← heard, write_last] at hheard
    rw [served.run_last hfirst hspec hnames hfits hheard, Course.sent_lines served.small]
    rfl

end Runs

/-! ### Every session ends -/

section Existence

variable {w : Workshop (StateM σ)} {s : Spec} {world : σ}

/-- From every place that a session reaches it comes to an end. -/
theorem Serves.exists_ends {source : ByteSource} {c : Conductor (StateM σ)} {reports : List Report}
    {world₁ : σ} (h : Serves w s source.line world c reports world₁) :
    ∃ course world', Ends w s source.line world course world' := by
  cases heard : source.line (reports.length + 1) with
  | error e => exact ⟨_, _, .unheard h heard⟩
  | ok l =>
    -- another line has been read, so there is less left of the stream
    have hless := ByteSource.readLine_advances heard
    cases asked : Command.parse l with
    | error e => exact ⟨_, _, .unknown h heard asked⟩
    | ok command =>
      cases command with
      | iterate =>
        rcases ran : (c.iterate (.reached c.settings reports.length)).run world₁ with
          ⟨⟨answer, position⟩, world₂⟩
        cases answer with
        | error f => exact ⟨_, _, .notIterated h heard asked ran⟩
        | ok r =>
          by_cases written : ∀ l ∈ reportLines s.name r, Small l
          · exact (h.report heard asked ran written).exists_ends
          · exact ⟨_, _, .unreported h heard asked ran written⟩
      | terminate =>
        rcases ran : (c.tearDown (.reached c.settings reports.length)).run world₁ with
          ⟨⟨answer, position⟩, world₂⟩
        cases answer with
        | error f => exact ⟨_, _, .notTornDown h heard asked ran⟩
        | ok count =>
          obtain ⟨rfl, rfl⟩ := Conductor.tearDown_ok ran
          exact ⟨_, _, .completed h heard asked ran⟩
termination_by (source.after (reports.length + 1)).left
decreasing_by
  rw [List.length_append, List.length_singleton, ByteSource.after_succ]
  exact hless

/-- **Every session ends in one of the ways.** -/
theorem exists_ends (w : Workshop (StateM σ)) (s : Spec) (source : ByteSource) (world : σ) :
    ∃ course world', Ends w s source.line world course world' := by
  by_cases greeted : Small (greeting w s)
  · rcases prepared : (Conductor.ofRegistry w.host w.registry s w.probes).run.run world with
      ⟨answer, world₁⟩
    cases answer with
    | error e =>
      cases e with
      | error f => exact ⟨_, _, .unprepared greeted prepared⟩
      | breakdown b => exact ⟨_, _, .brokenOff greeted prepared⟩
    | ok c =>
      rcases started : (c.setUp .ready).run world₁ with ⟨⟨answer, position⟩, world₂⟩
      cases answer with
      | error f => exact ⟨_, _, .notSetUp greeted prepared started⟩
      | ok _ => exact (Serves.setUp greeted prepared started).exists_ends
  · exact ⟨_, _, .ungreeted greeted⟩

end Existence

/-! ### Only what is heard matters -/

section Congruence

variable {w : Workshop (StateM σ)} {s : Spec} {line line' : Nat → Except Line.Error String}
  {world : σ}

theorem Serves.congr {c : Conductor (StateM σ)} {reports : List Report} {world₁ : σ}
    (h : Serves w s line world c reports world₁)
    (hline : ∀ i ≤ reports.length, line' i = line i) :
    Serves w s line' world c reports world₁ := by
  induction h with
  | setUp greeted prepared started => exact .setUp greeted prepared started
  | report served heard asked ran written ih =>
    rw [List.length_append, List.length_singleton] at hline
    refine .report (ih fun i hi => hline i (by omega)) ?_ asked ran written
    rw [hline _ (Nat.le_refl _)]
    exact heard

/-- How a session ends depends on the lines that are heard, and on no others. -/
theorem Ends.congr {course : Course} {world' : σ} (h : Ends w s line world course world')
    (hline : ∀ i < course.heard, line' i = line i) : Ends w s line' world course world' := by
  -- a session that serves has heard a line for each report, and hears one more
  have hstep {c : Conductor (StateM σ)} {reports : List Report} {world₁ : σ}
      (served : Serves w s line world c reports world₁) (hlt : reports.length + 1 < course.heard) :
      Serves w s line' world c reports world₁ ∧
        line' (reports.length + 1) = line (reports.length + 1) :=
    ⟨served.congr fun i hi => hline i (by omega), hline _ hlt⟩
  cases h with
  | ungreeted large => exact .ungreeted large
  | unprepared greeted failed => exact .unprepared greeted failed
  | brokenOff greeted breaks => exact .brokenOff greeted breaks
  | notSetUp greeted prepared failed => exact .notSetUp greeted prepared failed
  | unheard served heard =>
    obtain ⟨hserved, hheard⟩ := hstep served (Nat.lt_succ_self _)
    exact .unheard hserved (hheard.trans heard)
  | unknown served heard parsed =>
    obtain ⟨hserved, hheard⟩ := hstep served (Nat.lt_succ_self _)
    exact .unknown hserved (hheard.trans heard) parsed
  | notIterated served heard asked failed =>
    obtain ⟨hserved, hheard⟩ := hstep served (Nat.lt_succ_self _)
    exact .notIterated hserved (hheard.trans heard) asked failed
  | unreported served heard asked ran large =>
    obtain ⟨hserved, hheard⟩ := hstep served (Nat.lt_succ_self _)
    exact .unreported hserved (hheard.trans heard) asked ran large
  | notTornDown served heard asked failed =>
    obtain ⟨hserved, hheard⟩ := hstep served (Nat.lt_succ_self _)
    exact .notTornDown hserved (hheard.trans heard) asked failed
  | completed served heard asked tornDown =>
    obtain ⟨hserved, hheard⟩ := hstep served (Nat.lt_succ_self _)
    exact .completed hserved (hheard.trans heard) asked tornDown

end Congruence

/-! ### Sessions conform -/

/-- The first line is always heard. -/
theorem Ends.heard_pos {w : Workshop (StateM σ)} {s : Spec}
    {line : Nat → Except Line.Error String} {world world' : σ} {course : Course}
    (h : Ends w s line world course world') : 0 < course.heard := by
  cases h <;> exact Nat.succ_pos _

/-- The reports of a session are those of the first iterations of the schedule. -/
theorem Ends.positions {w : Workshop (StateM σ)} {s : Spec}
    {line : Nat → Except Line.Error String} {world world' : σ} {course : Course}
    (hfits : s.warmups + s.measurements ≤ Whole.max32) (h : Ends w s line world course world') :
    course.reports.map Report.place =
      (schedule s.warmups s.measurements).take course.reports.length := by
  have hserved {c : Conductor (StateM σ)} {reports : List Report} {world₁ : σ}
      (served : Serves w s line world c reports world₁) :
      reports.map Report.place = (schedule s.warmups s.measurements).take reports.length := by
    rw [← served.schedule_eq]
    exact (served.positions hfits).2
  cases h with
  | ungreeted _ => rfl
  | unprepared _ _ => rfl
  | brokenOff _ _ => rfl
  | notSetUp _ _ _ => rfl
  | unheard served _ => exact hserved served
  | unknown served _ _ => exact hserved served
  | notIterated served _ _ _ => exact hserved served
  | unreported served heard asked ran _ =>
    -- the last report has been made, though it could not be written
    have htotal := hfits
    rw [← served.total_eq] at htotal
    obtain ⟨hlt, -, hposition, -⟩ :=
      Conductor.iterate_ok htotal (served.positions hfits).1 ran
    rw [← served.schedule_eq, List.length_append, List.length_singleton, List.map_append,
      (served.positions hfits).2, Settings.take_succ_schedule hlt, ← hposition]
    rfl
  | notTornDown served _ _ _ => exact hserved served
  | completed served _ _ _ => exact hserved served

/-- **Every session conforms.**  If the first line cannot be read or is no specification, nothing
is written.  Otherwise the session takes one of the courses in `Ends`: its reports are those of
the first iterations of the schedule, its lines are written in order up to the first that is too
large, and what comes after the lines that it hears changes nothing. -/
theorem serve_conforms (w : Workshop (StateM σ)) (source : ByteSource) (world : σ)
    (hnames : ∀ name entry, w.registry.get? name = some entry → Line.hasBreak name = false) :
    (∀ e, source.line 0 = .error e →
      (serve w source).run world = (([], .error (.line e)), world)) ∧
    (∀ first e, source.line 0 = .ok first → Spec.decode first = .error e →
      (serve w source).run world = (([], .error (.spec e)), world)) ∧
    (∀ first s, source.line 0 = .ok first → Spec.decode first = .ok s →
      s.warmups + s.measurements ≤ Whole.max32 →
      ∃ course world', Ends w s source.line world course world' ∧
        course.reports.map Report.place =
          (schedule s.warmups s.measurements).take course.reports.length ∧
        (serve w source).run world = (sent course.result (course.lines w s), world') ∧
        ∀ source' : ByteSource, (∀ i < course.heard, source'.line i = source.line i) →
          (serve w source').run world = (serve w source).run world) := by
  refine ⟨fun e hread => ?_, fun first e hread hspec => ?_, fun first s hread hspec hfits => ?_⟩
  · rw [ByteSource.line_zero] at hread
    exact run_serve_first (hread ▸ run_hear_unread e)
  · rw [ByteSource.line_zero] at hread
    exact run_serve_first (hread ▸ run_hear_undecoded hspec)
  · obtain ⟨course, world', hends⟩ := exists_ends w s source world
    have hrun := hends.run hread hspec hnames hfits
    refine ⟨course, world', hends, hends.positions hfits, hrun, fun source' hsame => ?_⟩
    rw [hrun]
    exact (hends.congr hsame).run ((hsame 0 hends.heard_pos).trans hread) hspec hnames hfits

/-- A worker for the task that does nothing. -/
def idleShop : Workshop (StateM Nat) where
  registry := .ofList [.idle "idle"]
  host := .ticking

theorem unbroken_idleShop (name : String) (entry : TaskEntry (StateM Nat))
    (h : idleShop.registry.get? name = some entry) : Line.hasBreak name = false := by
  rw [(Registry.get?_singleton h).1, hasBreak_eq_false]
  decide

/-- A worker that is told to iterate twice and to end. -/
theorem serve_conforms_idle :
    let source : ByteSource :=
      { bytes := ByteSource.wire [Spec.idle.encode, "iterate", "iterate", "terminate"] }
    ∃ course world', Ends idleShop .idle source.line 0 course world' ∧
      course.reports.map Report.place = (schedule 1 1).take course.reports.length ∧
      (serve idleShop source).run 0 = (sent course.result (course.lines idleShop .idle), world') ∧
      ∀ source' : ByteSource, (∀ i < course.heard, source'.line i = source.line i) →
        (serve idleShop source').run 0 = (serve idleShop source).run 0 := by
  have hread := ((ByteSource.holds_wire
    [Spec.idle.encode, "iterate", "iterate", "terminate"]).readLine_cons Spec.fits_encode_idle).1
  rw [← ByteSource.line_zero] at hread
  exact (serve_conforms idleShop _ 0 unbroken_idleShop).2.2 _ _ hread (Spec.decode_encode .idle)
    (by decide +kernel)

end Microbench.Session
