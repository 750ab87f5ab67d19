import Mathlib
import Microbench.Proofs.Session.Recital
import Microbench.Proofs.Session.Serving
import Microbench.Trial.Campaign

/-!
# What a fork accepts

A fork measures what its worker says, and only if the worker says exactly what it
should: a greeting, the report of every iteration in its turn, the completion, and a
good end.  A failure that is reported after any number of such reports is the failure
of the fork.  Everything else is a failure of the process.

## Main definitions

* `ForkResult.ofReports` — what a fork has measured when these are its reports.
* `Recital.Begins`, `Recital.Completes`, `Recital.Fails` — the recitals that a specification
  allows.
* `Campaign.Launchable` — the command of a worker can be put together.

## Main results

* `run_of_completes`, `run_of_fails`, `run_of_neither` — the three ways a session ends.
* `fork_accepts_exactly` — what becomes of a fork.
-/

namespace Microbench

/-! ### Collecting reports -/

/-- What a fork has measured when these are its reports: the results of the iterations that count,
and the warnings of all. -/
def ForkResult.ofReports (index pid : UInt32) (reports : List Report) : ForkResult where
  index := index
  pid := pid
  iterations := (reports.filter (·.phase = .measurement)).map (·.result)
  warnings := reports.flatMap (·.warnings)

theorem ForkResult.foldl_addReport_eq (fork : ForkResult) (reports : List Report) :
    reports.foldl ForkResult.addReport fork =
      { fork with
        iterations := fork.iterations ++ (reports.filter (·.phase = .measurement)).map (·.result)
        warnings := fork.warnings ++ reports.flatMap (·.warnings) } := by
  induction reports generalizing fork with
  | nil => simp
  | cons r reports ih =>
    rw [List.foldl_cons, ih, addReport]
    by_cases hphase : r.phase = .measurement <;> simp [hphase]

/-- Reports one after the other are collected. -/
theorem ForkResult.foldl_addReport (index pid : UInt32) (reports : List Report) :
    reports.foldl ForkResult.addReport { index, pid } = .ofReports index pid reports := by
  rw [foldl_addReport_eq]
  simp [ofReports]

/-! ### What may be said -/

namespace Recital

/-- A recital that begins well: with a greeting in the right version and the reports of the first
iterations that are asked for. -/
structure Begins (r : Recital) (s : Spec) (pid : UInt32) (reports : List Report)
    (rest : List (Option Message)) : Prop where
  /-- These messages come first. -/
  said : ∃ task, r.said =
    some (.hello protocolVersion pid task) :: (reports.map (fun r => some (.iteration r)) ++ rest)
  /-- The reports are those of the first iterations. -/
  places : reports.map Report.place = (schedule s.warmups s.measurements).take reports.length

/-- A recital in which all is as it should be. -/
structure Completes (r : Recital) (s : Spec) (pid : UInt32) (reports : List Report) : Prop where
  /-- Every iteration is reported. -/
  all : reports.length = s.warmups + s.measurements
  /-- The completion follows. -/
  completed : ∃ rest, r.Begins s pid reports
    (some (.complete (.ofNat (s.warmups + s.measurements))) :: rest)
  /-- The worker ends well. -/
  ended : ∃ status, r.ending = some status ∧ status.isSuccess

/-- A recital that begins well and goes on with a failure. -/
def Fails (r : Recital) (s : Spec) (f : Failure) : Prop :=
  ∃ pid reports rest, r.Begins s pid reports (some (.failure f) :: rest)

end Recital

namespace Supervisor

/-- Reports come in their turn when they are those of the schedule. -/
theorem inTurn_iff {s : Settings} {n : Nat} {reports : List Report}
    (hle : n + reports.length ≤ s.total) :
    InTurn s n reports ↔ reports.map Report.place = (s.schedule.drop n).take reports.length := by
  induction reports generalizing n with
  | nil => simp [InTurn]
  | cons r reports ih =>
    rw [List.length_cons] at hle ⊢
    rw [InTurn, ih (by omega), Settings.drop_schedule (n := n) (by omega), List.take_succ_cons,
      List.map_cons, List.cons.injEq]
    rfl

section

variable {r : Recital} {s : Spec} {d : Declaration} {settings : Settings} {pid : UInt32}
  {reports : List Report} {rest : List (Option Message)}

theorem inTurn_of_begins (hsettings : Settings.resolve s d = .ok settings)
    (h : r.Begins s pid reports rest) :
    InTurn settings 0 reports ∧ reports.length ≤ settings.total := by
  obtain ⟨hschedule, htotal⟩ := schedule_of_resolve hsettings
  have hle : reports.length ≤ settings.total := by
    have hlength := congrArg List.length h.places
    rw [List.length_map, List.length_take, length_schedule] at hlength
    omega
  refine ⟨(inTurn_iff (by omega)).2 ?_, hle⟩
  rw [List.drop_zero, hschedule, h.places]

theorem places_of_inTurn (hsettings : Settings.resolve s d = .ok settings)
    (hle : reports.length ≤ settings.total) (h : InTurn settings 0 reports) :
    reports.map Report.place = (schedule s.warmups s.measurements).take reports.length := by
  rw [(inTurn_iff (by omega)).1 h, List.drop_zero, (schedule_of_resolve hsettings).1]

end

/-! ### Whole sessions -/

variable {m : Type → Type} [Monad m]

/-- What comes after the iterations. -/
def close (l : Launcher m) (s : Settings) : ForkResult × l.Worker → Run m (ForkResult × Output)
  | (fork, w) => do
    let ((), w) ← ask l s w Command.terminate.line (completion s)
    let output ← finish l s.timeout w
    return (fork, output)

variable [LawfulMonad m] {r : Recital} {s : Spec} {d : Declaration} {settings : Settings}
  (program : String) (args probes : List String) (index : UInt32) {pid : UInt32}
  {reports : List Report} {rest : List (Option Message)}

theorem run_start : (start (m := m) (.reciting r) (program :: args) probes).run =
    pure (.ok r.stream) := by
  have hstart : (ExceptT.lift ((Launcher.reciting (m := m) r).start ⟨program, args, probes⟩) :
      Run m (Except String ByteSource)).run = pure (.ok (.ok r.stream)) := by
    rw [ExceptT.run_lift]
    exact map_pure _ _
  exact (run_bind_of_ok hstart _).trans rfl

theorem run_finish (limit : Duration) (w : ByteSource) :
    (finish (m := m) (.reciting r) limit w).run =
      pure (match r.ending with
        | none => .error (.process (.timeout limit))
        | some status =>
          if status.isSuccess then .ok r.output else .error (.process (.exited status))) := by
  have hfinish : (ExceptT.lift ((Launcher.reciting (m := m) r).finish limit w) :
      Run m (Option (ExitStatus × Output))).run = pure (.ok (r.ending.map (·, r.output))) := by
    rw [ExceptT.run_lift]
    exact map_pure _ _
  refine (run_bind_of_ok hfinish _).trans ?_
  cases r.ending with
  | none => rfl
  | some status =>
    dsimp only [Option.map_some]
    cases status.isSuccess <;> rfl

/-- A worker whose first word is no greeting is not listened to. -/
theorem run_of_ungreeted (hspec : Line.Fits s.encode)
    (h : ∀ pid task rest, r.said ≠ some (.hello protocolVersion pid task) :: rest) :
    ∃ p, (run (m := m) (.reciting r) (program :: args) probes s settings index).run =
      pure (.error (.process p)) := by
  -- whatever is no greeting is out of place, and a greeting is in another version
  have hwrong : ∀ message rest, r.said = some message :: rest →
      ∃ p, greeting message = .error (.process p) := by
    intro message rest hsaid
    cases message with
    | hello version pid task =>
      have hversion : version ≠ protocolVersion := fun heq => h pid task rest (heq ▸ hsaid)
      exact ⟨.version version, if_neg hversion⟩
    | iteration report => exact ⟨_, rfl⟩
    | failure f => exact ⟨_, rfl⟩
    | complete n => exact ⟨_, rfl⟩
  obtain ⟨p, hp⟩ := ask_of_wrong (m := m) (s := settings) hspec r.stream_says hwrong
  refine ⟨p, ?_⟩
  unfold run
  rw [run_bind_of_ok (run_start program args probes), run_bind_of_error hp]

/-- After a greeting and reports in their turn there are only the other iterations. -/
theorem run_of_inTurn (hspec : Line.Fits s.encode) {task : String}
    (h : r.said = some (.hello protocolVersion pid task) :: (said reports ++ rest))
    (hturn : InTurn settings 0 reports) {more : Nat}
    (hmore : settings.iterations.toNat = reports.length + more) :
    ∃ w : ByteSource, w.Says rest ∧
      (run (m := m) (.reciting r) (program :: args) probes s settings index).run =
        (iterations (.reciting r) settings more reports.length (.ofReports index pid reports) w >>=
          close (.reciting r) settings).run := by
  have hsays := r.stream_says
  rw [h] at hsays
  have hjudge : greeting (.hello protocolVersion pid task) = .ok pid := by
    rw [greeting, if_pos rfl]
  obtain ⟨w, hw, hask⟩ := ask_of_accepted (m := m) (s := settings) hspec hsays hjudge
  obtain ⟨w', hw', hrun⟩ := iterations_follow (m := m) (r := r) { index, pid } hw hturn
  refine ⟨w', hw', ?_⟩
  have hiterations := hrun more
  rw [Nat.zero_add, ForkResult.foldl_addReport] at hiterations
  unfold run
  rw [run_bind_of_ok (run_start program args probes), run_bind_of_ok hask]
  dsimp only
  rw [hmore, ExceptT.run_bind, ExceptT.run_bind, hiterations]
  rfl

/-- Without a report in its turn and without a failure the iterations come to no end. -/
theorem iterations_of_wrong {n : Nat} (more : Nat) (fork : ForkResult) {w : ByteSource}
    (hw : w.Says rest)
    (hunfailed : ∀ f rest', rest ≠ some (.failure f) :: rest')
    (hturn : ∀ r rest', rest = some (.iteration r) :: rest' → r.place ≠ position settings n) :
    ∃ p, (iterations (m := m) (.reciting r) settings (more + 1) n fork w).run =
      pure (.error (.process p)) := by
  have hwrong : ∀ message rest', rest = some message :: rest' →
      ∃ p, report settings n message = .error (.process p) := by
    intro message rest' hrest
    cases message with
    | hello version pid task => exact ⟨_, rfl⟩
    | iteration report => exact ⟨_, if_neg (hturn report rest' hrest)⟩
    | failure f => exact absurd hrest (hunfailed f rest')
    | complete n => exact ⟨_, rfl⟩
  obtain ⟨p, hask⟩ := ask_of_wrong (m := m) (r := r) (s := settings) (Command.fits_line .iterate) hw
    hwrong
  refine ⟨p, ?_⟩
  rw [iterations, run_bind_of_error hask]

/-- Without the completion and without a failure there is no good end, and neither with the
completion if the worker does not end well. -/
theorem close_of_wrong {fork : ForkResult} {w : ByteSource} (hw : w.Says rest)
    (hunfailed : ∀ f rest', rest ≠ some (.failure f) :: rest')
    (hend : ∀ rest' status, rest = some (.complete settings.iterations) :: rest' →
      r.ending = some status → ¬ status.isSuccess) :
    ∃ p, (close (m := m) (.reciting r) settings (fork, w)).run = pure (.error (.process p)) := by
  rw [close]
  by_cases hcompleted : ∃ rest', rest = some (.complete settings.iterations) :: rest'
  · -- the completion is heard, so it is the end that is not good
    obtain ⟨rest', rfl⟩ := hcompleted
    have hjudge : completion settings (.complete settings.iterations) = .ok () := by
      rw [completion, if_pos rfl]
    obtain ⟨w', -, hask⟩ := ask_of_accepted (m := m) (s := settings) (Command.fits_line .terminate)
      hw hjudge
    have hfinish := run_finish (m := m) (r := r) settings.timeout w'
    rw [run_bind_of_ok hask]
    dsimp only
    cases hending : r.ending with
    | none =>
      rw [hending] at hfinish
      exact ⟨_, run_bind_of_error hfinish _⟩
    | some status =>
      rw [hending] at hfinish
      dsimp only at hfinish
      rw [if_neg (hend rest' status rfl hending)] at hfinish
      exact ⟨_, run_bind_of_error hfinish _⟩
  · -- the completion of another number of iterations is none
    have hwrong : ∀ message rest', rest = some message :: rest' →
        ∃ p, completion settings message = .error (.process p) := by
      intro message rest' hrest
      cases message with
      | hello version pid task => exact ⟨_, rfl⟩
      | iteration report => exact ⟨_, rfl⟩
      | failure f => exact absurd hrest (hunfailed f rest')
      | complete n =>
        have hcount : n ≠ settings.iterations := fun heq => hcompleted ⟨rest', heq ▸ hrest⟩
        exact ⟨_, if_neg hcount⟩
    obtain ⟨p, hask⟩ := ask_of_wrong (m := m) (r := r) (s := settings)
      (Command.fits_line .terminate) hw hwrong
    exact ⟨p, run_bind_of_error hask _⟩

/-- **What is accepted**: all is said that should be, and the worker ends well. -/
theorem run_of_completes (hspec : Line.Fits s.encode)
    (hsettings : Settings.resolve s d = .ok settings)
    (hcount : s.warmups + s.measurements ≤ Whole.max32) (h : r.Completes s pid reports) :
    (run (m := m) (.reciting r) (program :: args) probes s settings index).run =
      pure (.ok (.ofReports index pid reports, r.output)) := by
  obtain ⟨hall, ⟨rest, hbegins⟩, status, hending, hsuccess⟩ := h
  obtain ⟨task, hsaid⟩ := hbegins.said
  obtain ⟨hturn, -⟩ := inTurn_of_begins hsettings hbegins
  have hiterations := toNat_iterations_of_resolve hsettings hcount
  have hmore : settings.iterations.toNat = reports.length + 0 := by omega
  obtain ⟨w, hw, hrun⟩ := run_of_inTurn (m := m) program args probes index hspec hsaid hturn hmore
  have hjudge : completion settings (.complete (.ofNat (s.warmups + s.measurements))) = .ok () := by
    rw [completion, if_pos]
    rw [← hiterations, UInt32.ofNat_toNat]
  obtain ⟨w', -, hask⟩ := ask_of_accepted (m := m) (s := settings) (Command.fits_line .terminate)
    hw hjudge
  rw [hrun, iterations, pure_bind, close, run_bind_of_ok hask]
  dsimp only
  have hfinish := run_finish (m := m) (r := r) settings.timeout w'
  rw [hending] at hfinish
  dsimp only at hfinish
  rw [if_pos hsuccess] at hfinish
  rw [run_bind_of_ok hfinish]
  rfl

/-- **What fails as it is reported**: the failure comes in place of a report or of the
completion. -/
theorem run_of_fails (hspec : Line.Fits s.encode)
    (hsettings : Settings.resolve s d = .ok settings)
    (hcount : s.warmups + s.measurements ≤ Whole.max32) {f : Failure} (h : r.Fails s f) :
    (run (m := m) (.reciting r) (program :: args) probes s settings index).run =
      pure (.error (.reported f)) := by
  obtain ⟨pid, reports, rest, hbegins⟩ := h
  obtain ⟨task, hsaid⟩ := hbegins.said
  obtain ⟨hturn, hle⟩ := inTurn_of_begins hsettings hbegins
  have hiterations := toNat_iterations_of_resolve hsettings hcount
  rw [(schedule_of_resolve hsettings).2, ← hiterations] at hle
  obtain ⟨more, hmore⟩ := Nat.exists_eq_add_of_le hle
  obtain ⟨w, hw, hrun⟩ := run_of_inTurn (m := m) program args probes index hspec hsaid hturn hmore
  rw [hrun]
  cases more with
  | zero =>
    -- after all reports the failure is the answer to the command to end
    have hjudge : completion settings (.failure f) = .error (.reported f) := rfl
    have hask := ask_of_refused (m := m) (r := r) (s := settings) (Command.fits_line .terminate) hw
      hjudge
    rw [iterations, pure_bind, close, run_bind_of_error hask]
  | succ more =>
    have hjudge : report settings reports.length (.failure f) = .error (.reported f) := rfl
    have hask := ask_of_refused (m := m) (r := r) (s := settings) (Command.fits_line .iterate) hw
      hjudge
    rw [iterations, run_bind_of_error (run_bind_of_error hask _)]

/-- **Everything else is a failure of the process.** -/
theorem run_of_neither (hspec : Line.Fits s.encode)
    (hsettings : Settings.resolve s d = .ok settings)
    (hcount : s.warmups + s.measurements ≤ Whole.max32)
    (hcompletes : ¬ ∃ pid reports, r.Completes s pid reports) (hfails : ¬ ∃ f, r.Fails s f) :
    ∃ p, (run (m := m) (.reciting r) (program :: args) probes s settings index).run =
      pure (.error (.process p)) := by
  by_cases hgreeted : ∃ pid task rest, r.said = some (.hello protocolVersion pid task) :: rest
  · obtain ⟨pid, task, messages, hsaid⟩ := hgreeted
    have htotal := (schedule_of_resolve hsettings).2
    have hiterations := toNat_iterations_of_resolve hsettings hcount
    -- the supervisor follows as far as reports come in their turn
    obtain ⟨reports, rest, rfl, hturn, hend⟩ := exists_inTurn settings messages 0 settings.total
    have hplaces := places_of_inTurn hsettings (by omega) hturn
    have hbegins : r.Begins s pid reports rest := ⟨⟨task, hsaid⟩, hplaces⟩
    have hunfailed : ∀ f rest', rest ≠ some (.failure f) :: rest' := fun f rest' hrest =>
      hfails ⟨f, pid, reports, rest', hrest ▸ hbegins⟩
    obtain ⟨more, hmore⟩ : ∃ more, settings.iterations.toNat = reports.length + more :=
      Nat.exists_eq_add_of_le (by omega)
    obtain ⟨w, hw, hrun⟩ := run_of_inTurn (m := m) program args probes index hspec hsaid hturn hmore
    rw [hrun]
    cases more with
    | zero =>
      -- all iterations are reported, so it is the end that is wrong
      rw [iterations, pure_bind]
      refine close_of_wrong hw hunfailed fun rest' status hrest hending hsuccess => ?_
      refine hcompletes ⟨pid, reports, by omega, ⟨rest', ?_⟩, status, hending, hsuccess⟩
      rwa [← hiterations, UInt32.ofNat_toNat, ← hrest]
    | succ more =>
      -- the next answer is not the report whose turn it is
      have hstuck := (hend.resolve_left (by omega)).2
      rw [Nat.zero_add] at hstuck
      obtain ⟨p, hwrong⟩ := iterations_of_wrong (m := m) (r := r) more
        (.ofReports index pid reports) hw hunfailed hstuck
      exact ⟨p, run_bind_of_error hwrong _⟩
  · exact run_of_ungreeted program args probes index hspec fun pid task rest hsaid =>
      hgreeted ⟨pid, task, rest, hsaid⟩

end Supervisor

/-! ### Forks -/

namespace Campaign

variable {σ : Type} {c : Campaign (StateM σ)} {s : Spec} {d : Declaration} {settings : Settings}
  {index : UInt32} {monitors : List (Monitor (StateM σ))} {r : Recital} {world : σ}

/-- What a campaign makes of a specification whose task is registered and which resolves. -/
theorem run_validate {entry : TaskEntry (StateM σ)} (hentry : c.registry.get? s.name = some entry)
    (hsettings : Settings.resolve s entry.declaration = .ok settings) (world : σ) :
    (c.validate s).run.run world = (.ok (entry, settings), world) := by
  rw [validate, hentry]
  dsimp only
  rw [hsettings]
  rfl

/-- The command of a worker without monitors names a program. -/
theorem exists_command (s : Spec) (world : σ) (h : c.workerCommand ≠ []) :
    ∃ program args, (c.command s []).run.run world = (.ok (program :: args), world) := by
  have hcommand : s.launch.before.getD [] ++ [] ++ c.workerCommand ++ s.launch.args.getD [] ++ [] ++
      s.launch.after.getD [] ≠ [] := by
    simp [h]
  obtain ⟨program, args, hcons⟩ := List.exists_cons_of_ne_nil hcommand
  exact ⟨program, args, congrArg (fun command => (Except.ok command, world)) hcons⟩

/-- The command of a worker can be put together: nothing breaks off, and it names a program. -/
def Launchable (c : Campaign (StateM σ)) (s : Spec) (monitors : List (Monitor (StateM σ)))
    (world : σ) : Prop :=
  ∃ program args,
    let (started, world') := (startMonitors s monitors).run world
    ((c.command s started.1).run.run world').1 = .ok (program :: args)

theorem launchable_of_unmonitored (h : c.workerCommand ≠ []) : c.Launchable s [] world := by
  obtain ⟨program, args, hcommand⟩ := exists_command s world h
  exact ⟨program, args, congrArg Prod.fst hcommand⟩

/-- What a fork makes of its session. -/
def concludeFork {m : Type → Type} [Monad m] (s : Spec) (index : UInt32)
    (started : List (Monitor m)) (before : List String) :
    Except SessionError (ForkResult × Output) → m (Except Halt Findings)
  | .ok (fork, output) => do
    let (found, after) ← askMonitors fork output started
    return .ok { fork, found, warnings := before ++ after }
  | .error (.reported f) => return .error (.error (.reported s.label f))
  | .error (.process p) => return .error (.error (.process s.label index p))

/-- What becomes of a fork when it is known what becomes of the session. -/
theorem run_fork {started : List (Monitor (StateM σ))} {before command : List String}
    {world₁ world₂ world₃ : σ} {result : Except SessionError (ForkResult × Output)}
    (hstarted : (startMonitors s monitors).run world = ((started, before), world₁))
    (hcommand : (c.command s started).run.run world₁ = (.ok command, world₂))
    (hsession : (Supervisor.run c.launcher command c.probes s settings index).run.run world₂ =
      (result, world₃)) :
    (c.fork s settings index monitors).run.run world =
      (concludeFork s index started before result).run world₃ := by
  unfold fork
  rw [run_lift_bind, hstarted]
  dsimp only
  rw [run_ok_bind hcommand, run_lift_bind, hsession]
  cases result with
  | ok found => rfl
  | error e => cases e <;> rfl

/-- The outcome of a fork whose worker recites. -/
theorem exists_run_fork (settings : Settings) (index : UInt32) (h : c.Launchable s monitors world) :
    ∃ program args, ∀ outcome,
      outcome = ((({ c with launcher := .reciting r }).fork s settings index
        monitors).run.run world).1 →
      ∀ result, (Supervisor.run (m := StateM σ) (.reciting r) (program :: args) c.probes s settings
        index).run = pure result →
      match result with
      | .ok (fork, _) => ∃ findings, outcome = .ok findings ∧ findings.fork = fork
      | .error (.reported f) => outcome = .error (.error (.reported s.label f))
      | .error (.process p) => outcome = .error (.error (.process s.label index p)) := by
  obtain ⟨program, args, hcommand⟩ := h
  refine ⟨program, args, fun outcome houtcome result hsession => ?_⟩
  rcases hstarted : (startMonitors s monitors).run world with ⟨⟨started, before⟩, world₁⟩
  rw [hstarted] at hcommand
  rcases hran : (c.command s started).run.run world₁ with ⟨command, world₂⟩
  dsimp only at hcommand
  rw [hran] at hcommand
  have hcommand' : (({ c with launcher := .reciting r } : Campaign (StateM σ)).command s
      started).run.run world₁ = (.ok (program :: args), world₂) :=
    hran.trans (Prod.ext hcommand rfl)
  rw [run_fork hstarted hcommand' (congrArg (StateT.run · world₂) hsession)] at houtcome
  subst houtcome
  cases result with
  | ok found => exact ⟨_, rfl, rfl⟩
  | error e => cases e <;> rfl

/-- What is reported is never a failure of the process. -/
theorem reported_ne_process (label label' : String) (f : Failure) (p : ProcessFailure) :
    TrialError.reported label f ≠ .process label' index p := by
  unfold TrialError.reported
  split <;> exact fun h => nomatch h

/-- **What becomes of a fork.**  It has measured something exactly when the worker has said all that
it should and ended well, and then it has measured what was reported.  It fails as it is reported
exactly when a failure follows on a good beginning.  In all other cases the process fails. -/
theorem fork_accepts_exactly (hsettings : Settings.resolve s d = .ok settings)
    (hcount : s.warmups + s.measurements ≤ Whole.max32)
    (hsent : s.encode.utf8ByteSize ≤ Line.maxSize) (hlaunch : c.Launchable s monitors world) :
    let outcome :=
      ((({ c with launcher := .reciting r }).fork s settings index monitors).run.run world).1
    (∀ fork, (∃ findings, outcome = .ok findings ∧ findings.fork = fork) ↔
      ∃ pid reports, r.Completes s pid reports ∧ fork = .ofReports index pid reports) ∧
    (∀ e, (outcome = .error (.error e) ∧ ∀ p, e ≠ .process s.label index p) ↔
      ∃ f, r.Fails s f ∧ e = .reported s.label f) ∧
    ((∃ p, outcome = .error (.error (.process s.label index p))) ↔
      (¬ ∃ pid reports, r.Completes s pid reports) ∧ ¬ ∃ f, r.Fails s f) := by
  intro outcome
  have hspec := s.fits_encode hsent
  obtain ⟨program, args, hfork⟩ := exists_run_fork (r := r) settings index hlaunch
  have hok : ∀ {pid reports}, r.Completes s pid reports →
      ∃ findings, outcome = .ok findings ∧ findings.fork = .ofReports index pid reports :=
    fun h => hfork outcome rfl _
      (Supervisor.run_of_completes program args c.probes index hspec hsettings hcount h)
  have hreported : ∀ {f}, r.Fails s f → outcome = .error (.error (.reported s.label f)) :=
    fun h => hfork outcome rfl _
      (Supervisor.run_of_fails program args c.probes index hspec hsettings hcount h)
  have hprocess : (¬ ∃ pid reports, r.Completes s pid reports) → (¬ ∃ f, r.Fails s f) →
      ∃ p, outcome = .error (.error (.process s.label index p)) := by
    intro hcompletes hfails
    obtain ⟨p, hrun⟩ := Supervisor.run_of_neither (m := StateM σ) program args c.probes index hspec
      hsettings hcount hcompletes hfails
    exact ⟨p, hfork outcome rfl _ hrun⟩
  -- one of the three is the case, and the outcome tells which
  have hcases : (∃ pid reports, r.Completes s pid reports) ∨ (∃ f, r.Fails s f) ∨
      ∃ p, outcome = .error (.error (.process s.label index p)) := by
    by_cases hcompletes : ∃ pid reports, r.Completes s pid reports
    · exact .inl hcompletes
    · by_cases hfails : ∃ f, r.Fails s f
      · exact .inr (.inl hfails)
      · exact .inr (.inr (hprocess hcompletes hfails))
  refine ⟨fun fork => ⟨?_, ?_⟩, fun e => ⟨?_, ?_⟩, ?_, fun h => hprocess h.1 h.2⟩
  · -- something has been measured, so all was said
    rintro ⟨findings, houtcome, rfl⟩
    rcases hcases with ⟨pid, reports, h⟩ | ⟨f, h⟩ | ⟨p, h⟩
    · obtain ⟨findings', houtcome', hfindings⟩ := hok h
      cases houtcome.symm.trans houtcome'
      exact ⟨pid, reports, h, hfindings⟩
    · cases houtcome.symm.trans (hreported h)
    · cases houtcome.symm.trans h
  · rintro ⟨pid, reports, h, rfl⟩
    exact hok h
  · -- it has failed, and not as a process does
    rintro ⟨houtcome, hne⟩
    rcases hcases with ⟨pid, reports, h⟩ | ⟨f, h⟩ | ⟨p, h⟩
    · obtain ⟨findings, houtcome', -⟩ := hok h
      cases houtcome.symm.trans houtcome'
    · cases houtcome.symm.trans (hreported h)
      exact ⟨f, h, rfl⟩
    · cases houtcome.symm.trans h
      exact absurd rfl (hne p)
  · rintro ⟨f, h, rfl⟩
    exact ⟨hreported h, reported_ne_process _ _ f⟩
  · -- the process has failed, so neither is the case
    rintro ⟨p, houtcome⟩
    refine ⟨fun ⟨pid, reports, h⟩ => ?_, fun ⟨f, h⟩ => ?_⟩
    · obtain ⟨findings, houtcome', -⟩ := hok h
      cases houtcome.symm.trans houtcome'
    · have hsame := Except.error.inj (houtcome.symm.trans (hreported h))
      exact reported_ne_process _ _ f p (Abort.error.inj hsame).symm

/-- A campaign of the task that does nothing. -/
def idle : Campaign (StateM Nat) where
  registry := .ofList [.idle "idle"]
  host := .ticking
  launcher := .reciting (.ofMessages [] none)
  workerCommand := ["worker"]

theorem travels_report_idle (phase : Phase) : (Message.iteration (.idle phase)).Travels := by
  cases phase <;> exact ⟨by cbv, by cbv⟩

theorem travels_hello_idle : (Message.hello protocolVersion 0 "idle").Travels := ⟨by cbv, by cbv⟩

theorem travels_complete_idle : (Message.complete 2).Travels := ⟨by cbv, by cbv⟩

/-- A fork whose worker says all that a trial of the task that does nothing takes. -/
theorem fork_accepts_exactly_idle :
    let said : List Message := [.hello protocolVersion 0 "idle", .iteration (.idle .warmup),
      .iteration (.idle .measurement), .complete 2]
    ∃ findings, ((({ idle with launcher := .reciting (.ofMessages said (some (.code 0))) }).fork
      .idle .idle 0 []).run.run 0).1 = .ok findings ∧
        findings.fork = .ofReports 0 0 [.idle .warmup, .idle .measurement] := by
  intro said
  have htravels : ∀ m ∈ said, m.Travels := by
    simp only [said, List.forall_mem_cons, List.not_mem_nil, false_implies, implies_true, and_true]
    exact ⟨travels_hello_idle, travels_report_idle _, travels_report_idle _, travels_complete_idle⟩
  have hbegins : (Recital.ofMessages said (some (.code 0))).Begins .idle 0
      [.idle .warmup, .idle .measurement] [some (.complete 2)] :=
    ⟨⟨"idle", Recital.said_ofMessages htravels⟩, by decide +kernel⟩
  exact ((fork_accepts_exactly Settings.resolve_idle (by decide +kernel) Spec.fits_encode_idle.small
    (launchable_of_unmonitored (List.cons_ne_nil _ _))).1 _).2
      ⟨0, _, ⟨rfl, ⟨_, hbegins⟩, _, rfl, rfl⟩, rfl⟩

end Campaign

end Microbench
