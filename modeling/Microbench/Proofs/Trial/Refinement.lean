import Microbench.Proofs.Profiler.Names
import Microbench.Proofs.Session.Piped
import Microbench.Proofs.Trial.Account

/-!
# A fork measures what the trial does

A trial that runs in a worker comes to the same as one that runs right here.  Every call
is made at the same point in the same world, whether the supervisor asks for it or the
trial goes on by itself; what is reported travels through the pipes and is collected on
the other side; and a failure ends both, with the same words.

There is one exception.  Nothing guards the call that makes an instance of the task.  If
it breaks off, it takes the process along that has made it: the worker, of which nothing is
heard after its greeting, or the whole campaign.

## Main definitions

* `Account.Travels` — whatever is said of a trial arrives.
* `Campaign.onPipes` — a campaign whose workers are behind pipes.
* `Campaign.rightHere` — a trial that runs right here.

## Main results

* `run_rest_piped` — the iterations and the end, asked for through pipes.
* `run_piped`, `run_piped_brokenOff` — a whole session over pipes.
* `forked_refines_unless_broken` — **a trial with one fork is the trial that runs right here**,
  unless the task breaks off while an instance of it is made.
-/

namespace Microbench

/-- Whatever is said of a trial of a task arrives: the reports with the lines that show them, and
the end. -/
structure Account.Travels (a : Account) (task : String) : Prop where
  /-- The reports. -/
  reports : ∀ r ∈ a.reports, (Message.iteration r).Travels
  /-- The lines that show them. -/
  progress : ∀ r ∈ a.reports, (progressLine task r).utf8ByteSize ≤ Line.maxSize
  /-- The completion. -/
  completion : ∀ n, a.ending = .ok n → (Message.complete n).Travels
  /-- The failure. -/
  failure : ∀ f, a.ending = .error f → (Message.failure f).Travels

/-- What a supervisor makes of a trial whose reports are added to these: what the fork has measured,
or the failure. -/
def Account.heard (a : Account) (fork : ForkResult) : Except SessionError (ForkResult × Output) :=
  (a.ending.map fun _ => (a.reports.foldl ForkResult.addReport fork, {})).mapError .reported

theorem Account.Travels.of_after {a : Account} {r : Report} {task : String}
    (h : (Account.after r a).Travels task) : a.Travels task where
  reports r' hr' := h.reports r' (List.mem_cons_of_mem _ hr')
  progress r' hr' := h.progress r' (List.mem_cons_of_mem _ hr')
  completion := h.completion
  failure := h.failure

namespace Supervisor

variable {σ : Type} {workshop : List String → Workshop (StateM σ)} {shop : Workshop (StateM σ)}
  {c : Conductor (StateM σ)} {p : Piped (StateM σ)} {world world₁ : σ} {position next : Lifecycle}
  {f : Failure}

/-! ### The answers to commands -/

theorem fail_of_travels (h : (Message.failure f).Travels) :
    Session.fail (m := StateM σ) f = ([(Message.failure f).line], .ended (.ok ())) :=
  Session.write_of_fits (List.forall_mem_singleton.2 h.fits)

/-- A worker that has ended well is found so. -/
theorem run_finish_piped {pending : List String} (hp : Stands p shop (.ended (.ok ())) pending)
    (limit : Duration) :
    (finish (.piped workshop) limit p).run.run world = (.ok {}, world) := by
  have hlift : (ExceptT.lift ((Launcher.piped workshop).finish limit p) :
      Run (StateM σ) (Option (ExitStatus × Output))).run.run world =
        (.ok (some (.code 0, {})), world) := by
    rw [ExceptT.run_lift, run_map]
    dsimp only [Piped.status?]
    rw [hp.session]
    rfl
  unfold finish
  exact (run_ok_bind hlift _).trans rfl

/-- After the iterations a trial is torn down. -/
theorem run_close_piped {n : Nat} {fork : ForkResult} {a : Account}
    (hn : c.settings.iterations = .ofNat n)
    (hp : Stands p shop (.serving c (.reached c.settings n)) [])
    (htold : (c.account 0 (.reached c.settings n)).run world = (a, world₁))
    (htravels : a.Travels c.settings.task) :
    (close (.piped workshop) c.settings (fork, p)).run.run world = (a.heard fork, world₁) := by
  rcases htorn : (c.tearDown (.reached c.settings n)).run world with ⟨⟨answer, next⟩, world₂⟩
  cases answer with
  | ok count =>
    cases htold.symm.trans (Conductor.account_zero_ok htorn)
    have hcount : c.settings.iterations = count := hn.trans (Conductor.tearDown_ok htorn).1.symm
    have hmessage := htravels.completion count rfl
    have hheard := Session.run_hear_tornDown (w := shop) (Session.parse_line .terminate) htorn
    rw [Session.write_of_fits (List.forall_mem_singleton.2 hmessage.fits)] at hheard
    obtain ⟨p', hp', hask⟩ := run_ask_piped workshop (s := c.settings) hp
      (Command.fits_line .terminate) hheard (hmessage.delivers [])
    have hjudge : completion c.settings (.complete count) = .ok () := if_pos hcount.symm
    have hasked := hask (completion c.settings)
    rw [hjudge] at hasked
    rw [close, run_ok_bind hasked]
    dsimp only
    rw [run_ok_bind (run_finish_piped hp' _)]
    rfl
  | error f =>
    cases htold.symm.trans (Conductor.account_zero_error htorn)
    have hmessage := htravels.failure f rfl
    have hheard := Session.run_hear_notTornDown (w := shop) (Session.parse_line .terminate) htorn
    rw [fail_of_travels hmessage] at hheard
    obtain ⟨p', -, hask⟩ := run_ask_piped workshop (s := c.settings) hp
      (Command.fits_line .terminate) hheard (hmessage.delivers [])
    rw [close, run_error_bind (hask (completion c.settings))]
    rfl

/-- **The iterations and the end**, asked for through pipes: they come to what the account of the
trial says. -/
theorem run_rest_piped (hfits : c.settings.total ≤ Whole.max32)
    (htask : Line.hasBreak c.settings.task = false) {n more : Nat}
    (hmore : n + more = c.settings.total) {fork : ForkResult} {a : Account}
    (hp : Stands p shop (.serving c (.reached c.settings n)) [])
    (htold : (c.account more (.reached c.settings n)).run world = (a, world₁))
    (htravels : a.Travels c.settings.task) :
    (iterations (.piped workshop) c.settings more n fork p >>=
      close (.piped workshop) c.settings).run.run world = (a.heard fork, world₁) := by
  -- between two questions the worker has run `n` iterations and nothing of it is unheard
  induction more generalizing n p world fork a with
  | zero =>
    have hn : c.settings.iterations = .ofNat n := by
      rw [← UInt32.ofNat_toNat (x := c.settings.iterations), Settings.toNat_iterations hfits,
        ← hmore, Nat.add_zero]
    rw [iterations, pure_bind, run_close_piped hn hp htold htravels]
  | succ more ih =>
    rw [iterations, bind_assoc]
    rcases hran : (c.iterate (.reached c.settings n)).run world with ⟨⟨answer, next⟩, world₂⟩
    cases answer with
    | ok r =>
      cases htold.symm.trans (Conductor.account_succ_ok more hran)
      obtain ⟨-, rfl, hturn, hin⟩ := Conductor.iterate_ok hfits (by omega) hran
      have hmessage := htravels.reports r List.mem_cons_self
      have hprogress : Line.Fits (progressLine c.settings.task r) :=
        ⟨hin.unbroken htask, htravels.progress r List.mem_cons_self⟩
      have hheard := Session.run_hear_iterated (w := shop) (Session.parse_line .iterate) hran
      rw [Session.write_of_fits (List.forall_mem_cons.2
        ⟨hprogress, List.forall_mem_singleton.2 hmessage.fits⟩)] at hheard
      -- of the two lines that are written, the first is only logged
      obtain ⟨p', hp', hask⟩ := run_ask_piped workshop (s := c.settings) hp
        (Command.fits_line .iterate) hheard
        ((hmessage.delivers []).log hprogress (Frame.ofLine_progress _ _))
      have hjudge : report c.settings n (.iteration r) = .ok r := if_pos hturn
      have hasked := hask (report c.settings n)
      rw [hjudge] at hasked
      rw [run_ok_bind hasked]
      exact ih (by omega) hp' rfl htravels.of_after
    | error f =>
      cases htold.symm.trans (Conductor.account_succ_error more hran)
      have hmessage := htravels.failure f rfl
      have hheard := Session.run_hear_notIterated (w := shop) (Session.parse_line .iterate) hran
      rw [fail_of_travels hmessage] at hheard
      obtain ⟨p', -, hask⟩ := run_ask_piped workshop (s := c.settings) hp
        (Command.fits_line .iterate) hheard (hmessage.delivers [])
      rw [run_error_bind (hask (report c.settings n))]
      rfl

/-- A session ends with its first command, whichever that is, if the answer to it ends it. -/
theorem run_rest_of_ask {l : Launcher (StateM σ)} {w : l.Worker} {s : Settings}
    {e : SessionError}
    (h : ∀ (c : Command) {α : Type} (judge : Message → Except SessionError α),
      (∀ f, judge (.failure f) = .error (.reported f)) →
      (ask l s w c.line judge).run.run world = (.error e, world₁))
    (more n : Nat) (fork : ForkResult) :
    (iterations l s more n fork w >>= close l s).run.run world = (.error e, world₁) := by
  cases more with
  | zero =>
    rw [iterations, pure_bind, close]
    exact run_error_bind (h .terminate (completion s) fun _ => rfl) _
  | succ more =>
    rw [iterations, bind_assoc]
    exact run_error_bind (h .iterate (report s n) fun _ => rfl) _

/-- A worker that has failed before the first iteration has said so, whatever it is asked next. -/
theorem run_failed_piped {settings : Settings}
    (hp : Stands p shop (.ended (.ok ())) [(Message.failure f).line])
    (htravels : (Message.failure f).Travels) (more n : Nat) (fork : ForkResult) :
    (iterations (.piped workshop) settings more n fork p >>=
        close (.piped workshop) settings).run.run world = (.error (.reported f), world) := by
  refine run_rest_of_ask (l := .piped workshop) (fun c α judge hjudge => ?_) more n fork
  -- the question is lost on a session that is over, and the failure is still to be heard
  have hheard : (Session.hear shop (.ended (.ok ())) (.ok c.line)).run world =
      (([], .ended (.ok ())), world) := rfl
  obtain ⟨p', -, hanswer⟩ := run_ask_piped workshop (s := settings) hp (Command.fits_line c) hheard
    (htravels.delivers [])
  rw [hanswer judge, hjudge f]
  rfl

/-! ### Whole sessions -/

section Sessions

variable {s : Spec} (settings : Settings) (index : UInt32) (program : String)
  (args : List String) {probes : List String}

/-- What the worker says to its first line is a greeting, whatever comes after it. -/
theorem run_greeted_piped (hshop : workshop probes = shop) (hsent : Line.Fits s.encode)
    (hgreeting : (Message.hello protocolVersion shop.pid s.name).Travels) {pending : List String}
    {session : Session (StateM σ)}
    (hheard : (Session.hear shop .waiting (.ok s.encode)).run world =
      ((Session.greeting shop s :: pending, session), world₁)) :
    ∃ p, Stands p shop session pending ∧
      (run (.piped workshop) (program :: args) probes s settings index).run.run world =
        (iterations (.piped workshop) settings settings.iterations.toNat 0
          { index, pid := shop.pid } p >>= close (.piped workshop) settings).run.run world₁ := by
  have hstart : (start (.piped workshop) (program :: args) probes).run.run world =
      (.ok { shop := workshop probes }, world) := rfl
  have hp : Stands { shop := workshop probes } shop .waiting [] :=
    ⟨hshop, rfl, ByteSource.holds_wire [], ByteSource.holds_wire []⟩
  obtain ⟨p, hp, hask⟩ := run_ask_piped workshop (s := settings) hp hsent hheard
    (hgreeting.delivers pending)
  have hjudge : greeting (.hello protocolVersion shop.pid s.name) = .ok shop.pid := by
    rw [greeting, if_pos rfl]
  have hasked := hask greeting
  rw [hjudge] at hasked
  refine ⟨p, hp, ?_⟩
  unfold run
  rw [run_ok_bind hstart, run_ok_bind hasked]
  rfl

/-- A worker that breaks off after its greeting is not heard again: what is found is how it has
ended. -/
theorem run_piped_brokenOff (hshop : workshop probes = shop)
    (hspec : Spec.decode s.encode = .ok s) (hsent : Line.Fits s.encode)
    (hgreeting : (Message.hello protocolVersion shop.pid s.name).Travels) {b : Breakdown}
    (hprepared : (Conductor.ofRegistry shop.host shop.registry s shop.probes).run.run world =
      (.error (.breakdown b), world₁)) :
    (run (.piped workshop) (program :: args) probes s settings index).run.run world =
      (.error (.process (.exited (.code Breakdown.exitCode))), world₁) := by
  obtain ⟨p, hp, hrun⟩ := run_greeted_piped settings index program args hshop hsent hgreeting
    (Session.run_hear_brokenOff hspec hgreeting.small hprepared)
  rw [hrun]
  exact run_rest_of_ask (l := .piped workshop) (fun c _ judge _ =>
    run_ask_endedBadly workshop hp (Command.fits_line c) judge world₁) _ _ _

/-- **A session over pipes comes to what the account of the trial says.** -/
theorem run_piped (hshop : workshop probes = shop) (hspec : Spec.decode s.encode = .ok s)
    (hsent : Line.Fits s.encode)
    (hsettings : Ensures (Conductor.ofRegistry shop.host shop.registry s shop.probes)
      fun c => c.settings = settings)
    (hfits : settings.total ≤ Whole.max32) (htask : Line.hasBreak settings.task = false)
    (hgreeting : (Message.hello protocolVersion shop.pid s.name).Travels) {a : Account}
    (htold : (Conductor.accountFrom (Conductor.ofRegistry shop.host shop.registry s
      shop.probes)).run.run world = (.ok a, world₁))
    (htravels : a.Travels settings.task) :
    (run (.piped workshop) (program :: args) probes s settings index).run.run world =
      (a.heard { index, pid := shop.pid }, world₁) := by
  rcases hprepared : (Conductor.ofRegistry shop.host shop.registry s shop.probes).run.run world with
    ⟨(f | b) | c, world₂⟩
  · cases htold.symm.trans (Conductor.accountFrom_unprepared hprepared)
    have hmessage := htravels.failure f rfl
    have hheard := Session.run_hear_unprepared hspec hgreeting.small hprepared
    rw [fail_of_travels hmessage] at hheard
    obtain ⟨p, hp, hrun⟩ := run_greeted_piped settings index program args hshop hsent hgreeting
      hheard
    rw [hrun, run_failed_piped hp hmessage]
    rfl
  · cases htold.symm.trans (Conductor.accountFrom_brokenOff hprepared)
  · obtain rfl : c.settings = settings := hsettings world c (congrArg Prod.fst hprepared)
    rcases hsetUp : (c.setUp .ready).run world₂ with ⟨⟨answer, position⟩, world₃⟩
    cases answer with
    | error f =>
      cases htold.symm.trans (Conductor.accountFrom_notSetUp hprepared hsetUp)
      have hmessage := htravels.failure f rfl
      have hheard := Session.run_hear_notSetUp hspec hgreeting.small hprepared hsetUp
      rw [fail_of_travels hmessage] at hheard
      obtain ⟨p, hp, hrun⟩ := run_greeted_piped c.settings index program args hshop hsent
        hgreeting hheard
      rw [hrun, run_failed_piped hp hmessage]
      rfl
    | ok u =>
      have hheard := Session.run_hear_setUp hspec hgreeting.small hprepared hsetUp
      obtain ⟨p, hp, hrun⟩ := run_greeted_piped c.settings index program args hshop hsent
        hgreeting hheard
      obtain rfl := Conductor.setUp_ok hsetUp
      have hall : 0 + c.settings.iterations.toNat = c.settings.total := by
        rw [Nat.zero_add, Settings.toNat_iterations hfits]
      rw [hrun, run_rest_piped hfits htask hall hp
        (Conductor.accountFrom_setUp hprepared hsetUp htold) htravels]

end Sessions

end Supervisor

/-- With its settings resolved and probes that there are, preparing a trial breaks off only where
an instance of the task is made. -/
theorem Conductor.prepare_eq_breakdown_iff {σ : Type} (host : Host (StateM σ))
    {entry : TaskEntry (StateM σ)} {s : Spec} {settings : Settings}
    (hresolve : Settings.resolve s entry.declaration = .ok settings) {names : List String}
    (hnames : ∀ name ∈ names, Probe.builtIn.any (·.1 = name)) {b : Breakdown} {world world₁ : σ} :
    (prepare host entry s names).run.run world = (.error (.breakdown b), world₁) ↔
      (entry.create settings.bindings).run.run world = (.error (.breakdown b), world₁) := by
  obtain ⟨probes, hprobes⟩ := exists_probesNamed host hnames
  rw [run_prepare host hresolve, hprobes]
  dsimp only
  rcases (entry.create settings.bindings).run.run world with ⟨(e | b') | task, world₂⟩
  · exact iff_of_false (fun h => nomatch h) fun h => nomatch h
  · exact ⟨fun h => by cases h; rfl, fun h => by cases h; rfl⟩
  · exact iff_of_false (fun h => nomatch h) fun h => nomatch h

namespace Campaign

/-- What the workers of a campaign work with: the same tasks on the same machine.  They are told the
names of the probes as one text. -/
def workshop {m : Type → Type} (c : Campaign m) (pid : UInt32) (names : List String) :
    Workshop m where
  registry := c.registry
  host := c.host
  probes := CommandLine.probeNames (",".intercalate names)
  pid := pid

/-- A campaign whose workers are behind pipes. -/
def onPipes {m : Type → Type} [Monad m] (c : Campaign m) (pid : UInt32) : Campaign m :=
  { c with launcher := .piped (c.workshop pid) }

variable {σ : Type} {c : Campaign (StateM σ)} {s : Spec} {settings : Settings} {world : σ}

/-- What is made of a session is what its account comes to. -/
theorem run_conclude_heard (a : Account) (pid : UInt32) (world : σ) :
    (concludeFork (m := StateM σ) s 0 [] [] (a.heard { index := 0, pid })).run world =
      ((a.verdict s.label pid).map fun fork => { fork }, world) := by
  unfold Account.verdict Account.heard
  rw [ForkResult.foldl_addReport]
  cases a.ending <;> rfl

section Fork

variable {entry : TaskEntry (StateM σ)} {world₁ : σ} (pid : UInt32)
  (hentry : c.registry.get? s.name = some entry)
  (hsettings : Settings.resolve s entry.declaration = .ok settings)
  (hdurations : s.overlong? = none)
  (hprobes : ∀ name ∈ c.probes, Probe.builtIn.any (·.1 = name))
  (hcommand : c.workerCommand ≠ []) (hsent : s.encode.utf8ByteSize ≤ Line.maxSize)
  (hgreeting : (Message.hello protocolVersion pid s.name).Travels)

include hprobes in
/-- A worker finds its probes. -/
theorem workshop_probes : c.workshop pid c.probes = ⟨c.registry, c.host, c.probes, pid⟩ := by
  rw [workshop, CommandLine.probeNames_intercalate hprobes]

include hcommand in
/-- What a fork without monitors comes to is decided by the session with its worker. -/
theorem run_fork_of_session {result : Except SessionError (ForkResult × Output)}
    (hsession : ∀ program args, (Supervisor.run (.piped (c.workshop pid)) (program :: args)
      c.probes s settings 0).run.run world = (result, world₁)) :
    ((c.onPipes pid).fork s settings 0 []).run.run world =
      (concludeFork (m := StateM σ) s 0 [] [] result).run world₁ := by
  obtain ⟨program, args, hran⟩ := exists_command (c := c.onPipes pid) s world hcommand
  have hstarted : (startMonitors s ([] : List (Monitor (StateM σ)))).run world =
      (([], []), world) := rfl
  exact run_fork (c := c.onPipes pid) hstarted hran (hsession program args)

include hentry hsettings hdurations hprobes hcommand hsent hgreeting in
/-- **A fork on pipes comes to what the account of the trial says.** -/
theorem run_fork_onPipes (hcount : s.warmups + s.measurements ≤ Whole.max32)
    (htask : Line.hasBreak s.name = false) {a : Account}
    (htold : (Conductor.accountFrom (Conductor.prepare c.host entry s c.probes)).run.run world =
      (.ok a, world₁))
    (htravels : a.Travels s.name) :
    ((c.onPipes pid).fork s settings 0 []).run.run world =
      ((a.verdict s.label pid).map fun fork => { fork }, world₁) := by
  -- the worker prepares the trial that would be prepared here
  have hprepared := Conductor.ofRegistry_eq c.host hentry c.probes
  obtain ⟨htaskName, -, -⟩ := resolve_ok hsettings
  have htotal := (schedule_of_resolve hsettings).2
  have hsame : Ensures (Conductor.ofRegistry c.host c.registry s c.probes)
      fun conductor => conductor.settings = settings := by
    rw [hprepared]
    refine Always.mono Conductor.prepare_ok fun r hr conductor hok => ?_
    exact Except.ok.inj ((hr conductor hok).symm.trans hsettings)
  have hdecode : Spec.decode s.encode = .ok s := by
    rw [Spec.decode_encode, hdurations]
  rw [← hprepared] at htold
  rw [run_fork_of_session pid hcommand fun program args =>
    Supervisor.run_piped settings 0 program args (workshop_probes pid hprobes) hdecode
      (s.fits_encode hsent) hsame (by omega) (htaskName ▸ htask) hgreeting htold
      (htaskName ▸ htravels)]
  exact run_conclude_heard a pid world₁

include hentry hdurations hprobes hcommand hsent hgreeting in
/-- A fork on pipes whose worker breaks off is found to have ended badly. -/
theorem run_fork_onPipes_brokenOff {b : Breakdown}
    (hprepared : (Conductor.prepare c.host entry s c.probes).run.run world =
      (.error (.breakdown b), world₁)) :
    ((c.onPipes pid).fork s settings 0 []).run.run world =
      (.error (.error (.process s.label 0 (.exited (.code Breakdown.exitCode)))), world₁) := by
  have hdecode : Spec.decode s.encode = .ok s := by
    rw [Spec.decode_encode, hdurations]
  rw [← Conductor.ofRegistry_eq c.host hentry] at hprepared
  rw [run_fork_of_session pid hcommand fun program args =>
    Supervisor.run_piped_brokenOff settings 0 program args (workshop_probes pid hprobes) hdecode
      (s.fits_encode hsent) hgreeting hprepared]
  rfl

end Fork

/-- A trial with one fork and without monitors is that fork. -/
theorem run_trial_of_fork {entry : TaskEntry (StateM σ)}
    (hentry : c.registry.get? s.name = some entry)
    (hsettings : Settings.resolve s entry.declaration = .ok settings) (hmonitors : c.monitors = [])
    (hforks : settings.forks = 1) (hwarmupForks : settings.warmupForks = 0)
    {outcome : Except Halt ForkResult} {world₁ : σ}
    (hfork : (c.fork s settings 0 []).run.run world = (outcome.map fun fork => { fork }, world₁)) :
    (c.trial s).run.run world = (outcome.map fun fork => .pooled s [fork] [] [], world₁) := by
  have hone : (c.forks s settings [] 1 0).run.run world =
      (outcome.map fun fork => [{ fork }], world₁) := by
    rw [forks]
    cases outcome with
    | ok fork => exact (run_ok_bind hfork _).trans rfl
    | error e => exact run_error_bind hfork _
  have hsome : ¬ settings.forks = 0 := by
    rw [hforks]
    decide
  rw [trial, run_ok_bind (run_validate hentry hsettings world)]
  dsimp only
  rw [if_neg hsome, hwarmupForks, hforks, hmonitors]
  have hnone : (c.forks s settings [] (0 : UInt32).toNat 0).run.run world = (.ok [], world) := rfl
  rw [run_ok_bind hnone]
  cases outcome with
  | ok fork => exact (run_ok_bind hone _).trans rfl
  | error e => exact run_error_bind hone _

/-- A trial that this process runs right here, as it runs all trials without measured forks. -/
def rightHere {m : Type → Type} [Monad m] (c : Campaign m) (pid : UInt32) (entry : TaskEntry m)
    (s : Spec) : Run m TrialResult := do
  let fork ← ({ c with pid }).inProcess entry s
  return .pooled s [fork] [] []

/-- What is made of the one fork is made of it here as well. -/
theorem run_rightHere {pid : UInt32} {entry : TaskEntry (StateM σ)}
    {outcome : Except Halt ForkResult} {world₁ : σ}
    (hfork : (({ c with pid }).inProcess entry s).run.run world = (outcome, world₁)) :
    (c.rightHere pid entry s).run.run world =
      (outcome.map fun fork => .pooled s [fork] [] [], world₁) := by
  cases outcome with
  | ok fork => exact (run_ok_bind hfork _).trans rfl
  | error e => exact run_error_bind hfork _

/-- **A trial with one fork is the trial that runs right here**: the same is measured and pooled,
or the same failure is given, and the task is left in the same world.  The only exception is a task
that breaks off while an instance of it is made: right here that takes the campaign along, and in a
fork only the worker. -/
theorem forked_refines_unless_broken {entry : TaskEntry (StateM σ)} {names : List String}
    {config : ProfilersConfig} (pid : UInt32)
    (hentry : c.registry.get? s.name = some entry)
    (hsettings : Settings.resolve s entry.declaration = .ok settings)
    (hdurations : s.overlong? = none) (hcount : s.warmups + s.measurements ≤ Whole.max32)
    (htask : Line.hasBreak s.name = false)
    (hprobes : Selection.resolve names config = .ok ⟨c.probes, []⟩) (hmonitors : c.monitors = [])
    (hforks : settings.forks = 1) (hwarmupForks : settings.warmupForks = 0)
    (hcommand : c.workerCommand ≠ []) (hsent : s.encode.utf8ByteSize ≤ Line.maxSize)
    (hgreeting : (Message.hello protocolVersion pid s.name).Travels)
    (htravels : ∀ a, ((Conductor.accountFrom
      (Conductor.prepare c.host entry s c.probes)).run.run world).1 = .ok a → a.Travels s.name) :
    let created := (entry.create settings.bindings).run.run world
    let forked := ((c.onPipes pid).trial s).run.run world
    let here := (c.rightHere pid entry s).run.run world
    (∀ b, created.1 = .error (.breakdown b) →
      forked = (.error (.error (.process s.label 0 (.exited (.code Breakdown.exitCode)))),
        created.2) ∧
      here = (.error (.breakdown b), created.2)) ∧
    ((∀ b, created.1 ≠ .error (.breakdown b)) →
      forked = here ∧ ∀ b, here.1 ≠ .error (.breakdown b)) := by
  intro created forked here
  have hbuiltIn := Selection.probes_builtIn hprobes
  have hbreaks {b : Breakdown} {world₁ : σ} :
      (Conductor.prepare c.host entry s c.probes).run.run world =
        (.error (.breakdown b), world₁) ↔ created = (.error (.breakdown b), world₁) :=
    Conductor.prepare_eq_breakdown_iff c.host hsettings hbuiltIn
  rcases htold : (Conductor.accountFrom
    (Conductor.prepare c.host entry s c.probes)).run.run world with ⟨b | a, world₁⟩
  · -- nothing but making the instance can have broken off
    have hprepared := Conductor.accountFrom_error htold
    have hcreated : created = (.error (.breakdown b), world₁) := hbreaks.1 hprepared
    let outcome : Except Halt ForkResult :=
      .error (.error (.process s.label 0 (.exited (.code Breakdown.exitCode))))
    have hfork : ((c.onPipes pid).fork s settings 0 []).run.run world =
        (outcome.map fun fork => { fork }, world₁) :=
      run_fork_onPipes_brokenOff pid hentry hdurations hbuiltIn hcommand hsent hgreeting hprepared
    have hforked : forked = (outcome.map fun fork => .pooled s [fork] [] [], world₁) :=
      run_trial_of_fork (c := c.onPipes pid) hentry hsettings hmonitors hforks hwarmupForks hfork
    have hhere : here = (.error (.breakdown b), world₁) :=
      run_rightHere (run_inProcess_brokenOff { c with pid } hprepared)
    rw [hcreated, hforked, hhere]
    refine ⟨fun b' hb' => ?_, fun hwhole => absurd rfl (hwhole b)⟩
    cases hb'
    exact ⟨rfl, rfl⟩
  · have hcreated (b : Breakdown) : created.1 ≠ .error (.breakdown b) := by
      intro hb
      have hprepared := hbreaks.2 (Prod.ext hb rfl : created = (.error (.breakdown b), created.2))
      cases htold.symm.trans (Conductor.accountFrom_brokenOff hprepared)
    have hfork := run_fork_onPipes pid hentry hsettings hdurations hbuiltIn hcommand hsent
      hgreeting hcount htask htold (htravels a (congrArg Prod.fst htold))
    have hforked : forked = ((a.verdict s.label pid).map fun fork => .pooled s [fork] [] [],
        world₁) :=
      run_trial_of_fork (c := c.onPipes pid) hentry hsettings hmonitors hforks hwarmupForks hfork
    have hhere : here = ((a.verdict s.label pid).map fun fork => .pooled s [fork] [] [], world₁) :=
      run_rightHere (run_inProcess { c with pid } htold)
    refine ⟨fun b hb => absurd hb (hcreated b), fun _ => ⟨hforked.trans hhere.symm, fun b hb => ?_⟩⟩
    rw [hhere] at hb
    exact a.verdict_map_ne_breakdown s.label pid _ b hb

/-- The account of the trial of the task that does nothing. -/
def accountIdle : Account := ⟨[.idle .warmup, .idle .measurement], .ok 2⟩

theorem travels_account_idle : accountIdle.Travels "idle" where
  reports := by
    simp only [accountIdle, List.forall_mem_cons, List.not_mem_nil, false_implies, implies_true,
      and_true]
    exact ⟨travels_report_idle _, travels_report_idle _⟩
  progress := by decide +kernel
  completion := by
    rintro _ ⟨⟩
    exact travels_complete_idle
  failure := nofun

/-- What the trial of this task leaves as its account travels. -/
def AccountTravels (entry : TaskEntry (StateM Nat)) : Prop :=
  ∀ a, ((Conductor.accountFrom (Conductor.prepare Host.ticking entry .idle [])).run.run 0).1 =
    .ok a → a.Travels Spec.idle.name

theorem travels_entry_idle : AccountTravels (.idle "idle") := by
  have hrun : ((Conductor.accountFrom (Conductor.prepare Host.ticking (TaskEntry.idle "idle")
      .idle [])).run.run 0).1 = .ok accountIdle := by
    cbv
  intro a ha
  cases hrun.symm.trans ha
  exact travels_account_idle

/-- The task of which no instance can be made. -/
def unmakable : TaskEntry (StateM Nat) where
  declaration := (TaskEntry.idle "idle").declaration
  create _ := throw (.breakdown ⟨"boom"⟩)

theorem resolve_unmakable : Settings.resolve .idle unmakable.declaration = .ok .idle :=
  Settings.resolve_idle

theorem travels_entry_unmakable : AccountTravels unmakable := by
  have hcreated : (unmakable.create Settings.idle.bindings).run.run 0 =
      (.error (.breakdown ⟨"boom"⟩), 0) := rfl
  have hrun := Conductor.accountFrom_brokenOff
    ((Conductor.prepare_eq_breakdown_iff .ticking resolve_unmakable (List.forall_mem_nil _)).2
      hcreated)
  intro a ha
  cases (congrArg Prod.fst hrun).symm.trans ha

/-- The task that does nothing is the same in a fork and right here, the one of which no instance
can be made is not. -/
theorem forked_refines_unless_broken_idle :
    let broken : Campaign (StateM Nat) := { idle with registry := .ofList [unmakable] }
    ((idle.onPipes 0).trial .idle).run.run 0 =
      (idle.rightHere 0 (.idle "idle") .idle).run.run 0 ∧
    ((broken.onPipes 0).trial .idle).run.run 0 =
      (.error (.error (.process Spec.idle.label 0 (.exited (.code 101)))), 0) ∧
    (broken.rightHere 0 unmakable .idle).run.run 0 = (.error (.breakdown ⟨"boom"⟩), 0) := by
  intro broken
  have hunbroken : Line.hasBreak Spec.idle.name = false := hasBreak_eq_false.2 (by decide)
  have hnone : Selection.resolve [] {} = .ok ⟨[], []⟩ := rfl
  have hsame := forked_refines_unless_broken (c := idle) 0 rfl Settings.resolve_idle
    rfl (by decide +kernel) hunbroken hnone rfl rfl rfl (List.cons_ne_nil _ _)
    Spec.fits_encode_idle.small travels_hello_idle travels_entry_idle
  have hdiffer := forked_refines_unless_broken (c := broken) 0 rfl resolve_unmakable
    rfl (by decide +kernel) hunbroken hnone rfl rfl rfl (List.cons_ne_nil _ _)
    Spec.fits_encode_idle.small travels_hello_idle travels_entry_unmakable
  exact ⟨(hsame.2 nofun).1, hdiffer.1 ⟨"boom"⟩ rfl⟩

end Campaign

end Microbench
