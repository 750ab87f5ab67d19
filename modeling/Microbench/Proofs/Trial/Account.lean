import Microbench.Proofs.Engine.Harvest
import Microbench.Proofs.Trial.Acceptance

/-!
# The account of a trial

Whoever runs a trial prepares it, sets it up, runs its iterations and tears it down, up
to the first call that fails.  What has been reported until then, and how it ends, is
the account of the trial.  A trial that runs right here comes to what its account says.
A task that breaks off while an instance of it is made leaves no account at all.

## Main definitions

* `Account` — the reports of a trial and its end.
* `Conductor.account`, `Conductor.accountFrom` — the account of a trial, from an iteration on and
  from its preparation on.
* `Account.verdict` — what an account comes to.

## Main results

* `run_runRest` — the iterations and teardown.
* `run_inProcess` — a trial that runs right here.
-/

namespace Microbench

/-- What becomes of a trial. -/
structure Account where
  /-- Its reports, in order. -/
  reports : List Report
  /-- The answer of teardown, or the failure that has ended the trial. -/
  ending : Except Failure UInt32

namespace Account

/-- A trial that fails with the next call. -/
def failed (f : Failure) : Account := ⟨[], .error f⟩

/-- A trial with one more report before the others. -/
def after (r : Report) (a : Account) : Account := ⟨r :: a.reports, a.ending⟩

/-- What an account comes to: what a fork has measured, or the failure. -/
def verdict (a : Account) (label : String) (pid : UInt32) : Except Halt ForkResult :=
  match a.ending with
  | .ok _ => .ok (.ofReports 0 pid a.reports)
  | .error f => .error (.error (.reported label f))

/-- Whatever is made of it, an account does not break off. -/
theorem verdict_map_ne_breakdown (a : Account) (label : String) (pid : UInt32) {α : Type}
    (f : ForkResult → α) (b : Breakdown) :
    (a.verdict label pid).map f ≠ .error (.breakdown b) := by
  unfold verdict
  split <;> exact fun h => nomatch h

end Account

namespace Conductor

section

variable {m : Type → Type} [Monad m]

/-- The account of a trial from an iteration on, with so many iterations to run. -/
def account (c : Conductor m) : Nat → Lifecycle → m Account
  | 0, position => do
    match ← c.tearDown position with
    | (.ok n, _) => return ⟨[], .ok n⟩
    | (.error f, _) => return .failed f
  | more + 1, position => do
    match ← c.iterate position with
    | (.ok r, position) => .after r <$> account c more position
    | (.error f, _) => return .failed f

/-- The account of a trial from its preparation on, unless that breaks off. -/
def accountFrom (prepared : ExceptT (Abort Failure) m (Conductor m)) :
    ExceptT Breakdown m Account := do
  match ← ExceptT.lift prepared.run with
  | .error (.error f) => return .failed f
  | .error (.breakdown b) => throw b
  | .ok c =>
    match ← ExceptT.lift (c.setUp .ready) with
    | (.error f, _) => return .failed f
    | (.ok (), position) => ExceptT.lift (c.account c.settings.iterations.toNat position)

/-- What comes after setup: the iterations, and teardown. -/
def runRest (c : Conductor m) (more : Nat) (reports : List Report) (position : Lifecycle) :
    m (Answer (List Report)) := do
  match ← c.iterateTimes more reports position with
  | (.error f, position) => return (.error f, position)
  | (.ok reports, position) =>
    match ← c.tearDown position with
    | (.error f, position) => return (.error f, position)
    | (.ok _, position) => return (.ok reports, position)

end

variable {σ : Type} {c : Conductor (StateM σ)} {position : Lifecycle} {world : σ}

/-! ### One call after the other -/

theorem account_zero_ok {n : UInt32} {next : Lifecycle} {world₁ : σ}
    (h : (c.tearDown position).run world = ((.ok n, next), world₁)) :
    (c.account 0 position).run world = (⟨[], .ok n⟩, world₁) := by
  rw [account, run_bind, h]
  rfl

theorem account_zero_error {f : Failure} {next : Lifecycle} {world₁ : σ}
    (h : (c.tearDown position).run world = ((.error f, next), world₁)) :
    (c.account 0 position).run world = (.failed f, world₁) := by
  rw [account, run_bind, h]
  rfl

theorem account_succ_ok (more : Nat) {r : Report} {next : Lifecycle} {world₁ : σ}
    (h : (c.iterate position).run world = ((.ok r, next), world₁)) :
    (c.account (more + 1) position).run world =
      (.after r ((c.account more next).run world₁).1, ((c.account more next).run world₁).2) := by
  rw [account, run_bind, h]
  rfl

theorem account_succ_error (more : Nat) {f : Failure} {next : Lifecycle} {world₁ : σ}
    (h : (c.iterate position).run world = ((.error f, next), world₁)) :
    (c.account (more + 1) position).run world = (.failed f, world₁) := by
  rw [account, run_bind, h]
  rfl

section

variable {prepared : ExceptT (Abort Failure) (StateM σ) (Conductor (StateM σ))} {f : Failure}
  {world₁ world₂ : σ}

theorem accountFrom_brokenOff {b : Breakdown}
    (h : prepared.run.run world = (.error (.breakdown b), world₁)) :
    (accountFrom prepared).run.run world = (.error b, world₁) := by
  rw [accountFrom, run_lift_bind, h]
  rfl

theorem accountFrom_unprepared (h : prepared.run.run world = (.error (.error f), world₁)) :
    (accountFrom prepared).run.run world = (.ok (.failed f), world₁) := by
  rw [accountFrom, run_lift_bind, h]
  rfl

theorem accountFrom_notSetUp (h : prepared.run.run world = (.ok c, world₁))
    (hsetUp : (c.setUp .ready).run world₁ = ((.error f, position), world₂)) :
    (accountFrom prepared).run.run world = (.ok (.failed f), world₂) := by
  rw [accountFrom, run_lift_bind, h]
  dsimp only
  rw [run_lift_bind, hsetUp]
  rfl

theorem accountFrom_setUp (h : prepared.run.run world = (.ok c, world₁))
    (hsetUp : (c.setUp .ready).run world₁ = ((.ok (), position), world₂)) {a : Account}
    {world₃ : σ} (htold : (accountFrom prepared).run.run world = (.ok a, world₃)) :
    (c.account c.settings.iterations.toNat position).run world₂ = (a, world₃) := by
  rw [accountFrom, run_lift_bind, h] at htold
  dsimp only at htold
  rw [run_lift_bind, hsetUp] at htold
  cases htold
  rfl

/-- A trial has no account only if preparing it breaks off. -/
theorem accountFrom_error {b : Breakdown}
    (htold : (accountFrom prepared).run.run world = (.error b, world₁)) :
    prepared.run.run world = (.error (.breakdown b), world₁) := by
  rcases hprepared : prepared.run.run world with ⟨(f | b') | c, world₂⟩
  · cases htold.symm.trans (accountFrom_unprepared hprepared)
  · cases htold.symm.trans (accountFrom_brokenOff hprepared)
    rfl
  · rcases hsetUp : (c.setUp .ready).run world₂ with ⟨⟨answer, position⟩, world₃⟩
    cases answer with
    | error f => cases htold.symm.trans (accountFrom_notSetUp hprepared hsetUp)
    | ok u =>
      rw [accountFrom, run_lift_bind, hprepared] at htold
      dsimp only at htold
      rw [run_lift_bind, hsetUp] at htold
      cases htold

end

/-! ### Trials that run right here -/

/-- The iterations and teardown give the reports of the account, after those that were there. -/
theorem run_runRest {more : Nat} {position : Lifecycle} {world world₁ : σ} {a : Account}
    (htold : (c.account more position).run world = (a, world₁)) (reports : List Report) :
    ∃ next, (c.runRest more reports position).run world =
      ((a.ending.map fun _ => reports.reverse ++ a.reports, next), world₁) := by
  induction more generalizing reports position world a with
  | zero =>
    rcases htorn : (c.tearDown position).run world with ⟨⟨answer, next⟩, world₂⟩
    refine ⟨next, ?_⟩
    rw [runRest, iterateTimes, pure_bind]
    dsimp only
    rw [run_bind, htorn]
    cases answer with
    | ok n =>
      cases htold.symm.trans (account_zero_ok htorn)
      dsimp only [Except.map]
      rw [List.append_nil]
      rfl
    | error f =>
      cases htold.symm.trans (account_zero_error htorn)
      rfl
  | succ more ih =>
    rcases hran : (c.iterate position).run world with ⟨⟨answer, next⟩, world₂⟩
    cases answer with
    | ok r =>
      -- the report goes in front of those that were there, which are kept backwards
      cases htold.symm.trans (account_succ_ok more hran)
      obtain ⟨last, hrest⟩ := ih rfl (r :: reports)
      refine ⟨last, ?_⟩
      rw [runRest, iterateTimes, bind_assoc, run_bind, hran]
      refine hrest.trans ?_
      rw [List.reverse_cons, List.append_assoc]
      rfl
    | error f =>
      cases htold.symm.trans (account_succ_error more hran)
      refine ⟨next, ?_⟩
      rw [runRest, iterateTimes, bind_assoc, run_bind, hran]
      rfl

/-- What fails before setup is the configuration. -/
theorem site_of_unprepared {host : Host (StateM σ)} {entry : TaskEntry (StateM σ)} {s : Spec}
    {probes : List String} {f : Failure} {world₁ : σ}
    (h : (prepare host entry s probes).run.run world = (.error (.error f), world₁)) :
    f.site = .configuration := by
  unfold prepare at h
  split at h
  · cases h
    rfl
  · next settings _ =>
    split at h
    · cases h
      rfl
    · rw [run_lift_bind] at h
      rcases hcreated : (entry.create settings.bindings).run.run world with ⟨(e | b) | task, world₂⟩
      all_goals rw [hcreated] at h; cases h
      rfl

end Conductor

namespace Campaign

variable {σ : Type} (c : Campaign (StateM σ)) {entry : TaskEntry (StateM σ)} {s : Spec}
  {world world₁ : σ}

/-- **A trial that runs right here comes to what its account says.** -/
theorem run_inProcess {a : Account}
    (htold : (Conductor.accountFrom (Conductor.prepare c.host entry s c.probes)).run.run world =
      (.ok a, world₁)) :
    (c.inProcess entry s).run.run world = (a.verdict s.label c.pid, world₁) := by
  unfold inProcess
  rw [run_lift_bind]
  rcases hprepared : (Conductor.prepare c.host entry s c.probes).run.run world with
    ⟨(f | b) | conductor, world₂⟩
  · cases htold.symm.trans (Conductor.accountFrom_unprepared hprepared)
    -- the trial itself is blamed here, and so it is where the failure is reported
    have hreported : TrialError.reported s.label f = .configuration s.label f.message :=
      if_pos (Conductor.site_of_unprepared hprepared)
    dsimp only [Account.failed, Account.verdict]
    rw [hreported]
    rfl
  · cases htold.symm.trans (Conductor.accountFrom_brokenOff hprepared)
  · rw [run_lift_bind]
    rcases hsetUp : (conductor.setUp .ready).run world₂ with ⟨⟨answer, position⟩, world₃⟩
    cases answer with
    | error f =>
      cases htold.symm.trans (Conductor.accountFrom_notSetUp hprepared hsetUp)
      have hrun : (conductor.runAll .ready).run world₂ = ((.error f, position), world₁) := by
        rw [Conductor.runAll, run_bind, hsetUp]
        rfl
      rw [hrun]
      rfl
    | ok u =>
      obtain ⟨next, hrest⟩ := Conductor.run_runRest
        (Conductor.accountFrom_setUp hprepared hsetUp htold) []
      have hrun : (conductor.runAll .ready).run world₂ =
          ((a.ending.map fun _ => a.reports, next), world₁) := by
        rw [Conductor.runAll, run_bind, hsetUp]
        exact hrest
      rw [hrun]
      unfold Account.verdict
      cases a.ending with
      | error f => rfl
      | ok n =>
        rw [← ForkResult.foldl_addReport]
        rfl

/-- A trial that runs right here and leaves no account breaks off itself. -/
theorem run_inProcess_brokenOff {b : Breakdown}
    (hprepared : (Conductor.prepare c.host entry s c.probes).run.run world =
      (.error (.breakdown b), world₁)) :
    (c.inProcess entry s).run.run world = (.error (.breakdown b), world₁) := by
  rw [inProcess, run_lift_bind, hprepared]
  rfl

end Campaign

end Microbench
