import Microbench.Proofs.Trial.Monitors

/-!
# Hooks that nothing guards

Two of the four hooks of a monitor are guarded: what breaks off in them becomes a warning,
and the trial goes on.  The two that have a say in the command of a worker are not.  As
long as none of these breaks off, a trial comes to what it would come to if they were
guarded as well, with the monitors standing apart from it.  If one of them does, in any
fork that is measured, it takes the trial with it, and the campaign.

What is to be warned of is lost wherever a trial has no result, also if the campaign goes on
without it.

## Main definitions

* `Monitor.guarded`, `Campaign.guarded` — monitors all of whose hooks are guarded.
* `Monitor.IsUnseen` — a monitor whose hooks are not seen by workers.
* `Campaign.BreaksAt`, `Campaign.LaunchBreaks`, `Campaign.Breaks` — where a hook breaks off that
  nothing guards: among monitors, at the launch of a fork, in a trial.

## Main results

* `Campaign.fork_guarded` — a fork whose launch does not break off.
* `Campaign.trial_breaks` — **what is not guarded takes everything with it.**
-/

namespace Microbench

variable {σ τ : Type} {view : σ → τ} {journal : σ → List HookCall} {s : Spec}

/-! ### Guarded hooks -/

/-- A hook for the command of a worker, which contributes nothing if it breaks off. -/
def spared {m : Type → Type} [Monad m] (hook : ExceptT Breakdown m (List String)) :
    ExceptT Breakdown m (List String) :=
  ExceptT.mk do
    match ← hook.run with
    | .ok words => return .ok words
    | .error _ => return .ok []

/-- The monitor with all its hooks guarded. -/
def Monitor.guarded {m : Type → Type} [Monad m] (monitor : Monitor m) : Monitor m :=
  { monitor with
    launchPrefix := fun s => spared (monitor.launchPrefix s)
    launchArgs := fun s => spared (monitor.launchArgs s) }

/-- A guarded hook returns, and leaves the world that the hook leaves. -/
theorem run_spared (hook : ExceptT Breakdown (StateM σ) (List String)) (world : σ) :
    ∃ words, (spared hook).run.run world = (.ok words, (hook.run.run world).2) := by
  unfold spared
  rw [ExceptT.run_mk, run_bind]
  cases (hook.run.run world).1 with
  | ok words => exact ⟨words, rfl⟩
  | error b => exact ⟨[], rfl⟩

theorem run_spared_of_ok {hook : ExceptT Breakdown (StateM σ) (List String)} {words : List String}
    {world world' : σ} (h : hook.run.run world = (.ok words, world')) :
    (spared hook).run.run world = (.ok words, world') := by
  unfold spared
  rw [ExceptT.run_mk, run_bind, h]
  rfl

/-- A monitor whose hooks are not seen by workers, whatever comes of any of them.  The hooks around
a session are written down. -/
structure Monitor.IsUnseen (view : σ → τ) (journal : σ → List HookCall) (s : Spec) (number : Nat)
    (monitor : Monitor (StateM σ)) : Prop where
  before : ∀ world, Notes view journal
    [.before number monitor.name ((monitor.before s).run.run world).1]
    world ((monitor.before s).run.run world).2
  after : ∀ fork output world, Notes view journal
    [.after number monitor.name ((monitor.after fork output).run.run world).1]
    world ((monitor.after fork output).run.run world).2
  launchPrefix : ∀ world, Notes view journal [] world ((monitor.launchPrefix s).run.run world).2
  launchArgs : ∀ world, Notes view journal [] world ((monitor.launchArgs s).run.run world).2

theorem Monitor.IsUnseen.isApart {number : Nat} {monitor : Monitor (StateM σ)}
    (h : monitor.IsUnseen view journal s number) :
    monitor.guarded.IsApart view journal s number where
  before := h.before
  after := h.after
  launchPrefix world := by
    obtain ⟨words, hrun⟩ := run_spared (monitor.launchPrefix s) world
    exact ⟨words, _, hrun, h.launchPrefix world⟩
  launchArgs world := by
    obtain ⟨words, hrun⟩ := run_spared (monitor.launchArgs s) world
    exact ⟨words, _, hrun, h.launchArgs world⟩

namespace Campaign

variable {c : Campaign (StateM σ)} {settings : Settings} {monitors : List (Monitor (StateM σ))}
  {world world₁ world₂ : σ} {b : Breakdown}

/-- The campaign with all hooks of its monitors guarded. -/
def guarded (c : Campaign (StateM σ)) : Campaign (StateM σ) :=
  { c with monitors := c.monitors.map Monitor.guarded }

/-- With all hooks guarded, monitors stand apart. -/
theorem isolated_guarded (h : c.bare.Isolated s view journal)
    (hmonitors : ∀ (number : Nat) (monitor : Monitor (StateM σ)),
      c.monitors[number]? = some monitor → monitor.IsUnseen view journal s number) :
    c.guarded.Isolated s view journal where
  named := h.named
  launcher := h.launcher
  start := h.start
  send := h.send
  receive := h.receive
  finish := h.finish
  monitors number monitor hmonitor := by
    have hmap : (c.monitors.map Monitor.guarded)[number]? = some monitor := hmonitor
    rw [List.getElem?_map] at hmap
    obtain ⟨unguarded, hunguarded, rfl⟩ := Option.map_eq_some_iff.1 hmap
    exact (hmonitors number unguarded hunguarded).isApart

/-! ### Hooks that break off -/

/-- One monitor after the other is asked through a hook that nothing guards, and in one of them it
breaks off. -/
inductive BreaksAt (hook : Monitor (StateM σ) → ExceptT Breakdown (StateM σ) (List String)) :
    List (Monitor (StateM σ)) → σ → Breakdown → Prop
  /-- It breaks off in the first. -/
  | here {monitor : Monitor (StateM σ)} {rest : List (Monitor (StateM σ))} {world world₁ : σ}
      {b : Breakdown} (breaks : (hook monitor).run.run world = (.error b, world₁)) :
      BreaksAt hook (monitor :: rest) world b
  /-- It breaks off later. -/
  | later {monitor : Monitor (StateM σ)} {rest : List (Monitor (StateM σ))} {world world₁ : σ}
      {words : List String} {b : Breakdown}
      (returns : (hook monitor).run.run world = (.ok words, world₁))
      (breaks : BreaksAt hook rest world₁ b) : BreaksAt hook (monitor :: rest) world b

section

variable {hook : Monitor (StateM σ) → ExceptT Breakdown (StateM σ) (List String)}

theorem run_contributions_cons {monitor : Monitor (StateM σ)} {words : List String}
    (h : (hook monitor).run.run world = (.ok words, world₁))
    (rest : List (Monitor (StateM σ))) :
    (contributions hook (monitor :: rest)).run.run world =
      (((contributions hook rest).run.run world₁).1.map (words ++ ·),
        ((contributions hook rest).run.run world₁).2) := by
  rw [contributions, run_lift_bind, h]
  dsimp only
  rw [ExceptT.run_bind, run_bind]
  cases ((contributions hook rest).run.run world₁).1 <;> rfl

theorem BreaksAt.run_contributions (h : BreaksAt hook monitors world b) :
    ∃ world', (contributions hook monitors).run.run world = (.error (.breakdown b), world') := by
  induction h with
  | @here monitor rest world world₁ b breaks =>
    refine ⟨world₁, ?_⟩
    rw [contributions, run_lift_bind, breaks]
    rfl
  | later returns breaks ih =>
    obtain ⟨world', hrest⟩ := ih
    refine ⟨world', ?_⟩
    rw [run_contributions_cons returns, hrest]
    rfl

/-- All hooks return, guarded or not, or one of them breaks off. -/
theorem contributions_cases
    (hook : Monitor (StateM σ) → ExceptT Breakdown (StateM σ) (List String))
    (hguarded : ∀ (monitor : Monitor (StateM σ)) (world world' : σ) (words : List String),
      (hook monitor).run.run world = (.ok words, world') →
        (hook monitor.guarded).run.run world = (.ok words, world'))
    (monitors : List (Monitor (StateM σ))) (world : σ) :
    (∃ b, BreaksAt hook monitors world b) ∨
    ∃ words world', (contributions hook monitors).run.run world = (.ok words, world') ∧
      (contributions hook (monitors.map Monitor.guarded)).run.run world = (.ok words, world') := by
  induction monitors generalizing world with
  | nil => exact .inr ⟨[], world, rfl, rfl⟩
  | cons monitor rest ih =>
    rcases hran : (hook monitor).run.run world with ⟨_ | words, world₁⟩
    · exact .inl ⟨_, .here hran⟩
    · rcases ih world₁ with ⟨b, hbreaks⟩ | ⟨more, world₂, hrest, hrest'⟩
      · exact .inl ⟨b, .later hran hbreaks⟩
      · refine .inr ⟨words ++ more, world₂, ?_, ?_⟩
        · rw [run_contributions_cons hran, hrest]
          rfl
        · rw [List.map_cons, run_contributions_cons (hguarded _ _ _ _ hran), hrest']
          rfl

end

/-- At the launch of a worker, with the monitors that have been started, a hook breaks off. -/
inductive LaunchBreaks (s : Spec) (monitors : List (Monitor (StateM σ))) (world : σ)
    (b : Breakdown) : Prop
  /-- It is one for what comes before the command. -/
  | launchPrefix {started : List (Monitor (StateM σ))} {warnings : List String} {world₁ : σ}
      (starts : (startMonitors s monitors).run world = ((started, warnings), world₁))
      (breaks : BreaksAt (·.launchPrefix s) started world₁ b)
  /-- It is one for the arguments. -/
  | launchArgs {started : List (Monitor (StateM σ))} {warnings words : List String}
      {world₁ world₂ : σ}
      (starts : (startMonitors s monitors).run world = ((started, warnings), world₁))
      (returns : (contributions (·.launchPrefix s) started).run.run world₁ = (.ok words, world₂))
      (breaks : BreaksAt (·.launchArgs s) started world₂ b)

/-! ### Forks -/

theorem run_startMonitors_guarded {started : List (Monitor (StateM σ))} {warnings : List String}
    (h : (startMonitors s monitors).run world = ((started, warnings), world₁)) :
    (startMonitors s (monitors.map Monitor.guarded)).run world =
      ((started.map Monitor.guarded, warnings), world₁) := by
  induction monitors generalizing world world₁ started warnings with
  | nil =>
    cases h
    rfl
  | cons monitor rest ih =>
    rcases hran : (monitor.before s).run.run world with ⟨outcome, world₂⟩
    rcases hrest : (startMonitors s rest).run world₂ with ⟨⟨started', warnings'⟩, world₃⟩
    have hran' : (monitor.guarded.before s).run.run world = (outcome, world₂) := hran
    rw [startMonitors, run_bind, hran] at h
    dsimp only at h
    rw [run_bind, hrest] at h
    rw [List.map_cons, startMonitors, run_bind, hran']
    dsimp only
    rw [run_bind, ih hrest]
    cases outcome with
    | ok _ =>
      cases h
      rfl
    | error e =>
      cases h
      rfl

theorem askMonitors_guarded (fork : ForkResult) (output : Output)
    (monitors : List (Monitor (StateM σ))) :
    askMonitors fork output (monitors.map Monitor.guarded) = askMonitors fork output monitors := by
  induction monitors with
  | nil => rfl
  | cons monitor rest ih =>
    rw [List.map_cons, askMonitors, askMonitors, ih]
    rfl

/-- The command of a worker at whose launch no hook breaks off. -/
theorem run_command_of_contributions {started : List (Monitor (StateM σ))}
    {before args : List String}
    (hbefore : (contributions (·.launchPrefix s) started).run.run world = (.ok before, world₁))
    (hargs : (contributions (·.launchArgs s) started).run.run world₁ = (.ok args, world₂)) :
    (c.command s started).run.run world = (.ok (s.launch.before.getD [] ++ before ++
      c.workerCommand ++ s.launch.args.getD [] ++ args ++ s.launch.after.getD []), world₂) := by
  rw [command, run_ok_bind hbefore, run_ok_bind hargs]
  rfl

/-- A fork at whose launch a hook breaks off comes to nothing else. -/
theorem LaunchBreaks.run_fork (h : LaunchBreaks s monitors world b) (c : Campaign (StateM σ))
    (settings : Settings) (index : UInt32) :
    ∃ world', (c.fork s settings index monitors).run.run world =
      (.error (.breakdown b), world') := by
  cases h with
  | launchPrefix starts breaks =>
    obtain ⟨world', hbreaks⟩ := breaks.run_contributions
    refine ⟨world', ?_⟩
    unfold fork
    rw [run_lift_bind, starts]
    exact run_error_bind (run_error_bind hbreaks _) _
  | launchArgs starts returns breaks =>
    obtain ⟨world', hbreaks⟩ := breaks.run_contributions
    refine ⟨world', ?_⟩
    unfold fork
    rw [run_lift_bind, starts]
    refine run_error_bind ?_ _
    rw [command, run_ok_bind returns]
    exact run_error_bind hbreaks _

/-- Without monitors no hook breaks off. -/
theorem not_launchBreaks_nil : ¬ LaunchBreaks s ([] : List (Monitor (StateM σ))) world b := by
  intro h
  cases h with
  | launchPrefix starts breaks =>
    cases starts
    cases breaks
  | launchArgs starts returns breaks =>
    cases starts
    cases breaks

theorem concludeFork_guarded (index : UInt32) (started : List (Monitor (StateM σ)))
    (warnings : List String) (result : Except SessionError (ForkResult × Output)) :
    concludeFork s index (started.map Monitor.guarded) warnings result =
      concludeFork s index started warnings result := by
  cases result with
  | ok measured =>
    rw [concludeFork, concludeFork, askMonitors_guarded]
  | error e => cases e <;> rfl

/-- After a session nothing breaks off any more. -/
theorem concludeFork_ne_breakdown (index : UInt32) (started : List (Monitor (StateM σ)))
    (warnings : List String) (result : Except SessionError (ForkResult × Output)) (world : σ)
    (b : Breakdown) :
    ((concludeFork s index started warnings result).run world).1 ≠ .error (.breakdown b) := by
  cases result with
  | ok measured => exact fun h => nomatch h
  | error e => cases e <;> exact fun h => nomatch h

/-- **A fork at whose launch no hook breaks off** comes to what it comes to with all hooks guarded,
and then nothing breaks off. -/
theorem fork_guarded (c : Campaign (StateM σ)) (s : Spec) (settings : Settings) (index : UInt32)
    (monitors : List (Monitor (StateM σ))) (world : σ) :
    (∃ b, LaunchBreaks s monitors world b) ∨
    ((c.fork s settings index (monitors.map Monitor.guarded)).run.run world =
        (c.fork s settings index monitors).run.run world ∧
      ∀ b, ((c.fork s settings index monitors).run.run world).1 ≠ .error (.breakdown b)) := by
  rcases hstarts : (startMonitors s monitors).run world with ⟨⟨started, warnings⟩, world₁⟩
  rcases contributions_cases (·.launchPrefix s) (fun _ _ _ _ => run_spared_of_ok) started world₁
    with ⟨b, hbreaks⟩ | ⟨before, world₂, hbefore, hbefore'⟩
  · exact .inl ⟨b, .launchPrefix hstarts hbreaks⟩
  rcases contributions_cases (·.launchArgs s) (fun _ _ _ _ => run_spared_of_ok) started world₂
    with ⟨b, hbreaks⟩ | ⟨args, world₃, hargs, hargs'⟩
  · exact .inl ⟨b, .launchArgs hstarts hbefore hbreaks⟩
  refine .inr ?_
  have hcommand := run_command_of_contributions (c := c) hbefore hargs
  have hcommand' := run_command_of_contributions (c := c) hbefore' hargs'
  generalize s.launch.before.getD [] ++ before ++ c.workerCommand ++ s.launch.args.getD [] ++
    args ++ s.launch.after.getD [] = command at hcommand hcommand'
  rcases hsession : (Supervisor.run c.launcher command c.probes s settings index).run.run world₃
    with ⟨result, world₄⟩
  rw [run_fork hstarts hcommand hsession,
    run_fork (run_startMonitors_guarded hstarts) hcommand' hsession, concludeFork_guarded]
  exact ⟨rfl, concludeFork_ne_breakdown index started warnings result world₄⟩

theorem Forked.guarded {findings : List Findings}
    (h : c.Forked s settings monitors world findings world₁) :
    c.guarded.Forked s settings (monitors.map Monitor.guarded) world findings world₁ := by
  induction h with
  | none => exact .none
  | @next done found world₁ world₂ before ran ih =>
    refine ih.next ?_
    rcases c.fork_guarded s settings (.ofNat done.length) monitors world₁ with
      ⟨b, hbreaks⟩ | ⟨hsame, -⟩
    · -- the fork has gone well, so nothing has broken off
      obtain ⟨world', hfails⟩ := hbreaks.run_fork c settings (.ofNat done.length)
      cases ran.symm.trans hfails
    · exact hsame.trans ran

/-! ### Trials -/

/-- In one of the forks of a trial that are measured, after others that have gone well, a hook
breaks off at the launch. -/
def Breaks (c : Campaign (StateM σ)) (s : Spec) (settings : Settings) (world : σ)
    (b : Breakdown) : Prop :=
  ∃ discarded world₁ done world₂, c.Forked s settings [] world discarded world₁ ∧
    discarded.length = s.discardedForks ∧ c.Forked s settings c.monitors world₁ done world₂ ∧
    done.length < s.measuredForks ∧ LaunchBreaks s c.monitors world₂ b

section

variable (hvalid : c.Validated s settings) (hforks : 0 < s.measuredForks)

include hvalid hforks

/-- A trial in which a hook breaks off at a launch ends with it. -/
theorem Breaks.run_trial (h : c.Breaks s settings world b) :
    ∃ world', (c.trial s).run.run world = (.error (.breakdown b), world') := by
  obtain ⟨discarded, world₁, done, world₂, hdiscarded, hall, hdone, hless, hbreaks⟩ := h
  obtain ⟨world', hfails⟩ := hbreaks.run_fork c settings (.ofNat done.length)
  exact ⟨world', (run_trial_error_iff hvalid hforks).2
    (.inr ⟨discarded, world₁, done, world₂, hdiscarded, hall, hdone, hless, hfails⟩)⟩

/-- A trial in which no hook breaks off at a launch is the trial with all hooks guarded, and
monitors stand apart from it. -/
theorem trial_guarded (h : c.guarded.Isolated s view journal)
    (hbreaks : ¬ ∃ b, c.Breaks s settings world b) :
    (c.trial s).run.run world = (c.guarded.trial s).run.run world ∧
    (∀ b, ((c.trial s).run.run world).1 ≠ .error (.breakdown b)) ∧
    ∃ calls, c.guarded.Isolates s settings view journal world calls := by
  rcases hran : (c.trial s).run.run world with ⟨_ | t, world'⟩
  · next e =>
    rcases (run_trial_error_iff hvalid hforks).1 hran with
      ⟨done, world₁, hdone, hless, hfails⟩ |
      ⟨discarded, world₁, done, world₂, hdiscarded, hall, hdone, hless, hfails⟩
    · -- a fork that is discarded has no monitors
      obtain ⟨hsame, hintact⟩ :=
        (c.fork_guarded s settings (.ofNat done.length) [] world₁).resolve_left
          fun ⟨_, hlaunch⟩ => not_launchBreaks_nil hlaunch
      have hran' := (run_trial_error_iff (c := c.guarded) hvalid hforks).2
        (.inl ⟨done, world₁, hdone.guarded, hless, hfails⟩)
      refine ⟨hran'.symm, ?_,
        [], isolates_of_not_discarded h hvalid hforks hdone.guarded hless hfails⟩
      rintro b ⟨⟩
      exact hintact b (congrArg Prod.fst hfails)
    · obtain ⟨hsame, hintact⟩ :=
        (c.fork_guarded s settings (.ofNat done.length) c.monitors world₂).resolve_left
          fun ⟨b, hlaunch⟩ => hbreaks
            ⟨b, discarded, world₁, done, world₂, hdiscarded, hall, hdone, hless, hlaunch⟩
      have hfails' := hsame.trans hfails
      have hran' := (run_trial_error_iff (c := c.guarded) hvalid hforks).2 (.inr ⟨discarded, world₁,
        done, world₂, hdiscarded.guarded, hall, hdone.guarded, hless, hfails'⟩)
      refine ⟨hran'.symm, ?_, isolates_of_not_measured h hvalid hforks hdiscarded.guarded hall
        hdone.guarded hless hfails'⟩
      rintro b ⟨⟩
      exact hintact b (congrArg Prod.fst hfails)
  · obtain ⟨discarded, world₁, measured, hdiscarded, hall, hmeasured, hall', rfl⟩ :=
      (run_trial_ok_iff hvalid hforks).1 hran
    have hran' := (run_trial_ok_iff (c := c.guarded) hvalid hforks).2
      ⟨discarded, world₁, measured, hdiscarded.guarded, hall, hmeasured.guarded, hall', rfl⟩
    refine ⟨hran'.symm, ?_,
      isolates_of_measured h hvalid hforks hdiscarded.guarded hall hmeasured.guarded hall'⟩
    rintro b ⟨⟩

end

/-- A trial that breaks off ends the campaign, whatever its specification says of failures. -/
theorem run_runInTurn_of_breakdown (h : (c.trial s).run.run world = (.error (.breakdown b), world₁))
    (rest : List Spec) :
    (c.runInTurn (s :: rest)).run world = (⟨.error (.breakdown b), []⟩, world₁) := by
  rw [runInTurn, run_bind, h]
  rfl

/-- What there is to be warned of in the result of a trial that has not broken off. -/
theorem warnings_of_settled {outcome : Except Halt TrialResult} {t : TrialResult}
    (hintact : ∀ b, outcome ≠ .error (.breakdown b)) (ht : settle s outcome = .ok t) :
    outcome = .ok t ∨ outcome.isOk = false ∧ t.warnings = [] := by
  cases outcome with
  | ok t' =>
    cases ht
    exact .inl rfl
  | error e =>
    cases e with
    | breakdown b => exact absurd rfl (hintact b)
    | error e =>
      unfold settle at ht
      dsimp only at ht
      split at ht
      · cases ht
      · cases ht
        exact .inr ⟨rfl, rfl⟩

/-- **What is not guarded takes everything with it.**  Workers see nothing of what the hooks of
monitors do, whatever comes of them.  A trial with measured forks breaks off exactly where, in one
of them, one of the two hooks breaks off that have a say in the command, and then the campaign ends
with it.  A trial in which none does comes to what it comes to with these hooks guarded as well:
what breaks off in another hook does not stand in its way, and if it has a result there is a
warning.  If it has none, the warnings are lost, also where the campaign goes on. -/
theorem trial_breaks (c : Campaign (StateM σ)) (h : c.bare.Isolated s view journal)
    (hmonitors : ∀ (number : Nat) (monitor : Monitor (StateM σ)),
      c.monitors[number]? = some monitor → monitor.IsUnseen view journal s number) :
    (∀ settings, c.Validated s settings → 0 < s.measuredForks → ∀ world,
      let ended := (c.trial s).run.run world
      (∀ b, ended.1 = .error (.breakdown b) ↔ c.Breaks s settings world b) ∧
      (∀ b rest, ended.1 = .error (.breakdown b) →
        ((c.runInTurn (s :: rest)).run world).1 = ⟨.error (.breakdown b), []⟩) ∧
      ((¬ ∃ b, c.Breaks s settings world b) →
        ended = (c.guarded.trial s).run.run world ∧
        ∃ calls, c.guarded.Isolates s settings view journal world calls ∧
          ∀ t, settle s ended.1 = .ok t → t.warnings =
            if ended.1.isOk then
              calls.flatten.filterMap HookCall.warning? ++ t.forks.flatMap (·.warnings)
            else [])) ∧
    ((¬ ∃ settings, c.Validated s settings) ∨ s.measuredForks = 0 → ∀ world,
      (c.trial s).run.run world = (c.bare.trial s).run.run world) := by
  have hguarded := isolated_guarded h hmonitors
  refine ⟨fun settings hvalid hforks world => ⟨fun b => ⟨fun hended => ?_, fun hbreaks => ?_⟩,
    fun b rest hended => ?_, fun hbreaks => ?_⟩, run_trial_bare⟩
  · by_cases hany : ∃ b', c.Breaks s settings world b'
    · obtain ⟨b', hbreaks⟩ := hany
      obtain ⟨world', hran⟩ := hbreaks.run_trial hvalid hforks
      obtain rfl : b' = b := by
        rw [hran] at hended
        cases hended
        rfl
      exact hbreaks
    · exact absurd hended ((trial_guarded hvalid hforks hguarded hany).2.1 b)
  · obtain ⟨world', hran⟩ := hbreaks.run_trial hvalid hforks
    exact congrArg Prod.fst hran
  · have hran := run_runInTurn_of_breakdown (Prod.ext hended rfl) rest
    exact congrArg Prod.fst hran
  · obtain ⟨hsame, hintact, calls, hisolates⟩ := trial_guarded hvalid hforks hguarded hbreaks
    refine ⟨hsame, calls, hisolates, fun t ht => ?_⟩
    rcases warnings_of_settled hintact ht with hok | ⟨hfailed, hnone⟩
    · rw [hok]
      exact (hisolates.succeeded t (hsame ▸ hok)).2.2.2
    · rw [hfailed]
      exact hnone

/-- A campaign with good workers and two monitors.  The hook of the first breaks off before every
launch, and the second is asked for arguments and breaks off. -/
def broken : Campaign (StateM (List HookCall)) :=
  { watched with
    monitors := [.noting 0 "first" (.error (.panicked "at once")) (.ok []),
      { Monitor.noting 1 "second" (.ok ()) (.ok []) with launchArgs := fun _ => throw ⟨"boom"⟩ }] }

/-- The first break-off is guarded, and the second ends the campaign in the first fork that is
measured. -/
theorem trial_breaks_broken :
    broken.bare.Isolated thrice (fun _ => ()) id ∧
    (∀ (number : Nat) (monitor : Monitor (StateM (List HookCall))),
      broken.monitors[number]? = some monitor →
        monitor.IsUnseen (fun _ => ()) id thrice number) ∧
    broken.Validated thrice thriceSettings ∧ 0 < thrice.measuredForks ∧
    ((broken.trial thrice).run.run []).1 = .error (.breakdown ⟨"boom"⟩) ∧
    ∀ rest, ((broken.runInTurn (thrice :: rest)).run []).1 =
      ⟨.error (.breakdown ⟨"boom"⟩), []⟩ := by
  have hisolated : broken.bare.Isolated thrice (fun _ => ()) id :=
    { isolated_watched with monitors := fun _ _ hnone => nomatch hnone }
  have hunseen : ∀ (number : Nat) (monitor : Monitor (StateM (List HookCall))),
      broken.monitors[number]? = some monitor →
        monitor.IsUnseen (fun _ => ()) id thrice number := by
    intro number monitor hmonitor
    match number, hmonitor with
    | 0, hmonitor =>
      cases hmonitor
      exact ⟨fun _ => ⟨rfl, rfl⟩, fun _ _ _ => ⟨rfl, rfl⟩, fun calls => .refl calls,
        fun calls => .refl calls⟩
    | 1, hmonitor =>
      cases hmonitor
      exact ⟨fun _ => ⟨rfl, rfl⟩, fun _ _ _ => ⟨rfl, rfl⟩, fun calls => .refl calls,
        fun calls => .refl calls⟩
  have hvalid : broken.Validated thrice thriceSettings := ⟨_, rfl, rfl⟩
  have hforks : 0 < thrice.measuredForks := by decide
  -- the fork that is discarded has no monitors, and the next one is the first that is measured
  have hdiscarded : broken.Forked thrice thriceSettings [] [] [diligentFindings 0] [] :=
    Forked.none.next (run_fork_thrice (c := broken) (List.cons_ne_nil _ _) 0 [])
  have hbreaks : broken.Breaks thrice thriceSettings [] ⟨"boom"⟩ :=
    ⟨_, [], [], [], hdiscarded, rfl, .none, hforks, .launchArgs rfl rfl (.here rfl)⟩
  obtain ⟨hended, hcampaign, -⟩ :=
    (trial_breaks broken hisolated hunseen).1 thriceSettings hvalid hforks []
  have hbroken := (hended _).2 hbreaks
  exact ⟨hisolated, hunseen, hvalid, hforks, hbroken, fun rest => hcampaign _ rest hbroken⟩

end Campaign

end Microbench
