import Microbench.Proofs.Session.Collecting

/-!
# A trial is pooled as a whole

A trial runs its forks one after the other, first those that are discarded and then those
that are measured, and stops at the first that fails.  Only when all have gone well there
is something to pool, and then it is what all measured forks have measured and nothing
else.  A campaign that does not mind the failure of a trial writes down that it has failed
and goes on as if nothing had happened.

## Main definitions

* `Campaign.Forked` — forks that have gone well, one after the other.
* `Campaign.poolAfter` — a trial whose discarded forks are those of another campaign.
* `Campaign.Pools` — what is promised of a trial.
* `Campaign.Recorded` — trials that have been written down, one after the other.

## Main results

* `Campaign.run_forks_of_forked`, `Campaign.run_forks_cases` — so many forks are run.
* `Campaign.pools_of_validated` — all that is promised holds.
* `Campaign.run_of_recorded` — a campaign goes on.
* `Campaign.trial_pools_wholly` — **a trial is pooled completely or not at all.**
-/

namespace Microbench

/-! ### How many forks there are -/

def Spec.measuredForks (s : Spec) : Nat := (s.forks.getD Settings.defaultForks).toNat

def Spec.discardedForks (s : Spec) : Nat := (s.warmupForks.getD Settings.defaultWarmupForks).toNat

theorem forks_of_resolve {s : Spec} {d : Declaration} {settings : Settings}
    (h : Settings.resolve s d = .ok settings) :
    settings.forks.toNat = s.measuredForks ∧ settings.warmupForks.toNat = s.discardedForks := by
  obtain ⟨-, rfl⟩ := Settings.resolve_eq_ok_iff.1 h
  exact ⟨rfl, rfl⟩

/-- A trial is run right here exactly when no fork is to be measured. -/
theorem forks_eq_zero_iff_of_resolve {s : Spec} {d : Declaration} {settings : Settings}
    (h : Settings.resolve s d = .ok settings) : settings.forks = 0 ↔ s.measuredForks = 0 := by
  rw [← UInt32.toNat_inj, (forks_of_resolve h).1]
  rfl

namespace Campaign

variable {σ : Type} {c : Campaign (StateM σ)} {s : Spec} {settings : Settings}
  {monitors : List (Monitor (StateM σ))} {world world₁ : σ}

/-! ### One fork after the other -/

/-- These forks have gone well, one after the other from the first on. -/
inductive Forked (c : Campaign (StateM σ)) (s : Spec) (settings : Settings)
    (monitors : List (Monitor (StateM σ))) (world : σ) : List Findings → σ → Prop
  /-- There has been none yet. -/
  | none : Forked c s settings monitors world [] world
  /-- The next one goes well. -/
  | next {done : List Findings} {found : Findings} {world₁ world₂ : σ}
      (before : Forked c s settings monitors world done world₁)
      (ran : (c.fork s settings (.ofNat done.length) monitors).run.run world₁ =
        (.ok found, world₂)) :
      Forked c s settings monitors world (done ++ [found]) world₂

/-- Where forks have gone well, running so many and some more is running the others. -/
theorem run_forks_of_forked {done : List Findings}
    (h : c.Forked s settings monitors world done world₁) (more : Nat) :
    (c.forks s settings monitors (done.length + more) 0).run.run world =
      (((c.forks s settings monitors more done.length).run.run world₁).1.map (done ++ ·),
        ((c.forks s settings monitors more done.length).run.run world₁).2) := by
  induction h generalizing more with
  | none =>
    rw [List.length_nil, Nat.zero_add]
    rcases (c.forks s settings monitors more 0).run.run world with ⟨_ | _, _⟩ <;> rfl
  | @next done found world₁ world₂ before ran ih =>
    -- running one more from before this fork is running it and then the others
    have hlength : (done ++ [found]).length = done.length + 1 := by simp
    have hstep : (c.forks s settings monitors (more + 1) done.length).run.run world₁ =
        (((c.forks s settings monitors more (done.length + 1)).run.run world₂).1.map (found :: ·),
          ((c.forks s settings monitors more (done.length + 1)).run.run world₂).2) := by
      rw [forks, run_ok_bind ran, ExceptT.run_bind, run_bind]
      cases ((c.forks s settings monitors more (done.length + 1)).run.run world₂).1 <;> rfl
    rw [hlength, Nat.add_right_comm, Nat.add_assoc, ih (more + 1), hstep]
    cases ((c.forks s settings monitors more (done.length + 1)).run.run world₂).1 with
    | ok others => simp [Except.map]
    | error e => rfl

/-- When some more forks are run all go well, or one is the first that fails. -/
theorem run_forks_cases {done : List Findings}
    (h : c.Forked s settings monitors world done world₁) (more : Nat) :
    (∃ others world', (c.forks s settings monitors more done.length).run.run world₁ =
        (.ok others, world') ∧ others.length = more ∧
      c.Forked s settings monitors world (done ++ others) world') ∨
    ∃ e world' others world₂, (c.forks s settings monitors more done.length).run.run world₁ =
        (.error e, world') ∧ others.length < more ∧
      c.Forked s settings monitors world (done ++ others) world₂ ∧
      (c.fork s settings (.ofNat (done ++ others).length) monitors).run.run world₂ =
        (.error e, world') := by
  induction more generalizing done world₁ with
  | zero =>
    refine .inl ⟨[], world₁, rfl, rfl, ?_⟩
    rwa [List.append_nil]
  | succ more ih =>
    rcases hfirst : (c.fork s settings (.ofNat done.length) monitors).run.run world₁ with
      ⟨_ | found, world₂⟩
    · next e =>
      -- the next one is the first that fails
      refine .inr ⟨e, world₂, [], world₁, ?_, Nat.succ_pos more, ?_, ?_⟩
      · rw [forks]
        exact run_error_bind hfirst _
      · rwa [List.append_nil]
      · rwa [List.append_nil]
    · have hnext := h.next hfirst
      have hlength : (done ++ [found]).length = done.length + 1 := by simp
      have happend (others : List Findings) : done ++ [found] ++ others = done ++ found :: others :=
        by simp
      rcases ih hnext with ⟨others, world', hrun, hothers, hforked⟩ |
        ⟨e, world', others, world₃, hrun, hothers, hforked, hfails⟩
      · refine .inl ⟨found :: others, world', ?_, by simpa using hothers, happend others ▸ hforked⟩
        rw [hlength] at hrun
        rw [forks, run_ok_bind hfirst]
        exact (run_ok_bind hrun _).trans rfl
      · refine .inr ⟨e, world', found :: others, world₃, ?_, by simpa using hothers,
          happend others ▸ hforked, happend others ▸ hfails⟩
        rw [hlength] at hrun
        rw [forks, run_ok_bind hfirst]
        exact run_error_bind hrun _

/-- So many forks go well exactly when one goes well after the other. -/
theorem run_forks_ok_iff {n : Nat} {findings : List Findings} {world' : σ} :
    (c.forks s settings monitors n 0).run.run world = (.ok findings, world') ↔
      c.Forked s settings monitors world findings world' ∧ findings.length = n := by
  constructor
  · intro h
    have hnone : c.Forked s settings monitors world [] world := .none
    rcases run_forks_cases hnone n with ⟨others, world'', hrun, hlength, hforked⟩ |
        ⟨e, world'', others, world₂, hrun, -⟩
    · cases hrun.symm.trans h
      exact ⟨hforked, hlength⟩
    · cases hrun.symm.trans h
  · rintro ⟨h, rfl⟩
    have hrun := run_forks_of_forked h 0
    rw [Nat.add_zero] at hrun
    rw [hrun, forks]
    show (Except.ok (findings ++ []), world') = _
    rw [List.append_nil]

/-- So many forks fail exactly when one fails after the others before it have gone well. -/
theorem run_forks_error_iff {n : Nat} {e : Halt} {world' : σ} :
    (c.forks s settings monitors n 0).run.run world = (.error e, world') ↔
      ∃ done world₁, c.Forked s settings monitors world done world₁ ∧ done.length < n ∧
        (c.fork s settings (.ofNat done.length) monitors).run.run world₁ = (.error e, world') := by
  constructor
  · intro h
    have hnone : c.Forked s settings monitors world [] world := .none
    rcases run_forks_cases hnone n with ⟨others, world'', hrun, -⟩ |
        ⟨e', world'', others, world₂, hrun, hlength, hforked, hfails⟩
    · cases hrun.symm.trans h
    · cases hrun.symm.trans h
      exact ⟨others, world₂, hforked, hlength, hfails⟩
  · rintro ⟨done, world₁, h, hlength, hfails⟩
    obtain ⟨more, rfl⟩ : ∃ more, n = done.length + (more + 1) := ⟨n - done.length - 1, by omega⟩
    have hrun : (c.forks s settings monitors (more + 1) done.length).run.run world₁ =
        (.error e, world') := by
      rw [forks]
      exact run_error_bind hfails _
    rw [run_forks_of_forked h, hrun]
    rfl

/-! ### What a fork is made of -/

theorem fork_ok (index : UInt32) :
    Ensures (c.fork s settings index monitors) fun found => ∃ pid reports,
      Supervisor.InTurn settings 0 reports ∧ reports.length = settings.iterations.toNat ∧
        found.fork = .ofReports index pid reports := by
  refine Ensures.trivial.bind fun x _ => ?_
  obtain ⟨started, before⟩ := x
  refine Ensures.trivial.bind fun command _ => ?_
  have hsession := Supervisor.run_ok (l := c.launcher) (s := settings) command c.probes s index
  refine (Ensures.lift hsession).bind fun result hresult => ?_
  split
  · exact Ensures.throw
  · exact Ensures.throw
  · next fork output =>
    refine Ensures.trivial.bind fun x _ => Ensures.pure ?_
    exact hresult (fork, output) rfl

/-- The forks that have gone well are made of reports that have come in their turn. -/
theorem Forked.made {findings : List Findings} {world' : σ}
    (h : c.Forked s settings monitors world findings world') :
    ∀ found ∈ findings, ∃ index pid reports, Supervisor.InTurn settings 0 reports ∧
      reports.length = settings.iterations.toNat ∧ found.fork = .ofReports index pid reports := by
  induction h with
  | none => exact List.forall_mem_nil _
  | @next done found world₁ world₂ before ran ih =>
    refine List.forall_mem_append.2 ⟨ih, List.forall_mem_singleton.2 ?_⟩
    exact ⟨.ofNat done.length, fork_ok _ world₁ found (congrArg Prod.fst ran)⟩

/-- The forks that have gone well are counted from zero, and each has measured all iterations. -/
theorem Forked.forks_eq {findings : List Findings} {world' : σ}
    (h : c.Forked s settings monitors world findings world') :
    findings.map (·.fork.index) = (List.range findings.length).map UInt32.ofNat ∧
      (settings.total ≤ Whole.max32 → ∀ found ∈ findings,
        found.fork.iterations.length = settings.measurement.count.toNat) := by
  refine ⟨?_, fun hfits found hfound => ?_⟩
  · induction h with
    | none => rfl
    | @next done found world₁ world₂ before ran ih =>
      obtain ⟨pid, reports, -, -, hfork⟩ :=
        fork_ok (.ofNat done.length) world₁ found (congrArg Prod.fst ran)
      rw [List.map_append, ih, List.length_append, List.length_singleton, List.range_succ,
        List.map_append, List.map_singleton, List.map_singleton, hfork]
      rfl
  · obtain ⟨index, pid, reports, hturn, hcount, hfork⟩ := h.made found hfound
    have hall : reports.length = settings.total := by
      rw [hcount, Settings.toNat_iterations hfits]
    rw [hfork, Supervisor.iterations_ofReports hturn hall, List.length_map, List.length_drop, hall,
      Settings.total, Nat.add_sub_cancel_left]

/-! ### Trials -/

/-- The task of a specification is registered, and this is what it settles. -/
def Validated (c : Campaign (StateM σ)) (s : Spec) (settings : Settings) : Prop :=
  ∃ entry, c.registry.get? s.name = some entry ∧ Settings.resolve s entry.declaration = .ok settings

theorem Validated.forks_eq (h : c.Validated s settings) :
    settings.forks.toNat = s.measuredForks ∧ settings.warmupForks.toNat = s.discardedForks := by
  obtain ⟨entry, -, hsettings⟩ := h
  exact forks_of_resolve hsettings

/-- What a campaign makes something of is validated. -/
theorem validated_of_run_validate {entry : TaskEntry (StateM σ)} {world' : σ}
    (h : (c.validate s).run.run world = (.ok (entry, settings), world')) :
    c.Validated s settings := by
  rw [validate] at h
  cases hentry : c.registry.get? s.name with
  | none =>
    rw [hentry] at h
    cases h
  | some found =>
    rw [hentry] at h
    dsimp only at h
    cases hsettings : Settings.resolve s found.declaration with
    | error e =>
      rw [hsettings] at h
      cases h
    | ok resolved =>
      rw [hsettings] at h
      cases h
      exact ⟨entry, hentry, hsettings⟩

/-- A trial that has so many discarded forks, which are those of another campaign. -/
def poolAfter {m : Type → Type} [Monad m] (c d : Campaign m) (discarded : Nat) (s : Spec)
    (settings : Settings) : Run m TrialResult := do
  let _ ← d.forks s settings [] discarded 0
  let findings ← c.forks s settings c.monitors settings.forks.toNat 0
  return .pooled s (findings.map (·.fork)) (findings.flatMap (·.found))
    (findings.flatMap (·.warnings))

/-- A trial that can be run does so. -/
theorem run_trial_of_validated (hvalid : c.Validated s settings) (hforks : 0 < s.measuredForks)
    (world : σ) : (c.trial s).run.run world =
      (c.poolAfter c settings.warmupForks.toNat s settings).run.run world := by
  obtain ⟨entry, hentry, hsettings⟩ := hvalid
  have hsome : ¬ settings.forks = 0 :=
    (forks_eq_zero_iff_of_resolve hsettings).not.2 (Nat.ne_of_gt hforks)
  rw [trial, run_ok_bind (run_validate hentry hsettings world)]
  dsimp only
  rw [if_neg hsome]
  rfl

/-- A trial that cannot be run says why and leaves everything as it is. -/
theorem run_trial_of_not_validated (h : ¬ ∃ settings, c.Validated s settings) :
    ∃ message, ∀ world,
      (c.trial s).run.run world = (.error (.error (.configuration s.label message)), world) := by
  cases hentry : c.registry.get? s.name with
  | none =>
    refine ⟨unknownTaskMessage s.name, fun world => ?_⟩
    have hvalidate : (c.validate s).run.run world =
        (.error (.error (.configuration s.label (unknownTaskMessage s.name))), world) := by
      rw [validate, hentry]
      rfl
    exact run_error_bind hvalidate _
  | some entry =>
    cases hsettings : Settings.resolve s entry.declaration with
    | ok settings => exact absurd ⟨settings, entry, hentry, hsettings⟩ h
    | error e =>
      refine ⟨e.message, fun world => ?_⟩
      have hvalidate : (c.validate s).run.run world =
          (.error (.error (.configuration s.label e.message)), world) := by
        rw [validate, hentry]
        dsimp only
        rw [hsettings]
        rfl
      exact run_error_bind hvalidate _

/-- The result of a trial whose measured forks have found this. -/
def resultOf (s : Spec) (measured : List Findings) : TrialResult :=
  .pooled s (measured.map (·.fork)) (measured.flatMap (·.found)) (measured.flatMap (·.warnings))

section

variable {d : Campaign (StateM σ)} {discarded : List Findings}

/-- Where the discarded forks have gone well the measured ones are run. -/
theorem run_poolAfter (h : d.Forked s settings [] world discarded world₁) :
    (c.poolAfter d discarded.length s settings).run.run world =
      (((c.forks s settings c.monitors settings.forks.toNat 0).run.run world₁).1.map (resultOf s),
        ((c.forks s settings c.monitors settings.forks.toNat 0).run.run world₁).2) := by
  have hrun := run_forks_ok_iff.2 ⟨h, rfl⟩
  rw [poolAfter, run_ok_bind hrun, ExceptT.run_bind, run_bind]
  rcases (c.forks s settings c.monitors settings.forks.toNat 0).run.run world₁ with ⟨_ | _, _⟩ <;>
    rfl

theorem run_poolAfter_error (n : Nat) {e : Halt} {world' : σ}
    (h : (d.forks s settings [] n 0).run.run world = (.error e, world')) :
    (c.poolAfter d n s settings).run.run world = (.error e, world') := run_error_bind h _

end

/-! ### What does not matter -/

section

variable {g : Report → IterationResult}

/-- What warmup iterations are said to have measured is not looked at. -/
theorem fork_remeasured (hg : ∀ r, r.phase = .measurement → g r = r.result) (index : UInt32)
    (monitors : List (Monitor (StateM σ))) :
    ({ c with launcher := c.launcher.remeasured g }).fork s settings index monitors =
      c.fork s settings index monitors := by
  have hhides : Supervisor.Hides (id : ForkResult → ForkResult) g := by
    rintro fork fork' r (rfl : fork = fork')
    exact ForkResult.addReport_remeasured hg fork r
  have hsession (command : List String) :=
    Supervisor.run_remeasured (l := c.launcher) (s := settings) hhides command c.probes s index
  simp only [Prod.map_id, id_map] at hsession
  unfold fork
  simp only [hsession]
  rfl

/-- How a fork without monitors ends, when what it has measured is not looked at. -/
def endOf {m : Type → Type} [Monad m] (s : Spec) (index : UInt32) :
    Except SessionError (Unit × Output) → Run m Unit
  | .ok _ => pure ()
  | .error (.process f) => fail (.process s.label index f)
  | .error (.reported f) => fail (.reported s.label f)

theorem discard_fork (index : UInt32) :
    (fun _ => ()) <$> c.fork s settings index [] = c.command s [] >>= fun command =>
      ExceptT.lift (Prod.map (fun _ => ()) id <$>
        Supervisor.run c.launcher command c.probes s settings index).run >>= endOf s index := by
  refine ExceptT.ext (StateT.ext fun world => ?_)
  have hstarted : (startMonitors s ([] : List (Monitor (StateM σ)))).run world =
      (([], []), world) := rfl
  rw [ExceptT.run_map, run_map]
  unfold fork
  rw [run_lift_bind, hstarted]
  dsimp only
  rcases hcommand : (c.command s []).run.run world with ⟨_ | command, world₁⟩
  · rw [run_error_bind hcommand, run_error_bind hcommand]
    rfl
  · rw [run_ok_bind hcommand, run_ok_bind hcommand, run_lift_bind, run_lift_bind, ExceptT.run_map,
      run_map]
    rcases (Supervisor.run c.launcher command c.probes s settings index).run.run world₁ with
      ⟨result, world₂⟩
    cases result with
    | ok x => rfl
    | error e => cases e <;> rfl

/-- Of discarded forks it is not looked at what any iteration is said to have measured. -/
theorem discard_forks_remeasured (g : Report → IterationResult) (n index : Nat) :
    (fun _ => ()) <$>
        ({ c with launcher := c.launcher.remeasured g }).forks s settings [] n index =
      (fun _ => ()) <$> c.forks s settings [] n index := by
  have hhides : Supervisor.Hides (fun _ : ForkResult => ()) g := fun _ _ _ _ => rfl
  have hfork (index : UInt32) :
      (fun _ => ()) <$> ({ c with launcher := c.launcher.remeasured g }).fork s settings index [] =
        (fun _ => ()) <$> c.fork s settings index [] := by
    rw [discard_fork, discard_fork]
    refine bind_congr fun command => ?_
    exact congrArg (fun x => ExceptT.lift x.run >>= endOf s index)
      (Supervisor.run_remeasured (l := c.launcher) (s := settings) hhides command c.probes s index)
  induction n generalizing index with
  | zero => rfl
  | succ n ih =>
    have hstep (c' : Campaign (StateM σ)) : (fun _ => ()) <$> c'.forks s settings [] (n + 1) index =
        ((fun _ => ()) <$> c'.fork s settings (.ofNat index) []) >>= fun _ =>
          (fun _ => ()) <$> c'.forks s settings [] n (index + 1) := by
      rw [forks, map_bind, bind_map_left]
      refine bind_congr fun first => ?_
      rw [map_bind]
      exact bind_pure_comp _ _
    rw [hstep, hstep, hfork, ih]

theorem poolAfter_remeasured (g : Report → IterationResult) (n : Nat) :
    c.poolAfter { c with launcher := c.launcher.remeasured g } n s settings =
      c.poolAfter c n s settings := by
  have hdiscard (d : Campaign (StateM σ)) : c.poolAfter d n s settings =
      ((fun _ => ()) <$> d.forks s settings [] n 0) >>= fun _ => do
        let findings ← c.forks s settings c.monitors settings.forks.toNat 0
        return .pooled s (findings.map (·.fork)) (findings.flatMap (·.found))
          (findings.flatMap (·.warnings)) := by
    rw [bind_map_left]
    rfl
  rw [hdiscard, hdiscard, discard_forks_remeasured]

theorem forks_remeasured (hg : ∀ r, r.phase = .measurement → g r = r.result)
    (monitors : List (Monitor (StateM σ))) (n index : Nat) :
    ({ c with launcher := c.launcher.remeasured g }).forks s settings monitors n index =
      c.forks s settings monitors n index := by
  induction n generalizing index with
  | zero => rfl
  | succ n ih => rw [forks, forks, fork_remeasured hg, ih]

/-- What warmup iterations are said to have measured is not looked at in a whole trial. -/
theorem trial_remeasured (hg : ∀ r, r.phase = .measurement → g r = r.result)
    (hvalid : c.Validated s settings) (hforks : 0 < s.measuredForks) (world : σ) :
    (({ c with launcher := c.launcher.remeasured g }).trial s).run.run world =
      (c.trial s).run.run world := by
  have hvalid' : ({ c with launcher := c.launcher.remeasured g }).Validated s settings := hvalid
  rw [run_trial_of_validated hvalid' hforks, run_trial_of_validated hvalid hforks]
  unfold poolAfter
  rw [forks_remeasured hg, forks_remeasured hg]

end

/-! ### What is promised -/

/-- What is promised of a trial with these settings. -/
structure Pools (c : Campaign (StateM σ)) (s : Spec) (settings : Settings) : Prop where
  /-- There is a result exactly when all discarded and then all measured forks go well, and it is
  made of what the measured ones have found. -/
  succeeds : ∀ world t world', (c.trial s).run.run world = (.ok t, world') ↔
    ∃ discarded world₁ measured, c.Forked s settings [] world discarded world₁ ∧
      discarded.length = s.discardedForks ∧
      c.Forked s settings c.monitors world₁ measured world' ∧
      measured.length = s.measuredForks ∧ t = resultOf s measured
  /-- It has all measured forks with all their iterations, and pools exactly these. -/
  whole : ∀ world t world', (c.trial s).run.run world = (.ok t, world') →
    t.forks.map (·.index.toNat) = List.range s.measuredForks ∧
    (s.warmups + s.measurements ≤ Whole.max32 →
      ∀ fork ∈ t.forks, fork.iterations.length = s.measurements) ∧
    t.totals = .ofIterations (t.forks.flatMap (·.iterations)) ∧ t.failure = none
  /-- The trial fails exactly as the first fork fails that does; no other one is run after it. -/
  fails : ∀ world e world', (c.trial s).run.run world = (.error e, world') ↔
    (∃ done world₁, c.Forked s settings [] world done world₁ ∧
      done.length < s.discardedForks ∧
      (c.fork s settings (.ofNat done.length) []).run.run world₁ = (.error e, world')) ∨
    ∃ discarded world₁ done world₂, c.Forked s settings [] world discarded world₁ ∧
      discarded.length = s.discardedForks ∧
      c.Forked s settings c.monitors world₁ done world₂ ∧ done.length < s.measuredForks ∧
      (c.fork s settings (.ofNat done.length) c.monitors).run.run world₂ = (.error e, world')
  /-- Whichever forks are discarded, and however many, as long as they go well: the trial comes to
  the same if it goes on from the same world. -/
  anyForks : ∀ (d : Campaign (StateM σ)) others world₀ discarded world world₁,
    d.Forked s settings [] world₀ others world₁ → c.Forked s settings [] world discarded world₁ →
    discarded.length = s.discardedForks →
    (c.poolAfter d others.length s settings).run.run world₀ = (c.trial s).run.run world
  /-- Whatever discarded forks are said to have measured, the trial comes to the same. -/
  anyDiscarded : ∀ g world,
    (c.poolAfter { c with launcher := c.launcher.remeasured g } s.discardedForks s
      settings).run.run world = (c.trial s).run.run world
  /-- Whatever warmup iterations are said to have measured, the trial comes to the same. -/
  anyWarmup : ∀ g, (∀ r, r.phase = .measurement → g r = r.result) → ∀ world,
    (({ c with launcher := c.launcher.remeasured g }).trial s).run.run world =
      (c.trial s).run.run world

section

variable (hvalid : c.Validated s settings) (hforks : 0 < s.measuredForks)

include hvalid hforks

theorem run_trial_of_discarded {discarded : List Findings}
    (h : c.Forked s settings [] world discarded world₁)
    (hall : discarded.length = s.discardedForks) :
    (c.trial s).run.run world =
      (((c.forks s settings c.monitors s.measuredForks 0).run.run world₁).1.map (resultOf s),
        ((c.forks s settings c.monitors s.measuredForks 0).run.run world₁).2) := by
  obtain ⟨hmeasured, hdiscarded⟩ := hvalid.forks_eq
  rw [run_trial_of_validated hvalid hforks, hdiscarded, ← hall, run_poolAfter h, hmeasured]

theorem run_trial_of_not_discarded {e : Halt}
    (h : (c.forks s settings [] s.discardedForks 0).run.run world = (.error e, world₁)) :
    (c.trial s).run.run world = (.error e, world₁) := by
  rw [run_trial_of_validated hvalid hforks, hvalid.forks_eq.2]
  exact run_poolAfter_error _ h

theorem run_trial_ok_iff {t : TrialResult} {world' : σ} :
    (c.trial s).run.run world = (.ok t, world') ↔
      ∃ discarded world₁ measured, c.Forked s settings [] world discarded world₁ ∧
        discarded.length = s.discardedForks ∧
        c.Forked s settings c.monitors world₁ measured world' ∧
        measured.length = s.measuredForks ∧ t = resultOf s measured := by
  constructor
  · intro h
    -- with a result neither the discarded forks nor the measured ones can have failed
    rcases hdiscard : (c.forks s settings [] s.discardedForks 0).run.run world with
      ⟨_ | discarded, world₁⟩
    · cases h.symm.trans (run_trial_of_not_discarded hvalid hforks hdiscard)
    · obtain ⟨hforked, hall⟩ := run_forks_ok_iff.1 hdiscard
      rw [run_trial_of_discarded hvalid hforks hforked hall] at h
      rcases hmeasure : (c.forks s settings c.monitors s.measuredForks 0).run.run world₁ with
        ⟨_ | measured, world₂⟩
      · rw [hmeasure] at h
        cases h
      · rw [hmeasure] at h
        cases h
        obtain ⟨hforked', hall'⟩ := run_forks_ok_iff.1 hmeasure
        exact ⟨discarded, world₁, measured, hforked, hall, hforked', hall', rfl⟩
  · rintro ⟨discarded, world₁, measured, hforked, hall, hforked', hall', rfl⟩
    rw [run_trial_of_discarded hvalid hforks hforked hall,
      run_forks_ok_iff.2 ⟨hforked', hall'⟩]
    rfl

theorem run_trial_error_iff {e : Halt} {world' : σ} :
    (c.trial s).run.run world = (.error e, world') ↔
      (∃ done world₁, c.Forked s settings [] world done world₁ ∧
        done.length < s.discardedForks ∧
        (c.fork s settings (.ofNat done.length) []).run.run world₁ = (.error e, world')) ∨
      ∃ discarded world₁ done world₂, c.Forked s settings [] world discarded world₁ ∧
        discarded.length = s.discardedForks ∧
        c.Forked s settings c.monitors world₁ done world₂ ∧ done.length < s.measuredForks ∧
        (c.fork s settings (.ofNat done.length) c.monitors).run.run world₂ =
          (.error e, world') := by
  constructor
  · intro h
    rcases hdiscard : (c.forks s settings [] s.discardedForks 0).run.run world with
      ⟨_ | discarded, world₁⟩
    · -- one of the discarded forks is the first that fails
      cases h.symm.trans (run_trial_of_not_discarded hvalid hforks hdiscard)
      exact .inl (run_forks_error_iff.1 hdiscard)
    · -- all of them go well, so it is one of the measured ones
      obtain ⟨hforked, hall⟩ := run_forks_ok_iff.1 hdiscard
      rw [run_trial_of_discarded hvalid hforks hforked hall] at h
      rcases hmeasure : (c.forks s settings c.monitors s.measuredForks 0).run.run world₁ with
        ⟨_ | measured, world₂⟩
      · rw [hmeasure] at h
        cases h
        obtain ⟨done, world₂, hfirst⟩ := run_forks_error_iff.1 hmeasure
        exact .inr ⟨discarded, world₁, done, world₂, hforked, hall, hfirst⟩
      · rw [hmeasure] at h
        cases h
  · rintro (hfirst | ⟨discarded, world₁, done, world₂, hforked, hall, hfirst⟩)
    · obtain ⟨done, world₁, hrest⟩ := hfirst
      exact run_trial_of_not_discarded hvalid hforks (run_forks_error_iff.2 ⟨done, world₁, hrest⟩)
    · rw [run_trial_of_discarded hvalid hforks hforked hall,
        run_forks_error_iff.2 ⟨done, world₂, hfirst⟩]
      rfl

/-- A result has all measured forks with all their iterations. -/
theorem forks_of_run_trial {t : TrialResult} {world' : σ}
    (h : (c.trial s).run.run world = (.ok t, world')) :
    t.forks.map (·.index.toNat) = List.range s.measuredForks ∧
      (s.warmups + s.measurements ≤ Whole.max32 →
        ∀ fork ∈ t.forks, fork.iterations.length = s.measurements) := by
  obtain ⟨discarded, world₁, measured, -, -, hforked, hall, rfl⟩ :=
    (run_trial_ok_iff hvalid hforks).1 h
  obtain ⟨entry, -, hsettings⟩ := hvalid
  obtain ⟨hindices, hlengths⟩ := hforked.forks_eq
  have hlt : s.measuredForks < UInt32.size := UInt32.toNat_lt_size _
  refine ⟨?_, fun hcount fork hfork => ?_⟩
  · -- the numbers are small enough to be read back from 32 bits
    have hnumbers := congrArg (List.map UInt32.toNat) hindices
    rw [hall, List.map_map, List.map_map] at hnumbers
    refine List.map_map.trans (hnumbers.trans ?_)
    refine (List.map_congr_left fun i hi => ?_).trans (List.map_id _)
    exact UInt32.toNat_ofNat_of_lt' (Nat.lt_trans (List.mem_range.1 hi) hlt)
  · obtain ⟨found, hfound, rfl⟩ := List.mem_map.1 hfork
    obtain ⟨-, -, hmeasurement⟩ := resolve_ok hsettings
    rw [← hmeasurement]
    refine hlengths ?_ found hfound
    rw [(schedule_of_resolve hsettings).2]
    exact hcount

/-- **All that is promised holds** of a trial that can be run. -/
theorem pools_of_validated : c.Pools s settings where
  succeeds _ _ _ := run_trial_ok_iff hvalid hforks
  whole world t world' h := by
    obtain ⟨hindices, hlengths⟩ := forks_of_run_trial hvalid hforks h
    obtain ⟨-, -, measured, -, -, -, -, ht⟩ := (run_trial_ok_iff hvalid hforks).1 h
    refine ⟨hindices, hlengths, ?_, ?_⟩
    · rw [ht]
      rfl
    · rw [ht]
      rfl
  fails _ _ _ := run_trial_error_iff hvalid hforks
  anyForks d others world₀ discarded world world₁ hothers hforked hall := by
    rw [run_poolAfter hothers, run_trial_of_discarded hvalid hforks hforked hall,
      hvalid.forks_eq.1]
  anyDiscarded g world := by
    rw [poolAfter_remeasured, run_trial_of_validated hvalid hforks, hvalid.forks_eq.2]
  anyWarmup _ hg world := trial_remeasured hg hvalid hforks world

end

/-! ### A campaign goes on -/

section

variable {t : TrialResult} {outcome : Except Halt TrialResult}

/-- A trial that is settled comes first, and it is the others that decide how all end. -/
theorem outcome_concludeAll_cons (h : settle s outcome = .ok t) (others : List Ran) :
    (concludeAll ((s, outcome) :: others)).outcome =
      (concludeAll others).outcome.map (t :: ·) := by
  -- what has broken off is not settled
  have hbreakdown : breakdown? ((s, outcome) :: others) = breakdown? others := by
    cases outcome with
    | ok t => rfl
    | error e =>
      cases e with
      | error e => rfl
      | breakdown b => cases h
  unfold concludeAll
  rw [hbreakdown]
  cases breakdown? others with
  | some b => rfl
  | none =>
    dsimp only
    rw [settleAll, h]

/-- A trial that is the only one is settled alone. -/
theorem outcome_concludeAll_singleton (s : Spec) (outcome : Except Halt TrialResult) :
    (concludeAll [(s, outcome)]).outcome = (settle s outcome).map fun t => [t] := by
  cases hsettled : settle s outcome with
  | ok t =>
    rw [outcome_concludeAll_cons hsettled]
    rfl
  | error e =>
    cases outcome with
    | ok t => cases hsettled
    | error e' =>
      cases e' with
      | breakdown b =>
        cases hsettled
        rfl
      | error e' =>
        show (settleAll [(s, .error (.error e'))]).outcome = .error e
        rw [settleAll, hsettled]

/-- Trials that are run at the same time are run all, and concluded from together. -/
theorem run_runTogether_cons (ran : (c.trial s).run.run world = (outcome, world₁))
    (rest : List Spec) :
    ∃ others, ((c.runTogether (s :: rest)).run world).1 = concludeAll ((s, outcome) :: others) ∧
      ((c.runTogether rest).run world₁).1 = concludeAll others ∧
      ((c.runTogether (s :: rest)).run world).2 = ((c.runTogether rest).run world₁).2 := by
  let runs : StateM σ (List Ran) := rest.mapM fun s => return (s, ← (c.trial s).run)
  have hall : (c.runTogether (s :: rest)).run world =
      (concludeAll ((s, outcome) :: (runs.run world₁).1), (runs.run world₁).2) := by
    unfold runTogether
    rw [run_map, List.mapM_cons, bind_assoc, run_bind, ran]
    rfl
  refine ⟨(runs.run world₁).1, congrArg Prod.fst hall, rfl, ?_⟩
  rw [hall]
  rfl

/-- A trial alone is run in its turn, which is no other end than at the same time. -/
theorem run_runTogether_singleton (s : Spec) (world : σ) :
    ((c.runTogether [s]).run world).1.outcome = ((c.runInTurn [s]).run world).1.outcome ∧
      ((c.runTogether [s]).run world).2 = ((c.runInTurn [s]).run world).2 := by
  rcases ran : (c.trial s).run.run world with ⟨outcome, world₁⟩
  have htogether : (c.runTogether [s]).run world = (concludeAll [(s, outcome)], world₁) := by
    unfold runTogether
    rw [run_map, List.mapM_cons, bind_assoc, run_bind, ran]
    rfl
  rw [htogether, runInTurn, run_bind, ran]
  dsimp only
  rw [outcome_concludeAll_singleton]
  cases settle s outcome <;> exact ⟨rfl, rfl⟩

/-- **A trial that is settled does not stand in the way of the others.** -/
theorem run_cons_of_settled (ran : (c.trial s).run.run world = (outcome, world₁))
    (h : settle s outcome = .ok t) (rest : List Spec) (jobs : Nat) :
    ((c.run (s :: rest) jobs).run world).1.outcome =
        ((c.run rest jobs).run world₁).1.outcome.map (t :: ·) ∧
      ((c.run (s :: rest) jobs).run world).2 = ((c.run rest jobs).run world₁).2 := by
  by_cases hturn : jobs ≤ 1 ∨ (s :: rest).length ≤ 1
  · have hturn' : jobs ≤ 1 ∨ rest.length ≤ 1 :=
      hturn.imp_right fun hlength => Nat.le_of_succ_le hlength
    rw [run, run, if_pos hturn, if_pos hturn', runInTurn, run_bind, ran]
    dsimp only
    rw [h]
    exact ⟨rfl, rfl⟩
  · obtain ⟨others, hfirst, hrest, hworld⟩ := run_runTogether_cons ran rest
    -- the others are run at the same time too, unless there is only one
    have hothers : ((c.run rest jobs).run world₁).1.outcome = (concludeAll others).outcome ∧
        ((c.run rest jobs).run world₁).2 = ((c.runTogether rest).run world₁).2 := by
      by_cases hturn' : jobs ≤ 1 ∨ rest.length ≤ 1
      · have hone : rest.length = 1 := by
          rw [List.length_cons] at hturn
          omega
        obtain ⟨s', rfl⟩ := List.length_eq_one_iff.1 hone
        obtain ⟨houtcome, hsame⟩ := run_runTogether_singleton (c := c) s' world₁
        rw [run, if_pos hturn', ← houtcome, ← hsame, hrest]
        exact ⟨rfl, rfl⟩
      · rw [run, if_neg hturn', hrest]
        exact ⟨rfl, rfl⟩
    rw [hothers.1, hothers.2, run, if_neg hturn, hfirst, outcome_concludeAll_cons h]
    exact ⟨rfl, hworld⟩

end

/-- These trials have been run and written down, one after the other. -/
inductive Recorded (c : Campaign (StateM σ)) (world : σ) : List Spec → List TrialResult → σ → Prop
  /-- There has been none yet. -/
  | none : Recorded c world [] [] world
  /-- The next one has a result, or its failure does not matter. -/
  | next {specs : List Spec} {results : List TrialResult} {s : Spec}
      {outcome : Except Halt TrialResult} {t : TrialResult} {world₁ world₂ : σ}
      (before : Recorded c world specs results world₁)
      (ran : (c.trial s).run.run world₁ = (outcome, world₂)) (settled : settle s outcome = .ok t) :
      Recorded c world (specs ++ [s]) (results ++ [t]) world₂

/-- **A campaign goes on** after trials that have been written down. -/
theorem run_of_recorded {specs : List Spec} {results : List TrialResult}
    (h : c.Recorded world specs results world₁) (rest : List Spec) (jobs : Nat) :
    ((c.run (specs ++ rest) jobs).run world).1.outcome =
        ((c.run rest jobs).run world₁).1.outcome.map (results ++ ·) ∧
      ((c.run (specs ++ rest) jobs).run world).2 = ((c.run rest jobs).run world₁).2 := by
  induction h generalizing rest with
  | none =>
    rw [List.nil_append]
    refine ⟨?_, rfl⟩
    cases ((c.run rest jobs).run world).1.outcome <;> rfl
  | @next specs results s outcome t world₁ world₂ before ran settled ih =>
    obtain ⟨houtcome, hworld⟩ := ih (s :: rest)
    obtain ⟨hnext, hworld'⟩ := run_cons_of_settled ran settled rest jobs
    rw [List.append_assoc, List.singleton_append, houtcome, hworld, hnext, hworld']
    refine ⟨?_, rfl⟩
    cases ((c.run rest jobs).run world₂).1.outcome with
    | ok later => simp [Except.map]
    | error e => rfl

/-- **A trial is pooled completely or not at all.**  It has a result exactly when all of its forks
go well, and then the result is made of all measured forks and of nothing else; otherwise it fails
as the first fork does that fails, and no other one is run.  What is discarded does not matter.
And where its failure is not to end the campaign, it is written down without any results, and the
other trials are run. -/
theorem trial_pools_wholly (c : Campaign (StateM σ)) {s : Spec} (hforks : 0 < s.measuredForks) :
    (∀ settings, c.Validated s settings → c.Pools s settings) ∧
    ((¬ ∃ settings, c.Validated s settings) → ∃ message, ∀ world,
      (c.trial s).run.run world = (.error (.error (.configuration s.label message)), world)) ∧
    ∀ specs results world world₁ e world₂, c.Recorded world specs results world₁ →
      (c.trial s).run.run world₁ = (.error (.error e), world₂) → s.failOnError = some false →
      ∀ rest jobs,
        ((c.run (specs ++ s :: rest) jobs).run world).1.outcome =
            ((c.run rest jobs).run world₂).1.outcome.map (results ++
              { spec := s, forks := [], totals := {}, monitored := .empty, warnings := [],
                failure := some e.message } :: ·) ∧
          ((c.run (specs ++ s :: rest) jobs).run world).2 = ((c.run rest jobs).run world₂).2 := by
  refine ⟨fun settings hvalid => pools_of_validated hvalid hforks, run_trial_of_not_validated, ?_⟩
  intro specs results world world₁ e world₂ hbefore hran hpolicy rest jobs
  have hsettled : settle s (.error (.error e)) = .ok (.failed s e) := by
    rw [settle, isFatal, hpolicy]
    rfl
  obtain ⟨houtcome, hworld⟩ := run_of_recorded (hbefore.next hran hsettled) rest jobs
  rw [List.append_assoc, List.singleton_append] at houtcome hworld
  refine ⟨houtcome.trans ?_, hworld⟩
  cases ((c.run rest jobs).run world₂).1.outcome with
  | ok later => simp [Except.map, TrialResult.failed]
  | error e => rfl

/-- A trial of the task that does nothing, with one discarded fork and two measured ones, whose
failure does not end the campaign. -/
def thrice : Spec :=
  { Spec.idle with forks := some 2, warmupForks := some 1, failOnError := some false }

/-- What it is run with. -/
def thriceSettings : Settings :=
  { Settings.idle with forks := 2, warmupForks := 1, failOnError := false }

/-- A campaign whose workers say all that such a trial takes. -/
def diligent : Campaign (StateM Nat) :=
  { idle with launcher := .reciting (.ofMessages [.hello protocolVersion 0 "idle",
      .iteration (.idle .warmup), .iteration (.idle .measurement), .complete 2] (some (.code 0))) }

/-- What each of its forks finds. -/
def diligentFindings (index : UInt32) : Findings :=
  { fork := .ofReports index 0 [.idle .warmup, .idle .measurement] }

/-- Whatever else there is in a campaign, each fork with such a worker goes well. -/
theorem run_fork_thrice (hnamed : c.workerCommand ≠ []) (index : UInt32) (world : σ) :
    (({ c with launcher := .reciting (.ofMessages [.hello protocolVersion 0 "idle",
        .iteration (.idle .warmup), .iteration (.idle .measurement), .complete 2]
        (some (.code 0))) }).fork thrice thriceSettings index []).run.run world =
      (.ok (diligentFindings index), world) := by
  have htravels : ∀ m ∈ [Message.hello protocolVersion 0 "idle", .iteration (.idle .warmup),
      .iteration (.idle .measurement), .complete 2], m.Travels := by
    simp only [List.forall_mem_cons, List.not_mem_nil, false_implies, implies_true, and_true]
    exact ⟨travels_hello_idle, travels_report_idle _, travels_report_idle _, travels_complete_idle⟩
  have hbegins : (Recital.ofMessages [.hello protocolVersion 0 "idle", .iteration (.idle .warmup),
      .iteration (.idle .measurement), .complete 2] (some (.code 0))).Begins thrice 0
        [.idle .warmup, .idle .measurement] [some (.complete 2)] :=
    ⟨⟨"idle", Recital.said_ofMessages htravels⟩, by decide +kernel⟩
  obtain ⟨program, args, hcommand⟩ := exists_command (c := c) thrice world hnamed
  have hsession := Supervisor.run_of_completes (m := StateM σ) program args c.probes index
    (thrice.fits_encode (by decide +kernel))
    (rfl : Settings.resolve thrice (TaskEntry.idle "idle").declaration = .ok thriceSettings)
    (by decide +kernel) ⟨rfl, ⟨_, hbegins⟩, _, rfl, rfl⟩
  rw [run_fork rfl hcommand (congrArg (StateT.run · world) hsession)]
  rfl

theorem run_fork_diligent (index : UInt32) (world : Nat) :
    (diligent.fork thrice thriceSettings index []).run.run world =
      (.ok (diligentFindings index), world) :=
  run_fork_thrice (c := idle) (List.cons_ne_nil _ _) index world

/-- With good workers the trial has two forks of one iteration each; without a program to run it has
none, and the campaign goes on with the next trial. -/
theorem trial_pools_wholly_thrice :
    (∃ t, (diligent.trial thrice).run.run 0 = (.ok t, 0) ∧
      t.forks.map (·.index.toNat) = [0, 1] ∧ ∀ fork ∈ t.forks, fork.iterations.length = 1) ∧
    let c := { idle with workerCommand := [] }
    ∃ e world, (c.trial thrice).run.run 0 = (.error (.error e), world) ∧
      ((c.run [thrice, .idle] 1).run 0).1.outcome =
        ((c.run [.idle] 1).run world).1.outcome.map
          ({ spec := thrice, failure := some e.message } :: ·) := by
  have hforks : 0 < thrice.measuredForks := by decide
  refine ⟨?_, ?_⟩
  · have hvalid : diligent.Validated thrice thriceSettings := ⟨_, rfl, rfl⟩
    have hpools := (trial_pools_wholly diligent hforks).1 _ hvalid
    have hone : diligent.Forked thrice thriceSettings [] 0 [diligentFindings 0] 0 :=
      Forked.none.next (run_fork_diligent 0 0)
    have htwo : diligent.Forked thrice thriceSettings [] 0
        [diligentFindings 0, diligentFindings 1] 0 := hone.next (run_fork_diligent 1 0)
    have htrial := (hpools.succeeds 0 _ 0).2 ⟨_, 0, _, hone, rfl, htwo, rfl, rfl⟩
    obtain ⟨hindices, hlengths, -⟩ := hpools.whole 0 _ 0 htrial
    exact ⟨_, htrial, hindices, hlengths (by decide)⟩
  · intro c
    have hran : (c.trial thrice).run.run 0 =
        (.error (.error (.process thrice.label 0 .emptyCommand)), 0) := rfl
    have hgoes := ((trial_pools_wholly c hforks).2.2 [] [] 0 0 _ 0 .none hran rfl [.idle] 1).1
    exact ⟨_, 0, hran, hgoes⟩

end Campaign

end Microbench
