import Microbench.Proofs.Engine.Harvest
import Microbench.Proofs.Trial.Pooled

/-!
# Iterations counted in 32 bits

A specification asks for two numbers of iterations, and their sum is counted in 32 bits like
each of them.  No specification is refused because of the sum.  Where it fits, a trial that
ends well has all results that were asked for.  Where it does not fit, it begins again at
zero, and what is left is less than the warmup alone: the trial ends in the warmup, it ends
well, and it has no result at all.

## Main definitions

* `Campaign.CountsIn32` — what is promised of the counts of a trial.

## Main results

* `Settings.toNat_iterations_eq_mod`, `Settings.iterations_sub_warmup` — the sum as it is counted.
* `Conductor.iterate_counted`, `Conductor.runAll_counted` — an iteration, and all of them.
* `Campaign.trial_countsIn32` — **a trial has all of its results or none.**
-/

namespace Microbench

/-! ### The sum of two counts -/

namespace Settings

variable {s : Settings}

/-- The total as it is counted begins again at zero behind the largest number of 32 bits. -/
theorem toNat_iterations_eq_mod (s : Settings) :
    s.iterations.toNat = s.total % (Whole.max32 + 1) := by
  rw [iterations, UInt32.toNat_add, total]
  rfl

/-- No more iterations are counted than there are. -/
theorem iterations_le_total (s : Settings) : s.iterations.toNat ≤ s.total := by
  rw [toNat_iterations_eq_mod]
  exact Nat.mod_le _ _

/-- The count is right exactly if the total is a number of 32 bits. -/
theorem toNat_iterations_eq_total_iff : s.iterations.toNat = s.total ↔ s.total ≤ Whole.max32 := by
  constructor
  · intro h
    have hlt := s.iterations.toNat_lt
    have hmax : Whole.max32 = 4294967295 := rfl
    omega
  · exact toNat_iterations

/-- A total that is too large is counted as less than its warmup. -/
theorem iterations_lt_warmup (h : Whole.max32 < s.total) :
    s.iterations.toNat < s.warmup.count.toNat := by
  have hmax : Whole.max32 = 4294967295 := rfl
  have hmeasurement := s.measurement.count.toNat_lt
  rw [toNat_iterations_eq_mod]
  unfold total at h ⊢
  rw [hmax] at h ⊢
  omega

/-- What is counted behind the warmup is the whole measurement or nothing. -/
theorem iterations_sub_warmup (s : Settings) : s.iterations.toNat - s.warmup.count.toNat =
    if s.total ≤ Whole.max32 then s.measurement.count.toNat else 0 := by
  by_cases hfits : s.total ≤ Whole.max32
  · rw [if_pos hfits, toNat_iterations hfits, total, Nat.add_sub_cancel_left]
  · have hlt := iterations_lt_warmup (Nat.lt_of_not_le hfits)
    rw [if_neg hfits]
    omega

end Settings

namespace Supervisor

variable {s : Settings}

/-- The phase of an iteration tells on which side of the end of the warmup it is. -/
theorem phase_position (s : Settings) (n : Nat) :
    (position s n).1 = .measurement ↔ s.warmup.count.toNat ≤ n := by
  unfold position
  by_cases hn : n < s.warmup.count.toNat
  · rw [if_pos hn]
    simp [hn]
  · rw [if_neg hn]
    simp [Nat.le_of_not_lt hn]

/-- Of reports that come in their turn those count that come after the warmup. -/
theorem length_measured {reports : List Report} {n : Nat} (h : InTurn s n reports) :
    (reports.filter (·.phase = .measurement)).length =
      n + reports.length - s.warmup.count.toNat - (n - s.warmup.count.toNat) := by
  induction reports generalizing n with
  | nil => simp
  | cons r reports ih =>
    obtain ⟨hplace, hrest⟩ := h
    have hphase : r.phase = .measurement ↔ s.warmup.count.toNat ≤ n := by
      rw [← phase_position, ← hplace]
    by_cases hn : s.warmup.count.toNat ≤ n
    · rw [List.filter_cons_of_pos (by simpa using hphase.2 hn), List.length_cons, List.length_cons,
        ih hrest]
      omega
    · rw [List.filter_cons_of_neg (by simpa using fun hr => hn (hphase.1 hr)), List.length_cons,
        ih hrest]
      omega

/-- A fork that is made of all counted reports has the results of the whole measurement or none. -/
theorem length_iterations_ofReports {reports : List Report} (hturn : InTurn s 0 reports)
    (hall : reports.length = s.iterations.toNat) (index pid : UInt32) :
    (ForkResult.ofReports index pid reports).iterations.length =
      if s.total ≤ Whole.max32 then s.measurement.count.toNat else 0 := by
  rw [ForkResult.ofReports, List.length_map, length_measured hturn, hall, Nat.zero_add,
    Nat.zero_sub, Nat.sub_zero, Settings.iterations_sub_warmup]

end Supervisor

/-! ### Iterations one after the other -/

namespace Conductor

variable {σ : Type} {c : Conductor (StateM σ)}

/-- As long as iterations are counted, an iteration that goes well is the one whose turn it was. -/
theorem iterate_counted {n : Nat} (hn : n < c.settings.iterations.toNat) {r : Report}
    {position : Lifecycle} {world world' : σ}
    (h : (c.iterate (.reached c.settings n)).run world = ((.ok r, position), world')) :
    position = .reached c.settings (n + 1) ∧
      (r.phase, r.index) = Supervisor.position c.settings n := by
  by_cases hfits : c.settings.total ≤ Whole.max32
  · have hle : n ≤ c.settings.total := by
      have := c.settings.iterations_le_total
      omega
    obtain ⟨-, hposition, hplace, -⟩ := iterate_ok hfits hle h
    exact ⟨hposition, hplace⟩
  · -- the count ends within the warmup, so the iteration is one of the warmup
    have hwarmup : n < c.settings.warmup.count.toNat :=
      Nat.lt_trans hn (Settings.iterations_lt_warmup (Nat.lt_of_not_le hfits))
    have hturn : Supervisor.position c.settings n = (.warmup, .ofNat n) := if_pos hwarmup
    rw [iterate_warmup hwarmup] at h
    obtain ⟨hposition, hrun⟩ := conclude_ok h
    obtain ⟨hplace, -⟩ := report_ok world r (congrArg Prod.fst hrun)
    exact ⟨hposition, hturn ▸ hplace⟩

/-- Iterations that go well are reported in their turn. -/
theorem iterateTimes_counted (more : Nat) {n : Nat} (earlier : List Report)
    (hle : n + more ≤ c.settings.iterations.toNat) :
    Always (c.iterateTimes more earlier (.reached c.settings n)) fun answer =>
      ∀ reports, answer.1 = .ok reports → ∃ later, reports = earlier.reverse ++ later ∧
        Supervisor.InTurn c.settings n later ∧ later.length = more := by
  induction more generalizing n earlier with
  | zero =>
    refine Always.pure fun reports hreports => ⟨[], ?_, trivial, rfl⟩
    rw [List.append_nil, Except.ok.inj hreports]
  | succ more ih =>
    intro world
    rw [iterateTimes, run_bind]
    rcases hran : (c.iterate (.reached c.settings n)).run world with ⟨⟨_ | r, position⟩, world₁⟩
    · next f => exact fun _ h => nomatch h
    · obtain ⟨rfl, hplace⟩ := iterate_counted (by omega) hran
      intro reports hreports
      obtain ⟨later, hlater, hturn, hlength⟩ :=
        ih (r :: earlier) (by omega) world₁ reports hreports
      refine ⟨r :: later, ?_, ⟨hplace, hturn⟩, congrArg (· + 1) hlength⟩
      rw [hlater, List.reverse_cons, List.append_assoc, List.singleton_append]

/-- **A whole trial that ends well** has reported all iterations that are counted, each in its
turn. -/
theorem runAll_counted : Always (c.runAll .ready) fun answer =>
    ∀ reports, answer.1 = .ok reports →
      Supervisor.InTurn c.settings 0 reports ∧ reports.length = c.settings.iterations.toNat := by
  intro world
  rw [runAll, run_bind]
  rcases hstarted : (c.setUp .ready).run world with ⟨⟨_ | _, position⟩, world₁⟩
  · exact fun _ h => nomatch h
  · obtain rfl := setUp_ok hstarted
    have hiterated := iterateTimes_counted (c := c) c.settings.iterations.toNat (n := 0) []
      (by omega) world₁
    dsimp only
    rw [run_bind]
    rcases hran : (c.iterateTimes c.settings.iterations.toNat [] (.reached c.settings 0)).run
      world₁ with ⟨⟨_ | reports, position⟩, world₂⟩
    · exact fun _ h => nomatch h
    · rw [hran] at hiterated
      obtain ⟨later, hlater, hturn, hlength⟩ := hiterated reports rfl
      obtain rfl : reports = later := hlater
      dsimp only
      rw [run_bind]
      -- teardown only decides whether the reports are the answer
      rcases (c.tearDown position).run world₂ with ⟨⟨_ | _, _⟩, _⟩
      · exact fun _ h => nomatch h
      · rintro _ ⟨⟩
        exact ⟨hturn, hlength⟩

/-- Teardown answers with the number of iterations as it is counted. -/
theorem tearDown_counted (n : Nat) :
    Always (c.tearDown (.reached c.settings n)) fun answer =>
      ∀ count, answer.1 = .ok count → count.toNat = n % (Whole.max32 + 1) := by
  intro world count hcount
  rcases htorn : (c.tearDown (.reached c.settings n)).run world with ⟨⟨answer, position⟩, world'⟩
  rw [htorn] at hcount
  obtain rfl : answer = .ok count := hcount
  rw [(tearDown_ok htorn).1, UInt32.toNat_ofNat']
  rfl

end Conductor

/-! ### Trials -/

namespace Campaign

variable {σ : Type} {c : Campaign (StateM σ)} {s : Spec} {settings : Settings}

/-- A trial that runs right here and ends well is made of the reports that are counted. -/
theorem inProcess_ok {entry : TaskEntry (StateM σ)}
    (hsettings : Settings.resolve s entry.declaration = .ok settings) :
    Ensures (c.inProcess entry s) fun fork => ∃ index pid reports,
      Supervisor.InTurn settings 0 reports ∧ reports.length = settings.iterations.toNat ∧
        fork = .ofReports index pid reports := by
  refine (Ensures.lift Conductor.prepare_ok).bind fun prepared hprepared => ?_
  split
  · exact Ensures.throw
  · exact Ensures.throw
  · next conductor =>
    obtain rfl := Except.ok.inj (hsettings.symm.trans (hprepared conductor rfl))
    refine (Ensures.lift Conductor.runAll_counted).bind fun answer hanswer => ?_
    split
    · exact Ensures.throw
    · next reports _ =>
      obtain ⟨hturn, hlength⟩ := hanswer reports rfl
      refine Ensures.pure ⟨0, c.pid, reports, hturn, hlength, ?_⟩
      exact ForkResult.foldl_addReport 0 c.pid reports

/-- Without measured forks a trial runs right here. -/
theorem run_trial_of_unforked {entry : TaskEntry (StateM σ)}
    (hentry : c.registry.get? s.name = some entry)
    (hsettings : Settings.resolve s entry.declaration = .ok settings)
    (hforks : s.measuredForks = 0) (world : σ) :
    (c.trial s).run.run world = (do
      let fork ← c.inProcess entry s
      return TrialResult.pooled s [fork] [] [] : Run (StateM σ) TrialResult).run.run world := by
  rw [trial, run_ok_bind (run_validate hentry hsettings world)]
  dsimp only
  rw [if_pos ((forks_eq_zero_iff_of_resolve hsettings).2 hforks)]

/-- What is promised of the counts of a trial. -/
structure CountsIn32 (c : Campaign (StateM σ)) (s : Spec) (settings : Settings) : Prop where
  /-- Whoever asks for iterations asks for the sum in 32 bits. -/
  asked : settings.iterations.toNat = (s.warmups + s.measurements) % (Whole.max32 + 1)
  /-- That is the sum itself exactly if it fits. -/
  exact_iff : settings.iterations.toNat = s.warmups + s.measurements ↔
    s.warmups + s.measurements ≤ Whole.max32
  /-- A trial that is run as a whole reports so many iterations of its schedule. -/
  reported : ∀ conductor : Conductor (StateM σ), conductor.settings = settings →
    ∀ world reports, ((conductor.runAll .ready).run world).1.1 = .ok reports →
      reports.map Report.place =
        (schedule s.warmups s.measurements).take settings.iterations.toNat
  /-- Teardown answers with the number of iterations in 32 bits, however many have been run. -/
  answered : ∀ conductor : Conductor (StateM σ), conductor.settings = settings →
    ∀ n world count,
      ((conductor.tearDown (.reached settings n)).run world).1.1 = .ok count →
        count.toNat = n % (Whole.max32 + 1)
  /-- A trial that ends well has its forks, and each of them has all results if the sum fits, and
  none if it does not. -/
  results : ∀ world t, ((c.trial s).run.run world).1 = .ok t →
    t.forks.length = max 1 s.measuredForks ∧
    ∀ fork ∈ t.forks, fork.iterations.length =
      if s.warmups + s.measurements ≤ Whole.max32 then s.measurements else 0

/-- The forks of a trial that ends well are made of the reports that are counted. -/
theorem forks_of_trial_ok (hvalid : c.Validated s settings) {t : TrialResult} {world : σ}
    (h : ((c.trial s).run.run world).1 = .ok t) :
    t.forks.length = max 1 s.measuredForks ∧
    ∀ fork ∈ t.forks, ∃ index pid reports, Supervisor.InTurn settings 0 reports ∧
      reports.length = settings.iterations.toNat ∧ fork = .ofReports index pid reports := by
  rcases Nat.eq_zero_or_pos s.measuredForks with hzero | hforks
  · obtain ⟨entry, hentry, hsettings⟩ := hvalid
    rw [run_trial_of_unforked hentry hsettings hzero] at h
    have hpooled := (inProcess_ok (c := c) hsettings).bind (f := fun fork =>
        (pure (TrialResult.pooled s [fork] [] []) : Run (StateM σ) TrialResult))
      (Q := fun t => ∃ fork, t.forks = [fork] ∧ ∃ index pid reports,
        Supervisor.InTurn settings 0 reports ∧ reports.length = settings.iterations.toNat ∧
          fork = .ofReports index pid reports)
      fun fork hfork => Ensures.pure ⟨fork, rfl, hfork⟩
    obtain ⟨fork, hforks, hmade⟩ := hpooled world t h
    rw [hforks, hzero]
    exact ⟨rfl, List.forall_mem_singleton.2 hmade⟩
  · rcases hrun : (c.trial s).run.run world with ⟨outcome, world'⟩
    rw [hrun] at h
    obtain rfl : outcome = .ok t := h
    obtain ⟨discarded, world₁, measured, -, -, hforked, hlength, rfl⟩ :=
      (run_trial_ok_iff hvalid hforks).1 hrun
    constructor
    · show (measured.map (·.fork)).length = _
      rw [List.length_map, hlength]
      omega
    · intro fork hfork
      obtain ⟨found, hfound, rfl⟩ := List.mem_map.1 hfork
      exact hforked.made found hfound

/-- **A trial has all of its results or none.**  Whatever numbers of iterations a specification asks
for, their sum is counted in 32 bits.  A trial that ends well has the results that were asked for if
that sum fits.  If it does not, the trial is over before its warmup is. -/
theorem trial_countsIn32 (c : Campaign (StateM σ)) (hvalid : c.Validated s settings) :
    c.CountsIn32 s settings := by
  obtain ⟨entry, hentry, hsettings⟩ := hvalid
  obtain ⟨hschedule, htotal⟩ := schedule_of_resolve hsettings
  obtain ⟨-, -, hmeasurements⟩ := resolve_ok hsettings
  refine ⟨?_, ?_, ?_, ?_, ?_⟩
  · rw [Settings.toNat_iterations_eq_mod, htotal]
  · rw [← htotal]
    exact Settings.toNat_iterations_eq_total_iff
  · rintro conductor rfl world reports hreports
    obtain ⟨hturn, hlength⟩ := Conductor.runAll_counted world reports hreports
    have hle := conductor.settings.iterations_le_total
    rw [(Supervisor.inTurn_iff (by omega)).1 hturn, List.drop_zero, hschedule, hlength]
  · rintro conductor rfl n world count hcount
    exact Conductor.tearDown_counted n world count hcount
  · intro world t ht
    obtain ⟨hlength, hmade⟩ := forks_of_trial_ok ⟨entry, hentry, hsettings⟩ ht
    refine ⟨hlength, fun fork hfork => ?_⟩
    obtain ⟨index, pid, reports, hturn, hall, rfl⟩ := hmade fork hfork
    rw [Supervisor.length_iterations_ofReports hturn hall, htotal, hmeasurements]

/-- A trial of the task that does nothing, run right here, with the largest warmup that can be asked
for and one iteration that is to count. -/
def endless : Spec :=
  { Spec.idle with
    warmup := { iterations := some 4294967295, time := some ⟨1⟩ }
    forks := some 0 }

/-- What it is run with. -/
def endlessSettings : Settings :=
  { Settings.idle with warmup := ⟨.warmup, 4294967295, .time ⟨1⟩⟩, forks := 0 }

/-- One result is asked for, the trial ends well, and there is none. -/
theorem trial_countsIn32_endless :
    idle.Validated endless endlessSettings ∧ endless.measurements = 1 ∧
      ∃ t, ((idle.trial endless).run.run 0).1 = .ok t ∧ t.forks.length = 1 ∧
        ∀ fork ∈ t.forks, fork.iterations.length = 0 := by
  have hvalid : idle.Validated endless endlessSettings := ⟨_, rfl, rfl⟩
  have hran : ((idle.trial endless).run.run 0).1 =
      .ok (.pooled endless [{ index := 0, pid := 0 }] [] []) := rfl
  obtain ⟨hforks, hresults⟩ := (trial_countsIn32 idle hvalid).results 0 _ hran
  exact ⟨hvalid, rfl, _, hran, hforks, hresults⟩

end Campaign

end Microbench
