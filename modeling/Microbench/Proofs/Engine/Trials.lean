import Microbench.Proofs.Engine.Lanes
import Microbench.Proofs.Engine.Schedule

/-!
# The calls of a whole trial

A trial whose iterations have a given number of invocations has a script from its
first call to its last.  It makes the calls of the script, and if they all go well
it ends well.  A trial with one thread stops at the first of them that does not.

## Main definitions

* `Conductor.iterationScript`, `Conductor.script` — the calls of an iteration and of a trial.
* `Conductor.IsCounted` — a trial whose iterations have given numbers of invocations.
* `Concludes` — how a call comes out that has a script.

## Main results

* `Conductor.performs_report` — the calls of an iteration.
* `Conductor.concludes_runAll` — **the calls of a trial are those of its script.**
-/

namespace Microbench

/-- How a call comes out that is to make the calls of a script and leads on to a position. -/
structure Concludes {α : Type} (strict : Prop) (blame : Call → TaskError → Failure)
    (script : List Call) (next : Lifecycle) (a : Conductor.Answer α) (log : List Exchange) :
    Prop where
  fares : Fares strict blame script a.1 log
  position : a.2 = if a.1.isOk then next else .failed

namespace Concludes

variable {α : Type} {strict : Prop} {blame : Call → TaskError → Failure} {script : List Call}
  {next : Lifecycle} {a : Conductor.Answer α} {log : List Exchange}

/-- Where all calls go well it leads on. -/
theorem of_good (h : Concludes strict blame script next a log)
    (hgood : ∀ x ∈ log, x.isGood = true) : (∃ v, a = (.ok v, next)) ∧ calls log = script := by
  obtain ⟨⟨v, hv⟩, hmade⟩ := h.fares.of_sound hgood
  refine ⟨⟨v, Prod.ext hv ?_⟩, hmade⟩
  rw [h.position, hv]
  rfl

/-- A failure leaves the trial failed. -/
theorem eq_of_error (h : Concludes strict blame script next a log) {f : Failure}
    (hf : a.1 = .error f) : a = (.error f, .failed) := by
  refine Prod.ext hf ?_
  rw [h.position, hf]
  rfl

end Concludes

namespace Conductor

variable {σ : Type}

/-- The calls of an iteration. -/
def iterationScript {m : Type → Type} (c : Conductor m) (size : Phase → UInt64)
    (turn : Phase × UInt32) : List Call :=
  fixtureCalls c.task.fixtures .setup .iteration (c.targets .iteration) ++
    (c.roundScript (size turn.1) (c.activeSeats turn.2) ++
      fixtureCalls c.task.fixtures .teardown .iteration (c.targets .iteration))

/-- The calls that build the state of a trial. -/
def buildScript {m : Type → Type} (c : Conductor m) : List Call :=
  Scope.all.flatMap fun scope => (c.targets .trial scope).map .build

/-- The calls of a trial. -/
def script {m : Type → Type} (c : Conductor m) (size : Phase → UInt64) : List Call :=
  c.buildScript ++
    (fixtureCalls c.task.fixtures .setup .trial (c.targets .trial) ++
      (c.settings.schedule.flatMap (c.iterationScript size) ++
        fixtureCalls c.task.fixtures .teardown .trial (c.targets .trial)))

/-- The iterations of each phase have this number of invocations. -/
def IsCounted {m : Type → Type} (c : Conductor m) (size : Phase → UInt64) : Prop :=
  ∀ phase, (c.settings.phase phase).length = .invocations (size phase)

variable {c : Conductor (StateM σ)} {strict : Prop} {index : Nat} {size : Phase → UInt64}

/-! ### Probes -/

theorem logs_askBefore (p : PhaseSettings) (probes : List (Probe (StateM σ))) :
    Logs (c.watched.askBefore p (probes.map Probe.watched)) fun r log =>
      log = [] ∧ ∀ noted ∈ r.1, ∃ probe, noted.1 = Probe.watched probe := by
  induction probes with
  | nil => exact Logs.pure ⟨rfl, fun _ h => nomatch h⟩
  | cons probe rest ih =>
    rw [List.map_cons, askBefore]
    refine Logs.bind (Logs.quiet (Q := fun _ log => log = []) fun _ => rfl) ?_
    rintro answer _ rfl
    refine Logs.bind ih ?_
    rintro ⟨notes, warnings⟩ _ ⟨rfl, hnotes⟩
    cases answer with
    | ok note => exact Logs.pure ⟨rfl, List.forall_mem_cons.2 ⟨⟨probe, rfl⟩, hnotes⟩⟩
    | error e => exact Logs.pure ⟨rfl, List.forall_mem_cons.2 ⟨⟨probe, rfl⟩, hnotes⟩⟩

theorem logs_askAfter (p : PhaseSettings) (result : IterationResult)
    (notes : List (Noted (Watched σ)))
    (hnotes : ∀ noted ∈ notes, ∃ probe, noted.1 = Probe.watched probe) :
    Logs (c.watched.askAfter p result notes) fun _ log => log = [] ∧ True := by
  induction notes generalizing result with
  | nil => exact Logs.pure ⟨rfl, True.intro⟩
  | cons noted rest ih =>
    obtain ⟨⟨probe, hprobe⟩, hrest⟩ := List.forall_mem_cons.1 hnotes
    obtain ⟨_, note⟩ := noted
    obtain rfl := hprobe
    rw [askAfter]
    refine Logs.bind (Logs.quiet (Q := fun _ log => log = []) fun _ => rfl) ?_
    rintro answer _ rfl
    cases answer with
    | ok found => exact ih _ hrest
    | error e =>
      refine Logs.bind (ih result hrest) ?_
      rintro ⟨result', warnings⟩ _ ⟨rfl, -⟩
      exact Logs.pure ⟨rfl, True.intro⟩

/-! ### Iterations -/

/-- **The calls of an iteration** are those of its script; probes call no task. -/
theorem performs_report (hpatience : 5 ≤ c.patience) {phase : Phase}
    (hcounted : (c.settings.phase phase).length = .invocations (size phase))
    (halone : strict → ∀ i, ∃ seat, c.activeSeats i = [seat] ∧ seat.index = index) (i : UInt32) :
    Performs strict (c.blame index) (c.watched.report phase i)
      (c.iterationScript size (phase, i)) := by
  unfold report
  dsimp only
  refine Performs.lift_bind (logs_askBefore _ c.probes) fun noted hnoted => ?_
  obtain ⟨notes, before⟩ := noted
  have hlength : (c.watched.settings.phase phase).length = .invocations (size phase) := hcounted
  have hlevel : Level.iteration ≠ .invocation := nofun
  dsimp only
  unfold runIteration
  rw [hlength]
  simp only [bind_assoc, pure_bind]
  refine Performs.bind (performs_fixtures index hlevel .setup) fun _ => ?_
  refine Performs.bind ?_ fun harvests => ?_
  · exact Round.performs_run hpatience (size phase) fun hstrict => halone hstrict i
  -- the probes after the iteration make no call
  rw [← List.append_nil (fixtureCalls ..)]
  refine Performs.bind (performs_fixtures index hlevel .teardown) fun _ => ?_
  refine Performs.lift_bind (logs_askAfter _ _ notes hnoted) fun found _ => ?_
  exact Performs.pure

/-! ### Calls in a row -/

section

variable {α β : Type} {blame : Call → TaskError → Failure} {script rest : List Call}
  {next last : Lifecycle}

theorem concludes_pure (a : α) :
    Logs (σ := σ) (pure (.ok a, next)) (Concludes strict blame [] next) :=
  Logs.pure ⟨.well a rfl (fun _ hx => nomatch hx) rfl, rfl⟩

theorem concludes_conclude {x : ExceptT Failure (Watched σ) α}
    (h : Performs strict blame x script) :
    Logs (conclude next x) (Concludes strict blame script next) := by
  unfold conclude
  refine Logs.bind h fun r log hfares => ?_
  cases r with
  | ok a => exact Logs.pure (by rw [List.append_nil]; exact ⟨hfares, rfl⟩)
  | error f => exact Logs.pure (by rw [List.append_nil]; exact ⟨hfares, rfl⟩)

/-- What follows a call that went well; nothing follows one that did not. -/
theorem concludes_bind (next : Lifecycle) {x : Watched σ (Answer α)}
    {k : Answer α → Watched σ (Answer β)} (hx : Logs x (Concludes strict blame script next))
    (hfailed : ∀ f position, k (.error f, position) = pure (.error f, position))
    (hk : ∀ a, Logs (k (.ok a, next)) (Concludes strict blame rest last)) :
    Logs (x >>= k) (Concludes strict blame (script ++ rest) last) := by
  refine Logs.bind hx ?_
  rintro ⟨r, position⟩ log ⟨hfares, hposition⟩
  cases r with
  | error f =>
    obtain rfl : position = .failed := hposition
    rw [hfailed]
    refine Logs.pure ⟨?_, rfl⟩
    rw [List.append_nil]
    exact hfares.error_append
  | ok a =>
    obtain rfl : position = next := hposition
    exact (hk a).mono fun b more hmore => ⟨hfares.ok_append hmore.fares, hmore.position⟩

end

theorem concludes_iterateTimes (hfits : c.settings.total ≤ Whole.max32) (hpatience : 5 ≤ c.patience)
    (hcounted : c.IsCounted size)
    (halone : strict → ∀ i, ∃ seat, c.activeSeats i = [seat] ∧ seat.index = index) (k : Nat) :
    ∀ (n : Nat) (reports : List Report), n + k = c.settings.total →
      Logs (c.watched.iterateTimes k reports (.reached c.settings n))
        (Concludes strict (c.blame index) ((c.settings.schedule.drop n).flatMap
          (c.iterationScript size)) (.reached c.settings c.settings.total)) := by
  induction k with
  | zero =>
    intro n reports hn
    obtain rfl : n = c.settings.total := by omega
    -- no iteration is left
    have hover : c.settings.schedule.drop c.settings.total = [] :=
      List.drop_eq_nil_of_le (Nat.le_of_eq (length_schedule _ _))
    rw [hover]
    exact concludes_pure _
  | succ k ih =>
    intro n reports hn
    have hlt : n < c.settings.total := by omega
    have hiterate : c.watched.iterate (.reached c.settings n) = _ :=
      iterate_reached (c := c.watched) hfits hlt
    rw [Settings.drop_schedule hlt, List.flatMap_cons]
    unfold iterateTimes
    rw [hiterate]
    refine concludes_bind _ ?_ (fun _ _ => rfl) fun report => ih (n + 1) _ (by omega)
    exact concludes_conclude (performs_report hpatience (hcounted _) halone _)

/-- **The calls of a trial are those of its script.**  If they all go well it ends well; with one
thread it stops at the first that does not. -/
theorem concludes_runAll (hfits : c.settings.total ≤ Whole.max32) (hpatience : 5 ≤ c.patience)
    (hcounted : c.IsCounted size)
    (halone : strict → ∀ i, ∃ seat, c.activeSeats i = [seat] ∧ seat.index = index) :
    Logs (c.watched.runAll .ready) (Concludes strict (c.blame index) (c.script size) .done) := by
  have hlevel : Level.trial ≠ .invocation := nofun
  have htimes : c.watched.settings.iterations.toNat = c.settings.total :=
    Settings.toNat_iterations hfits
  have hstart : Lifecycle.warmup 0 = .reached c.settings 0 := (reached_zero _).symm
  unfold script
  rw [← List.append_assoc]
  unfold runAll
  refine concludes_bind (.warmup 0) ?_ (fun _ _ => rfl) fun _ => ?_
  · exact concludes_conclude (Performs.bind (performs_build index) fun _ =>
      performs_fixtures index hlevel .setup)
  · dsimp only
    rw [htimes, hstart]
    refine concludes_bind _ (concludes_iterateTimes hfits hpatience hcounted halone _ 0 []
      (Nat.zero_add _)) (fun _ _ => rfl) fun reports => ?_
    have htearDown : c.watched.tearDown (.reached c.settings c.settings.total) = _ :=
      tearDown_reached (c := c.watched) c.settings.total
    dsimp only
    rw [htearDown, ← List.append_nil (fixtureCalls ..)]
    refine concludes_bind .done ?_ (fun _ _ => rfl) fun _ => concludes_pure _
    exact concludes_conclude (Performs.map (performs_fixtures index hlevel .teardown))

end Conductor

end Microbench
