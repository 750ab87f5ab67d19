import Microbench.Proofs.Engine.Nesting

/-!
# The first failure stops a trial

With one thread in all the calls of a trial follow each other in one order.  The first
of them that is answered with an error is the last call of the trial, whatever it was
and however far the trial had come: nothing is torn down after it, nothing is reported,
and the trial has failed of that error.

## Main definitions

* `Conductor.StopsAtFirst` — what is seen of a trial that stops at the first failure.

## Main results

* `Conductor.iterate_fails` — an iteration in which a call goes wrong is not reported.
* `Conductor.runAll_stops` — **the first failure stops the trial.**
-/

namespace Microbench

namespace Conductor

variable {σ : Type}

/-- What is seen of a trial that is to make some calls, and stops at the first failure. -/
structure StopsAtFirst {m : Type → Type} (c : Conductor m) (success : List Call)
    (trial : Sighting σ (Answer (List Report))) : Prop where
  /-- If all calls go well, all of them are made, and the trial ends well. -/
  well : (∀ x ∈ trial.log, x.isGood = true) →
    calls trial.log = success ∧ ∃ reports, trial.answer = (.ok reports, .done)
  /-- If the first `k` calls go well, there is a next one.  If that is answered with an error, no
  call is made after it, and the trial has failed of that error. -/
  ill : ∀ k < success.length, (∀ x ∈ trial.log.take k, x.isGood = true) →
    ∃ x, trial.log[k]? = some x ∧ success[k]? = some x.call ∧ ∀ e, x.answer = .error e →
      calls trial.log = success.take (k + 1) ∧
        trial.answer = (.error ⟨c.settings.task, x.call.site, x.call.blamed 0, e.text⟩, .failed)

variable {c : Conductor (StateM σ)} {size : Phase → UInt64}

/-- The only thread takes part in every iteration, and its index is zero. -/
theorem activeSeats_of_isSolo (hsolo : c.settings.IsSolo) (i : UInt32) :
    ∃ seat, c.activeSeats i = [seat] ∧ seat.index = 0 := by
  obtain ⟨_, seat, -, hseat, hindex, -, hactive⟩ := hsolo.exists_seat
  exact ⟨seat, activeSeats_of_layout hseat hactive i, hindex⟩

/-- An iteration in which a call goes wrong is not reported. -/
theorem iterate_fails (hfits : c.settings.total ≤ Whole.max32) (hpatience : 5 ≤ c.patience)
    (hcounted : c.IsCounted size) (hsolo : c.settings.IsSolo) {n : Nat}
    (hn : n < c.settings.total) (world : σ)
    (hbad : ∃ x ∈ ((c.watched.iterate (.reached c.settings n)).run world).log,
      x.isGood = false) :
    ∃ f, ((c.iterate (.reached c.settings n)).run world).1 = (.error f, .failed) := by
  have hiterate : c.watched.iterate (.reached c.settings n) = _ :=
    iterate_reached (c := c.watched) hfits hn
  have hreport : Performs True (c.blame 0) _ _ :=
    performs_report hpatience (hcounted (Supervisor.position c.settings n).1)
      (fun _ => activeSeats_of_isSolo hsolo) (Supervisor.position c.settings n).2
  have hcall : Logs (conclude (.reached c.settings (n + 1)) _) _ := concludes_conclude hreport
  have hrun := hcall world
  rw [shows_iterate]
  rw [hiterate] at hbad ⊢
  cases hrun.fares with
  | well _ _ hgood _ =>
    obtain ⟨x, hx, hxbad⟩ := hbad
    rw [hgood x hx] at hxbad
    cases hxbad
  | ill _ hstops =>
    obtain ⟨f, _, _, _, _, hf, -⟩ := hstops True.intro
    exact ⟨f, hrun.eq_of_error hf⟩

/-- **The first failure stops the trial.**  With one thread the calls of a trial are those of the
success trace up to the first that is answered with an error; that one is the last, the trial has
failed of it, and the iteration in which it happens is not reported. -/
theorem runAll_stops (c : Conductor (StateM σ)) {size : Phase → UInt64}
    (hcounted : c.IsCounted size) (hsolo : c.settings.IsSolo)
    (hfits : c.settings.total ≤ Whole.max32) (hpatience : 5 ≤ c.patience) :
    ∃ group seat, GroupSeat.layout c.settings.groups = [group] ∧
      Seat.layout c.settings.groups = [seat] ∧
        (∀ world,
          let trial := (c.watched.runAll .ready).run world
          (c.runAll .ready).run world = (trial.answer, trial.world) ∧
            c.StopsAtFirst (c.soloCalls size group seat) trial) ∧
        ∀ n < c.settings.total, ∀ world,
          (∃ x ∈ ((c.watched.iterate (.reached c.settings n)).run world).log,
            x.isGood = false) →
            ∃ f, ((c.iterate (.reached c.settings n)).run world).1 = (.error f, .failed) := by
  obtain ⟨group, seat, hgroup, hseat, -, hplace, hactive⟩ := hsolo.exists_seat
  have hscript : c.script size = c.soloCalls size group seat :=
    script_solo hgroup hseat hplace (activeSeats_of_layout hseat hactive)
  refine ⟨group, seat, hgroup, hseat, fun world => ⟨shows_runAll .ready world, ?_⟩,
    fun n hn world hbad => ?_⟩
  · have hrun : Concludes True (c.blame 0) (c.script size) .done
        ((c.watched.runAll .ready).run world).answer
        ((c.watched.runAll .ready).run world).log :=
      concludes_runAll hfits hpatience hcounted (fun _ => activeSeats_of_isSolo hsolo) world
    rw [← hscript]
    refine ⟨fun hgood => ?_, fun k hk hgood => ?_⟩
    · obtain ⟨hended, hmade⟩ := hrun.of_good hgood
      exact ⟨hmade, hended⟩
    · obtain ⟨x, hget, hcall, herror⟩ := hrun.fares.next_call hk hgood
      refine ⟨x, hget, hcall, fun e he => ?_⟩
      obtain ⟨hmade, hresult⟩ := herror e he
      exact ⟨hmade, hrun.eq_of_error hresult⟩
  · exact iterate_fails hfits hpatience hcounted hsolo hn world hbad

/-- The teardown of the group breaks after the first iteration. -/
def groupTeardown : Call := .fixture .teardown .iteration (.group ⟨0, "a", 1⟩)

/-- The trial in which it does. -/
theorem runAll_stops_groupTeardown :
    let c := rehearsed [⟨"a", 1⟩] (· = groupTeardown)
    c.IsCounted rehearsedSize ∧ c.settings.IsSolo ∧ c.settings.total ≤ Whole.max32 ∧
      5 ≤ c.patience ∧ ∃ group seat, GroupSeat.layout c.settings.groups = [group] ∧
        Seat.layout c.settings.groups = [seat] ∧
          (∀ world,
            let trial := (c.watched.runAll .ready).run world
            (c.runAll .ready).run world = (trial.answer, trial.world) ∧
              c.StopsAtFirst (c.soloCalls rehearsedSize group seat) trial) ∧
          ∀ n < c.settings.total, ∀ world,
            (∃ x ∈ ((c.watched.iterate (.reached c.settings n)).run world).log,
              x.isGood = false) →
              ∃ f, ((c.iterate (.reached c.settings n)).run world).1 = (.error f, .failed) := by
  intro c
  have hcounted : c.IsCounted rehearsedSize := isCounted_rehearsed _ _
  have hsolo : c.settings.IsSolo := ⟨rfl, by decide⟩
  have hfits : c.settings.total ≤ Whole.max32 := by decide
  have hpatience : 5 ≤ c.patience := by decide
  exact ⟨hcounted, hsolo, hfits, hpatience, runAll_stops c hcounted hsolo hfits hpatience⟩

/-- The teardown of the benchmark does not follow, and nothing else does. -/
example :
    let trial := ((rehearsed [⟨"a", 1⟩] (· = groupTeardown)).watched.runAll .ready).run 0
    (calls trial.log).length = 18 ∧ (calls trial.log).getLast? = some groupTeardown ∧
      trial.answer.2 = .failed := by
  decide +kernel

end Conductor

end Microbench
