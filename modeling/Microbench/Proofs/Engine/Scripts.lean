import Microbench.Proofs.Engine.Brackets
import Microbench.Proofs.Engine.Log

/-!
# What the parts of a trial ask of the task

Every part of a trial that runs in one thread has a script: the fixtures of a level,
a batch of invocations with the fixtures around each of them, and the state that is
built before everything else.  Whichever call of a script fails, the failure tells
the stage and the level of that call.

## Main definitions

* `Call.site`, `Call.blamed` — where a failure of a call belongs.
* `Bench.blame` — the failure that an error of a call becomes.
* `Bench.around`, `Bench.ownFixture` — an invocation between its fixtures, and the iteration fixture
  of a thread.

## Main results

* `Bench.performs_batch` — a batch makes its invocations, each between its fixtures.
* `Conductor.performs_build`, `Conductor.performs_fixtures` — the calls of the controlling thread.
-/

namespace Microbench

/-- The stage and the level of a call, as failures tell them. -/
def Call.site : Call → Site
  | build _ => .setup .trial
  | fixture stage level _ => stage.site level
  | invoke _ => .invocation

/-- The thread that a failure of a call belongs to, when `index` is the thread that invokes. -/
def Call.blamed (index : Nat) : Call → Option Nat
  | build t => Conductor.threadOf t
  | fixture _ .invocation _ => some index
  | fixture _ _ t => Conductor.threadOf t
  | invoke _ => some index

namespace Bench

variable {σ : Type}

/-- The failure that an error of a call becomes. -/
def blame {m : Type → Type} (b : Bench m) (index : Nat) (c : Call) (e : TaskError) : Failure :=
  ⟨b.settings.task, c.site, c.blamed index, e.text⟩

/-- An invocation of a thread between its fixtures. -/
def around {m : Type → Type} (b : Bench m) (seat : Seat) : List Call :=
  bracket b.task.fixtures .invocation [.benchmark, .group (b.groupOf seat), .thread seat]
    [.invoke seat]

/-- The iteration fixture of a thread, if it is declared. -/
def ownFixture {m : Type → Type} (b : Bench m) (stage : Stage) (seat : Seat) : List Call :=
  if b.task.fixtures.has .iteration .thread then [.fixture stage .iteration (.thread seat)] else []

variable {b : Bench (StateM σ)} {strict : Prop} {seat : Seat}

/-! ### Single calls -/

theorem logs_call (site : Site) (thread : Option Nat) (c : Call) :
    Logs (b.watched.call site thread c).run fun r log =>
      ∃ answer, log = [⟨c, answer⟩] ∧ r = answer.mapError (b.watched.failure site thread) := by
  refine Logs.bind (P := fun answer log => log = [⟨c, answer⟩]) (Logs.call fun _ => rfl) ?_
  rintro answer log rfl
  cases answer with
  | ok reply => exact Logs.pure ⟨.ok reply, rfl, rfl⟩
  | error e => exact Logs.pure ⟨.error e, rfl, rfl⟩

/-- A call that is no invocation. -/
theorem performs_call {blame : Call → TaskError → Failure} {site : Site} {thread : Option Nat}
    {c : Call} (hc : ∀ seat, c ≠ .invoke seat)
    (hblame : ∀ e, b.watched.failure site thread e = blame c e) :
    Performs strict blame (do let _ ← b.watched.call site thread c) [c] := by
  refine Performs.map ((logs_call site thread c).mono fun r log hr => ?_)
  obtain ⟨answer, rfl, rfl⟩ := hr
  cases answer with
  | ok reply =>
    refine Fares.of_good (x := ⟨c, .ok reply⟩) ?_
    cases c with
    | invoke seat => exact absurd rfl (hc seat)
    | _ => rfl
  | error e =>
    have herror : b.watched.failure site thread e = blame c e := hblame e
    show Fares strict blame [c] (.error (b.watched.failure site thread e)) _
    rw [herror]
    exact Fares.of_error

theorem performs_invocationFixtures (stage : Stage) :
    Performs strict (b.blame seat.index) (b.watched.invocationFixtures seat stage)
      (fixtureCalls b.task.fixtures stage .invocation fun scope => [b.target seat scope]) := by
  refine Performs.forM fun scope _ => ?_
  dsimp only
  have hfixtures : b.watched.task.fixtures = b.task.fixtures := rfl
  rw [hfixtures]
  split
  · exact performs_call (fun _ => nofun) fun _ => rfl
  · exact Performs.pure

theorem performs_threadFixture (stage : Stage) :
    Performs strict (fun _ e => e) (b.watched.threadFixture seat stage)
      (b.ownFixture stage seat) := by
  unfold threadFixture ownFixture
  have hfixtures : b.watched.task.fixtures = b.task.fixtures := rfl
  rw [hfixtures]
  split
  · refine Performs.map (Logs.call fun answer => ?_)
    cases answer with
    | ok reply => exact Fares.of_good (x := ⟨_, .ok reply⟩) rfl
    | error e => exact Fares.of_error
  · exact Performs.pure

/-! ### Invocations -/

/-- A reply is taken if its outcome can be. -/
theorem take_of_finite (w : Work) {reply : Reply} (h : reply.outcome.isFinite = true) :
    ∃ w', w.take reply = .ok w' := by
  obtain ⟨outcome, recordings⟩ := reply
  cases outcome with
  | timed => exact ⟨_, rfl⟩
  | reported value =>
    have hfinite : Binary.isFinite value = true := h
    exact ⟨_, by rw [Work.take, Meter.take, if_pos hfinite]; rfl⟩

theorem take_of_infinite (w : Work) {reply : Reply} (h : reply.outcome.isFinite = false) :
    ∃ e, w.take reply = .error e := by
  obtain ⟨outcome, recordings⟩ := reply
  cases outcome with
  | timed => cases h
  | reported value =>
    have hfinite : ¬ Binary.isFinite value = true := ne_true_of_eq_false h
    exact ⟨_, by rw [Work.take, Meter.take, if_neg hfinite]; rfl⟩

theorem accept_of_finite {m : Type → Type} [Monad m] (b : Bench m) (seat : Seat) (w : Work)
    {reply : Reply} (h : reply.outcome.isFinite = true) :
    ∃ w', b.accept seat w reply = pure w' := by
  obtain ⟨w', htake⟩ := take_of_finite w h
  exact ⟨w', by rw [accept, htake]⟩

theorem fails_accept (w : Work) {reply : Reply} (h : reply.outcome.isFinite = false) :
    Fails (b.watched.accept seat w reply) := by
  obtain ⟨e, htake⟩ := take_of_infinite w h
  rw [accept, htake]
  exact Logs.pure ⟨_, rfl⟩

theorem performs_now {blame : Call → TaskError → Failure} :
    Performs strict blame b.watched.now [] := Performs.quiet

theorem performs_invokeTimes (n : Nat) (w : Work) :
    Performs strict (b.blame seat.index) (b.watched.invokeTimes seat n w)
      (List.replicate n [.invoke seat]).flatten := by
  induction n generalizing w with
  | zero => exact Performs.pure
  | succ n ih =>
    rw [List.replicate_succ, List.flatten_cons]
    refine Performs.invoke (logs_call .invocation (some seat.index) _) ?_ ?_
    · intro reply hfinite
      obtain ⟨w', hw'⟩ := accept_of_finite b.watched seat w hfinite
      rw [hw', pure_bind]
      exact ih w'
    · intro reply hinfinite
      exact Fails.andThen (fails_accept w hinfinite)

theorem performs_plainBatch (n : Nat) (w : Work) :
    Performs strict (b.blame seat.index) (b.watched.plainBatch seat n w)
      (List.replicate n [.invoke seat]).flatten := by
  refine Performs.silent performs_now fun start => ?_
  rw [← List.append_nil (List.flatten _)]
  refine Performs.bind (performs_invokeTimes n w) fun w' => ?_
  exact Performs.map performs_now

/-- The clock, if it is wanted. -/
def look {m : Type → Type} [Monad m] (b : Bench m) (wanted : Bool) :
    ExceptT Failure m (Option Duration) :=
  if wanted then some <$> b.now else pure none

/-- What happens to the reply of an invocation after it. -/
theorem invocation_bind {m : Type → Type} [Monad m] [LawfulMonad m] {α : Type} (b : Bench m)
    (seat : Seat) (wanted : Bool) (k : Reply × Option Duration → ExceptT Failure m α) :
    b.invocation seat wanted >>= k = (do
      b.invocationFixtures seat .setup
      let start ← b.look wanted
      let reply ← b.call .invocation (some seat.index) (.invoke seat)
      let stop ← b.look wanted
      b.invocationFixtures seat .teardown
      k (reply, start.bind fun t => stop.map fun t' => t'.minus t)) := by
  cases wanted <;> simp [invocation, look]

theorem performs_look {blame : Call → TaskError → Failure} (wanted : Bool) :
    Performs strict blame (b.watched.look wanted) [] := by
  cases wanted with
  | true =>
    have hnow : Performs strict blame (do let t ← b.watched.now; pure (some t)) [] :=
      performs_now.map
    rwa [bind_pure_comp] at hnow
  | false => exact Performs.pure

theorem around_eq (seat : Seat) :
    b.around seat =
      fixtureCalls b.task.fixtures .setup .invocation (fun scope => [b.target seat scope]) ++
        ([.invoke seat] ++ fixtureCalls b.task.fixtures .teardown .invocation
          fun scope => [b.target seat scope]) := by
  have hscope : ∀ scope t, some (b.target seat scope) = some t → t.scope = scope := by
    rintro scope t ⟨⟩
    cases scope <;> rfl
  rw [← List.append_assoc]
  exact bracket_eq _ _ (fun scope => some (b.target seat scope)) (fun _ => rfl) hscope _

/-- A batch whose invocations are run between their fixtures. -/
theorem performs_bracketedBatch (n : Nat) (w : Work) :
    Performs strict (b.blame seat.index) (b.watched.bracketedBatch seat n w)
      (List.replicate n (b.around seat)).flatten := by
  induction n generalizing w with
  | zero => exact Performs.pure
  | succ n ih =>
    rw [List.replicate_succ, List.flatten_cons]
    -- the script of the other invocations has the same fixtures in it
    generalize (List.replicate n (b.around seat)).flatten = rest at ih ⊢
    rw [around_eq, List.append_assoc, List.append_assoc]
    unfold bracketedBatch
    dsimp only
    rw [invocation_bind]
    refine Performs.bind (performs_invocationFixtures .setup) fun _ => ?_
    refine Performs.silent (performs_look _) fun start => ?_
    refine Performs.invoke (logs_call .invocation (some seat.index) _) ?_ ?_
    · intro reply hfinite
      refine Performs.silent (performs_look _) fun stop => ?_
      refine Performs.bind (performs_invocationFixtures .teardown) fun _ => ?_
      obtain ⟨w', hw'⟩ := accept_of_finite b.watched seat (count (wantsTime w).2
        (start.bind fun t => stop.map fun t' => t'.minus t)) hfinite
      rw [hw', pure_bind]
      exact ih w'
    · -- the reply is objected to only after the teardown fixtures
      intro reply hinfinite
      refine Fails.bind fun stop => Fails.bind fun _ => ?_
      exact Fails.andThen (fails_accept _ hinfinite)

/-- Where no invocation fixture is declared there is nothing around an invocation. -/
theorem around_of_not_bracketed (h : b.isBracketed = false) : b.around seat = [.invoke seat] := by
  have hnone : b.task.fixtures.anyAt .invocation = false := (Bool.or_eq_false_iff.1 h).2
  simp only [Fixtures.anyAt, Scope.all, List.any_cons, List.any_nil, Bool.or_eq_false_iff] at hnone
  obtain ⟨hbenchmark, hgroup, hthread, -⟩ := hnone
  simp [around, bracket, Target.scope, hbenchmark, hgroup, hthread]

/-- **A batch** makes its invocations, each between its fixtures. -/
theorem performs_batch (n : Nat) (w : Work) :
    Performs strict (b.blame seat.index) (b.watched.batch seat n w)
      (List.replicate n (b.around seat)).flatten := by
  unfold batch
  split
  · exact performs_bracketedBatch n w
  · next h =>
    have hplain : b.isBracketed = false := eq_false_of_ne_true h
    rw [around_of_not_bracketed hplain]
    exact performs_plainBatch n w

end Bench

namespace Conductor

variable {σ : Type} {c : Conductor (StateM σ)} {strict : Prop}

theorem performs_fixtures (index : Nat) {level : Level} (hlevel : level ≠ .invocation)
    (stage : Stage) :
    Performs strict (c.blame index) (c.watched.fixtures level stage)
      (fixtureCalls c.task.fixtures stage level (c.targets level)) := by
  refine Performs.forM fun scope _ => ?_
  have hfixtures : c.watched.task.fixtures = c.task.fixtures := rfl
  rw [hfixtures]
  split
  · rw [List.map_eq_flatMap]
    refine Performs.forM fun target _ => ?_
    refine Bench.performs_call (b := c.toBench) (fun _ => nofun) fun e => ?_
    cases level with
    | invocation => exact absurd rfl hlevel
    | _ => rfl
  · exact Performs.pure

/-- All state is built, the widest first. -/
theorem performs_build (index : Nat) :
    Performs strict (c.blame index) c.watched.build
      (Scope.all.flatMap fun scope => (c.targets .trial scope).map .build) := by
  refine Performs.forM fun scope _ => ?_
  rw [List.map_eq_flatMap]
  refine Performs.forM fun target _ => ?_
  exact Bench.performs_call (b := c.toBench) (fun _ => nofun) fun _ => rfl

end Conductor

end Microbench
