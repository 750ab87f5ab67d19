import Microbench.Proofs.Engine.Watching

/-!
# Two ways of running a batch

A batch is timed as a whole unless something has to happen around each invocation.
For a task without invocation fixtures it makes no difference if some are declared
that do nothing: the invocations are the same, and so is what they come to.  The two
ways look at the clock at different times, so this holds of tasks whose invocations do
not depend on the clock.

## Main definitions

* `Work.tally` — what was measured, without the times.
* `Bench.padded` — a task for which invocation fixtures are declared that do nothing.
* `invocations` — the invocations among the exchanges with a task.
* `Bench.IsTimeless` — invocations that do not depend on the clock.
* `Silent` — a computation that succeeds without an invocation and leaves what is in view.
* `abreast` — two computations with the same invocations that come to the same.

## Main results

* `Silent.left`, `Silent.right` — what is silent goes unnoticed on either side.
* `Bench.abreast_batches` — the loops of the two ways, from the step that they share.
* `Bench.batch_padded` — **fixtures that do nothing change nothing.**
-/

namespace Microbench

/-- What was measured and recorded, without the times. -/
structure Tally where
  /-- How many invocations were counted. -/
  operations : Nat
  /-- The values they reported. -/
  reported : Array Float
  /-- What was recorded. -/
  recorded : Recorded

/-- What a thread has measured and recorded, without the times. -/
def Work.tally (w : Work) : Tally := ⟨w.meter.operations, w.meter.reported, w.recorded⟩

/-- A tally with more invocations counted. -/
def Tally.plus (t : Tally) (n : Nat) : Tally := { t with operations := t.operations + n }

theorem Tally.plus_plus (t : Tally) (m n : Nat) : (t.plus m).plus n = t.plus (m + n) :=
  congrArg (Tally.mk · _ _) (Nat.add_assoc _ _ _)

/-- The task with invocation fixtures that do nothing, in the scopes where they are declared. -/
def Task.padded {m : Type → Type} [Monad m] (t : Task m) (declared : Scope → Bool) : Task m where
  fixtures := ⟨fun level scope => if level = .invocation then declared scope
    else t.fixtures.has level scope⟩
  call
    | .fixture _ .invocation _ => pure {}
    | c => t.call c

/-- A bench whose task has invocation fixtures that do nothing. -/
def Bench.padded {m : Type → Type} [Monad m] (b : Bench m) (declared : Scope → Bool) : Bench m :=
  { b with task := b.task.padded declared }

/-- Whether the benchmarked code is run. -/
def Call.isInvocation : Call → Bool
  | .invoke _ => true
  | _ => false

/-- The invocations among the exchanges with a task. -/
def invocations (log : List Exchange) : List Exchange := log.filter fun x => x.call.isInvocation

@[simp] theorem invocations_nil : invocations [] = [] := rfl

@[simp] theorem invocations_append (log more : List Exchange) :
    invocations (log ++ more) = invocations log ++ invocations more := List.filter_append log more

variable {σ τ α β γ δ ε : Type}

/-- As far as a view shows the world, invocations do not depend on the clock: how the task answers
one and what that leaves depends on what is in view, and looking at the clock leaves that alone. -/
structure Bench.IsTimeless (b : Bench (StateM σ)) (view : σ → τ) : Prop where
  /-- An invocation depends on what is in view. -/
  invoke : ∀ seat, InStep (fun world world' => view world = view world')
    (b.task.call (.invoke seat)).run (b.task.call (.invoke seat)).run
  /-- The clock is out of view. -/
  now : ∀ world, view (b.host.now.run world).2 = view world

/-! ### Computations abreast -/

/-- A computation that succeeds without an invocation and leaves what is in view. -/
def Silent (view : σ → τ) (x : ExceptT ε (Watched σ) α) : Prop :=
  ∀ world, (∃ a, (x.run.run world).answer = .ok a) ∧
    invocations (x.run.run world).log = [] ∧ view (x.run.run world).world = view world

namespace Silent

variable {view : σ → τ}

theorem pure (a : α) : Silent (ε := ε) view (Pure.pure a) := fun _ => ⟨⟨a, rfl⟩, rfl, rfl⟩

theorem lift {x : StateM σ α} (h : ∀ world, view (x.run world).2 = view world) :
    Silent (ε := ε) view (ExceptT.lift (.quiet x)) := fun world => ⟨⟨_, rfl⟩, rfl, h world⟩

theorem bind {x : ExceptT ε (Watched σ) α} {f : α → ExceptT ε (Watched σ) β}
    (hx : Silent view x) (hf : ∀ a, Silent view (f a)) : Silent view (x >>= f) := by
  intro world
  obtain ⟨⟨a, ha⟩, hlog, hview⟩ := hx world
  obtain ⟨hanswer, hlog', hview'⟩ := hf a (x.run.run world).world
  rw [ExceptT.run_bind, Watched.run_bind]
  dsimp only
  rw [ha]
  refine ⟨hanswer, ?_, hview'.trans hview⟩
  rw [invocations_append, hlog, hlog', List.nil_append]

theorem forM {l : List α} {f : α → ExceptT ε (Watched σ) PUnit} (h : ∀ a, Silent view (f a)) :
    Silent view (l.forM f) := by
  induction l with
  | nil => exact pure _
  | cons a l ih => exact bind (h a) fun _ => ih

end Silent

/-- From worlds that look alike, both computations make the same invocations, come to answers that
are related, and leave worlds that look alike. -/
def abreast (view : σ → τ) : Pairing (Watched σ) (Watched σ) where
  Rel Q x y := ∀ world world', view world = view world' →
    Q (x.run world).answer (y.run world').answer ∧
    invocations (x.run world).log = invocations (y.run world').log ∧
    view (x.run world).world = view (y.run world').world
  pure h := fun _ _ hview => ⟨h, rfl, hview⟩
  bind h hfg := fun world world' hworlds => by
    obtain ⟨hanswers, hlogs, hview⟩ := h world world' hworlds
    obtain ⟨hnext, hmore, hafter⟩ := hfg _ _ hanswers _ _ hview
    rw [Watched.run_bind, Watched.run_bind]
    refine ⟨hnext, ?_, hafter⟩
    rw [invocations_append, invocations_append, hlogs, hmore]

namespace Silent

variable {view : σ → τ} {Q : β → γ → Prop} {x : ExceptT ε (Watched σ) α}

/-- What is silent on the left goes unnoticed. -/
theorem left {f : α → ExceptT ε (Watched σ) β} {y : ExceptT ε (Watched σ) γ} (hx : Silent view x)
    (h : ∀ a, (abreast view).Tries Q (f a) y) : (abreast view).Tries Q (x >>= f) y := by
  have hnothing : (abreast view).Tries (fun _ _ => True) x (Pure.pure ()) := by
    intro world world' hworlds
    obtain ⟨⟨a, ha⟩, hlog, hview⟩ := hx world
    rw [ha]
    exact ⟨.ok True.intro, hlog, hview.trans hworlds⟩
  rw [← pure_bind () fun _ => y]
  exact Pairing.andThen hnothing fun a _ _ => h a

/-- What is silent on the right goes unnoticed. -/
theorem right {f : α → ExceptT ε (Watched σ) γ} {y : ExceptT ε (Watched σ) β} (hx : Silent view x)
    (h : ∀ a, (abreast view).Tries Q y (f a)) : (abreast view).Tries Q y (x >>= f) := by
  have hnothing : (abreast view).Tries (fun _ _ => True) (Pure.pure ()) x := by
    intro world world' hworlds
    obtain ⟨⟨a, ha⟩, hlog, hview⟩ := hx world'
    rw [ha]
    exact ⟨.ok True.intro, hlog.symm, hworlds.trans hview.symm⟩
  rw [← pure_bind () fun _ => y]
  exact Pairing.andThen hnothing fun _ a _ => h a

end Silent

/-! ### The loops of the two ways -/

/-- What becomes of a reply depends on the tally alone. -/
theorem Work.endsAlike_take {w w' : Work} {k : Nat} (h : w'.tally = w.tally.plus k)
    (reply : Reply) :
    EndsAlike (fun v v' => v'.tally = v.tally.plus k) (w.take reply) (w'.take reply) := by
  have hoperations : w'.meter.operations = w.meter.operations + k := congrArg Tally.operations h
  have hreported : w'.meter.reported = w.meter.reported := congrArg Tally.reported h
  have hrecorded : w'.recorded = w.recorded := congrArg Tally.recorded h
  unfold take Meter.take
  rw [hrecorded]
  cases reply.outcome with
  | timed => exact .ok (congrArg₂ (Tally.mk · · _) hoperations hreported)
  | reported value =>
    dsimp only
    split
    · rw [hreported]
      exact .ok (congrArg (Tally.mk · _ _) hoperations)
    · exact .error _

theorem Bench.tally_wantsTime (w : Work) : (wantsTime w).2.tally = w.tally := by
  unfold wantsTime
  split <;> rfl

theorem Bench.tally_count (w : Work) (elapsed : Option Duration) :
    (count w elapsed).tally = w.tally.plus 1 := by
  cases elapsed <;> rfl

namespace Bench

variable {b : Bench (StateM σ)} {view : σ → τ} {declared : Scope → Bool} {seat : Seat}

theorem silent_now (h : b.IsTimeless view) : Silent view b.watched.now := .lift h.now

theorem silent_paddedFixtures (stage : Stage) :
    Silent view ((b.padded declared).watched.invocationFixtures seat stage) := by
  refine .forM fun scope => ?_
  split
  · -- the fixture answers at once
    refine .bind (fun world => ⟨⟨{}, rfl⟩, rfl, rfl⟩) fun _ => .pure _
  · exact .pure _

/-- The invocation itself is the same. -/
theorem abreast_call (h : b.IsTimeless view) (thread : Option Nat) :
    (abreast view).Tries Eq (b.watched.call .invocation thread (.invoke seat))
      ((b.padded declared).watched.call .invocation thread (.invoke seat)) := by
  refine Pairing.call rfl ?_ _ _
  intro world world' hworlds
  obtain ⟨hanswer, hview⟩ := h.invoke seat world world' hworlds
  have hlogs := congrArg (fun answer => invocations [⟨.invoke seat, answer⟩]) hanswer
  exact ⟨.of_eq hanswer, hlogs, hview⟩

/-- An invocation between fixtures that do nothing is the invocation. -/
theorem abreast_invocation (h : b.IsTimeless view) (wanted : Bool) :
    (abreast view).Tries (fun reply r => r.1 = reply)
      (b.watched.call .invocation (some seat.index) (.invoke seat))
      ((b.padded declared).watched.invocation seat wanted) := by
  have hpadded : (b.padded declared).IsTimeless view := ⟨h.invoke, h.now⟩
  have hnow : Silent view (some <$> (b.padded declared).watched.now) := by
    rw [← bind_pure_comp]
    exact .bind (silent_now hpadded) fun _ => .pure _
  unfold invocation
  rw [← bind_pure (b.watched.call _ _ _)]
  refine (silent_paddedFixtures .setup).right fun _ => ?_
  cases wanted with
  | true =>
    refine hnow.right fun start => Pairing.andThen (abreast_call h _) fun reply reply' heq => ?_
    exact hnow.right fun stop => (silent_paddedFixtures .teardown).right fun _ =>
      Pairing.ok heq.symm
  | false =>
    refine (Silent.pure _).right fun start => ?_
    refine Pairing.andThen (abreast_call h _) fun reply reply' heq => ?_
    exact (Silent.pure _).right fun stop => (silent_paddedFixtures .teardown).right fun _ =>
      Pairing.ok heq.symm

theorem abreast_accept {w w' : Work} {k : Nat} (h : w'.tally = w.tally.plus k) (reply : Reply) :
    (abreast view).Tries (fun v v' => v'.tally = v.tally.plus k)
      (b.watched.accept seat w reply) ((b.padded declared).watched.accept seat w' reply) := by
  have htakes := Work.endsAlike_take h reply
  unfold accept
  generalize w.take reply = r at htakes ⊢
  generalize w'.take reply = r' at htakes ⊢
  cases htakes with
  | ok h => exact Pairing.ok h
  | error e => exact Pairing.fail _

/-- As many invocations, in a row and one by one.  The one way counts at the end of the batch, the
other has counted `k` of them before. -/
theorem abreast_batches (h : b.IsTimeless view) (n k : Nat) {w w' : Work}
    (hw : w'.tally = w.tally.plus k) :
    (abreast view).Tries (fun v v' => v'.tally = v.tally.plus (k + n))
      (b.watched.invokeTimes seat n w) ((b.padded declared).watched.bracketedBatch seat n w') := by
  induction n generalizing k w w' with
  | zero => exact Pairing.ok hw
  | succ n ih =>
    unfold invokeTimes bracketedBatch
    refine Pairing.andThen (abreast_invocation h _) fun reply r hreply => ?_
    obtain ⟨reply', elapsed⟩ := r
    obtain rfl : reply' = reply := hreply
    have hcounted : (count (wantsTime w').2 elapsed).tally = w.tally.plus (k + 1) := by
      rw [tally_count, tally_wantsTime, hw, Tally.plus_plus]
    refine Pairing.andThen (abreast_accept hcounted _) fun v v' hv => ?_
    have hrest := ih (k + 1) hv
    rwa [Nat.add_right_comm] at hrest

/-- A batch that is timed as a whole and one whose invocations are run one by one. -/
theorem abreast_plainBatch (h : b.IsTimeless view) (n : Nat) {w w' : Work}
    (hw : w'.tally = w.tally) :
    (abreast view).Tries (fun v v' => v.tally = v'.tally)
      (b.watched.plainBatch seat n w) ((b.padded declared).watched.bracketedBatch seat n w') := by
  rw [← bind_pure (bracketedBatch _ _ _ _)]
  refine (silent_now h).left fun start => ?_
  refine Pairing.andThen (abreast_batches h n 0 hw) fun v v' hv => ?_
  refine (silent_now h).left fun stop => Pairing.ok ?_
  rw [hv, Nat.zero_add]
  rfl

theorem isBracketed_eq_false (hmode : b.settings.mode ≠ .sampleTime)
    (hnone : b.task.fixtures.anyAt .invocation = false) : b.isBracketed = false := by
  rw [isBracketed, hnone, decide_eq_false hmode]
  rfl

theorem isBracketed_padded {scope : Scope} (h : declared scope = true) :
    (b.padded declared).isBracketed = true := by
  have hmem : scope ∈ Scope.all := by cases scope <;> decide
  have hany : (b.padded declared).task.fixtures.anyAt .invocation = true :=
    List.any_eq_true.2 ⟨scope, hmem, h⟩
  rw [isBracketed, hany, Bool.or_true]

/-- **Fixtures that do nothing change nothing.**  A mode that does not sample, a task without
invocation fixtures, and the same task with such fixtures declared in some scope whose bodies do
nothing: the first runs a batch as a whole, the second runs its invocations one by one.  Yet they
make the same invocations with the same replies, as many of them, and either both succeed, with
the same count, the same reported values in order and the same recorded samples, or both fail
with the same failure.  That is so for any number of invocations, any replies to them, and
whatever the thread has measured before. -/
theorem batch_padded {b : Bench (StateM σ)} {view : σ → τ} (htask : b.IsTimeless view)
    (hmode : b.settings.mode ≠ .sampleTime) (hnone : b.task.fixtures.anyAt .invocation = false)
    (declared : Scope → Bool) {scope : Scope} (hscope : declared scope = true) (seat : Seat)
    (n : Nat) {w w' : Work} (hw : w'.tally = w.tally) {world world' : σ}
    (hworld : view world = view world') :
    let plain := (b.watched.batch seat n w).run.run world
    let padded := ((b.padded declared).watched.batch seat n w').run.run world'
    -- what is watched are the two ways of running a batch
    ((b.plainBatch seat n w).run.run world = (plain.answer, plain.world) ∧
      ((b.padded declared).bracketedBatch seat n w').run.run world' =
        (padded.answer, padded.world)) ∧
    invocations plain.log = invocations padded.log ∧
    plain.answer.map Work.tally = padded.answer.map Work.tally ∧
    view plain.world = view padded.world := by
  have hplain : b.batch seat n w = b.plainBatch seat n w :=
    if_neg (Bool.eq_false_iff.1 (isBracketed_eq_false hmode hnone))
  have hwatched : b.watched.batch seat n w = b.watched.plainBatch seat n w :=
    if_neg (Bool.eq_false_iff.1 (isBracketed_eq_false hmode hnone))
  have hpadded : (b.padded declared).batch seat n w' =
      (b.padded declared).bracketedBatch seat n w' := if_pos (isBracketed_padded hscope)
  have hwatched' : (b.padded declared).watched.batch seat n w' =
      (b.padded declared).watched.bracketedBatch seat n w' := if_pos (isBracketed_padded hscope)
  have hbatches : (abreast view).Tries (fun v v' => v.tally = v'.tally)
      (b.watched.batch seat n w) ((b.padded declared).watched.batch seat n w') := by
    rw [hwatched, hwatched']
    exact abreast_plainBatch htask n hw
  obtain ⟨hanswers, hlogs, hview⟩ := hbatches world world' hworld
  intro plain padded
  refine ⟨⟨?_, ?_⟩, ?_⟩
  · rw [← hplain]
    exact shows_batch n w world
  · rw [← hpadded]
    exact shows_batch n w' world'
  · exact ⟨hlogs, hanswers.map_eq fun _ _ h => h, hview⟩

/-- A task that answers its invocations from a list, on a machine whose clock goes on whenever it is
looked at. -/
def reciting : Bench (StateM (Nat × List (Except TaskError Reply))) where
  task :=
    { fixtures := .none
      call
        | .invoke _ => ExceptT.mk <| modifyGet fun
          | (clock, answer :: rest) => (answer, clock, rest)
          | (clock, []) => (.ok {}, clock, [])
        | _ => pure {} }
  settings := .idle
  host :=
    { now := modifyGet fun (clock, rest) => (⟨clock⟩, clock + 1, rest)
      usage := pure default }

theorem isTimeless_reciting : reciting.IsTimeless Prod.snd where
  invoke seat := by
    rintro ⟨clock, answers⟩ ⟨clock', answers'⟩ (rfl : answers = answers')
    cases answers with
    | nil => exact ⟨rfl, rfl⟩
    | cons answer rest => exact ⟨rfl, rfl⟩
  now := fun _ => rfl

/-- Of three invocations the second fails, whichever way the batch is run and whatever the clocks
show. -/
theorem batch_padded_reciting :
    let answers : List (Except TaskError Reply) :=
      [.ok {}, .error (.message "queue overflow"), .ok {}]
    let seat : Seat := ⟨0, 1, 0, Settings.implicitGroup, 0, 1⟩
    let work : Work := ⟨.ofMode .averageTime, .empty⟩
    let failure : Failure := ⟨"idle", .invocation, some 0, "queue overflow"⟩
    let plain := (reciting.watched.batch seat 3 work).run.run (5, answers)
    let padded := ((reciting.padded fun scope => scope = .thread).watched.batch seat 3 work).run.run
      (70, answers)
    plain.answer = .error failure ∧ padded.answer = .error failure ∧
      (invocations plain.log).length = 2 ∧ invocations plain.log = invocations padded.log := by
  intro answers seat work failure plain padded
  have hthread : decide (Scope.thread = .thread) = true := by decide
  have hanswers : ((5, answers) : Nat × _).2 = ((70, answers) : Nat × _).2 := rfl
  have h := batch_padded isTimeless_reciting (by decide) (by decide)
    (fun scope => decide (scope = .thread)) hthread seat 3 (Eq.refl work.tally) hanswers
  exact ⟨rfl, rfl, rfl, h.2.1⟩

end Bench

end Microbench
