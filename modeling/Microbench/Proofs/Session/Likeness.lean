import Microbench.Proofs.Worlds
import Microbench.Session.Supervisor

/-!
# Sessions in worlds that are alike

A supervisor knows of a worker what the launcher tells.  Where a launcher answers in the same
way in two worlds and leaves them alike, a session comes to the same in both, whatever
else there is in them.  The command that starts the worker shows in a session only where
the worker cannot be started, as the name of the program.

## Main definitions

* `Launcher.Indifferent` — workers to which it makes no difference how they are started.
* `Supervisor.converse` — a session with a worker that has been started.

## Main results

* `Supervisor.inStep_converse` — what follows after a worker has been started.
* `Supervisor.run_alike` — **a session comes to the same in worlds that are alike.**
-/

namespace Microbench

variable {σ α : Type}

/-- Workers to which it makes no difference how they are started, and which say and do the same in
worlds that are alike. -/
structure Launcher.Indifferent (l : Launcher (StateM σ)) (R : σ → σ → Prop) : Prop where
  start : ∀ program args program' args' probes,
    InStep R (l.start ⟨program, args, probes⟩) (l.start ⟨program', args', probes⟩)
  send : ∀ w line, InStep R (l.send w line) (l.send w line)
  receive : ∀ limit w, InStep R (l.receive limit w) (l.receive limit w)
  finish : ∀ limit w, InStep R (l.finish limit w) (l.finish limit w)

namespace Supervisor

variable {l : Launcher (StateM σ)} {R : σ → σ → Prop}

/-- A session with a worker that has been started. -/
def converse (l : Launcher (StateM σ)) (spec : Spec) (s : Settings) (index : UInt32)
    (w : l.Worker) : Run (StateM σ) (ForkResult × Output) := do
  let (pid, w) ← ask l s w spec.encode greeting
  let (fork, w) ← iterations l s s.iterations.toNat 0 { index, pid } w
  let ((), w) ← ask l s w Command.terminate.line (completion s)
  let output ← finish l s.timeout w
  return (fork, output)

theorem run_eq_start_bind (command probes : List String) (spec : Spec) (s : Settings)
    (index : UInt32) :
    run l command probes spec s index = start l command probes >>= converse l spec s index := rfl

theorem inStep_send (h : l.Indifferent R) (w : l.Worker) (line : String) :
    InStep R (send l w line).run (send l w line).run := by
  unfold send
  cases Line.check line with
  | error e => exact .pure _
  | ok _ =>
    refine InStep.andThen (.lift (h.send w line)) fun answer => ?_
    cases answer with
    | ok w => exact .pure _
    | error status => exact .pure _

theorem inStep_receive (h : l.Indifferent R) (limit : Duration) (w : l.Worker) :
    InStep R (receive l limit w).run (receive l limit w).run := by
  refine InStep.andThen (.lift (h.receive limit w)) fun answer => ?_
  obtain ⟨heard, w⟩ := answer
  cases heard <;> exact .pure _

theorem inStep_ask (h : l.Indifferent R) (s : Settings) (w : l.Worker) (line : String)
    (judge : Message → Except SessionError α) :
    InStep R (ask l s w line judge).run (ask l s w line judge).run := by
  refine InStep.andThen (inStep_send h w line) fun w => ?_
  refine InStep.andThen (inStep_receive h s.timeout w) fun answer => ?_
  obtain ⟨message, w⟩ := answer
  dsimp only
  cases judge message with
  | ok a => exact .pure _
  | error e => exact .pure _

theorem inStep_iterations (h : l.Indifferent R) (s : Settings) (more n : Nat) (fork : ForkResult)
    (w : l.Worker) :
    InStep R (iterations l s more n fork w).run (iterations l s more n fork w).run := by
  induction more generalizing n fork w with
  | zero => exact .pure _
  | succ more ih => exact InStep.andThen (inStep_ask h s w _ _) fun answer => ih _ _ _

theorem inStep_finish (h : l.Indifferent R) (limit : Duration) (w : l.Worker) :
    InStep R (finish l limit w).run (finish l limit w).run := by
  refine InStep.andThen (.lift (h.finish limit w)) fun answer => ?_
  cases answer with
  | none => exact .pure _
  | some ended =>
    obtain ⟨status, output⟩ := ended
    dsimp only
    cases status.isSuccess <;> exact .pure _

/-- What follows after a worker has been started. -/
theorem inStep_converse (h : l.Indifferent R) (spec : Spec) (s : Settings) (index : UInt32)
    (w : l.Worker) :
    InStep R (converse l spec s index w).run (converse l spec s index w).run := by
  refine InStep.andThen (inStep_ask h s w _ _) fun greeted => ?_
  refine InStep.andThen (inStep_iterations h s _ _ _ _) fun collected => ?_
  refine InStep.andThen (inStep_ask h s _ _ _) fun completed => ?_
  exact InStep.andThen (inStep_finish h _ _) fun output => .pure _

/-- What becomes of the start of a worker. -/
theorem run_start_of_started {program : String} {args probes : List String} {world world₁ : σ}
    {answer : Except String l.Worker}
    (h : (l.start ⟨program, args, probes⟩).run world = (answer, world₁)) :
    (start l (program :: args) probes).run.run world =
      (answer.mapError fun reason => .process (.launch program reason), world₁) := by
  show (ExceptT.lift (l.start ⟨program, args, probes⟩) >>= _).run.run world = _
  rw [run_lift_bind, h]
  cases answer <;> rfl

/-- **A session comes to the same in worlds that are alike**, whatever the two commands are. -/
theorem run_alike (h : l.Indifferent R) (program program' : String)
    (args args' probes : List String) (spec : Spec) (s : Settings) (index : UInt32)
    {world world' : σ} (hworlds : R world world') :
    let result := (run l (program :: args) probes spec s index).run.run world
    let result' := (run l (program' :: args') probes spec s index).run.run world'
    R result.2 result'.2 ∧ (result.1 = result'.1 ∨
      ∃ reason, result.1 = .error (.process (.launch program reason)) ∧
        result'.1 = .error (.process (.launch program' reason))) := by
  obtain ⟨hanswer, hafter⟩ := h.start program args program' args' probes world world' hworlds
  rcases hstart : (l.start ⟨program, args, probes⟩).run world with ⟨answer, world₁⟩
  rcases hstart' : (l.start ⟨program', args', probes⟩).run world' with ⟨answer', world₁'⟩
  rw [hstart, hstart'] at hanswer hafter
  obtain rfl : answer = answer' := hanswer
  have hrun := run_start_of_started hstart
  have hrun' := run_start_of_started hstart'
  rw [run_eq_start_bind, run_eq_start_bind]
  cases answer with
  | error reason =>
    rw [run_error_bind hrun, run_error_bind hrun']
    exact ⟨hafter, .inr ⟨reason, rfl, rfl⟩⟩
  | ok w =>
    rw [run_ok_bind hrun, run_ok_bind hrun']
    obtain ⟨hsame, hleft⟩ := inStep_converse h spec s index w world₁ world₁' hafter
    exact ⟨hleft, .inl hsame⟩

end Supervisor

end Microbench
