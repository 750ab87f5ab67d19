import Microbench.Proofs.Worlds
import Microbench.Engine.Lifecycle

/-!
# What a task is asked

A trial is followed through the calls that it makes to its task.  The task is
watched: every call is written down together with the answer to it, while the
clock, the machine and the probes are left as they are.  A part of a trial has a
script, which are the calls that it is to make.  It fares well if it makes them all;
otherwise some call went wrong, and a part that stops at once has then made the
calls up to that one and no other.

## Main definitions

* `Exchange`, `Exchange.isGood` — a call with its answer, and whether it went well.
* `Watched` — computations whose calls are written down, with `Conductor.watched` for a trial.
* `Logs` — what a computation answers and which exchanges it has had.
* `Soundly` — the same, if all of them have gone well.
* `Fares`, `Performs` — how a computation comes out that has a script.

## Main results

* `Soundly.bind`, `Performs.bind` — computations one after the other.
* `Performs.invoke` — an invocation, whose reply may still be objected to.
* `Performs.forM` — one computation for each element of a list.
-/

namespace Microbench

/-- Whether an outcome can be taken: a reported value has to be finite. -/
def Outcome.isFinite : Outcome → Bool
  | timed => true
  | reported value => Binary.isFinite value

/-- A call and the answer to it. -/
structure Exchange where
  call : Call
  answer : Except TaskError Reply

/-- Whether a call went well: it was answered without an error, and what an invocation reported can
be taken. -/
def Exchange.isGood (x : Exchange) : Bool :=
  match x.answer with
  | .error _ => false
  | .ok reply =>
    match x.call with
    | .invoke _ => reply.outcome.isFinite
    | _ => true

/-- The calls that were made. -/
def calls (log : List Exchange) : List Call := log.map Exchange.call

@[simp] theorem calls_nil : calls [] = [] := rfl

@[simp] theorem calls_cons (x : Exchange) (log : List Exchange) :
    calls (x :: log) = x.call :: calls log := rfl

@[simp] theorem calls_append (log more : List Exchange) :
    calls (log ++ more) = calls log ++ calls more := List.map_append

/-! ### Watching a task -/

variable {σ α β ε : Type}

/-- What is seen of a computation. -/
structure Sighting (σ α : Type) where
  /-- Its answer. -/
  answer : α
  /-- Its exchanges with the task, in order. -/
  log : List Exchange
  /-- The world that it leaves. -/
  world : σ

/-- A computation whose calls are written down. -/
def Watched (σ α : Type) : Type := σ → Sighting σ α

namespace Watched

/-- What is seen of a computation in a world. -/
def run (x : Watched σ α) (world : σ) : Sighting σ α := x world

/-- A computation that calls no task. -/
def quiet (x : StateM σ α) : Watched σ α := fun world =>
  ⟨(x.run world).1, [], (x.run world).2⟩

instance : Monad (Watched σ) where
  pure a := fun world => ⟨a, [], world⟩
  bind x f := fun world =>
    ⟨(f (x world).answer (x world).world).answer,
      (x world).log ++ (f (x world).answer (x world).world).log,
      (f (x world).answer (x world).world).world⟩

instance : LawfulMonad (Watched σ) := by
  refine LawfulMonad.mk' _ (fun x => ?_) (fun a f => rfl) fun x f g => ?_
  · funext world
    exact congrArg (Sighting.mk _ · _) (List.append_nil _)
  · funext world
    exact congrArg (Sighting.mk _ · _) (List.append_assoc _ _ _)

theorem run_bind (x : Watched σ α) (f : α → Watched σ β) (world : σ) :
    (x >>= f).run world =
      let seen := x.run world
      let next := (f seen.answer).run seen.world
      ⟨next.answer, seen.log ++ next.log, next.world⟩ := rfl

end Watched

/-- A task whose calls are written down. -/
def Task.watched (t : Task (StateM σ)) : Task (Watched σ) where
  fixtures := t.fixtures
  call c := ExceptT.mk fun world =>
    ⟨((t.call c).run.run world).1, [⟨c, ((t.call c).run.run world).1⟩],
      ((t.call c).run.run world).2⟩

def Host.watched (h : Host (StateM σ)) : Host (Watched σ) := ⟨.quiet h.now, .quiet h.usage⟩

def Probe.watched (p : Probe (StateM σ)) : Probe (Watched σ) where
  name := p.name
  before s q := ExceptT.mk (.quiet (p.before s q).run)
  after s q note r := ExceptT.mk (.quiet (p.after s q note r).run)

/-- A bench with a task whose calls are written down. -/
def Bench.watched (b : Bench (StateM σ)) : Bench (Watched σ) :=
  ⟨b.task.watched, b.settings, b.host.watched⟩

/-- A trial whose calls are written down. -/
def Conductor.watched (c : Conductor (StateM σ)) : Conductor (Watched σ) where
  toBench := c.toBench.watched
  probes := c.probes.map Probe.watched
  patience := c.patience

/-! ### What is written down -/

/-- Whatever the world is, the answer and the exchanges are as said. -/
def Logs (x : Watched σ α) (Q : α → List Exchange → Prop) : Prop :=
  ∀ world, Q (x.run world).answer (x.run world).log

namespace Logs

variable {P Q : α → List Exchange → Prop} {R : β → List Exchange → Prop}
  {x : Watched σ α} {f : α → Watched σ β}

theorem pure {a : α} (h : Q a []) : Logs (σ := σ) (Pure.pure a) Q := fun _ => h

theorem bind (hx : Logs x P) (hf : ∀ a log, P a log → Logs (f a) fun b more => R b (log ++ more)) :
    Logs (x >>= f) R :=
  fun world => hf _ _ (hx world) _

theorem map {g : α → β} (h : Logs x fun a log => R (g a) log) : Logs (g <$> x) R := by
  refine bind (f := Pure.pure ∘ g) h fun a log hR => pure ?_
  rwa [List.append_nil]

theorem mono (h : Logs x P) (himp : ∀ a log, P a log → Q a log) : Logs x Q :=
  fun world => himp _ _ (h world)

theorem quiet {y : StateM σ α} (h : ∀ a, Q a []) : Logs (.quiet y) Q := fun _ => h _

theorem call {t : Task (StateM σ)} {c : Call} {Q : Except TaskError Reply → List Exchange → Prop}
    (h : ∀ answer, Q answer [⟨c, answer⟩]) : Logs (t.watched.call c).run Q := fun _ => h _

/-- Nothing is promised of what is not known. -/
theorem trivial : Logs x fun _ _ => True := fun _ => True.intro

end Logs

/-- If all calls of a computation go well, its answer and its calls are as said. -/
def Soundly (x : Watched σ α) (Q : α → List Call → Prop) : Prop :=
  Logs x fun a log => (∀ y ∈ log, y.isGood = true) → Q a (calls log)

namespace Soundly

variable {P Q : α → List Call → Prop} {R : β → List Call → Prop}
  {x : Watched σ α} {f : α → Watched σ β}

theorem pure {a : α} (h : Q a []) : Soundly (σ := σ) (Pure.pure a) Q := Logs.pure fun _ => h

theorem bind (hx : Soundly x P) (hf : ∀ a made, P a made → Soundly (f a) fun b more =>
    R b (made ++ more)) : Soundly (x >>= f) R := by
  intro world hgood
  obtain ⟨hfirst, hsecond⟩ := List.forall_mem_append.1 hgood
  have hP := hx world hfirst
  have hR := hf _ _ hP (x.run world).world hsecond
  dsimp only at hR
  rw [← calls_append] at hR
  exact hR

theorem map {g : α → β} (h : Soundly x fun a made => R (g a) made) : Soundly (g <$> x) R :=
  Logs.map h

theorem mono (h : Soundly x P) (himp : ∀ a made, P a made → Q a made) : Soundly x Q :=
  Logs.mono h fun _ _ hP hgood => himp _ _ (hP hgood)

end Soundly

/-! ### Scripts -/

/-- A computation has stopped at the first call of its script that went wrong.  If that call was
answered with an error, no call was made after it, and the error is what the computation failed
of. -/
def Stops (blame : Call → TaskError → ε) (script : List Call) (r : Except ε α)
    (log : List Exchange) : Prop :=
  ∃ (f : ε) (former : List Exchange) (x : Exchange) (latter : List Exchange) (rest : List Call),
    r = .error f ∧ log = former ++ x :: latter ∧ (∀ y ∈ former, y.isGood = true) ∧
      x.isGood = false ∧ script = calls former ++ x.call :: rest ∧
      ∀ e, x.answer = .error e → latter = [] ∧ f = blame x.call e

/-- How a computation comes out that is to make the calls of a script. -/
inductive Fares (strict : Prop) (blame : Call → TaskError → ε) (script : List Call)
    (r : Except ε α) (log : List Exchange) : Prop
  /-- All calls have been made, and went well. -/
  | well (a : α) (result : r = .ok a) (good : ∀ x ∈ log, x.isGood = true)
      (made : calls log = script)
  /-- A call went wrong; a strict computation has stopped there. -/
  | ill (bad : ∃ x ∈ log, x.isGood = false) (stops : strict → Stops blame script r log)

/-- A computation makes the calls of a script. -/
def Performs (strict : Prop) (blame : Call → TaskError → ε) (x : ExceptT ε (Watched σ) α)
    (script : List Call) : Prop :=
  Logs x.run (Fares strict blame script)

variable {strict : Prop} {blame : Call → TaskError → ε} {script rest : List Call}

theorem Stops.here {f : ε} {x : Exchange} {latter : List Exchange} (hbad : x.isGood = false)
    (h : ∀ e, x.answer = .error e → latter = [] ∧ f = blame x.call e) :
    Stops blame (x.call :: rest) (.error f : Except ε α) (x :: latter) := by
  have hformer : ∀ y ∈ ([] : List Exchange), y.isGood = true := fun _ hy => nomatch hy
  exact ⟨f, [], x, latter, rest, rfl, rfl, hformer, hbad, rfl, h⟩

/-- A script with more calls at its end. -/
theorem Stops.append {r : Except ε α} {log : List Exchange} (h : Stops blame script r log)
    (rest : List Call) :
    ∃ f, r = .error f ∧ Stops (α := β) blame (script ++ rest) (.error f) log := by
  obtain ⟨f, former, x, latter, others, rfl, hlog, hgood, hbad, hscript, hstops⟩ := h
  refine ⟨f, rfl, f, former, x, latter, others ++ rest, rfl, hlog, hgood, hbad, ?_, hstops⟩
  rw [hscript, List.append_assoc, List.cons_append]

/-- A script with more calls at its beginning, which all went well. -/
theorem Stops.prepend {r : Except ε α} {log more : List Exchange}
    (hgood : ∀ x ∈ log, x.isGood = true) (h : Stops blame rest r more) :
    Stops blame (calls log ++ rest) r (log ++ more) := by
  obtain ⟨f, former, x, latter, others, hresult, rfl, hformer, hbad, rfl, hstops⟩ := h
  refine ⟨f, log ++ former, x, latter, others, hresult, ?_, ?_, hbad, ?_, hstops⟩
  · rw [List.append_assoc]
  · exact List.forall_mem_append.2 ⟨hgood, hformer⟩
  · rw [calls_append, List.append_assoc]

namespace Fares

theorem ok_append {a : α} {r : Except ε β} {log more : List Exchange}
    (h : Fares strict blame script (.ok a : Except ε α) log)
    (hmore : Fares strict blame rest r more) :
    Fares strict blame (script ++ rest) r (log ++ more) := by
  cases h with
  | well _ _ hgood hmade =>
    subst hmade
    cases hmore with
    | well b hresult hgood' hmade' =>
      refine .well b hresult (List.forall_mem_append.2 ⟨hgood, hgood'⟩) ?_
      rw [calls_append, hmade']
    | ill hbad hstops =>
      obtain ⟨x, hx, hxbad⟩ := hbad
      refine .ill ⟨x, List.mem_append_right _ hx, hxbad⟩ fun hstrict => ?_
      exact Stops.prepend hgood (hstops hstrict)
  | ill hbad hstops =>
    obtain ⟨x, hx, hxbad⟩ := hbad
    refine .ill ⟨x, List.mem_append_left _ hx, hxbad⟩ fun hstrict => ?_
    -- a strict computation does not go on after a call that went wrong
    obtain ⟨f, hresult, -⟩ := Stops.append (β := β) (hstops hstrict) rest
    cases hresult

theorem error_append {f : ε} {log : List Exchange}
    (h : Fares strict blame script (.error f : Except ε α) log) :
    Fares strict blame (script ++ rest) (.error f : Except ε β) log := by
  cases h with
  | well _ hresult _ _ => cases hresult
  | ill hbad hstops =>
    refine .ill hbad fun hstrict => ?_
    obtain ⟨_, hresult, hmore⟩ := Stops.append (β := β) (hstops hstrict) rest
    cases hresult
    exact hmore

theorem of_good {a : α} {x : Exchange} (hgood : x.isGood = true) :
    Fares strict blame [x.call] (.ok a : Except ε α) [x] := by
  refine .well a rfl (fun y hy => ?_) rfl
  rw [List.mem_singleton.1 hy]
  exact hgood

/-- The first call of a script was answered with an error. -/
theorem of_error {c : Call} {e : TaskError} :
    Fares strict blame (c :: rest) (.error (blame c e) : Except ε α) [⟨c, .error e⟩] := by
  refine .ill ⟨_, List.mem_singleton_self _, rfl⟩ fun _ => Stops.here rfl ?_
  rintro e' ⟨⟩
  exact ⟨rfl, rfl⟩

/-- Where all calls go well the script has been made, and there is a result. -/
theorem of_sound {r : Except ε α} {log : List Exchange} (h : Fares strict blame script r log)
    (hgood : ∀ x ∈ log, x.isGood = true) : (∃ a, r = .ok a) ∧ calls log = script := by
  cases h with
  | well a hresult _ hmade => exact ⟨⟨a, hresult⟩, hmade⟩
  | ill hbad _ =>
    obtain ⟨x, hx, hxbad⟩ := hbad
    rw [hgood x hx] at hxbad
    cases hxbad

/-- Where the first calls went well, the next one is that of the script.  If it was answered with an
error, it is the last call of a strict computation, which fails of that error. -/
theorem next_call {r : Except ε α} {log : List Exchange}
    (h : Fares True blame script r log) {k : Nat} (hk : k < script.length)
    (hgood : ∀ x ∈ log.take k, x.isGood = true) :
    ∃ x, log[k]? = some x ∧ script[k]? = some x.call ∧ ∀ e, x.answer = .error e →
      calls log = script.take (k + 1) ∧ r = .error (blame x.call e) := by
  have hanswer : ∀ {x : Exchange} {e : TaskError}, x.isGood = true → x.answer ≠ .error e := by
    intro x e hx he
    unfold Exchange.isGood at hx
    rw [he] at hx
    cases hx
  cases h with
  | well a hresult hall hmade =>
    subst hmade
    have hlt : k < log.length := by rwa [calls, List.length_map] at hk
    refine ⟨log[k], List.getElem?_eq_getElem hlt, ?_, fun e he => ?_⟩
    · rw [calls, List.getElem?_map, List.getElem?_eq_getElem hlt, Option.map_some]
    · exact absurd he (hanswer (hall _ (List.getElem_mem hlt)))
  | ill hbad hstops =>
    obtain ⟨f, former, x, latter, rest, rfl, rfl, hformer, hxbad, rfl, hx⟩ := hstops True.intro
    rcases Nat.lt_trichotomy k former.length with hlt | rfl | hgt
    · -- the call is one of those before the first that went wrong
      have hget : (former ++ x :: latter)[k]? = some former[k] := by
        rw [List.getElem?_append_left hlt, List.getElem?_eq_getElem hlt]
      refine ⟨former[k], hget, ?_, fun e he => ?_⟩
      · rw [List.getElem?_append_left (by rwa [calls, List.length_map]), calls, List.getElem?_map,
          List.getElem?_eq_getElem hlt, Option.map_some]
      · exact absurd he (hanswer (hformer _ (List.getElem_mem hlt)))
    · have hlength : (calls former).length = former.length := List.length_map _
      refine ⟨x, by simp, ?_, fun e he => ?_⟩
      · rw [← hlength]
        simp
      · obtain ⟨rfl, rfl⟩ := hx e he
        refine ⟨?_, rfl⟩
        rw [← hlength, List.take_length_add_append]
        simp
    · -- the call would come after one that went wrong
      have hmem : x ∈ (former ++ x :: latter).take k := by
        refine List.mem_take_iff_getElem.2 ⟨former.length, ?_, by simp⟩
        simp
        omega
      rw [hgood x hmem] at hxbad
      cases hxbad

end Fares

/-- A computation fails, whatever the world is. -/
def Fails (x : ExceptT ε (Watched σ) α) : Prop := Logs x.run fun r _ => ∃ e, r = .error e

namespace Fails

variable {x : ExceptT ε (Watched σ) α} {f : α → ExceptT ε (Watched σ) β}

theorem bind (hf : ∀ a, Fails (f a)) : Fails (x >>= f) := by
  unfold Fails
  rw [ExceptT.run_bind]
  refine Logs.bind Logs.trivial fun r log _ => ?_
  cases r with
  | ok a => exact hf a
  | error e => exact Logs.pure ⟨e, rfl⟩

/-- Nothing is done after a failure. -/
theorem andThen (hx : Fails x) : Fails (x >>= f) := by
  unfold Fails
  rw [ExceptT.run_bind]
  refine Logs.bind hx fun r log hr => ?_
  obtain ⟨e, rfl⟩ := hr
  exact Logs.pure ⟨e, rfl⟩

end Fails

namespace Performs

variable {x : ExceptT ε (Watched σ) α} {f : α → ExceptT ε (Watched σ) β}

theorem pure {a : α} : Performs (σ := σ) strict blame (Pure.pure a) [] :=
  Logs.pure (.well a rfl (fun _ hx => nomatch hx) rfl)

/-- **The script of two computations** is that of the first and then that of the second. -/
theorem bind (hx : Performs strict blame x script) (hf : ∀ a, Performs strict blame (f a) rest) :
    Performs strict blame (x >>= f) (script ++ rest) := by
  unfold Performs
  rw [ExceptT.run_bind]
  refine Logs.bind hx fun r log hfares => ?_
  cases r with
  | ok a => exact (hf a).mono fun _ _ hmore => hfares.ok_append hmore
  | error e =>
    refine Logs.pure ?_
    rw [List.append_nil]
    exact hfares.error_append

theorem silent (hx : Performs strict blame x []) (hf : ∀ a, Performs strict blame (f a) rest) :
    Performs strict blame (x >>= f) rest := bind hx hf

theorem map {g : α → β} (hx : Performs strict blame x script) :
    Performs strict blame (do let a ← x; Pure.pure (g a)) script := by
  have hbind : Performs strict blame (do let a ← x; Pure.pure (g a)) (script ++ []) :=
    hx.bind fun _ => pure
  rwa [List.append_nil] at hbind

/-- The errors of a script are told in other words. -/
theorem adapt {δ : Type} {g : ε → δ} {blame' : Call → TaskError → δ}
    (hx : Performs strict blame x script)
    (hblame : ∀ c ∈ script, ∀ e, blame' c e = g (blame c e)) :
    Performs strict blame' (x.adapt g) script := by
  unfold Performs
  rw [ExceptT.run_adapt]
  refine Logs.map (hx.mono fun r log hfares => ?_)
  cases hfares with
  | well a hresult hgood hmade =>
    subst hresult
    exact .well a rfl hgood hmade
  | ill hbad hstops =>
    refine .ill hbad fun hstrict => ?_
    obtain ⟨f, former, y, latter, others, rfl, hlog, hgood, hybad, rfl, hy⟩ := hstops hstrict
    refine ⟨g f, former, y, latter, others, rfl, hlog, hgood, hybad, rfl, fun e he => ?_⟩
    obtain ⟨hlatter, rfl⟩ := hy e he
    exact ⟨hlatter, (hblame y.call (by simp) e).symm⟩

theorem quiet {y : StateM σ α} : Performs strict blame (ExceptT.lift (.quiet y)) [] := by
  intro world
  exact .well _ rfl (fun _ hx => nomatch hx) rfl

/-- Where a part calls no task, the script is that of what follows. -/
theorem lift_bind {y : Watched σ α} {P : α → Prop} (hy : Logs y fun a log => log = [] ∧ P a)
    (hf : ∀ a, P a → Performs strict blame (f a) script) :
    Performs strict blame (ExceptT.lift y >>= f) script := by
  unfold Performs
  rw [ExceptT.run_bind_lift]
  refine Logs.bind hy fun a log ha => ?_
  obtain ⟨rfl, hP⟩ := ha
  exact hf a hP

/-- An invocation, after which the computation fails if the reply cannot be taken. -/
theorem invoke {call : ExceptT ε (Watched σ) Reply} {seat : Seat}
    {f : Reply → ExceptT ε (Watched σ) β}
    (hcall : Logs call.run fun r log => ∃ answer, log = [⟨.invoke seat, answer⟩] ∧
      r = answer.mapError (blame (.invoke seat)))
    (hgood : ∀ reply, reply.outcome.isFinite = true → Performs strict blame (f reply) rest)
    (hbad : ∀ reply, reply.outcome.isFinite = false → Fails (f reply)) :
    Performs strict blame (call >>= f) ([.invoke seat] ++ rest) := by
  unfold Performs
  rw [ExceptT.run_bind]
  refine Logs.bind hcall fun r log hr => ?_
  obtain ⟨answer, rfl, rfl⟩ := hr
  cases answer with
  | error e => exact Logs.pure .of_error
  | ok reply =>
    cases hfinite : reply.outcome.isFinite with
    | true =>
      refine (hgood reply hfinite).mono fun r more hmore => ?_
      have hinvoked : Fares strict blame [.invoke seat] (.ok reply : Except ε Reply)
          [⟨.invoke seat, .ok reply⟩] := Fares.of_good (x := ⟨.invoke seat, .ok reply⟩) hfinite
      exact hinvoked.ok_append hmore
    | false =>
      refine (hbad reply hfinite).mono fun r more hfails => ?_
      obtain ⟨e, rfl⟩ := hfails
      -- what is called before the objection is raised comes after the invocation
      refine .ill ⟨_, List.mem_cons_self, hfinite⟩ fun _ => ?_
      exact Stops.here (x := ⟨.invoke seat, .ok reply⟩) hfinite fun _ hanswer => nomatch hanswer

/-- One computation for each element of a list. -/
theorem forM {l : List α} {g : α → ExceptT ε (Watched σ) PUnit} {s : α → List Call}
    (h : ∀ a ∈ l, Performs strict blame (g a) (s a)) :
    Performs strict blame (l.forM g) (l.flatMap s) := by
  induction l with
  | nil => exact pure
  | cons a l ih =>
    obtain ⟨ha, hl⟩ := List.forall_mem_cons.1 h
    exact ha.bind fun _ => ih hl

theorem soundly (h : Performs strict blame x script) :
    Soundly x.run fun r made => (∃ a, r = .ok a) ∧ made = script :=
  Logs.mono h fun _ _ hfares => hfares.of_sound

/-- It is enough to know what happens when all calls go well, unless the computation is strict. -/
theorem of_soundly (hstrict : ¬ strict)
    (h : Soundly x.run fun r made => (∃ a, r = .ok a) ∧ made = script) :
    Performs strict blame x script := by
  refine Logs.mono h fun r log himp => ?_
  by_cases hgood : ∀ y ∈ log, y.isGood = true
  · obtain ⟨⟨a, hresult⟩, hmade⟩ := himp hgood
    exact .well a hresult hgood hmade
  · refine .ill ?_ fun hs => absurd hs hstrict
    simpa using hgood

end Performs

end Microbench
