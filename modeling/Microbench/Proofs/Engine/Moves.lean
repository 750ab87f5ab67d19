import Mathlib.Data.List.Induction
import Microbench.Proofs.Engine.Scripts
import Microbench.Proofs.Engine.Watching

/-!
# What a step of a lane can do

A lane moves by steps, each of which looks at or changes what is shared at most once.
What a step can do is said here once: from where to where it leads, which part of what
is shared it changes and under which condition, and what it asks of the task.  Whatever
holds in all reachable states of a round is shown for these moves and then for all
orders in which they can follow each other.

## Main definitions

* `Lane.Moves` — the moves of a lane.
* `Round.Moves` — a move of one lane of a round.
* `Conductor.runIterationAlong` — an iteration whose threads move in a given order.

## Main results

* `Lane.moves_advance` — a step of a lane is one of its moves.
* `Round.logs_follow` — **what every move keeps holds in every reachable state.**
* `Conductor.exists_runIterationAlong` — an iteration is run in one of the orders.
-/

namespace Microbench

variable {σ α β ε : Type}

/-! ### Replacing one element of a list -/

section Replacing

variable {l : List α} {index : Nat} {a a' x : α}

theorem countP_set_add (h : l[index]? = some a) (a' : α) (p : α → Bool) :
    (l.set index a').countP p + (if p a then 1 else 0) =
      l.countP p + (if p a' then 1 else 0) := by
  obtain ⟨hlt, rfl⟩ := List.getElem?_eq_some_iff.1 h
  rw [List.countP_set hlt]
  by_cases hp : p l[index] = true
  · have hpos : 0 < l.countP p := List.countP_pos_iff.2 ⟨_, List.getElem_mem hlt, hp⟩
    simp only [hp, if_true]
    omega
  · simp [hp]

/-- An element is the one that is replaced, or it is still there. -/
theorem eq_or_mem_set (h : l[index]? = some a) (hx : x ∈ l) : x = a ∨ x ∈ l.set index a' := by
  obtain ⟨j, hj⟩ := List.mem_iff_getElem?.1 hx
  by_cases hij : index = j
  · subst hij
    exact .inl (Option.some.inj (hj.symm.trans h))
  · exact .inr (List.mem_of_getElem? ((List.getElem?_set_ne hij).trans hj))

theorem mem_set_self_of_getElem? (h : l[index]? = some a) : a' ∈ l.set index a' :=
  List.mem_of_getElem? (List.getElem?_set_self (List.getElem?_eq_some_iff.1 h).1)

theorem forall_mem_set {P : α → Prop} (hnew : P a') (hold : ∀ x ∈ l, P x) :
    ∀ x ∈ l.set index a', P x := by
  intro x hx
  rcases List.mem_or_eq_of_mem_set hx with hmem | rfl
  · exact hold x hmem
  · exact hnew

end Replacing

/-- What has not been so at first, is so in the end and stays so once it is, becomes so exactly
once. -/
theorem existsUnique_crossing {f : Nat → Bool} (hmono : ∀ k, f k = true → f (k + 1) = true)
    (hfirst : f 0 = false) {n : Nat} (hlast : f n = true) :
    ∃! k, f k = false ∧ f (k + 1) = true := by
  have hlater : ∀ {j k}, j ≤ k → f j = true → f k = true := by
    intro j k hjk hj
    induction hjk with
    | refl => exact hj
    | step _ ih => exact hmono _ ih
  induction n with
  | zero =>
    rw [hfirst] at hlast
    cases hlast
  | succ n ih =>
    cases hbefore : f n with
    | true => exact ih hbefore
    | false =>
      refine ⟨n, ⟨hbefore, hlast⟩, fun k ⟨hk, hk'⟩ => ?_⟩
      -- neither of the two steps can come before the other
      rcases Nat.lt_trichotomy k n with hlt | heq | hgt
      · rw [hlater hlt hk'] at hbefore
        cases hbefore
      · exact heq
      · rw [hlater hgt hlast] at hk
        cases hk

/-! ### Calls that belong to invocations -/

/-- Whether a call belongs to an invocation: it is one, or a fixture around one. -/
def Call.isTurn : Call → Bool
  | invoke _ => true
  | fixture _ .invocation _ => true
  | _ => false

/-- All exchanges of a computation with the task are of this kind. -/
def AsksOnly (P : Exchange → Prop) (x : ExceptT ε (Watched σ) α) : Prop :=
  Logs x.run fun _ log => ∀ y ∈ log, P y

namespace AsksOnly

variable {P : Exchange → Prop} {x : ExceptT ε (Watched σ) α} {f : α → ExceptT ε (Watched σ) β}

theorem pure {a : α} : AsksOnly (σ := σ) (ε := ε) P (Pure.pure a) := Logs.pure fun _ h => nomatch h

theorem throw {e : ε} : AsksOnly (σ := σ) P (throw e : ExceptT ε (Watched σ) α) :=
  Logs.pure fun _ h => nomatch h

theorem quiet {y : StateM σ α} : AsksOnly (ε := ε) P (ExceptT.lift (.quiet y)) :=
  fun _ _ h => nomatch h

theorem bind (hx : AsksOnly P x) (hf : ∀ a, AsksOnly P (f a)) : AsksOnly P (x >>= f) := by
  unfold AsksOnly
  rw [ExceptT.run_bind]
  refine Logs.bind hx fun r log hlog => ?_
  cases r with
  | ok a => exact (hf a).mono fun _ _ hmore => List.forall_mem_append.2 ⟨hlog, hmore⟩
  | error e =>
    refine Logs.pure ?_
    rwa [List.append_nil]

theorem forM {l : List α} {g : α → ExceptT ε (Watched σ) PUnit} (h : ∀ a ∈ l, AsksOnly P (g a)) :
    AsksOnly P (l.forM g) := by
  induction l with
  | nil => exact pure
  | cons a l ih =>
    obtain ⟨ha, hl⟩ := List.forall_mem_cons.1 h
    exact bind ha fun _ => ih hl

end AsksOnly

/-- A computation asks nothing of the task but invocations and the fixtures around them. -/
abbrev TakesTurns (x : ExceptT ε (Watched σ) α) : Prop := AsksOnly (fun y => y.call.isTurn = true) x

namespace Bench

variable {b : Bench (StateM σ)} {seat : Seat}

theorem asksOnly_call {P : Exchange → Prop} (site : Site) (thread : Option Nat) {c : Call}
    (h : ∀ answer, P ⟨c, answer⟩) : AsksOnly P (b.watched.call site thread c) := by
  refine (logs_call site thread c).mono fun r log hlog => ?_
  obtain ⟨answer, rfl, -⟩ := hlog
  exact List.forall_mem_singleton.2 (h answer)

/-- What holds of the exchanges that belong to an invocation of a thread. -/
structure HoldsOfTurns {m : Type → Type} (b : Bench m) (seat : Seat) (P : Exchange → Prop) :
    Prop where
  /-- It holds of the invocation. -/
  invoke : ∀ answer, P ⟨.invoke seat, answer⟩
  /-- It holds of the fixtures around it. -/
  fixture : ∀ stage scope answer, P ⟨.fixture stage .invocation (b.target seat scope), answer⟩

variable {P : Exchange → Prop}

theorem asksOnly_now : AsksOnly P b.watched.now := AsksOnly.quiet

theorem asksOnly_look (wanted : Bool) : AsksOnly P (b.watched.look wanted) := by
  cases wanted with
  | true =>
    have hnow : AsksOnly P (do let t ← b.watched.now; pure (some t)) :=
      asksOnly_now.bind fun _ => AsksOnly.pure
    rwa [bind_pure_comp] at hnow
  | false => exact AsksOnly.pure

theorem asksOnly_accept (w : Work) (reply : Reply) :
    AsksOnly P (b.watched.accept seat w reply) := by
  unfold accept
  split
  · exact AsksOnly.pure
  · exact AsksOnly.throw

theorem asksOnly_invocationFixtures (h : b.HoldsOfTurns seat P) (stage : Stage) :
    AsksOnly P (b.watched.invocationFixtures seat stage) := by
  refine AsksOnly.forM fun scope _ => ?_
  split
  · exact (asksOnly_call _ _ (h.fixture stage scope)).bind fun _ => AsksOnly.pure
  · exact AsksOnly.pure

theorem asksOnly_invokeTimes (h : b.HoldsOfTurns seat P) (n : Nat) (w : Work) :
    AsksOnly P (b.watched.invokeTimes seat n w) := by
  induction n generalizing w with
  | zero => exact AsksOnly.pure
  | succ n ih =>
    refine (asksOnly_call _ _ h.invoke).bind fun reply => ?_
    exact (asksOnly_accept w reply).bind fun w' => ih w'

theorem asksOnly_bracketedBatch (h : b.HoldsOfTurns seat P) (n : Nat) (w : Work) :
    AsksOnly P (b.watched.bracketedBatch seat n w) := by
  induction n generalizing w with
  | zero => exact AsksOnly.pure
  | succ n ih =>
    unfold bracketedBatch
    dsimp only
    rw [invocation_bind]
    refine (asksOnly_invocationFixtures h .setup).bind fun _ => ?_
    refine (asksOnly_look _).bind fun start => (asksOnly_call _ _ h.invoke).bind fun reply => ?_
    refine (asksOnly_look _).bind fun stop => ?_
    refine (asksOnly_invocationFixtures h .teardown).bind fun _ => ?_
    exact (asksOnly_accept _ reply).bind fun w' => ih w'

/-- A batch asks for nothing but what belongs to its invocations. -/
theorem asksOnly_batch (h : b.HoldsOfTurns seat P) (n : Nat) (w : Work) :
    AsksOnly P (b.watched.batch seat n w) := by
  unfold batch
  split
  · exact asksOnly_bracketedBatch h n w
  · refine asksOnly_now.bind fun start => (asksOnly_invokeTimes h n w).bind fun w' => ?_
    exact asksOnly_now.bind fun stop => AsksOnly.pure

theorem takesTurns_batch (n : Nat) (w : Work) : TakesTurns (b.watched.batch seat n w) :=
  asksOnly_batch ⟨fun _ => rfl, fun _ _ _ => rfl⟩ n w

end Bench

/-! ### The moves of a lane -/

/-- Whether an exchange is an iteration setup of a thread that has failed. -/
def Exchange.isRefusal (x : Exchange) : Bool :=
  match x.call, x.answer with
  | .fixture .setup .iteration (.thread _), .error _ => true
  | _, _ => false

namespace Lane

/-- What a step of a lane can do: what is shared and where the lane stands before it, the exchanges
that it has with the task, and what is shared and where the lane stands after it. -/
inductive Moves {m : Type → Type} (b : Bench m) (seat : Seat) :
    Common → Place → List Exchange → Common → Place → Prop
  /-- The iteration setup goes well. -/
  | enter {c : Common} {log : List Exchange} (asked : calls log = b.ownFixture .setup seat)
      (good : ∀ x ∈ log, x.isRefusal = false) : Moves b seat c .entering log c (.arriving none)
  /-- The iteration setup fails. -/
  | balk {c : Common} {log : List Exchange} {e : TaskError}
      (asked : calls log = b.ownFixture .setup seat) :
      Moves b seat c .entering log c (.alarming e)
  /-- A failed setup raises the flag. -/
  | alarm {c : Common} {e : TaskError} :
      Moves b seat c (.alarming e) [] { c with failed := true } (.arriving (some e))
  /-- The lane comes to the barrier. -/
  | arrive {c : Common} {refusal : Option TaskError} :
      Moves b seat c (.arriving refusal) [] { c with arrived := c.arrived + 1 } (.waiting refusal)
  /-- The barrier holds. -/
  | hold {c : Common} {refusal : Option TaskError} (few : c.arrived < c.total) :
      Moves b seat c (.waiting refusal) [] c (.waiting refusal)
  /-- The barrier lets a lane go. -/
  | pass {c : Common} (all : c.total ≤ c.arrived) : Moves b seat c (.waiting none) [] c .checking
  /-- The barrier lets a lane go whose setup has failed. -/
  | passRefused {c : Common} {e : TaskError} (all : c.total ≤ c.arrived) :
      Moves b seat c (.waiting (some e)) [] c (.refused e)
  /-- A lane whose setup has failed counts itself and raises the flag again. -/
  | giveUp {c : Common} {e : TaskError} {f : Failure} :
      Moves b seat c (.refused e) [] { c with finished := c.finished + 1, failed := true }
        (.ended (.error f))
  /-- The flag is up: nothing is measured. -/
  | skip {c : Common} {work : Work} (up : c.failed = true) :
      Moves b seat c .checking [] c (.leaving (.ok work))
  /-- The flag is down. -/
  | start {c : Common} (down : c.failed = false) : Moves b seat c .checking [] c .starting
  /-- All invocations of a counted iteration. -/
  | measure {c : Common} {log : List Exchange} {work : Work}
      (turns : ∀ x ∈ log, x.call.isTurn = true) :
      Moves b seat c .starting log c (.leaving (.ok work))
  /-- One of them fails. -/
  | breakOff {c : Common} {log : List Exchange} {f : Failure}
      (turns : ∀ x ∈ log, x.call.isTurn = true) : Moves b seat c .starting log c (.broken f)
  /-- The clock of a timed iteration is started. -/
  | time {c : Common} {start : Duration} {pace : Pace} {work : Work} :
      Moves b seat c .starting [] c (.measuring start pace work)
  /-- The time is over, or the flag is up. -/
  | enough {c : Common} {start : Duration} {pace : Pace} {work : Work} :
      Moves b seat c (.measuring start pace work) [] c (.leaving (.ok work))
  /-- There is time for a batch, and the flag is down. -/
  | again {c : Common} {start : Duration} {pace pace' : Pace} {size : Nat} {work : Work}
      (down : c.failed = false) :
      Moves b seat c (.measuring start pace work) [] c (.batching start pace' size work)
  /-- A batch of a timed iteration. -/
  | batch {c : Common} {log : List Exchange} {start : Duration} {pace : Pace} {size : Nat}
      {work work' : Work} (turns : ∀ x ∈ log, x.call.isTurn = true) :
      Moves b seat c (.batching start pace size work) log c (.measuring start pace work')
  /-- It fails. -/
  | breakBatch {c : Common} {log : List Exchange} {start : Duration} {pace : Pace} {size : Nat}
      {work : Work} {f : Failure} (turns : ∀ x ∈ log, x.call.isTurn = true) :
      Moves b seat c (.batching start pace size work) log c (.broken f)
  /-- A failed measurement raises the flag. -/
  | flag {c : Common} {f : Failure} :
      Moves b seat c (.broken f) [] { c with failed := true } (.leaving (.error f))
  /-- A lane whose measurement has failed counts itself. -/
  | leaveFailed {c : Common} {f : Failure} :
      Moves b seat c (.leaving (.error f)) [] { c with finished := c.finished + 1 }
        (.ended (.error f))
  /-- A lane counts itself and waits for the others. -/
  | leaveIdle {c : Common} {work : Work} (sync : b.settings.syncIterations = true) :
      Moves b seat c (.leaving (.ok work)) [] { c with finished := c.finished + 1 } (.idling work)
  /-- A lane counts itself and waits for nobody. -/
  | leave {c : Common} {work : Work} :
      Moves b seat c (.leaving (.ok work)) [] { c with finished := c.finished + 1 } (.closing work)
  /-- Some lane has not counted itself. -/
  | look {c : Common} {work : Work} (few : c.finished < c.total) :
      Moves b seat c (.idling work) [] c (.looking work)
  /-- All lanes have counted themselves. -/
  | rest {c : Common} {work : Work} (all : c.total ≤ c.finished) :
      Moves b seat c (.idling work) [] c (.closing work)
  /-- The flag is up: nobody is waited for. -/
  | quit {c : Common} {work : Work} (up : c.failed = true) :
      Moves b seat c (.looking work) [] c (.closing work)
  /-- The flag is down: one more invocation. -/
  | spin {c : Common} {work : Work} (down : c.failed = false) :
      Moves b seat c (.looking work) [] c (.spinning work)
  /-- The invocation goes well. -/
  | spun {c : Common} {log : List Exchange} {work : Work}
      (turns : ∀ x ∈ log, x.call.isTurn = true) :
      Moves b seat c (.spinning work) log c (.idling work)
  /-- It fails. -/
  | breakSpin {c : Common} {log : List Exchange} {work : Work} {f : Failure}
      (turns : ∀ x ∈ log, x.call.isTurn = true) :
      Moves b seat c (.spinning work) log c (.failing f)
  /-- The iteration teardown goes well. -/
  | close {c : Common} {log : List Exchange} {work : Work} {harvest : Harvest}
      (asked : calls log = b.ownFixture .teardown seat) :
      Moves b seat c (.closing work) log c (.ended (.ok harvest))
  /-- It fails. -/
  | breakClose {c : Common} {log : List Exchange} {work : Work} {f : Failure}
      (asked : calls log = b.ownFixture .teardown seat) :
      Moves b seat c (.closing work) log c (.failing f)
  /-- What has failed after measuring raises the flag. -/
  | fail {c : Common} {f : Failure} :
      Moves b seat c (.failing f) [] { c with failed := true } (.ended (.error f))
  /-- Nothing comes after the end. -/
  | stay {c : Common} {outcome : Except Failure Harvest} :
      Moves b seat c (.ended outcome) [] c (.ended outcome)

variable {b : Bench (StateM σ)} {seat : Seat} {c : Common}

theorem logs_settle {x : ExceptT ε (Watched σ) α} {P : Except ε α → List Exchange → Prop}
    {Q : Common → Place → List Exchange → Prop} {ok : α → Place} {error : ε → Place}
    (hx : Logs x.run P) (hok : ∀ a log, P (.ok a) log → Q c (ok a) log)
    (herror : ∀ e log, P (.error e) log → Q c (error e) log) :
    Logs ((c, ·) <$> settle x ok error) fun next log => Q next.1 next.2 log := by
  refine Logs.map (Logs.bind hx fun r log hr => ?_)
  cases r with
  | ok a =>
    refine Logs.pure ?_
    rw [List.append_nil]
    exact hok a log hr
  | error e =>
    refine Logs.pure ?_
    rw [List.append_nil]
    exact herror e log hr

/-- The iteration fixture of a thread, and whether it has failed. -/
theorem logs_threadFixture (stage : Stage) :
    Logs (b.watched.threadFixture seat stage).run fun r log =>
      calls log = b.ownFixture stage seat ∧
        ((∃ a, r = .ok a) → ∀ x ∈ log, x.isRefusal = false) := by
  have hfixtures : b.watched.task.fixtures = b.task.fixtures := rfl
  unfold Bench.threadFixture Bench.ownFixture
  rw [hfixtures]
  split
  · rw [ExceptT.run_bind]
    refine Logs.bind (Logs.call (Q := fun answer log =>
      log = [⟨.fixture stage .iteration (.thread seat), answer⟩]) fun _ => rfl) ?_
    rintro answer log rfl
    cases answer with
    | ok reply =>
      refine Logs.pure ⟨rfl, fun _ => List.forall_mem_singleton.2 ?_⟩
      cases stage <;> rfl
    | error e => exact Logs.pure ⟨rfl, nofun⟩
  · exact Logs.pure ⟨rfl, fun _ _ h => nomatch h⟩

/-- **A step of a lane is one of its moves.** -/
theorem moves_advance (length : IterationLength) (place : Place) :
    Logs (advance b.watched length seat c place) fun next log =>
      Moves b seat c place log next.1 next.2 := by
  cases place with
  | entering =>
    refine logs_settle (Q := fun c' place log => Moves b seat c .entering log c' place)
      (logs_threadFixture .setup) ?_ ?_
    · exact fun a log h => .enter h.1 (h.2 ⟨a, rfl⟩)
    · exact fun e log h => .balk h.1
  | alarming e => exact Logs.pure .alarm
  | arriving refusal => exact Logs.pure .arrive
  | waiting refusal =>
    unfold advance
    dsimp only
    split
    · next h => exact Logs.pure (.hold h)
    · next h =>
      cases refusal with
      | some e => exact Logs.pure (.passRefused (Nat.le_of_not_lt h))
      | none => exact Logs.pure (.pass (Nat.le_of_not_lt h))
  | refused e => exact Logs.pure .giveUp
  | checking =>
    unfold advance
    dsimp only
    split
    · next h => exact Logs.pure (.skip h)
    · next h => exact Logs.pure (.start (eq_false_of_ne_true h))
  | starting =>
    unfold advance
    dsimp only
    split
    · refine logs_settle (Q := fun c' place log => Moves b seat c .starting log c' place)
        (Bench.takesTurns_batch _ _) ?_ ?_
      · exact fun _ _ h => .measure h
      · exact fun _ _ h => .breakOff h
    · refine Logs.bind (Logs.quiet (Q := fun _ log => log = []) fun _ => rfl) ?_
      rintro start log rfl
      exact Logs.pure .time
  | measuring start pace work =>
    refine Logs.bind (Logs.quiet (Q := fun _ log => log = []) fun _ => rfl) ?_
    rintro now log rfl
    split
    · exact Logs.pure .enough
    · split
      · exact Logs.pure .enough
      · next h => exact Logs.pure (.again (eq_false_of_ne_true h))
  | batching start pace size work =>
    refine logs_settle (Q := fun c' place log =>
      Moves b seat c (.batching start pace size work) log c' place)
      (Bench.takesTurns_batch _ _) ?_ ?_
    · exact fun _ _ h => .batch h
    · exact fun _ _ h => .breakBatch h
  | broken f => exact Logs.pure .flag
  | leaving outcome =>
    cases outcome with
    | error f => exact Logs.pure .leaveFailed
    | ok work =>
      unfold advance
      dsimp only
      by_cases hsync : b.watched.settings.syncIterations = true
      · rw [if_pos hsync]
        exact Logs.pure (.leaveIdle hsync)
      · rw [if_neg hsync]
        exact Logs.pure .leave
  | idling work =>
    unfold advance
    dsimp only
    split
    · next h => exact Logs.pure (.look h)
    · next h => exact Logs.pure (.rest (Nat.le_of_not_lt h))
  | looking work =>
    unfold advance
    dsimp only
    split
    · next h => exact Logs.pure (.quit h)
    · next h => exact Logs.pure (.spin (eq_false_of_ne_true h))
  | spinning work =>
    refine logs_settle (Q := fun c' place log => Moves b seat c (.spinning work) log c' place)
      (Bench.takesTurns_batch _ _) ?_ ?_
    · exact fun _ _ h => .spun h
    · exact fun _ _ h => .breakSpin h
  | closing work =>
    refine logs_settle (Q := fun c' place log => Moves b seat c (.closing work) log c' place)
      (logs_threadFixture .teardown) ?_ ?_
    · exact fun _ _ h => .close h.1
    · exact fun _ _ h => .breakClose h.1
  | failing f => exact Logs.pure .fail
  | ended outcome => exact Logs.pure .stay

end Lane

/-! ### Moves of a round -/

namespace Round

/-- A move of the lane with this index; no such lane, no move. -/
inductive Moves {m : Type → Type} (b : Bench m) (index : Nat) (r : Round) (log : List Exchange) :
    Round → Prop
  /-- The lane moves, and the others stay where they are. -/
  | lane {lane : Lane} {common : Common} {place : Lane.Place}
      (found : r.lanes[index]? = some lane)
      (moves : Lane.Moves b lane.seat r.common lane.place log common place) :
      Moves b index r log ⟨common, r.lanes.set index { lane with place }⟩
  /-- There is no such lane. -/
  | nobody (none : r.lanes[index]? = none) (quiet : log = []) : Moves b index r log r

variable {b : Bench (StateM σ)} {length : IterationLength} {r : Round} {log : List Exchange}

theorem moves_step (index : Nat) :
    Logs (r.step b.watched length index) fun r' log => r.Moves b index log r' := by
  unfold step
  split
  · next h => exact Logs.pure (.nobody h rfl)
  · next lane h =>
    refine Logs.bind (Lane.moves_advance length lane.place) fun next log hmoves => Logs.pure ?_
    rw [List.append_nil]
    exact .lane h hmoves

/-- **What every move keeps holds in every reachable state**, in whatever order the lanes move. -/
theorem logs_follow {P : Round → List Exchange → Prop}
    (hmove : ∀ {r r' log more} (index : Nat), P r log → r.Moves b index more r' →
      P r' (log ++ more)) (schedule : List Nat) :
    ∀ {r log}, P r log → Logs (r.follow b.watched length schedule) fun r' more =>
      P r' (log ++ more) := by
  induction schedule with
  | nil =>
    intro r log h
    refine Logs.pure ?_
    rwa [List.append_nil]
  | cons index schedule ih =>
    intro r log h
    unfold follow
    rw [List.foldlM_cons]
    refine Logs.bind (moves_step index) fun r' more hmoves => ?_
    refine (ih (hmove index h hmoves)).mono fun r'' more' h'' => ?_
    rwa [← List.append_assoc]

/-- The state that a round comes to from a world when its lanes move in this order. -/
def reached (b : Bench (StateM σ)) (length : IterationLength) (r : Round) (world : σ)
    (schedule : List Nat) : Round := ((r.follow b length schedule).run world).1

@[simp] theorem reached_nil (world : σ) : r.reached b length world [] = r := rfl

theorem run_follow_append (world : σ) (former latter : List Nat) :
    (r.follow b length (former ++ latter)).run world =
      (((r.follow b length former).run world).1.follow b length latter).run
        ((r.follow b length former).run world).2 := by
  unfold follow
  rw [List.foldlM_append, run_bind]

/-- The state after one more step is reached by a move. -/
theorem reached_snoc (b : Bench (StateM σ)) (length : IterationLength) (r : Round) (world : σ)
    (former : List Nat) (index : Nat) :
    ∃ log, (r.reached b length world former).Moves b index log
      (r.reached b length world (former ++ [index])) := by
  -- the moves are those of the round that is watched, which shows the same states
  let world' := ((r.follow b length former).run world).2
  have hshow : ((r.reached b length world former).step b length index).run world' =
      ((((r.reached b length world former).step b.watched length index).run world').answer,
        (((r.reached b length world former).step b.watched length index).run world').world) :=
    shows_step _ index world'
  have hlast : r.reached b length world (former ++ [index]) =
      (((r.reached b length world former).step b length index).run world').1 := by
    unfold reached
    rw [run_follow_append]
    rfl
  rw [hlast, hshow]
  exact ⟨_, moves_step index world'⟩

/-- What every move keeps holds in every reachable state. -/
theorem reached_induction {P : Round → Prop} (h : P r)
    (hmove : ∀ {r r' log} (index : Nat), P r → r.Moves b index log r' → P r') (world : σ)
    (schedule : List Nat) : P (r.reached b length world schedule) := by
  induction schedule using List.reverseRecOn with
  | nil => exact h
  | append_singleton former index ih =>
    obtain ⟨log, hmoves⟩ := reached_snoc b length r world former index
    exact hmove index ih hmoves

theorem reached_append {P : Round → Prop}
    (hmove : ∀ {r r' log} (index : Nat), P r → r.Moves b index log r' → P r') (world : σ)
    (earlier later : List Nat) (h : P (r.reached b length world earlier)) :
    P (r.reached b length world (earlier ++ later)) := by
  unfold reached
  rw [run_follow_append]
  exact reached_induction h hmove ((r.follow b length earlier).run world).2 later

/-- The state after so many steps and the one after the next. -/
theorem reached_take_succ (b : Bench (StateM σ)) (length : IterationLength) (r : Round) (world : σ)
    (schedule : List Nat) (k : Nat) :
    (∃ index log, schedule[k]? = some index ∧
      (r.reached b length world (schedule.take k)).Moves b index log
        (r.reached b length world (schedule.take (k + 1)))) ∨
    schedule[k]? = none ∧ schedule.take (k + 1) = schedule.take k := by
  by_cases hk : k < schedule.length
  · obtain ⟨log, hmoves⟩ := reached_snoc b length r world
      (schedule.take k) schedule[k]
    rw [← List.take_succ_eq_append_getElem hk] at hmoves
    exact .inl ⟨_, log, List.getElem?_eq_getElem hk, hmoves⟩
  · refine .inr ⟨List.getElem?_eq_none (Nat.le_of_not_lt hk), ?_⟩
    rw [List.take_of_length_le (by omega), List.take_of_length_le (by omega)]

/-- Whether the lane with this index stands at such a place. -/
def standsAt (r : Round) (index : Nat) (p : Lane.Place → Bool) : Bool :=
  r.lanes[index]?.any fun lane => p lane.place

/-- Places that a lane does not leave once it has come to them. -/
def Stays {m : Type → Type} (b : Bench m) (p : Lane.Place → Bool) : Prop :=
  ∀ {seat c place log c' place'}, Lane.Moves b seat c place log c' place' → p place = true →
    p place' = true

section Standing

variable {p : Lane.Place → Bool} {i : Nat}

theorem standsAt_of_getElem? {lane : Lane} (h : r.lanes[i]? = some lane) :
    r.standsAt i p = p lane.place := by
  rw [standsAt, h]
  rfl

theorem standsAt_set_self {lane lane' : Lane} {common : Common} (h : r.lanes[i]? = some lane) :
    (⟨common, r.lanes.set i lane'⟩ : Round).standsAt i p = p lane'.place :=
  standsAt_of_getElem? (List.getElem?_set_self (List.getElem?_eq_some_iff.1 h).1)

/-- A lane that stands somewhere moves when it is its turn. -/
theorem Moves.of_standsAt {r' : Round} (h : r.Moves b i log r') (hstood : r.standsAt i p = true) :
    ∃ (lane : Lane) (common : Common) (place : Lane.Place),
      Lane.Moves b lane.seat r.common lane.place log common place ∧
      (∀ q, r.standsAt i q = q lane.place) ∧ ∀ q, r'.standsAt i q = q place := by
  cases h with
  | nobody hnone =>
    rw [standsAt, hnone] at hstood
    cases hstood
  | @lane lane common place hfound hmove =>
    exact ⟨lane, common, place, hmove, fun _ => standsAt_of_getElem? hfound,
      fun _ => standsAt_set_self hfound⟩

/-- A lane stands where it does by its own move, or it stood there before the move of another. -/
theorem Moves.standsAt_cases {r' : Round} {index : Nat} (h : r.Moves b index log r')
    (hafter : r'.standsAt i p = true) :
    (index = i ∧ ∃ lane common place, r.lanes[i]? = some lane ∧
      Lane.Moves b lane.seat r.common lane.place log common place ∧
      r' = ⟨common, r.lanes.set i { lane with place }⟩ ∧ p place = true) ∨
    (index ≠ i ∧ r.standsAt i p = true) := by
  by_cases hi : index = i
  · subst hi
    cases h with
    | nobody hnone =>
      rw [standsAt, hnone] at hafter
      cases hafter
    | @lane lane common place hfound hmove =>
      rw [standsAt_set_self hfound] at hafter
      exact .inl ⟨rfl, lane, common, place, hfound, hmove, rfl, hafter⟩
  · refine .inr ⟨hi, ?_⟩
    cases h with
    | nobody => exact hafter
    | lane => rwa [standsAt, List.getElem?_set_ne hi] at hafter

/-- A lane that comes to such places has made the move. -/
theorem Moves.of_comes {r' : Round} {index : Nat} (h : r.Moves b index log r')
    (hbefore : r.standsAt i p = false) (hafter : r'.standsAt i p = true) :
    ∃ lane common place, index = i ∧ r.lanes[i]? = some lane ∧
      Lane.Moves b lane.seat r.common lane.place log common place ∧
      r' = ⟨common, r.lanes.set i { lane with place }⟩ ∧
      p lane.place = false ∧ p place = true := by
  rcases h.standsAt_cases hafter with ⟨hi, lane, common, place, hfound, hmove, hnext, hplace⟩ |
    ⟨-, hstood⟩
  · rw [standsAt_of_getElem? hfound] at hbefore
    exact ⟨lane, common, place, hi, hfound, hmove, hnext, hbefore, hplace⟩
  · rw [hbefore] at hstood
    cases hstood

theorem Moves.standsAt_mono {r' : Round} {index : Nat} (h : r.Moves b index log r')
    (hp : Stays b p) (hbefore : r.standsAt i p = true) : r'.standsAt i p = true := by
  by_cases hi : index = i
  · subst hi
    obtain ⟨lane, common, place, hmove, hplace, hplace'⟩ := h.of_standsAt hbefore
    rw [hplace] at hbefore
    rw [hplace']
    exact hp hmove hbefore
  · cases h with
    | nobody => exact hbefore
    | lane =>
      unfold standsAt at hbefore ⊢
      rwa [List.getElem?_set_ne hi]

theorem reached_standsAt_mono (hp : Stays b p) (world : σ) (schedule : List Nat) (k : Nat)
    (h : (r.reached b length world (schedule.take k)).standsAt i p = true) :
    (r.reached b length world (schedule.take (k + 1))).standsAt i p = true := by
  rcases reached_take_succ b length r world schedule k with
    ⟨index, log, -, hmoves⟩ | ⟨-, hsame⟩
  · exact hmoves.standsAt_mono hp h
  · rwa [hsame]

/-- The step with which a lane comes to such places is its own. -/
theorem reached_comes (world : σ) (schedule : List Nat) {k : Nat}
    (hbefore : (r.reached b length world (schedule.take k)).standsAt i p = false)
    (hafter : (r.reached b length world (schedule.take (k + 1))).standsAt i p = true) :
    schedule[k]? = some i ∧ ∃ lane log common place,
      (r.reached b length world (schedule.take k)).lanes[i]? = some lane ∧
      Lane.Moves b lane.seat (r.reached b length world (schedule.take k)).common lane.place log
        common place ∧
      (r.reached b length world (schedule.take (k + 1))).common = common ∧
      p lane.place = false ∧ p place = true := by
  rcases reached_take_succ b length r world schedule k with
    ⟨index, log, hindex, hmoves⟩ | ⟨-, hsame⟩
  · obtain ⟨lane, common, place, rfl, hfound, hmove, hnext, hplace, hplace'⟩ :=
      hmoves.of_comes hbefore hafter
    exact ⟨hindex, lane, log, common, place, hfound, hmove, congrArg Round.common hnext, hplace,
      hplace'⟩
  · rw [hsame, hbefore] at hafter
    cases hafter

end Standing

/-! ### The order in which a round is run -/

/-- A round whose threads move in this order. -/
def runAlong {m : Type → Type} [Monad m] (b : Bench m) (length : IterationLength)
    (seats : List Seat) (schedule : List Nat) : ExceptT Failure m (List Harvest) := do
  let r ← ExceptT.lift ((ofSeats seats).follow b length schedule)
  match r.lanes.mapM (outcome b) with
  | .ok harvests => pure harvests
  | .error f => throw f

/-- A computation moves the lanes of a round in some order. -/
def IsAlong (b : Bench (StateM σ)) (length : IterationLength) (r : Round) (x : StateM σ Round) :
    Prop :=
  ∀ world, ∃ schedule, x.run world = (r.follow b length schedule).run world

theorem IsAlong.bind {x : StateM σ Round} {f : Round → StateM σ Round}
    (hx : IsAlong b length r x) (hf : ∀ r', IsAlong b length r' (f r')) :
    IsAlong b length r (x >>= f) := by
  intro world
  obtain ⟨former, hformer⟩ := hx world
  obtain ⟨latter, hlatter⟩ := hf ((r.follow b length former).run world).1
    ((r.follow b length former).run world).2
  refine ⟨former ++ latter, ?_⟩
  rw [run_bind, hformer, hlatter, run_follow_append]

theorem isAlong_settleLane (stop : Lane.Place → Bool) (index patience : Nat) (r : Round) :
    IsAlong b length r (settleLane b length stop index patience r) := by
  induction patience generalizing r with
  | zero => exact fun _ => ⟨[], rfl⟩
  | succ patience ih =>
    unfold settleLane
    split
    · exact fun _ => ⟨[], rfl⟩
    · split
      · exact fun _ => ⟨[], rfl⟩
      · exact IsAlong.bind (fun _ => ⟨[index], rfl⟩) ih

theorem isAlong_settleAll (b : Bench (StateM σ)) (length : IterationLength)
    (stop : Lane.Place → Bool) (patience : Nat) (r : Round) :
    IsAlong b length r (settleAll b length patience stop r) := by
  unfold settleAll
  generalize List.range r.lanes.length = indices
  induction indices generalizing r with
  | nil => exact fun _ => ⟨[], rfl⟩
  | cons index indices ih =>
    rw [List.foldlM_cons]
    exact IsAlong.bind (isAlong_settleLane stop index patience r) ih

/-- A round is run in one of the orders in which its lanes can move. -/
theorem exists_runAlong (b : Bench (StateM σ)) (length : IterationLength) (patience : Nat)
    (seats : List Seat) (world : σ) :
    ∃ schedule, (run b length patience seats).run.run world =
      (runAlong b length seats schedule).run.run world := by
  -- first all come to the barrier, then all measure, then all end
  have hall := IsAlong.bind
    (isAlong_settleAll b length Lane.Place.isWaiting patience (ofSeats seats)) fun r =>
      IsAlong.bind (isAlong_settleAll b length Lane.Place.isDone patience r) fun r =>
        isAlong_settleAll b length Lane.Place.isOver patience r
  obtain ⟨schedule, hschedule⟩ := hall world
  refine ⟨schedule, ?_⟩
  unfold run runAlong
  simp only [run_lift_bind]
  rw [← hschedule]
  rfl

end Round

/-- A round in a given order, in two worlds. -/
theorem Bench.Pairs.runAlong {m m' : Type → Type} [Monad m] [Monad m'] [LawfulMonad m]
    [LawfulMonad m'] {R : Pairing m m'} {b : Bench m} {b' : Bench m'} {length : IterationLength}
    (h : b.Pairs R b') (seats : List Seat) (schedule : List Nat) :
    R.Tries Eq (Round.runAlong b length seats schedule)
      (Round.runAlong b' length seats schedule) := by
  refine Pairing.andThen_eq (Pairing.lift (h.follow _ schedule)) fun r => ?_
  rw [h.outcome]
  split
  · exact Pairing.ok rfl
  · exact Pairing.fail _

namespace Conductor

/-- An iteration whose threads move in this order. -/
def runIterationAlong {m : Type → Type} [Monad m] (c : Conductor m) (length : IterationLength)
    (index : UInt32) (schedule : List Nat) : ExceptT Failure m IterationResult := do
  c.fixtures .iteration .setup
  let harvests ← Round.runAlong c.toBench length (c.activeSeats index) schedule
  c.fixtures .iteration .teardown
  let result := IterationResult.ofThreads (harvests.map (·.metrics))
  return { result with operations := Whole.total (harvests.map (·.operations)) }

variable {c : Conductor (StateM σ)}

/-- **An iteration is run in one of the orders** in which its threads can move. -/
theorem exists_runIterationAlong (length : IterationLength) (index : UInt32) (world : σ) :
    ∃ schedule, (c.runIteration length index).run.run world =
      (c.runIterationAlong length index schedule).run.run world := by
  rcases hsetUp : (c.fixtures .iteration .setup).run.run world with ⟨_ | _, world'⟩
  · refine ⟨[], ?_⟩
    unfold runIteration runIterationAlong
    rw [run_error_bind hsetUp, run_error_bind hsetUp]
  · obtain ⟨schedule, hschedule⟩ := Round.exists_runAlong c.toBench length c.patience
      (c.activeSeats index) world'
    refine ⟨schedule, ?_⟩
    unfold runIteration runIterationAlong
    rw [run_ok_bind hsetUp, run_ok_bind hsetUp, ExceptT.run_bind, ExceptT.run_bind, run_bind,
      run_bind, hschedule]

theorem shows_runIterationAlong (length : IterationLength) (index : UInt32)
    (schedule : List Nat) :
    Shows (c.watched.runIterationAlong length index schedule).run
      (c.runIterationAlong length index schedule).run := by
  have hpairs := c.toBench.pairs_watched
  refine .of_tries ?_
  refine Pairing.andThen_eq (hpairs.trialFixtures .iteration .setup) fun _ => ?_
  refine Pairing.andThen_eq (hpairs.runAlong _ schedule) fun harvests => ?_
  exact Pairing.andThen_eq (hpairs.trialFixtures .iteration .teardown) fun _ => Pairing.ok rfl

end Conductor

end Microbench
