import Microbench.Proofs.Engine.Idling
import Microbench.Proofs.Engine.Results

/-!
# What a step does with the work of a thread

The moves of a lane say nothing about its work.  What a step does with it is said here
once: when a lane gets a work and what a batch adds to it, with which work it leaves its
measured part, and that it keeps that work then.  A step may depend on the clock, so what the
clock shows before it belongs to what is said.

Whatever holds of one lane in all reachable states is shown for its own steps, and for
those of the other lanes, with which its thread does not invoke.

## Main definitions

* `Lane.Works`, `Round.Works` — what a step of a lane, or of a round, does.
* `Round.written`, `Round.clock` — the exchanges of a round up to a state, and the clock then.

## Main results

* `Lane.works_advance`, `Round.works_snoc` — what a step does.
* `Round.lane_induction` — **what the steps of a lane keep holds of it in every reachable state.**
* `Round.not_lost_of_good`, `Round.lost_of_failed` — where all calls go well no lane fails, and
  where no lane fails the flag is down.
-/

namespace Microbench

variable {σ : Type}

/-- The work of a thread that has not measured anything. -/
abbrev Work.fresh (mode : Mode) : Work := ⟨.ofMode mode, .empty⟩

/-- A batch of so many invocations has made the one work the other. -/
def Work.Gains (mode : Mode) (seat : Seat) (n : Nat) (log : List Exchange) (w w' : Work) : Prop :=
  ∀ prior, w.Holds mode prior →
    w'.Holds mode (prior ++ repliesOf seat log) ∧ (repliesOf seat log).length = n

/-- A computation that has a script fails only if a call of it goes wrong. -/
theorem Fares.exists_bad {α ε : Type} {strict : Prop} {blame : Call → TaskError → ε}
    {script : List Call} {e : ε} {log : List Exchange}
    (h : Fares strict blame script (.error e : Except ε α) log) : ∃ x ∈ log, x.isGood = false := by
  cases h with
  | well _ hresult _ _ => cases hresult
  | ill hbad _ => exact hbad

theorem Bench.gains_batch {b : Bench (StateM σ)} {seat : Seat} (n : Nat) (w : Work) :
    Logs (b.watched.batch seat n w).run fun r log =>
      (∀ w', r = .ok w' → w.Gains b.settings.mode seat n log w') ∧
        ∀ f, r = .error f → ∃ x ∈ log, x.isGood = false := by
  intro world
  refine ⟨fun w' hok prior hprior => yields_batch n hprior world w' hok, fun f herror => ?_⟩
  have hperforms : Performs True (b.blame seat.index) (b.watched.batch seat n w) _ :=
    performs_batch n w
  have hfares := hperforms world
  rw [herror] at hfares
  exact hfares.exists_bad

/-- The next batch, if the target is not reached; it has at least one invocation. -/
theorem Pace.next_cases (p : Pace) (operations : Nat) (elapsed : Duration) :
    (p.next Float operations elapsed = (none, p) ∧ p.target.nanos ≤ elapsed.nanos) ∨
    ∃ size p', p.next Float operations elapsed = (some size, p') ∧
      elapsed.nanos < p.target.nanos ∧ p'.target = p.target ∧
      (1 ≤ p.batch → 1 ≤ size ∧ 1 ≤ p'.batch) := by
  unfold next
  split
  · next hover => exact .inl ⟨rfl, hover⟩
  · next hunder =>
    refine .inr ?_
    split
    · exact ⟨_, _, rfl, Nat.lt_of_not_le hunder, rfl, fun h => ⟨h, h⟩⟩
    · refine ⟨_, _, rfl, Nat.lt_of_not_le hunder, rfl, fun _ => ?_⟩
      exact ⟨Nat.le_max_left _ _, Nat.le_max_left _ _⟩

namespace Lane

/-! ### Places and the work of a thread -/

/-- The lane has nothing to show yet, and has not failed. -/
def Place.isEarly : Place → Bool
  | entering | arriving none | waiting none | checking | starting => true
  | _ => false

/-- The lane has failed. -/
def Place.isLost : Place → Bool
  | alarming _ | arriving (some _) | waiting (some _) | refused _ | broken _ | leaving (.error _)
  | failing _ | ended (.error _) => true
  | _ => false

/-- The lane has left its measured part, and has not failed. -/
def Place.hasKept : Place → Bool
  | idling _ | looking _ | spinning _ | closing _ | ended (.ok _) => true
  | _ => false

/-- The lane has left its measured part with this work, and has not failed since. -/
def Place.Carries {m : Type → Type} (b : Bench m) (w : Work) : Place → Prop
  | idling work | looking work | spinning work | closing work => work = w
  | ended (.ok harvest) => harvest = b.harvest w
  | _ => False

/-- What a step of a lane does with the work of its thread when the clock shows `now` before it:
what is shared and where the lane stands before it, its exchanges with the task, and what is
shared and where the lane stands after it. -/
inductive Works {m : Type → Type} (b : Bench m) (length : IterationLength) (seat : Seat)
    (now : Duration) : Common → Place → List Exchange → Common → Place → Prop
  /-- There is no work yet. -/
  | ready {c c' : Common} {place place' : Place} {log : List Exchange}
      (before : place.isEarly = true) (after : place'.isEarly = true)
      (same : c'.failed = c.failed) (quiet : repliesOf seat log = [])
      (unstarted : place ≠ .starting) : Works b length seat now c place log c' place'
  /-- The lane fails, or it has failed. -/
  | lose {c c' : Common} {place place' : Place} {log : List Exchange} (lost : place'.isLost = true)
      (cause : place.isLost = true ∨ ∃ x ∈ log, x.isGood = false) :
      Works b length seat now c place log c' place'
  /-- The flag is up: nothing is measured. -/
  | skip {c : Common} (up : c.failed = true) :
      Works b length seat now c .checking [] c (.leaving (.ok (.fresh b.settings.mode)))
  /-- All invocations of a counted iteration. -/
  | measure {c : Common} {log : List Exchange} {n : UInt64} {work : Work}
      (counted : length = .invocations n)
      (gains : (Work.fresh b.settings.mode).Gains b.settings.mode seat n.toNat log work) :
      Works b length seat now c .starting log c (.leaving (.ok work))
  /-- The clock of a timed iteration is started. -/
  | time {c : Common} {target : Duration} (timed : length = .time target) :
      Works b length seat now c .starting [] c
        (.measuring now { target } (.fresh b.settings.mode))
  /-- The time is over, or the flag is up. -/
  | enough {c : Common} {start : Duration} {pace : Pace} {work : Work}
      (past : pace.target.nanos ≤ (now.minus start).nanos ∨ c.failed = true) :
      Works b length seat now c (.measuring start pace work) [] c (.leaving (.ok work))
  /-- There is time for a batch. -/
  | again {c : Common} {start : Duration} {pace pace' : Pace} {size : Nat} {work : Work}
      (under : (now.minus start).nanos < pace.target.nanos) (target : pace'.target = pace.target)
      (some : 1 ≤ pace.batch → 1 ≤ size ∧ 1 ≤ pace'.batch) :
      Works b length seat now c (.measuring start pace work) [] c
        (.batching start pace' size work)
  /-- A batch of a timed iteration. -/
  | batch {c : Common} {log : List Exchange} {start : Duration} {pace : Pace} {size : Nat}
      {work work' : Work} (gains : work.Gains b.settings.mode seat size log work') :
      Works b length seat now c (.batching start pace size work) log c
        (.measuring start pace work')
  /-- The lane leaves its measured part. -/
  | leave {c c' : Common} {place' : Place} {work : Work} (same : c'.failed = c.failed)
      (carries : place'.Carries b work) :
      Works b length seat now c (.leaving (.ok work)) [] c' place'
  /-- The lane has left its measured part, and keeps what it has. -/
  | keep {c : Common} {place place' : Place} {log : List Exchange}
      (before : place.hasKept = true) (after : place'.hasKept = true)
      (carries : ∀ work, place.Carries b work → place'.Carries b work) :
      Works b length seat now c place log c place'

theorem Place.hasLeft_of_hasKept {place : Place} (h : place.hasKept = true) :
    place.hasLeft = true := by
  cases place with
  | ended outcome => rfl
  | _ => first | rfl | cases h

theorem Place.not_lost_of_hasKept {place : Place} (h : place.hasKept = true) :
    place.isLost = false := by
  cases place with
  | ended outcome => cases outcome <;> first | rfl | cases h
  | _ => first | rfl | cases h

theorem Place.not_early_of_hasLeft {place : Place} (h : place.hasLeft = true) :
    place.isEarly = false := by
  cases place <;> first | rfl | cases h

theorem Place.Carries.hasKept {m : Type → Type} {b : Bench m} {work : Work} {place : Place}
    (h : place.Carries b work) : place.hasKept = true := by
  cases place with
  | ended outcome =>
    cases outcome with
    | ok harvest => rfl
    | error f => exact h.elim
  | _ => first | rfl | exact h.elim

theorem Place.not_lost_of_isEarly {place : Place} (h : place.isEarly = true) :
    place.isLost = false := by
  cases place with
  | arriving refusal => cases refusal <;> first | rfl | cases h
  | waiting refusal => cases refusal <;> first | rfl | cases h
  | _ => first | rfl | cases h

namespace Works

variable {m : Type → Type} {b : Bench m} {length : IterationLength} {seat : Seat} {now : Duration}
  {c c' : Common} {place place' : Place} {log : List Exchange} {work : Work}

/-- A lane in whose calls nothing goes wrong does not fail. -/
theorem not_lost (h : Works b length seat now c place log c' place')
    (hgood : ∀ x ∈ log, x.isGood = true) (hbefore : place.isLost = false) :
    place'.isLost = false := by
  cases h with
  | ready before after same quiet => exact Place.not_lost_of_isEarly after
  | lose lost cause =>
    rcases cause with hlost | ⟨x, hx, hbad⟩
    · rw [hbefore] at hlost
      cases hlost
    · rw [hgood x hx] at hbad
      cases hbad
  | leave same carries => exact Place.not_lost_of_hasKept carries.hasKept
  | keep before after carries => exact Place.not_lost_of_hasKept after
  | _ => rfl

/-- A lane that does not fail leaves the flag alone. -/
theorem failed_eq (h : Works b length seat now c place log c' place')
    (hafter : place'.isLost = false) : c'.failed = c.failed := by
  cases h with
  | ready before after same quiet => exact same
  | lose lost cause =>
    rw [hafter] at lost
    cases lost
  | leave same carries => exact same
  | _ => rfl

/-- A lane that has failed does not recover. -/
theorem isLost_mono (h : Works b length seat now c place log c' place')
    (hlost : place.isLost = true) : place'.isLost = true := by
  cases h with
  | ready before after same quiet =>
    rw [Place.not_lost_of_isEarly before] at hlost
    cases hlost
  | lose lost cause => exact lost
  | keep before after carries =>
    rw [Place.not_lost_of_hasKept before] at hlost
    cases hlost
  | _ => cases hlost

/-- A lane that leaves its measured part takes its work with it. -/
theorem carries_of_leaves (h : Works b length seat now c place log c' place')
    (hbefore : place.hasKept = false) (hafter : place'.hasKept = true) :
    ∃ work, place = .leaving (.ok work) ∧ place'.Carries b work := by
  cases h with
  | ready before after same quiet =>
    rw [Place.not_early_of_hasLeft (Place.hasLeft_of_hasKept hafter)] at after
    cases after
  | lose lost cause =>
    rw [Place.not_lost_of_hasKept hafter] at lost
    cases lost
  | leave same carries => exact ⟨_, rfl, carries⟩
  | keep before after carries =>
    rw [before] at hbefore
    cases hbefore
  | _ => cases hafter

/-- A lane that has left keeps what it has, unless it fails. -/
theorem carries_of_hasKept (h : Works b length seat now c place log c' place')
    (hbefore : place.hasKept = true) (hafter : place'.hasKept = true) (work : Work)
    (hcarries : place.Carries b work) : place'.Carries b work := by
  cases h with
  | ready before after same quiet =>
    rw [Place.not_early_of_hasLeft (Place.hasLeft_of_hasKept hbefore)] at before
    cases before
  | lose lost cause =>
    rw [Place.not_lost_of_hasKept hafter] at lost
    cases lost
  | keep before after carries => exact carries work hcarries
  | _ => cases hbefore

end Works

variable {b : Bench (StateM σ)} {seat : Seat} {c : Common}

/-- With the fixture of a thread nobody invokes, and it fails only if the call goes wrong. -/
theorem logs_ownFixture (seat' : Seat) (stage : Stage) :
    Logs (b.watched.threadFixture seat stage).run fun r log =>
      repliesOf seat' log = [] ∧ ∀ e, r = .error e → ∃ x ∈ log, x.isGood = false := by
  intro world
  have hasked : calls ((b.watched.threadFixture seat stage).run.run world).log =
      b.ownFixture stage seat := (logs_threadFixture stage world).1
  have hperforms : Performs True (fun _ e => e) (b.watched.threadFixture seat stage) _ :=
    Bench.performs_threadFixture stage
  refine ⟨repliesOf_eq_nil fun x hx => ?_, fun e herror => ?_⟩
  · have hmem : x.call ∈ b.ownFixture stage seat := hasked ▸ List.mem_map_of_mem hx
    unfold Bench.ownFixture at hmem
    split at hmem
    · rw [List.mem_singleton.1 hmem]
      exact nofun
    · cases hmem
  · have hfares := hperforms world
    rw [herror] at hfares
    exact hfares.exists_bad

/-- **What a step of a lane does** with the work of its thread. -/
theorem works_advance (length : IterationLength) (place : Place) (world : σ) :
    let seen := (advance b.watched length seat c place).run world
    Works b length seat (b.host.now.run world).1 c place seen.log seen.answer.1 seen.answer.2 := by
  have hsettle {α ε : Type} {x : ExceptT ε (Watched σ) α} {P : Except ε α → List Exchange → Prop}
      {ok : α → Place} {error : ε → Place} (hx : Logs x.run P)
      (hok : ∀ a log, P (.ok a) log →
        Works b length seat (b.host.now.run world).1 c place log c (ok a))
      (herror : ∀ e log, P (.error e) log →
        Works b length seat (b.host.now.run world).1 c place log c (error e)) :
      let seen := ((c, ·) <$> settle x ok error : Watched σ (Common × Place)).run world
      Works b length seat (b.host.now.run world).1 c place seen.log seen.answer.1 seen.answer.2 :=
    logs_settle (Q := fun c' place' log =>
      Works b length seat (b.host.now.run world).1 c place log c' place') hx hok herror world
  cases place with
  | entering =>
    refine hsettle (logs_ownFixture seat .setup) ?_ ?_
    · exact fun _ log h => .ready rfl rfl rfl h.1 nofun
    · exact fun e log h => .lose rfl (.inr (h.2 e rfl))
  | alarming e => exact .lose rfl (.inl rfl)
  | arriving refusal =>
    cases refusal with
    | none => exact .ready rfl rfl rfl rfl nofun
    | some e => exact .lose rfl (.inl rfl)
  | waiting refusal =>
    unfold advance
    dsimp only
    split
    · cases refusal with
      | none => exact .ready rfl rfl rfl rfl nofun
      | some e => exact .lose rfl (.inl rfl)
    · cases refusal with
      | none => exact .ready rfl rfl rfl rfl nofun
      | some e => exact .lose rfl (.inl rfl)
  | refused e => exact .lose rfl (.inl rfl)
  | checking =>
    unfold advance
    dsimp only
    split
    · next h => exact .skip h
    · exact .ready rfl rfl rfl rfl nofun
  | starting =>
    cases length with
    | invocations n =>
      refine hsettle (Bench.gains_batch _ _) ?_ ?_
      · exact fun work log h => .measure rfl (h.1 work rfl)
      · exact fun f log h => .lose rfl (.inr (h.2 f rfl))
    | time target => exact .time rfl
  | measuring start pace work =>
    have hnow : b.watched.host.now.run world =
        ⟨(b.host.now.run world).1, [], (b.host.now.run world).2⟩ := rfl
    unfold advance
    rw [Watched.run_bind, hnow]
    dsimp only
    rcases pace.next_cases work.meter.operations ((b.host.now.run world).1.minus start) with
      ⟨hnext, hover⟩ | ⟨size, pace', hnext, hunder, htarget, hsome⟩
    · rw [hnext]
      exact .enough (.inl hover)
    · rw [hnext]
      dsimp only
      split
      · next hup => exact .enough (.inr hup)
      · exact .again hunder htarget hsome
  | batching start pace size work =>
    refine hsettle (Bench.gains_batch _ _) ?_ ?_
    · exact fun work' log h => .batch (h.1 work' rfl)
    · exact fun f log h => .lose rfl (.inr (h.2 f rfl))
  | broken f => exact .lose rfl (.inl rfl)
  | leaving outcome =>
    cases outcome with
    | error f => exact .lose rfl (.inl rfl)
    | ok work =>
      refine .leave rfl ?_
      show Place.Carries b work (if b.settings.syncIterations then .idling work else .closing work)
      split
      · rfl
      · rfl
  | idling work =>
    unfold advance
    dsimp only
    split
    · exact .keep rfl rfl fun _ h => h
    · exact .keep rfl rfl fun _ h => h
  | looking work =>
    unfold advance
    dsimp only
    split
    · exact .keep rfl rfl fun _ h => h
    · exact .keep rfl rfl fun _ h => h
  | spinning work =>
    refine hsettle (Bench.gains_batch _ _) ?_ ?_
    · exact fun _ log _ => .keep rfl rfl fun _ h => h
    · exact fun f log h => .lose rfl (.inr (h.2 f rfl))
  | closing work =>
    refine hsettle (logs_ownFixture seat .teardown) ?_ ?_
    · exact fun _ log _ => .keep rfl rfl fun _ h => congrArg b.harvest h
    · exact fun e log h => .lose rfl (.inr (h.2 e rfl))
  | failing f => exact .lose rfl (.inl rfl)
  | ended outcome =>
    cases outcome with
    | ok harvest => exact .keep rfl rfl fun _ h => h
    | error f => exact .lose rfl (.inl rfl)

/-- In a step of a lane no other thread invokes. -/
theorem quiet_advance (length : IterationLength) {seat' : Seat} (hseat : seat' ≠ seat)
    (place : Place) :
    Logs (advance b.watched length seat c place) fun _ log => repliesOf seat' log = [] := by
  have hbatch (n : Nat) (w : Work) :
      Logs (b.watched.batch seat n w).run fun _ log => repliesOf seat' log = [] := by
    have hother : b.HoldsOfTurns seat fun x => x.call ≠ .invoke seat' :=
      ⟨fun _ h => hseat (Call.invoke.inj h).symm, fun _ _ _ => nofun⟩
    exact (Bench.asksOnly_batch hother n w).mono fun _ _ => repliesOf_eq_nil
  have hown (stage : Stage) :
      Logs (b.watched.threadFixture seat stage).run fun _ log => repliesOf seat' log = [] :=
    (logs_ownFixture seat' stage).mono fun _ _ h => h.1
  have hsettle {α ε : Type} {x : ExceptT ε (Watched σ) α} {ok : α → Place} {error : ε → Place}
      (hx : Logs x.run fun _ log => repliesOf seat' log = []) :
      Logs ((c, ·) <$> settle x ok error) fun _ log => repliesOf seat' log = [] :=
    logs_settle (Q := fun _ _ log => repliesOf seat' log = []) hx (fun _ _ h => h)
      fun _ _ h => h
  cases place with
  | entering => exact hsettle (hown .setup)
  | starting =>
    cases length with
    | invocations n => exact hsettle (hbatch _ _)
    | time target => exact fun _ => rfl
  | batching start pace size work => exact hsettle (hbatch _ _)
  | spinning work => exact hsettle (hbatch _ _)
  | closing work => exact hsettle (hown .teardown)
  | _ =>
    refine (moves_advance length _).mono fun next log hmove => ?_
    obtain ⟨c', place'⟩ := next
    cases hmove <;> rfl

end Lane

namespace Round

/-! ### Steps of a round -/

/-- The exchanges of a round up to the state that it comes to when its lanes move in this order. -/
def written (b : Bench (StateM σ)) (length : IterationLength) (r : Round) (world : σ)
    (schedule : List Nat) : List Exchange := ((r.follow b.watched length schedule).run world).log

/-- What the clock shows then. -/
def clock (b : Bench (StateM σ)) (length : IterationLength) (r : Round) (world : σ)
    (schedule : List Nat) : Duration :=
  (b.host.now.run ((r.follow b length schedule).run world).2).1

/-- What a step of the lane with this index does with the work of the threads. -/
inductive Works {m : Type → Type} (b : Bench m) (length : IterationLength) (now : Duration)
    (index : Nat) (r : Round) (log : List Exchange) : Round → Prop
  /-- The lane does something, and nobody else does. -/
  | lane {lane : Lane} {common : Common} {place : Lane.Place}
      (found : r.lanes[index]? = some lane)
      (works : Lane.Works b length lane.seat now r.common lane.place log common place)
      (others : ∀ seat, seat ≠ lane.seat → repliesOf seat log = []) :
      Works b length now index r log ⟨common, r.lanes.set index { lane with place }⟩
  /-- There is no such lane. -/
  | nobody (none : r.lanes[index]? = none) (quiet : log = []) : Works b length now index r log r

variable {b : Bench (StateM σ)} {length : IterationLength} {r : Round} {seats : List Seat}
  {seat : Seat} {world : σ} {schedule : List Nat} {i k : Nat} {w : Work}

theorem works_step (r : Round) (index : Nat) (world : σ) :
    let seen := (r.step b.watched length index).run world
    r.Works b length (b.host.now.run world).1 index seen.log seen.answer := by
  unfold step
  dsimp only
  split
  · next h => exact .nobody h rfl
  · next lane h =>
    rw [Watched.run_bind]
    dsimp only
    show r.Works b length _ index (_ ++ []) ⟨_, _⟩
    rw [List.append_nil]
    exact .lane h (Lane.works_advance length lane.place world) fun seat hseat =>
      Lane.quiet_advance length hseat lane.place world

/-- What is seen of a watched round. -/
theorem run_follow_watched (r : Round) (world : σ) (schedule : List Nat) :
    (r.follow b.watched length schedule).run world =
      ⟨r.reached b length world schedule, r.written b length world schedule,
        ((r.follow b length schedule).run world).2⟩ := by
  unfold reached
  rw [shows_follow r schedule world]
  rfl

theorem written_append (r : Round) (world : σ) (former latter : List Nat) :
    r.written b length world (former ++ latter) =
      r.written b length world former ++
        (((r.reached b length world former).follow b.watched length latter).run
          ((r.follow b length former).run world).2).log := by
  have hsplit : r.follow b.watched length (former ++ latter) =
      r.follow b.watched length former >>= fun r' => r'.follow b.watched length latter :=
    List.foldlM_append
  rw [written, hsplit, Watched.run_bind, run_follow_watched r world former]

/-- The state after one more step, and the exchanges with it. -/
theorem works_snoc (b : Bench (StateM σ)) (length : IterationLength) (r : Round) (world : σ)
    (former : List Nat) (index : Nat) :
    ∃ log, r.written b length world (former ++ [index]) = r.written b length world former ++ log ∧
      (r.reached b length world former).Works b length (r.clock b length world former) index log
        (r.reached b length world (former ++ [index])) := by
  let world' := ((r.follow b length former).run world).2
  let next := ((r.reached b length world former).step b.watched length index).run world'
  have hlast : r.reached b length world (former ++ [index]) = next.answer := by
    unfold reached
    rw [run_follow_append]
    exact congrArg Prod.fst (shows_step _ index world')
  refine ⟨next.log, ?_, ?_⟩
  · rw [written_append]
    exact congrArg (_ ++ ·) (List.append_nil _)
  · rw [hlast]
    exact works_step _ index world'

/-! ### One lane of a round -/

/-- With a step the lane moves, or it stays where it is and does not invoke. -/
theorem Works.lane_cases {now : Duration} {index : Nat} {log : List Exchange} {r' : Round}
    {place : Lane.Place} (h : r.Works b length now index log r')
    (hnodup : (r.lanes.map Lane.seat).Nodup) (hplace : r.lanes[i]? = some ⟨seat, place⟩) :
    (index = i ∧ ∃ place', r'.lanes[i]? = some ⟨seat, place'⟩ ∧
      Lane.Works b length seat now r.common place log r'.common place') ∨
    (index ≠ i ∧ r'.lanes[i]? = some ⟨seat, place⟩ ∧ repliesOf seat log = []) := by
  cases h with
  | nobody hnone hquiet =>
    have hindex : index ≠ i := by
      rintro rfl
      rw [hplace] at hnone
      cases hnone
    exact .inr ⟨hindex, hplace, hquiet ▸ rfl⟩
  | @lane lane common place' hfound hworks hothers =>
    by_cases hindex : index = i
    · subst hindex
      obtain rfl := Option.some.inj (hplace.symm.trans hfound)
      have hlt := (List.getElem?_eq_some_iff.1 hplace).1
      exact .inl ⟨rfl, place', List.getElem?_set_self hlt, hworks⟩
    · -- the lane that moves has another seat
      have hseat : seat ≠ lane.seat := by
        intro heq
        have hlt : index < (r.lanes.map Lane.seat).length := by
          rw [List.length_map]
          exact (List.getElem?_eq_some_iff.1 hfound).1
        refine hindex ((List.getElem?_inj hlt hnodup).1 ?_)
        rw [List.getElem?_map, List.getElem?_map, hfound, hplace, Option.map_some,
          Option.map_some, heq]
      exact .inr ⟨hindex, (List.getElem?_set_ne hindex).trans hplace, hothers seat hseat⟩

/-- With one more step of a round a lane moves, or it stays where it is and does not invoke. -/
theorem lane_snoc (b : Bench (StateM σ)) (length : IterationLength) (hnodup : seats.Nodup)
    {former : List Nat} {place : Lane.Place} (index : Nat)
    (hplace : ((ofSeats seats).reached b length world former).lanes[i]? = some ⟨seat, place⟩) :
    ∃ log, repliesOf seat ((ofSeats seats).written b length world (former ++ [index])) =
        repliesOf seat ((ofSeats seats).written b length world former) ++ repliesOf seat log ∧
      ((index = i ∧ ∃ place',
        ((ofSeats seats).reached b length world (former ++ [index])).lanes[i]? =
          some ⟨seat, place'⟩ ∧
        Lane.Works b length seat ((ofSeats seats).clock b length world former)
          ((ofSeats seats).reached b length world former).common place log
          ((ofSeats seats).reached b length world (former ++ [index])).common place') ∨
      (index ≠ i ∧ ((ofSeats seats).reached b length world (former ++ [index])).lanes[i]? =
        some ⟨seat, place⟩ ∧ repliesOf seat log = [])) := by
  obtain ⟨log, hlog, hworks⟩ := works_snoc b length (ofSeats seats) world former index
  have hmeeting : ((ofSeats seats).reached b length world former).Meeting seats :=
    meeting_reached world former
  refine ⟨log, ?_, hworks.lane_cases (hmeeting.seats_eq.symm ▸ hnodup) hplace⟩
  rw [hlog, repliesOf_append]

/-- **What every step of a lane keeps, and the steps of the others leave alone, holds of it in every
reachable state**: of the steps until then, the flag, where the lane stands, and the replies to its
invocations. -/
theorem lane_induction (hnodup : seats.Nodup) (hi : seats[i]? = some seat) (world : σ)
    {P : List Nat → Bool → Lane.Place → List Reply → Prop}
    (hstart : P [] false .entering [])
    (hown : ∀ {former c place log c' place' replies},
      ((ofSeats seats).reached b length world former).lanes[i]? = some ⟨seat, place⟩ →
      ((ofSeats seats).reached b length world (former ++ [i])).lanes[i]? = some ⟨seat, place'⟩ →
      Lane.Works b length seat ((ofSeats seats).clock b length world former) c place log c' place' →
      P former c.failed place replies →
      P (former ++ [i]) c'.failed place' (replies ++ repliesOf seat log))
    (hother : ∀ {former index failed failed' place replies}, index ≠ i →
      (failed' = false → failed = false) → P former failed place replies →
      P (former ++ [index]) failed' place replies) (schedule : List Nat) :
    ∃ place, ((ofSeats seats).reached b length world schedule).lanes[i]? = some ⟨seat, place⟩ ∧
      P schedule ((ofSeats seats).reached b length world schedule).common.failed place
        (repliesOf seat ((ofSeats seats).written b length world schedule)) := by
  induction schedule using List.reverseRecOn with
  | nil =>
    refine ⟨.entering, ?_, hstart⟩
    rw [reached_nil, ofSeats, List.getElem?_map, hi]
    rfl
  | append_singleton former index ih =>
    obtain ⟨place, hplace, hP⟩ := ih
    obtain ⟨log, hreplies, hlane⟩ := lane_snoc b length hnodup index hplace
    rw [hreplies]
    rcases hlane with ⟨rfl, place', hplace', hlane⟩ | ⟨hindex, hplace', hquiet⟩
    · exact ⟨place', hplace', hown hplace hplace' hlane hP⟩
    · rw [hquiet, List.append_nil]
      exact ⟨place, hplace', hother hindex (failed_append _ world former [index]) hP⟩

/-! ### Where nothing goes wrong -/

/-- **Where all calls go well** the flag is down and no lane has failed. -/
theorem not_lost_of_good (world : σ) (schedule : List Nat)
    (hgood : ∀ x ∈ (ofSeats seats).written b length world schedule, x.isGood = true) :
    ((ofSeats seats).reached b length world schedule).common.failed = false ∧
      ∀ lane ∈ ((ofSeats seats).reached b length world schedule).lanes,
        lane.place.isLost = false := by
  induction schedule using List.reverseRecOn with
  | nil =>
    refine ⟨rfl, fun lane hlane => ?_⟩
    rw [entering_of_mem_ofSeats hlane]
    rfl
  | append_singleton former index ih =>
    obtain ⟨log, hlog, hworks⟩ := works_snoc b length (ofSeats seats) world former index
    rw [hlog] at hgood
    obtain ⟨hbefore, hafter⟩ := List.forall_mem_append.1 hgood
    obtain ⟨hdown, hlanes⟩ := ih hbefore
    generalize (ofSeats seats).reached b length world (former ++ [index]) = after at *
    cases hworks with
    | nobody => exact ⟨hdown, hlanes⟩
    | @lane lane common place hfound hlane =>
      have hplace := hlane.not_lost hafter (hlanes lane (List.mem_of_getElem? hfound))
      exact ⟨(hlane.failed_eq hplace).trans hdown, forall_mem_set hplace hlanes⟩

/-- **The flag is only up where a lane has failed.** -/
theorem lost_of_failed (world : σ) (schedule : List Nat)
    (hup : ((ofSeats seats).reached b length world schedule).common.failed = true) :
    ∃ lane ∈ ((ofSeats seats).reached b length world schedule).lanes,
      lane.place.isLost = true := by
  induction schedule using List.reverseRecOn with
  | nil => cases hup
  | append_singleton former index ih =>
    obtain ⟨log, -, hworks⟩ := works_snoc b length (ofSeats seats) world former index
    generalize (ofSeats seats).reached b length world (former ++ [index]) = after at *
    cases hworks with
    | nobody => exact ih hup
    | @lane lane common place hfound hlane =>
      have hself : { lane with place } ∈
          ((ofSeats seats).reached b length world former).lanes.set index { lane with place } :=
        mem_set_self_of_getElem? hfound
      cases hplace : place.isLost with
      | true => exact ⟨_, hself, hplace⟩
      | false =>
        -- the lane that has moved is not the one that has failed
        obtain ⟨other, hother, hlost⟩ := ih ((hlane.failed_eq hplace).symm.trans hup)
        rcases eq_or_mem_set hfound hother with rfl | hstill
        · rw [hlane.isLost_mono hlost] at hplace
          cases hplace
        · exact ⟨other, hstill, hlost⟩

/-- In a round that brings something home every lane has come to its end with what is brought. -/
theorem ended_of_brings {m : Type → Type} {b : Bench m} {harvests : List Harvest}
    {place : Lane.Place} (h : r.lanes.mapM (outcome b) = .ok harvests)
    (hplace : r.lanes[i]? = some ⟨seat, place⟩) :
    ∃ harvest, harvests[i]? = some harvest ∧ place = .ended (.ok harvest) := by
  obtain ⟨hlt, hget⟩ := List.getElem?_eq_some_iff.1 hplace
  have hall := forall₂_of_mapM_ok h
  have hlt' : i < harvests.length := hall.length_eq ▸ hlt
  have houtcome := hall.get hlt hlt'
  rw [List.get_eq_getElem, hget] at houtcome
  unfold outcome at houtcome
  split at houtcome
  · next hended =>
    dsimp only at hended
    subst hended houtcome
    exact ⟨_, List.getElem?_eq_getElem hlt', rfl⟩
  · cases houtcome

/-- A round that brings something home has not failed. -/
theorem down_of_brings {harvests : List Harvest}
    (h : ((ofSeats seats).reached b length world schedule).lanes.mapM (outcome b) =
      .ok harvests) :
    ((ofSeats seats).reached b length world schedule).common.failed = false := by
  refine eq_false_of_ne_true fun hup => ?_
  obtain ⟨⟨seat, place⟩, hlane, hlost⟩ := lost_of_failed world schedule hup
  obtain ⟨i, hplace⟩ := List.mem_iff_getElem?.1 hlane
  obtain ⟨harvest, -, rfl⟩ := ended_of_brings h hplace
  cases hlost

end Round

end Microbench
