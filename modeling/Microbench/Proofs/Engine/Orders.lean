import Microbench.Proofs.Engine.Departures
import Microbench.Proofs.Engine.Trials
import Microbench.Proofs.Stats.Attachments

/-!
# Iterations in a given order

An iteration is run in one of the orders in which its threads can move.  In any of them it
is a round of threads between what the controlling thread does before and after it, and what
the probes do around that is no business of the task.  So the result of an iteration is
what the works amount to with which its threads have left their measured part, and the
report adds to it what the probes have found.

## Main definitions

* `Conductor.reportAlong`, `Conductor.iterateAlong` — an iteration with its probes, in a given
  order.
* `Conductor.opened`, `Conductor.asked` — the worlds in which its threads start, and in which the
  controlling thread does.
* `Conductor.Goes` — how an iteration goes.
* `Conductor.measured`, `Conductor.works` — the measured replies of the threads of an iteration, and
  the works with which they leave their measured part.

## Main results

* `Conductor.exists_reportAlong`, `Conductor.exists_iterateAlong` — an iteration is run in one of
  the orders.
* `Conductor.goes_runIterationAlong` — how an iteration goes in a given order.
* `Conductor.result_of_ok`, `Conductor.works_of_report` — **what an iteration and its report amount
  to.**
* `Conductor.ok_of_good` — where nothing goes wrong and all threads come to their end there is a
  report.
-/

namespace Microbench

variable {σ : Type}

/-- Whether all lanes of a round are at their end. -/
def Round.isOver (r : Round) : Bool := r.lanes.all fun lane => lane.place.isOver

/-- Where no lane has failed and all are at their end they bring something home. -/
theorem Round.brings_of_not_lost {m : Type → Type} [Monad m] {b : Bench m} {r : Round}
    (hover : r.isOver = true) (hlost : ∀ lane ∈ r.lanes, lane.place.isLost = false) :
    ∃ harvests, r.lanes.mapM (outcome b) = .ok harvests := by
  refine mapM_outcome fun lane hlane => ?_
  have hend := List.all_eq_true.1 hover lane hlane
  have hgood := hlost lane hlane
  cases hplace : lane.place with
  | ended outcome =>
    rw [hplace] at hgood
    cases outcome with
    | ok harvest => exact ⟨harvest, rfl⟩
    | error f => cases hgood
  | _ =>
    rw [hplace] at hend
    cases hend

namespace Conductor

/-- An iteration of a phase with the probes around it, whose threads move in this order. -/
def reportAlong {m : Type → Type} [Monad m] (c : Conductor m) (phase : Phase) (index : UInt32)
    (schedule : List Nat) : ExceptT Failure m Report := do
  let p := c.settings.phase phase
  let (notes, before) ← ExceptT.lift (c.askBefore p c.probes)
  let result ← c.runIterationAlong p.length index schedule
  let (result, after) ← ExceptT.lift (c.askAfter p result notes)
  return ⟨phase, index, result, before ++ after⟩

/-- The next iteration, whose threads move in this order. -/
def iterateAlong {m : Type → Type} [Monad m] (c : Conductor m) (position : Lifecycle)
    (schedule : List Nat) : m (Answer Report) :=
  let position := c.afterWarmup position
  match c.nextIteration? position with
  | some (phase, index) => conclude (after phase index) (c.reportAlong phase index schedule)
  | none => pure (.error (c.misuse "run an iteration" position), .failed)

variable {c : Conductor (StateM σ)} {phase : Phase} {index : UInt32} {length : IterationLength}
  {schedule : List Nat} {world world' : σ}

theorem exists_reportAlong (phase : Phase) (index : UInt32) (world : σ) :
    ∃ schedule, (c.report phase index).run.run world =
      (c.reportAlong phase index schedule).run.run world := by
  obtain ⟨schedule, hschedule⟩ := exists_runIterationAlong (c := c)
    (c.settings.phase phase).length index ((c.askBefore (c.settings.phase phase) c.probes).run
      world).2
  refine ⟨schedule, ?_⟩
  unfold report reportAlong
  rw [run_lift_bind, run_lift_bind, ExceptT.run_bind, ExceptT.run_bind, run_bind, run_bind,
    hschedule]

/-- **The next iteration is run in one of the orders** in which its threads can move. -/
theorem exists_iterateAlong (position : Lifecycle) (world : σ) :
    ∃ schedule, (c.iterate position).run world = (c.iterateAlong position schedule).run world := by
  unfold iterate iterateAlong
  dsimp only
  cases c.nextIteration? (c.afterWarmup position) with
  | none => exact ⟨[], rfl⟩
  | some next =>
    obtain ⟨phase, index⟩ := next
    obtain ⟨schedule, hschedule⟩ := exists_reportAlong (c := c) phase index world
    refine ⟨schedule, ?_⟩
    dsimp only
    rw [conclude, conclude, run_bind, run_bind, hschedule]

/-! ### A round between what the controlling thread does -/

/-- The world in which the threads of an iteration start, which the controlling thread has left. -/
def opened (c : Conductor (StateM σ)) (world : σ) : σ :=
  ((c.fixtures .iteration .setup).run.run world).2

/-- How an iteration goes whose threads move in this order: its answer, and its exchanges with the
task. -/
inductive Goes (c : Conductor (StateM σ)) (length : IterationLength) (index : UInt32)
    (schedule : List Nat) (world : σ) : Except Failure IterationResult → List Exchange → Prop
  /-- The controlling thread cannot set it up. -/
  | unopened {f : Failure} {before : List Exchange} (bad : ∃ x ∈ before, x.isGood = false) :
      Goes c length index schedule world (.error f) before
  /-- A thread has failed, or is not at its end. -/
  | lost {f : Failure} {before : List Exchange}
      (lost : ((Round.ofSeats (c.activeSeats index)).reached c.toBench length (c.opened world)
        schedule).lanes.mapM (Round.outcome c.toBench) = .error f) :
      Goes c length index schedule world (.error f)
        (before ++ (Round.ofSeats (c.activeSeats index)).written c.toBench length (c.opened world)
          schedule)
  /-- The controlling thread cannot tear it down. -/
  | unclosed {f : Failure} {log after : List Exchange} (bad : ∃ x ∈ after, x.isGood = false) :
      Goes c length index schedule world (.error f) (log ++ after)
  /-- There is a result. -/
  | closed {harvests : List Harvest} {before after : List Exchange}
      (brings : ((Round.ofSeats (c.activeSeats index)).reached c.toBench length (c.opened world)
        schedule).lanes.mapM (Round.outcome c.toBench) = .ok harvests) :
      Goes c length index schedule world
        (.ok { IterationResult.ofThreads (harvests.map (·.metrics)) with
          operations := Whole.total (harvests.map (·.operations)) })
        (before ++ (Round.ofSeats (c.activeSeats index)).written c.toBench length (c.opened world)
          schedule ++ after)

/-- The fixtures of the controlling thread fail only if a call goes wrong. -/
theorem bad_of_fixtures_error (c : Conductor (StateM σ)) (stage : Stage) (world : σ) :
    ∀ f, ((c.watched.fixtures .iteration stage).run.run world).answer = .error f →
      ∃ x ∈ ((c.watched.fixtures .iteration stage).run.run world).log, x.isGood = false := by
  intro f hf
  have hlevel : Level.iteration ≠ .invocation := nofun
  have hperforms : Performs True (c.blame 0) (c.watched.fixtures .iteration stage) _ :=
    performs_fixtures 0 hlevel stage
  have hfares := hperforms world
  rw [hf] at hfares
  exact hfares.exists_bad

theorem run_runAlong_watched (b : Bench (StateM σ)) (length : IterationLength) (seats : List Seat)
    (schedule : List Nat) (world : σ) :
    (Round.runAlong b.watched length seats schedule).run.run world =
      ⟨((Round.ofSeats seats).reached b length world schedule).lanes.mapM (Round.outcome b),
        (Round.ofSeats seats).written b length world schedule,
        (((Round.ofSeats seats).follow b length schedule).run world).2⟩ := by
  have houtcome : Round.outcome b.watched = Round.outcome b := b.pairs_watched.outcome
  unfold Round.runAlong
  rw [ExceptT.run_bind_lift, Watched.run_bind, Round.run_follow_watched, houtcome]
  dsimp only
  split
  · next harvests hbrings =>
    rw [hbrings]
    exact congrArg (Sighting.mk _ · _) (List.append_nil _)
  · next f hlost =>
    rw [hlost]
    exact congrArg (Sighting.mk _ · _) (List.append_nil _)

/-- **How an iteration goes** whose threads move in this order. -/
theorem goes_runIterationAlong (c : Conductor (StateM σ)) (length : IterationLength)
    (index : UInt32) (schedule : List Nat) (world : σ) :
    let seen := (c.watched.runIterationAlong length index schedule).run.run world
    c.Goes length index schedule world seen.answer seen.log := by
  have hopened : ((c.watched.fixtures .iteration .setup).run.run world).world = c.opened world := by
    have hshows : Shows (c.watched.fixtures .iteration .setup).run
        (c.fixtures .iteration .setup).run :=
      .of_tries (c.toBench.pairs_watched.trialFixtures .iteration .setup)
    rw [opened, hshows world]
  have hsetUp := bad_of_fixtures_error c .setup world
  unfold runIterationAlong
  rw [ExceptT.run_bind, Watched.run_bind]
  generalize (c.watched.fixtures .iteration .setup).run.run world = setUp at hopened hsetUp ⊢
  obtain ⟨r, before, world'⟩ := setUp
  dsimp only at hopened hsetUp ⊢
  subst hopened
  cases r with
  | error f =>
    show c.Goes length index schedule world (.error f) (before ++ [])
    rw [List.append_nil]
    exact .unopened (hsetUp f rfl)
  | ok _ =>
    dsimp only
    have hbench : c.watched.toBench = c.toBench.watched := rfl
    have hseats : c.watched.activeSeats index = c.activeSeats index := rfl
    rw [ExceptT.run_bind, Watched.run_bind, hbench, hseats, run_runAlong_watched]
    dsimp only
    cases hbrings : ((Round.ofSeats (c.activeSeats index)).reached c.toBench length (c.opened world)
        schedule).lanes.mapM (Round.outcome c.toBench) with
    | error f =>
      show c.Goes length index schedule world (.error f) (before ++ (_ ++ []))
      rw [List.append_nil]
      exact .lost hbrings
    | ok harvests =>
      dsimp only
      rw [ExceptT.run_bind, Watched.run_bind]
      generalize (((Round.ofSeats (c.activeSeats index)).follow c.toBench length schedule).run
        (c.opened world)).2 = world'
      have htearDown := bad_of_fixtures_error c .teardown world'
      generalize (c.watched.fixtures .iteration .teardown).run.run world' = tearDown at htearDown ⊢
      obtain ⟨r, after, world''⟩ := tearDown
      rw [← List.append_assoc]
      cases r with
      | error f =>
        show c.Goes length index schedule world (.error f) (before ++ _ ++ (after ++ []))
        rw [List.append_nil]
        exact .unclosed (htearDown f rfl)
      | ok _ =>
        show c.Goes length index schedule world (.ok _) (before ++ _ ++ (after ++ []))
        rw [List.append_nil]
        exact .closed hbrings

/-! ### What an iteration amounts to -/

/-- Where nothing goes wrong and all threads come to their end, an iteration has a result. -/
theorem ok_of_good (hgood : ∀ x ∈ ((c.watched.runIterationAlong length index schedule).run.run
      world).log, x.isGood = true)
    (hover : ((Round.ofSeats (c.activeSeats index)).reached c.toBench length (c.opened world)
      schedule).isOver = true) :
    ∃ result, ((c.runIterationAlong length index schedule).run.run world).1 = .ok result := by
  have hgoes := goes_runIterationAlong c length index schedule world
  rw [shows_runIterationAlong length index schedule world]
  dsimp only at hgoes ⊢
  generalize (c.watched.runIterationAlong length index schedule).run.run world = seen at *
  obtain ⟨answer, log, world'⟩ := seen
  have hbad {x : Exchange} {P : Prop} (hx : x ∈ log) (hwrong : x.isGood = false) : P := by
    rw [hgood x hx] at hwrong
    cases hwrong
  cases hgoes with
  | unopened bad =>
    obtain ⟨x, hx, hwrong⟩ := bad
    exact hbad hx hwrong
  | unclosed bad =>
    obtain ⟨x, hx, hwrong⟩ := bad
    exact hbad (List.mem_append_right _ hx) hwrong
  | lost lost =>
    have hround := (List.forall_mem_append.1 hgood).2
    obtain ⟨-, hlanes⟩ := Round.not_lost_of_good (c.opened world) schedule hround
    obtain ⟨harvests, hbrings⟩ := Round.brings_of_not_lost (b := c.toBench) hover hlanes
    rw [hbrings] at lost
    cases lost
  | closed brings => exact ⟨_, rfl⟩

/-- Where an iteration has a result its threads have brought something home. -/
theorem brings_of_ok {result : IterationResult}
    (h : ((c.runIterationAlong length index schedule).run.run world).1 = .ok result) :
    ∃ harvests : List Harvest, ((Round.ofSeats (c.activeSeats index)).reached c.toBench length
        (c.opened world) schedule).lanes.mapM (Round.outcome c.toBench) = .ok harvests ∧
      result = { IterationResult.ofThreads (harvests.map (·.metrics)) with
        operations := Whole.total (harvests.map (·.operations)) } := by
  have hgoes := goes_runIterationAlong c length index schedule world
  rw [shows_runIterationAlong length index schedule world] at h
  dsimp only at hgoes h
  rw [h] at hgoes
  generalize ((c.watched.runIterationAlong length index schedule).run.run world).log = log at hgoes
  cases hgoes with
  | closed brings => exact ⟨_, brings, rfl⟩

/-- **The result of an iteration** is what the works amount to with which its threads have left
their measured part. -/
theorem result_of_ok {result : IterationResult}
    (h : ((c.runIterationAlong length index schedule).run.run world).1 = .ok result) :
    let works := Round.works c.toBench length (c.activeSeats index) (c.opened world) schedule
    result = .ofWorks c.settings works ∧
      List.Forall₂ (fun w replies => w.Holds c.settings.mode replies) works
        (Round.measured c.toBench length (c.activeSeats index) (c.opened world) schedule) ∧
      ∀ i w, works[i]? = some w → ∃ k, (Round.ofSeats (c.activeSeats index)).Departs c.toBench
        length (c.opened world) schedule i k w := by
  intro works
  obtain ⟨harvests, hbrings, rfl⟩ := brings_of_ok h
  obtain ⟨rfl, hholds, hdeparts⟩ := Round.works_of_brings (nodup_activeSeats index) hbrings
  refine ⟨?_, hholds, hdeparts⟩
  rw [List.map_map, List.map_map]
  rfl

/-! ### What the probes add -/

/-- The world in which the controlling thread starts an iteration, which the probes have left. -/
def asked (c : Conductor (StateM σ)) (phase : Phase) (world : σ) : σ :=
  ((c.askBefore (c.settings.phase phase) c.probes).run world).2

/-- The replies to the measured invocations of each thread of an iteration whose threads move in
this order. -/
def measured (c : Conductor (StateM σ)) (phase : Phase) (index : UInt32) (world : σ)
    (schedule : List Nat) : List (List Reply) :=
  Round.measured c.toBench (c.settings.phase phase).length (c.activeSeats index)
    (c.opened (c.asked phase world)) schedule

/-- The works of the threads of such an iteration with which they leave their measured part. -/
def works (c : Conductor (StateM σ)) (phase : Phase) (index : UInt32) (world : σ)
    (schedule : List Nat) : List Work :=
  Round.works c.toBench (c.settings.phase phase).length (c.activeSeats index)
    (c.opened (c.asked phase world)) schedule

@[simp] theorem length_measured (c : Conductor (StateM σ)) (phase : Phase) (index : UInt32)
    (world : σ) (schedule : List Nat) :
    (c.measured phase index world schedule).length = (c.activeSeats index).length :=
  Round.length_measured _ _ _ _ _

/-- A probe of the trial finds this metric after some iteration of the phase. -/
def Finds (c : Conductor (StateM σ)) (phase : Phase) (metric : Metric) : Prop :=
  ∃ probe ∈ c.probes, ∃ note result world found,
    ((probe.after c.settings (c.settings.phase phase) note result).run.run world).1 = .ok found ∧
      metric ∈ found

theorem probe_of_mem_askBefore (p : PhaseSettings) (probes : List (Probe (StateM σ))) :
    Always (c.askBefore p probes) fun r => ∀ noted ∈ r.1, noted.1 ∈ probes := by
  induction probes with
  | nil => exact Always.pure fun _ h => nomatch h
  | cons probe rest ih =>
    refine Always.bind Always.trivial fun answer _ => Always.bind ih fun r hr => ?_
    have hrest : ∀ noted ∈ r.1, noted.1 ∈ probe :: rest := fun noted hnoted =>
      List.mem_cons_of_mem _ (hr noted hnoted)
    cases answer with
    | ok note => exact Always.pure (List.forall_mem_cons.2 ⟨List.mem_cons_self, hrest⟩)
    | error e => exact Always.pure (List.forall_mem_cons.2 ⟨List.mem_cons_self, hrest⟩)

/-- After an iteration there is added to its result what the probes have found. -/
theorem found_askAfter (phase : Phase) (result : IterationResult) {notes : List (Noted (StateM σ))}
    (hnotes : ∀ noted ∈ notes, noted.1 ∈ c.probes) :
    Always (c.askAfter (c.settings.phase phase) result notes) fun r =>
      ∃ extras : List Metric, r.1 = extras.foldl IterationResult.addSecondary result ∧
        ∀ metric ∈ extras, c.Finds phase metric := by
  induction notes generalizing result with
  | nil => exact Always.pure ⟨[], rfl, fun _ h => nomatch h⟩
  | cons noted rest ih =>
    obtain ⟨hprobe, hrest⟩ := List.forall_mem_cons.1 hnotes
    obtain ⟨probe, note⟩ := noted
    intro world
    unfold askAfter
    rw [run_bind]
    rcases hanswer : (probe.after c.settings (c.settings.phase phase) note result).run.run world
      with ⟨answer, world'⟩
    cases answer with
    | ok found =>
      obtain ⟨extras, hextras, hfinds⟩ :=
        ih (found.foldl IterationResult.addSecondary result) hrest world'
      refine ⟨found ++ extras, ?_, List.forall_mem_append.2 ⟨fun metric hmetric => ?_, hfinds⟩⟩
      · rw [List.foldl_append]
        exact hextras
      · exact ⟨probe, hprobe, note, result, world, found, congrArg Prod.fst hanswer, hmetric⟩
    | error e => exact ih result hrest world'

/-- The report of an iteration is its result with what the probes have found. -/
theorem report_of_ok {r : Report}
    (h : ((c.reportAlong phase index schedule).run.run world).1 = .ok r) :
    r.phase = phase ∧ r.index = index ∧ ∃ (result : IterationResult) (extras : List Metric),
      ((c.runIterationAlong (c.settings.phase phase).length index schedule).run.run
        (c.asked phase world)).1 = .ok result ∧
      r.result = extras.foldl IterationResult.addSecondary result ∧
      ∀ metric ∈ extras, c.Finds phase metric := by
  have hnotes := probe_of_mem_askBefore (c := c) (c.settings.phase phase) c.probes world
  unfold reportAlong at h
  rw [run_lift_bind] at h
  unfold asked
  generalize (c.askBefore (c.settings.phase phase) c.probes).run world = noted at h hnotes ⊢
  obtain ⟨⟨notes, before⟩, world'⟩ := noted
  dsimp only at h hnotes ⊢
  rcases hrun : (c.runIterationAlong (c.settings.phase phase).length index schedule).run.run world'
    with ⟨answer, world''⟩
  cases answer with
  | error f =>
    rw [run_error_bind hrun] at h
    cases h
  | ok result =>
    rw [run_ok_bind hrun, run_lift_bind] at h
    obtain ⟨extras, hextras, hfinds⟩ := found_askAfter phase result hnotes world''
    cases h
    exact ⟨rfl, rfl, result, extras, rfl, hextras, hfinds⟩

/-- Where there is a report the threads of the iteration have brought something home. -/
theorem brings_of_report {r : Report}
    (h : ((c.reportAlong phase index schedule).run.run world).1 = .ok r) :
    ∃ harvests : List Harvest, ((Round.ofSeats (c.activeSeats index)).reached c.toBench
      (c.settings.phase phase).length (c.opened (c.asked phase world)) schedule).lanes.mapM
        (Round.outcome c.toBench) = .ok harvests := by
  obtain ⟨-, -, result, extras, hresult, -⟩ := report_of_ok h
  obtain ⟨harvests, hbrings, -⟩ := brings_of_ok hresult
  exact ⟨harvests, hbrings⟩

/-- **What a report amounts to**: the works of the threads, which are known from the measured
replies, and what the probes have found. -/
theorem works_of_report {r : Report}
    (h : ((c.reportAlong phase index schedule).run.run world).1 = .ok r) :
    let works := c.works phase index world schedule
    List.Forall₂ (fun w replies => w.Holds c.settings.mode replies) works
        (c.measured phase index world schedule) ∧
      ∃ extras : List Metric,
        r.result = extras.foldl IterationResult.addSecondary (.ofWorks c.settings works) ∧
          ∀ metric ∈ extras, c.Finds phase metric := by
  intro works
  obtain ⟨-, -, result, extras, hresult, hextras, hfinds⟩ := report_of_ok h
  obtain ⟨rfl, hholds, -⟩ := result_of_ok hresult
  exact ⟨hholds, extras, hextras, hfinds⟩

/-- Where an iteration has a result there is a report of it. -/
theorem report_of_result {result : IterationResult}
    (h : ((c.runIterationAlong (c.settings.phase phase).length index schedule).run.run
      (c.asked phase world)).1 = .ok result) :
    ∃ r, ((c.reportAlong phase index schedule).run.run world).1 = .ok r := by
  unfold reportAlong
  rw [run_lift_bind]
  unfold asked at h
  rcases hrun : (c.runIterationAlong (c.settings.phase phase).length index schedule).run.run
    ((c.askBefore (c.settings.phase phase) c.probes).run world).2 with ⟨answer, world'⟩
  rw [hrun] at h
  dsimp only at h
  subst h
  exact ⟨_, by rw [run_ok_bind hrun, run_lift_bind]; rfl⟩

/-- The exchanges of an iteration with its probes are those of the iteration. -/
theorem log_reportAlong (c : Conductor (StateM σ)) (phase : Phase) (index : UInt32)
    (schedule : List Nat) (world : σ) :
    ((c.watched.reportAlong phase index schedule).run.run world).log =
      ((c.watched.runIterationAlong (c.settings.phase phase).length index schedule).run.run
        (c.asked phase world)).log := by
  have hasked := (c.pairs_watched.askBefore (c.settings.phase phase) c.pairs_watched.probes world).2
  obtain ⟨hlog, hnotes⟩ := logs_askBefore (c := c) (c.settings.phase phase) c.probes world
  have hsettings : c.watched.settings = c.settings := rfl
  have hprobes : c.watched.probes = c.probes.map Probe.watched := rfl
  rw [hprobes] at hasked
  unfold reportAlong
  rw [ExceptT.run_bind_lift, Watched.run_bind, hsettings, hprobes]
  unfold asked
  rw [← hasked]
  generalize (c.watched.askBefore (c.settings.phase phase) (c.probes.map Probe.watched)).run world =
    noted at hlog hnotes ⊢
  dsimp only
  rw [hlog, List.nil_append, ExceptT.run_bind, Watched.run_bind]
  generalize (c.watched.runIterationAlong (c.settings.phase phase).length index schedule).run.run
    noted.world = seen
  obtain ⟨answer, log, world'⟩ := seen
  cases answer with
  | error f => exact List.append_nil _
  | ok result =>
    have hafter := logs_askAfter (c := c) (c.settings.phase phase) result _ hnotes world'
    dsimp only
    rw [ExceptT.run_bind_lift, Watched.run_bind]
    show log ++ (_ ++ []) = log
    rw [hafter.1, List.append_nil, List.append_nil]

/-- **Where nothing goes wrong and all threads come to their end** there is a report. -/
theorem report_of_good
    (hgood : ∀ x ∈ ((c.watched.reportAlong phase index schedule).run.run world).log,
      x.isGood = true)
    (hover : ((Round.ofSeats (c.activeSeats index)).reached c.toBench
      (c.settings.phase phase).length (c.opened (c.asked phase world)) schedule).isOver = true) :
    ∃ r, ((c.reportAlong phase index schedule).run.run world).1 = .ok r := by
  rw [log_reportAlong] at hgood
  obtain ⟨result, hresult⟩ := ok_of_good hgood hover
  exact report_of_result hresult

end Conductor

end Microbench
