import Microbench.Proofs.Engine.Schedule
import Microbench.Proofs.Worlds

/-!
# What an iteration reports

Whatever the threads of an iteration do, what each of them brings home is what its
work amounts to.  So the primary metric of an iteration is one that a meter made,
and its unit is that of the trial.

## Main definitions

* `Lane.Place.Earned` — what a lane brings home it has worked for.

## Main results

* `Lane.earned_advance`, `Round.earned_run` — a step of a lane, and a whole round.
* `Conductor.report_ok` — the position and the unit of a report.
* `Conductor.iterate_ok`, `Conductor.setUp_ok`, `Conductor.tearDown_ok` — what is known of a trial
  after a call that went well.
* `Conductor.run_prepare`, `Conductor.ofRegistry_ok` — how a trial is prepared, and what is known
  of one that has been.
-/

namespace Microbench

variable {σ : Type}

/-- A harvest that some work amounts to. -/
def Bench.Earns {m : Type → Type} (b : Bench m) (h : Harvest) : Prop := ∃ w : Work, h = b.harvest w

/-- What a lane brings home it has worked for. -/
def Lane.Place.Earned {m : Type → Type} (b : Bench m) (place : Lane.Place) : Prop :=
  ∀ h, place = .ended (.ok h) → b.Earns h

namespace Lane

variable {b : Bench (StateM σ)}

/-- A lane that is not at its end has nothing to show yet. -/
theorem Place.Earned.of_not_over {place : Place} (h : place.isOver = false) : place.Earned b := by
  rintro harvest rfl
  cases h

theorem earned_settle {ε α : Type} {x : ExceptT ε (StateM σ) α} {ok : α → Place}
    {error : ε → Place} (hok : ∀ a, (ok a).Earned b) (herror : ∀ e, (error e).Earned b) :
    Always (settle x ok error) (Place.Earned b) :=
  Always.bind Always.trivial fun r _ =>
    match r with
    | .ok a => Always.pure (hok a)
    | .error e => Always.pure (herror e)

theorem earned_pure {c : Common} {place : Place} (h : place.isOver = false) :
    Always (σ := σ) (pure (c, place)) fun next => next.2.Earned b :=
  Always.pure (Place.Earned.of_not_over h)

/-- What a step brings home that may fail and does not end the lane: nothing. -/
theorem earned_try {ε α : Type} {x : ExceptT ε (StateM σ) α} {ok : α → Place} {error : ε → Place}
    {c : Common} (hok : ∀ a, (ok a).isOver = false) (herror : ∀ e, (error e).isOver = false) :
    Always ((c, ·) <$> settle x ok error) fun next => next.2.Earned b :=
  Always.map (earned_settle (fun a => .of_not_over (hok a)) fun e => .of_not_over (herror e))

/-- A step of a lane that has worked for what it brings home. -/
theorem earned_advance {length : IterationLength} {seat : Seat} {c : Common} {place : Place}
    (h : place.Earned b) :
    Always (advance b length seat c place) fun next => next.2.Earned b := by
  cases place with
  | entering => exact earned_try (fun _ => rfl) fun _ => rfl
  | alarming e => exact earned_pure rfl
  | arriving refusal => exact earned_pure rfl
  | waiting refusal =>
    unfold advance
    dsimp only
    split
    · exact earned_pure rfl
    · split <;> exact earned_pure rfl
  | refused e => exact Always.pure fun _ heq => nomatch heq
  | checking =>
    unfold advance
    dsimp only
    split <;> exact earned_pure rfl
  | starting =>
    unfold advance
    dsimp only
    split
    · exact earned_try (fun _ => rfl) fun _ => rfl
    · exact Always.bind Always.trivial fun _ _ => earned_pure rfl
  | measuring start pace work =>
    refine Always.bind Always.trivial fun now _ => ?_
    split
    · exact earned_pure rfl
    · split <;> exact earned_pure rfl
  | batching start pace size work => exact earned_try (fun _ => rfl) fun _ => rfl
  | broken f => exact earned_pure rfl
  | leaving outcome =>
    cases outcome with
    | error f => exact Always.pure fun _ heq => nomatch heq
    | ok work =>
      refine Always.pure (.of_not_over ?_)
      dsimp only
      split <;> rfl
  | idling work =>
    refine Always.pure (.of_not_over ?_)
    split <;> rfl
  | looking work =>
    refine Always.pure (.of_not_over ?_)
    split <;> rfl
  | spinning work => exact earned_try (fun _ => rfl) fun _ => rfl
  | closing work =>
    -- the only step that brings something home
    refine Always.map (earned_settle (fun _ harvest heq => ?_) fun _ => .of_not_over rfl)
    cases heq
    exact ⟨work, rfl⟩
  | failing f => exact Always.pure fun _ heq => nomatch heq
  | ended outcome => exact Always.pure h

end Lane

namespace Round

variable {b : Bench (StateM σ)} {length : IterationLength}

/-- Every lane of a round has worked for what it brings home. -/
def Earned {m : Type → Type} (b : Bench m) (r : Round) : Prop :=
  ∀ lane ∈ r.lanes, lane.place.Earned b

theorem earned_ofSeats (seats : List Seat) : (ofSeats seats).Earned b := by
  intro lane hlane
  obtain ⟨seat, -, rfl⟩ := List.mem_map.1 hlane
  exact .of_not_over rfl

theorem earned_step {r : Round} (h : r.Earned b) (index : Nat) :
    Always (r.step b length index) (Earned b) := by
  unfold step
  split
  · exact Always.pure h
  · next lane hlane =>
    have hbefore := h lane (List.mem_of_getElem? hlane)
    refine Always.bind (Lane.earned_advance hbefore) fun next hnext => ?_
    refine Always.pure fun other hother => ?_
    rcases List.mem_or_eq_of_mem_set hother with hmem | rfl
    · exact h other hmem
    · exact hnext

/-- What every step of a round keeps, stepping one lane keeps. -/
theorem always_settleLane {P : Round → Prop}
    (hstep : ∀ r index, P r → Always (r.step b length index) P) {stop : Lane.Place → Bool}
    {index : Nat} (patience : Nat) {r : Round} (h : P r) :
    Always (settleLane b length stop index patience r) P := by
  induction patience generalizing r with
  | zero => exact Always.pure h
  | succ patience ih =>
    unfold settleLane
    split
    · exact Always.pure h
    · split
      · exact Always.pure h
      · exact Always.bind (hstep r index h) fun next hnext => ih hnext

/-- What every step of a round keeps, stepping all lanes keeps. -/
theorem always_settleAll {P : Round → Prop}
    (hstep : ∀ r index, P r → Always (r.step b length index) P) {patience : Nat}
    {stop : Lane.Place → Bool} {r : Round} (h : P r) :
    Always (settleAll b length patience stop r) P := by
  unfold settleAll
  generalize List.range r.lanes.length = indices
  induction indices generalizing r with
  | nil => exact Always.pure h
  | cons index indices ih =>
    rw [List.foldlM_cons]
    exact Always.bind (always_settleLane hstep patience h) fun next hnext => ih hnext

/-- What holds of the threads before their first step and is kept by every step holds of the round
whose harvests are brought home. -/
theorem ensures_run {P : Round → Prop} {Q : List Harvest → Prop} {patience : Nat}
    {seats : List Seat} (hbegin : P (ofSeats seats))
    (hstep : ∀ r index, P r → Always (r.step b length index) P)
    (hend : ∀ r harvests, P r → r.lanes.mapM (outcome b) = .ok harvests → Q harvests) :
    Ensures (run b length patience seats) Q := by
  refine Ensures.bind (Ensures.lift (always_settleAll hstep hbegin)) fun r hr => ?_
  refine Ensures.bind (Ensures.lift (always_settleAll hstep hr)) fun r hr => ?_
  refine Ensures.bind (Ensures.lift (always_settleAll hstep hr)) fun r hr => ?_
  split
  · next harvests hharvests => exact Ensures.pure (hend r harvests hr hharvests)
  · exact Ensures.throw

/-- **Whatever a round brings home has been worked for.** -/
theorem earned_run {patience : Nat} {seats : List Seat} :
    Ensures (run b length patience seats) fun harvests => ∀ h ∈ harvests, b.Earns h := by
  refine ensures_run (earned_ofSeats seats) (fun r index hr => earned_step hr index) ?_
  intro r harvests hr hharvests h hmem
  obtain ⟨lane, hlane, hover⟩ := exists_of_forall₂_of_mem (forall₂_of_mapM_ok hharvests) hmem
  unfold outcome at hover
  split at hover
  · next hplace => exact hr lane hlane h (hplace.trans (congrArg _ hover))
  · cases hover

end Round

namespace Conductor

variable {c : Conductor (StateM σ)}

/-- The primary metric of an iteration has the unit of the trial. -/
def InUnit {m : Type → Type} (c : Conductor m) (r : IterationResult) : Prop :=
  ∀ metric, r.primary = some metric → metric.unit = c.settings.unit.scoreUnit c.settings.mode

theorem inUnit_ofThreads {harvests : List Harvest} (h : ∀ h ∈ harvests, c.Earns h) :
    c.InUnit (.ofThreads (harvests.map (·.metrics))) := by
  intro metric hmetric
  have hpool : Pooling.threads.pool (Pooling.primaries (harvests.map (·.metrics)).flatten) =
      some metric := hmetric
  cases hprimaries : Pooling.primaries (harvests.map (·.metrics)).flatten with
  | nil =>
    rw [hprimaries] at hpool
    cases hpool
  | cons first rest =>
    rw [hprimaries] at hpool
    obtain rfl := Option.some.inj hpool
    -- the first primary metric gives the unit, and only a meter makes primary ones
    have hfirst : first ∈ Pooling.primaries (harvests.map (·.metrics)).flatten := by
      rw [hprimaries]
      exact List.mem_cons_self
    obtain ⟨hmem, hrole⟩ := List.mem_filter.1 hfirst
    obtain ⟨metrics, hmetrics, hin⟩ := List.mem_flatten.1 hmem
    obtain ⟨harvest, hharvest, rfl⟩ := List.mem_map.1 hmetrics
    obtain ⟨work, rfl⟩ := h harvest hharvest
    rcases List.mem_append.1 hin with hown | hrecorded
    · have hown := Option.mem_toList.1 hown
      unfold Meter.primary at hown
      dsimp only at hown
      split at hown
      · cases hown
      · cases hown
        rfl
    · obtain ⟨entry, -, rfl⟩ := List.mem_map.1 hrecorded
      cases hrole

theorem inUnit_runIteration {length : IterationLength} {index : UInt32} :
    Ensures (c.runIteration length index) c.InUnit := by
  refine Ensures.bind Ensures.trivial fun _ _ => ?_
  refine Ensures.bind Round.earned_run fun harvests h => ?_
  refine Ensures.bind Ensures.trivial fun _ _ => ?_
  exact Ensures.pure (inUnit_ofThreads h)

/-- What the probes find is attached beside the primary metric. -/
theorem primary_foldl (result : IterationResult) (found : List Metric) :
    (found.foldl IterationResult.addSecondary result).primary = result.primary := by
  induction found generalizing result with
  | nil => rfl
  | cons metric found ih => exact ih _

/-- Whatever the probes find after an iteration, the primary metric stays as it is. -/
theorem primary_askAfter (p : PhaseSettings) (result : IterationResult)
    (notes : List (Noted (StateM σ))) :
    Always (c.askAfter p result notes) fun r => r.1.primary = result.primary := by
  induction notes generalizing result with
  | nil => exact Always.pure rfl
  | cons noted rest ih =>
    obtain ⟨probe, note⟩ := noted
    refine Always.bind Always.trivial fun answer _ => ?_
    split
    · next found => exact Always.mono (ih _) fun r hr => hr.trans (primary_foldl result found)
    · exact Always.bind (ih result) fun r hr => Always.pure hr

/-- **The report of an iteration** is about that iteration, and its score is in the unit of the
trial. -/
theorem report_ok {phase : Phase} {index : UInt32} :
    Ensures (c.report phase index) fun r =>
      (r.phase, r.index) = (phase, index) ∧ c.InUnit r.result := by
  refine Ensures.bind Ensures.trivial fun before _ => ?_
  refine Ensures.bind inUnit_runIteration fun result h => ?_
  refine Ensures.bind (Ensures.lift (primary_askAfter _ result _)) fun after hafter => ?_
  exact Ensures.pure ⟨rfl, fun metric hmetric => h metric (hafter ▸ hmetric)⟩

/-! ### Calls that go well -/

theorem conclude_of_ok {α : Type} {next : Lifecycle} {x : ExceptT Failure (StateM σ) α} {a : α}
    {world world' : σ} (h : x.run.run world = (.ok a, world')) :
    (conclude next x).run world = ((.ok a, next), world') := by
  rw [conclude, run_bind, h]
  rfl

/-- A call that goes well leads to the next place. -/
theorem conclude_ok {α : Type} {next position : Lifecycle} {x : ExceptT Failure (StateM σ) α}
    {a : α} {world world' : σ}
    (h : (conclude next x).run world = ((.ok a, position), world')) :
    position = next ∧ x.run.run world = (.ok a, world') := by
  unfold conclude at h
  rw [run_bind] at h
  rcases hrun : x.run.run world with ⟨answer, world₁⟩
  rw [hrun] at h
  cases answer with
  | ok a' =>
    cases h
    exact ⟨rfl, rfl⟩
  | error f => cases h

theorem setUp_ok {position : Lifecycle} {world world' : σ}
    (h : (c.setUp .ready).run world = ((.ok (), position), world')) :
    position = .reached c.settings 0 := by
  rw [reached_zero]
  exact (conclude_ok h).1

/-- An iteration that goes well is the one whose turn it was. -/
theorem iterate_ok (hfits : c.settings.total ≤ Whole.max32) {n : Nat} (hn : n ≤ c.settings.total)
    {r : Report} {position : Lifecycle} {world world' : σ}
    (h : (c.iterate (.reached c.settings n)).run world = ((.ok r, position), world')) :
    n < c.settings.total ∧ position = .reached c.settings (n + 1) ∧
      (r.phase, r.index) = Supervisor.position c.settings n ∧ c.InUnit r.result := by
  rcases Nat.lt_or_eq_of_le hn with hlt | rfl
  · rw [iterate_reached hfits hlt] at h
    obtain ⟨hposition, hrun⟩ := conclude_ok h
    obtain ⟨hindex, hunit⟩ := report_ok world r (congrArg Prod.fst hrun)
    exact ⟨hlt, hposition, hindex, hunit⟩
  · obtain ⟨f, hf⟩ := iterate_exhausted hfits
    rw [hf] at h
    cases h

/-- Teardown that goes well ends the trial and answers with the number of iterations. -/
theorem tearDown_ok {n : Nat} {count : UInt32} {position : Lifecycle} {world world' : σ}
    (h : (c.tearDown (.reached c.settings n)).run world = ((.ok count, position), world')) :
    count = .ofNat n ∧ position = .done := by
  rw [tearDown_reached] at h
  obtain ⟨hposition, hrun⟩ := conclude_ok h
  have hcount : Ensures (σ := σ) (do c.fixtures .trial .teardown; return UInt32.ofNat n)
      fun count => count = .ofNat n :=
    Ensures.bind Ensures.trivial fun _ _ => Ensures.pure rfl
  exact ⟨hcount world count (congrArg Prod.fst hrun), hposition⟩

/-- A prepared trial has the settings of its specification. -/
theorem prepare_ok {host : Host (StateM σ)} {entry : TaskEntry (StateM σ)} {s : Spec}
    {probes : List String} :
    Ensures (prepare host entry s probes) fun c =>
      Settings.resolve s entry.declaration = .ok c.settings := by
  unfold prepare
  split
  · exact Ensures.throw
  · next settings hsettings =>
    split
    · exact Ensures.throw
    · refine Ensures.bind Ensures.trivial fun task _ => ?_
      split
      · exact Ensures.throw
      · exact Ensures.throw
      · exact Ensures.pure hsettings

/-- With its settings resolved, a trial can only be refused because of a probe or by the task
itself. -/
theorem run_prepare (host : Host (StateM σ)) {entry : TaskEntry (StateM σ)} {s : Spec}
    {settings : Settings} (hresolve : Settings.resolve s entry.declaration = .ok settings)
    (probes : List String) (world : σ) :
    (prepare host entry s probes).run.run world =
      match probesNamed host probes with
      | .error e => (.error (.error (configurationFailure s e.message)), world)
      | .ok probes =>
        match (entry.create settings.bindings).run.run world with
        | (.error (.error e), world') => (.error (.error (configurationFailure s e.text)), world')
        | (.error (.breakdown b), world') => (.error (.breakdown b), world')
        | (.ok task, world') => (.ok { task, settings, host, probes }, world') := by
  rw [prepare, hresolve]
  dsimp only
  cases probesNamed host probes with
  | error e => rfl
  | ok probes =>
    dsimp only
    rw [run_lift_bind]
    rcases (entry.create settings.bindings).run.run world with ⟨(_ | _) | _, world'⟩ <;> rfl

/-- A trial that is prepared from the registry is that of the task registered under its name. -/
theorem ofRegistry_eq {m : Type → Type} [Monad m] (host : Host m) {registry : Registry m}
    {s : Spec} {entry : TaskEntry m} (hget : registry.get? s.name = some entry)
    (probes : List String) : ofRegistry host registry s probes = prepare host entry s probes := by
  rw [ofRegistry, hget]

/-- A trial that is prepared from the registry is one of a registered task. -/
theorem ofRegistry_ok {host : Host (StateM σ)} {registry : Registry (StateM σ)} {s : Spec}
    {probes : List String} :
    Ensures (ofRegistry host registry s probes) fun c =>
      ∃ entry, registry.get? s.name = some entry ∧
        Settings.resolve s entry.declaration = .ok c.settings := by
  unfold ofRegistry
  split
  · exact Ensures.throw
  · next entry hentry =>
    exact Always.mono prepare_ok fun r hr c hc => ⟨entry, hentry, hr c hc⟩

end Conductor

end Microbench
