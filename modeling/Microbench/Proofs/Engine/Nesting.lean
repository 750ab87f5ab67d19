import Microbench.Proofs.Engine.Interleavings
import Microbench.Proofs.Engine.Layout
import Microbench.Proofs.Engine.Trials
import Microbench.Proofs.Engine.Watching

/-!
# Fixtures are brackets

When nothing fails, the calls of a trial are nested: every setup is matched by its
teardown, and whatever is set up in between is torn down before.  With one thread in
all this is the whole of the trial.  With several threads it holds of the calls about
the state of each of them, whatever the order is in which the threads move.

## Main definitions

* `Settings.IsSolo` — a trial with one thread in all.
* `Conductor.soloCalls`, `Conductor.threadCalls` — the calls of such a trial, and those about the
  state of one thread.
* `Conductor.WellBracketed` — what is seen of a trial in which nothing fails.

## Main results

* `Conductor.script_solo` — the script of a trial with one thread.
* `Conductor.filter_script` — the calls about the state of one thread.
* `Conductor.runAll_bracketed` — **fixtures are brackets.**
-/

namespace Microbench

/-! ### One thread -/

namespace Settings

/-- There is one thread in all, and, as in all settings that are resolved, no group is empty. -/
structure IsSolo (s : Settings) : Prop where
  /-- The number of threads. -/
  total : totalThreads s.groups = 1
  /-- No group is empty. -/
  occupied : ∀ g ∈ s.groups, g.threads ≠ 0

/-- With one thread there is one group, and the thread takes part in every iteration. -/
theorem IsSolo.exists_seat {s : Settings} (h : s.IsSolo) :
    ∃ group seat, GroupSeat.layout s.groups = [group] ∧ Seat.layout s.groups = [seat] ∧
      seat.index = 0 ∧ seat.groupIndex = 0 ∧
        ∀ i, isActive (s.activeThreads i) seat = true := by
  obtain ⟨⟨name, threads⟩, hgroups, hone⟩ :=
    exists_eq_singleton_of_totalThreads h.total h.occupied
  obtain rfl : threads = 1 := hone
  refine ⟨⟨0, name, 1⟩, ⟨0, 1, 0, name, 0, 1⟩, ?_, ?_, rfl, rfl, fun i => ?_⟩
  · rw [hgroups]
    rfl
  · rw [hgroups]
    rfl
  · have hseat : (⟨0, 1, 0, name, 0, 1⟩ : Seat) ∈ Seat.layout s.groups := by
      rw [hgroups]
      exact List.mem_singleton_self _
    exact (isActive_iff hseat).2 fun _ => Nat.zero_le _

end Settings

namespace Conductor

/-! ### The script of a trial with one thread -/

section

variable {m : Type → Type} {c : Conductor m}

/-- The only target of each scope, where there is one thread. -/
def onlyTarget (group : GroupSeat) (seat : Seat) : Scope → Target
  | .benchmark => .benchmark
  | .group => .group group
  | .thread => .thread seat

/-- The state of a trial with one thread, the widest first. -/
def onlyTargets (group : GroupSeat) (seat : Seat) : List Target :=
  [.benchmark, .group group, .thread seat]

theorem scope_onlyTarget {group : GroupSeat} {seat : Seat} (scope : Scope) :
    (onlyTarget group seat scope).scope = scope := by
  cases scope <;> rfl

variable {group : GroupSeat} {seat : Seat}

theorem targets_trial_of_layout (hgroup : GroupSeat.layout c.settings.groups = [group])
    (hseat : Seat.layout c.settings.groups = [seat]) (scope : Scope) :
    c.targets .trial scope = [onlyTarget group seat scope] := by
  cases scope with
  | benchmark => rfl
  | group =>
    rw [targets, hgroup]
    rfl
  | thread =>
    rw [targets, if_pos rfl, hseat]
    rfl

/-- The calls of a trial with one thread. -/
def soloCalls (c : Conductor m) (size : Phase → UInt64) (group : GroupSeat) (seat : Seat) :
    List Call :=
  trialCalls c.task.fixtures (onlyTargets group seat) (c.settings.schedule.map fun turn =>
    iterationCalls c.task.fixtures (onlyTargets group seat) seat (size turn.1).toNat)

/-- **The script of a trial with one thread** is nested. -/
theorem script_solo {size : Phase → UInt64} (hgroup : GroupSeat.layout c.settings.groups = [group])
    (hseat : Seat.layout c.settings.groups = [seat]) (hplace : seat.groupIndex = 0)
    (hactive : ∀ i, c.activeSeats i = [seat]) :
    c.script size = c.soloCalls size group seat := by
  have htrial := targets_trial_of_layout hgroup hseat
  have hbuild : c.buildScript = (onlyTargets group seat).map .build := by
    unfold buildScript
    simp only [htrial]
    rfl
  have hbracket : ∀ inner, bracket c.task.fixtures .trial (onlyTargets group seat) inner =
      fixtureCalls c.task.fixtures .setup .trial (c.targets .trial) ++ inner ++
        fixtureCalls c.task.fixtures .teardown .trial (c.targets .trial) := by
    refine bracket_eq _ _ (fun scope => some (onlyTarget group seat scope)) htrial ?_
    rintro scope t ⟨⟩
    exact scope_onlyTarget scope
  have hgroupOf : c.groupOf seat = group := by
    rw [Bench.groupOf, hgroup, hplace]
    rfl
  have hiteration : ∀ turn, c.iterationScript size turn =
      iterationCalls c.task.fixtures (onlyTargets group seat) seat (size turn.1).toNat := by
    intro turn
    -- the controlling thread runs the fixtures of the wider scopes, the thread its own
    have houter : ∀ inner, bracket c.task.fixtures .iteration [.benchmark, .group group] inner =
        fixtureCalls c.task.fixtures .setup .iteration (c.targets .iteration) ++ inner ++
          fixtureCalls c.task.fixtures .teardown .iteration (c.targets .iteration) := by
      refine bracket_eq _ _ (fun
        | .benchmark => some .benchmark
        | .group => some (.group group)
        | .thread => none) (fun scope => ?_) ?_
      · cases scope with
        | benchmark => rfl
        | group =>
          rw [targets, hgroup]
          rfl
        | thread => rfl
      · intro scope t ht
        cases scope <;> cases ht <;> rfl
    have haround : c.around seat =
        bracket c.task.fixtures .invocation (onlyTargets group seat) [.invoke seat] := by
      rw [Bench.around, hgroupOf]
      rfl
    have hround : c.roundScript (size turn.1) [seat] =
        bracket c.task.fixtures .iteration [.thread seat]
          (List.replicate (size turn.1).toNat (c.around seat)).flatten := by
      rw [← Bench.ownFixture_append]
      simp [Bench.roundScript]
    have happend : ∀ inner, bracket c.task.fixtures .iteration (onlyTargets group seat) inner =
        bracket c.task.fixtures .iteration [.benchmark, .group group]
          (bracket c.task.fixtures .iteration [.thread seat] inner) :=
      bracket_append _ _ [.benchmark, .group group] [.thread seat]
    unfold iterationScript iterationCalls
    rw [hactive, hround, happend, houter, haround, List.append_assoc]
  unfold script soloCalls trialCalls
  rw [hbuild, hbracket, funext hiteration, List.append_assoc, List.flatMap_def]

end

/-! ### The calls about one thread -/

theorem filter_fixtureCalls (f : Fixtures) (stage : Stage) (level : Level)
    (targets : Scope → List Target) (seat : Seat) :
    (fixtureCalls f stage level targets).filter (Call.isOn seat) =
      fixtureCalls f stage level fun scope => (targets scope).filter fun t => t = .thread seat := by
  unfold fixtureCalls
  rw [List.filter_flatMap]
  refine congrArg (stage.scopes.flatMap ·) (funext fun scope => ?_)
  split
  · exact List.filter_map
  · rfl

section

variable {m : Type → Type} {c : Conductor m} {seat : Seat}

/-- The only target that is the state of a thread. -/
def ownTarget (seat : Seat) : Scope → Option Target
  | .thread => some (.thread seat)
  | _ => none

theorem filter_targets_trial (hseat : seat ∈ Seat.layout c.settings.groups) (scope : Scope) :
    ((c.targets .trial scope).filter fun t => t = .thread seat) =
      (ownTarget seat scope).toList := by
  cases scope with
  | benchmark => rfl
  | group =>
    refine List.filter_eq_nil_iff.2 fun t ht => ?_
    obtain ⟨group, -, rfl⟩ := List.mem_map.1 ht
    simp
  | thread =>
    have hthread : c.targets .trial .thread = (Seat.layout c.settings.groups).map .thread := by
      rw [targets, if_pos rfl]
    have hown : ((fun t => decide (t = Target.thread seat)) ∘ Target.thread) =
        fun s => decide (s = seat) := by
      funext s
      simp
    rw [hthread, List.filter_map, hown, List.filter_eq,
      List.count_eq_one_of_mem (Seat.nodup_layout _) hseat]
    rfl

theorem filter_targets_iteration (scope : Scope) :
    ((c.targets .iteration scope).filter fun t => t = .thread seat) = [] := by
  cases scope with
  | benchmark => rfl
  | group =>
    refine List.filter_eq_nil_iff.2 fun t ht => ?_
    obtain ⟨group, -, rfl⟩ := List.mem_map.1 ht
    simp
  | thread => rfl

theorem nodup_activeSeats (i : UInt32) : (c.activeSeats i).Nodup :=
  (Seat.nodup_layout _).filter _

/-- An iteration as far as the state of a thread is concerned. -/
theorem filter_iterationScript (size : Phase → UInt64) (turn : Phase × UInt32) :
    (c.iterationScript size turn).filter (Call.isOn seat) =
      if seat ∈ c.activeSeats turn.2 then
        iterationCalls c.task.fixtures [.thread seat] seat (size turn.1).toNat else [] := by
  have hnone : ∀ stage, (fixtureCalls c.task.fixtures stage .iteration
      (c.targets .iteration)).filter (Call.isOn seat) = [] := by
    intro stage
    rw [filter_fixtureCalls]
    simp [fixtureCalls, filter_targets_iteration]
  have hnodup : (c.activeSeats turn.2).Nodup := nodup_activeSeats turn.2
  have hown : ∀ stage, ((c.activeSeats turn.2).flatMap (c.ownFixture stage)).filter
      (Call.isOn seat) = if seat ∈ c.activeSeats turn.2 then c.ownFixture stage seat else [] := by
    intro stage
    rw [filter_flatMap_seats hnodup fun _ hne => Bench.filter_ownFixture_of_ne hne stage,
      Bench.filter_ownFixture]
  have hturns : ((c.activeSeats turn.2).flatMap fun seat' =>
      (List.replicate (size turn.1).toNat (c.around seat')).flatten).filter (Call.isOn seat) =
        if seat ∈ c.activeSeats turn.2 then c.turns seat (size turn.1).toNat else [] := by
    rw [filter_flatMap_seats hnodup fun _ hne => Bench.filter_turns_of_ne hne _,
      Bench.filter_turns]
  unfold iterationScript Bench.roundScript
  simp only [List.filter_append, hnone, hown, hturns, List.nil_append, List.append_nil]
  split
  · rw [← List.append_assoc, Bench.ownFixture_append]
    rfl
  · rfl

/-- The calls about the state of a thread in a trial: those of the iterations in which it takes
part. -/
def threadCalls (c : Conductor m) (size : Phase → UInt64) (seat : Seat) : List Call :=
  trialCalls c.task.fixtures [.thread seat] (c.settings.schedule.map fun turn =>
    if seat ∈ c.activeSeats turn.2 then
      iterationCalls c.task.fixtures [.thread seat] seat (size turn.1).toNat
    else [])

/-- **The calls about the state of a thread** are nested: it is built, set up and torn down, and
goes through all iterations in which it takes part. -/
theorem filter_script (hseat : seat ∈ Seat.layout c.settings.groups) (size : Phase → UInt64) :
    (c.script size).filter (Call.isOn seat) = c.threadCalls size seat := by
  have hbuild : c.buildScript.filter (Call.isOn seat) = [.build (.thread seat)] := by
    have hscope : ∀ scope, ((c.targets .trial scope).map Call.build).filter (Call.isOn seat) =
        (ownTarget seat scope).toList.map .build := by
      intro scope
      rw [← filter_targets_trial hseat]
      exact List.filter_map
    unfold buildScript
    rw [List.filter_flatMap, funext hscope]
    rfl
  have hbracket : ∀ inner, bracket c.task.fixtures .trial [.thread seat] inner =
      (fixtureCalls c.task.fixtures .setup .trial (c.targets .trial)).filter (Call.isOn seat) ++
        inner ++
      (fixtureCalls c.task.fixtures .teardown .trial (c.targets .trial)).filter
        (Call.isOn seat) := by
    intro inner
    rw [filter_fixtureCalls, filter_fixtureCalls]
    refine bracket_eq _ _ (ownTarget seat) (filter_targets_trial hseat) ?_ inner
    intro scope t ht
    cases scope <;> cases ht
    rfl
  unfold script threadCalls trialCalls
  rw [hbracket, List.filter_append, List.filter_append, List.filter_append, List.filter_flatMap,
    funext (filter_iterationScript size), hbuild, List.append_assoc, List.flatMap_def]
  rfl

end

/-! ### Trials in which nothing fails -/

variable {σ : Type}

/-- What is seen of a trial in which nothing fails. -/
structure WellBracketed {m : Type → Type} (c : Conductor m) (size : Phase → UInt64)
    (trial : Sighting σ (Answer (List Report))) : Prop where
  /-- It ends well. -/
  ended : ∃ reports, trial.answer = (.ok reports, .done)
  /-- With one thread these are all its calls. -/
  solo : c.settings.IsSolo → ∃ group seat,
    GroupSeat.layout c.settings.groups = [group] ∧ Seat.layout c.settings.groups = [seat] ∧
      calls trial.log = c.soloCalls size group seat
  /-- With one thread every setup is matched by its teardown. -/
  solo_nested : c.settings.IsSolo → Nested (calls trial.log)
  /-- These are the calls about the state of a thread. -/
  thread : ∀ seat ∈ Seat.layout c.settings.groups,
    (calls trial.log).filter (Call.isOn seat) = c.threadCalls size seat
  /-- Every setup of the state of a thread is matched by its teardown. -/
  thread_nested : ∀ seat ∈ Seat.layout c.settings.groups,
    Nested ((calls trial.log).filter (Call.isOn seat))

/-- The only thread takes part in every iteration. -/
theorem activeSeats_of_layout {m : Type → Type} {c : Conductor m} {seat : Seat}
    (hseat : Seat.layout c.settings.groups = [seat])
    (hactive : ∀ i, Settings.isActive (c.settings.activeThreads i) seat = true) (i : UInt32) :
    c.activeSeats i = [seat] := by
  rw [activeSeats, hseat, List.filter_cons_of_pos (hactive i), List.filter_nil]

theorem wellBracketed_of_calls {m : Type → Type} {c : Conductor m} {size : Phase → UInt64}
    {trial : Sighting σ (Answer (List Report))}
    (hended : ∃ reports, trial.answer = (.ok reports, .done))
    (hcalls : calls trial.log = c.script size) : c.WellBracketed size trial := by
  have hsolo : c.settings.IsSolo → ∃ group seat,
      GroupSeat.layout c.settings.groups = [group] ∧ Seat.layout c.settings.groups = [seat] ∧
        calls trial.log = c.soloCalls size group seat := by
    intro h
    obtain ⟨group, seat, hgroup, hseat, -, hplace, hactive⟩ := h.exists_seat
    refine ⟨group, seat, hgroup, hseat, ?_⟩
    rw [hcalls, script_solo hgroup hseat hplace (activeSeats_of_layout hseat hactive)]
  have hthread : ∀ seat ∈ Seat.layout c.settings.groups,
      (calls trial.log).filter (Call.isOn seat) = c.threadCalls size seat := by
    intro seat hseat
    rw [hcalls]
    exact filter_script hseat size
  refine ⟨hended, hsolo, fun h => ?_, hthread, fun seat hseat => ?_⟩
  · obtain ⟨group, seat, -, -, htrace⟩ := hsolo h
    rw [htrace]
    refine nested_trialCalls _ _ fun l hl => ?_
    obtain ⟨turn, -, rfl⟩ := List.mem_map.1 hl
    exact nested_iterationCalls _ _ _ _
  · rw [hthread seat hseat]
    refine nested_trialCalls _ _ fun l hl => ?_
    obtain ⟨turn, -, rfl⟩ := List.mem_map.1 hl
    split
    · exact nested_iterationCalls _ _ _ _
    · exact .nil

/-- **Fixtures are brackets.**  If all calls of a trial go well, the trial ends well, and its calls
are nested as they should be.  Whatever the order is in which the threads of an iteration move, each
of them goes through its iteration with no fewer invocations than it should make, and with no more
if threads do not wait for each other; other threads go through nothing. -/
theorem runAll_bracketed (c : Conductor (StateM σ)) {size : Phase → UInt64}
    (hcounted : c.IsCounted size) (hfits : c.settings.total ≤ Whole.max32)
    (hpatience : 5 ≤ c.patience) (world : σ)
    (hgood : ∀ x ∈ ((c.watched.runAll .ready).run world).log, x.isGood = true) :
    let trial := (c.watched.runAll .ready).run world
    (c.runAll .ready).run world = (trial.answer, trial.world) ∧ c.WellBracketed size trial ∧
      ∀ phase i schedule world',
        let begun := Round.ofSeats (c.activeSeats i)
        let length := IterationLength.invocations (size phase)
        let round := (begun.follow c.watched.toBench length schedule).run world'
        (begun.follow c.toBench length schedule).run world' = (round.answer, round.world) ∧
          ((∀ x ∈ round.log, x.isGood = true) →
            round.answer.Bracketed c.toBench (size phase).toNat (c.activeSeats i)
              (calls round.log)) := by
  refine ⟨shows_runAll .ready world, ?_, fun phase i schedule world' => ⟨?_, fun hround => ?_⟩⟩
  · have hrun : Concludes False (c.blame 0) (c.script size) .done
        ((c.watched.runAll .ready).run world).answer
        ((c.watched.runAll .ready).run world).log :=
      concludes_runAll hfits hpatience hcounted False.elim world
    obtain ⟨hended, hmade⟩ := hrun.of_good hgood
    exact wellBracketed_of_calls hended hmade
  · exact Round.shows_follow _ schedule world'
  · exact Round.follow_bracketed (nodup_activeSeats i) schedule world' hround

/-- A trial of a task with all fixtures, in which some calls are answered with an error: a warmup
iteration of one invocation, and one of two that counts. -/
def rehearsed (groups : List Group) (breaks : Call → Bool) : Conductor (StateM Nat) where
  task := {
    fixtures := ⟨fun _ _ => true⟩
    call := fun call => if breaks call then throw (.message "broken") else pure {} }
  settings := { Settings.idle with
    warmup := ⟨.warmup, 1, .invocations 1⟩
    measurement := ⟨.measurement, 1, .invocations 2⟩
    groups }
  host := .ticking

/-- How many invocations its iterations have. -/
def rehearsedSize : Phase → UInt64
  | .warmup => 1
  | .measurement => 2

theorem isCounted_rehearsed (groups : List Group) (breaks : Call → Bool) :
    (rehearsed groups breaks).IsCounted rehearsedSize := by
  intro phase
  cases phase <;> rfl

/-- The trial with two groups of threads in which nothing breaks. -/
theorem runAll_bracketed_rehearsed :
    let c := rehearsed [⟨"a", 1⟩, ⟨"b", 2⟩] fun _ => false
    let trial := (c.watched.runAll .ready).run 0
    c.IsCounted rehearsedSize ∧ c.settings.total ≤ Whole.max32 ∧ 5 ≤ c.patience ∧
      (∀ x ∈ trial.log, x.isGood = true) ∧
      (c.runAll .ready).run 0 = (trial.answer, trial.world) ∧
        c.WellBracketed rehearsedSize trial ∧
          ∀ phase i schedule world',
            let begun := Round.ofSeats (c.activeSeats i)
            let length := IterationLength.invocations (rehearsedSize phase)
            let round := (begun.follow c.watched.toBench length schedule).run world'
            (begun.follow c.toBench length schedule).run world' = (round.answer, round.world) ∧
              ((∀ x ∈ round.log, x.isGood = true) →
                round.answer.Bracketed c.toBench (rehearsedSize phase).toNat (c.activeSeats i)
                  (calls round.log)) := by
  intro c trial
  have hcounted : c.IsCounted rehearsedSize := isCounted_rehearsed _ _
  have hfits : c.settings.total ≤ Whole.max32 := by decide
  have hpatience : 5 ≤ c.patience := by decide
  have hgood : ∀ x ∈ ((c.watched.runAll .ready).run 0).log, x.isGood = true := by decide +kernel
  exact ⟨hcounted, hfits, hpatience, hgood, runAll_bracketed c hcounted hfits hpatience 0 hgood⟩

end Conductor

end Microbench
