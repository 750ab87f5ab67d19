import Microbench.Proofs.Engine.Pairing
import Microbench.Proofs.Engine.Requests
import Microbench.Proofs.Stats.Attachments
import Microbench.Proofs.Trial.Hooks

/-!
# Probes that fail

The hooks of probes are called around every iteration.  Whatever comes of them, a
report, an error or a break-off, the requests that are made of a trial come to the same as
without probes: an iteration is reported with the same position and the same
measurements, or it fails in the same way.  What the hooks after it have found is attached to
its result, and each hook that has failed leaves one warning.

To say which hooks were called, every call is written down beside the world with what
came of it.

## Main definitions

* `Conductor.noted` — a trial whose probes have their calls written down.
* `Conductor.unprobed` — a trial without probes.
* `Bench.IsSeen`, `Probe.IsUnseen` — a trial that depends on a view of the world, and probes that
  leave the view alone.
* `Accompanied`, `Alongside` — an answer, or several, with and without probes.

## Main results

* `Conductor.askBefore_notes`, `Conductor.askAfter_notes` — the hooks around an iteration.
* `Conductor.handle_accompanied` — one request.
* `Conductor.attend_isolated` — **probes do not stand in the way of any request.**
-/

namespace Microbench

variable {σ τ α : Type}

/-! ### Calls written down beside the world -/

/-- What there is to be warned of when the hooks of probes have been called. -/
def HookCall.probeWarning? : HookCall → Option String
  | before _ name (.error e) => some (name ++ ": before iteration: " ++ e.message)
  | after _ name (.error e) => some (name ++ ": after iteration: " ++ e.message)
  | _ => none

/-- A computation beside which no call is written down. -/
def unnoted (x : StateM σ α) : StateM (σ × List HookCall) α := fun (world, calls) =>
  let (a, world) := x.run world
  (a, world, calls)

/-- A hook whose call is written down with what came of it. -/
def noting (call : Except ProfilerError α → HookCall) (x : ExceptT ProfilerError (StateM σ) α) :
    ExceptT ProfilerError (StateM (σ × List HookCall)) α :=
  ExceptT.mk fun (world, calls) =>
    let (outcome, world) := x.run.run world
    (outcome, world, calls ++ [call outcome])

/-- The probe with this number, whose calls are written down. -/
def Probe.noted (number : Nat) (probe : Probe (StateM σ)) :
    Probe (StateM (σ × List HookCall)) where
  name := probe.name
  before s p := noting (fun outcome => .before number probe.name (outcome.map fun _ => ()))
    (probe.before s p)
  after s p note result := noting (.after number probe.name) (probe.after s p note result)

/-- Probes in their order, the first of which has this number. -/
def Probe.notedFrom : Nat → List (Probe (StateM σ)) → List (Probe (StateM (σ × List HookCall)))
  | _, [] => []
  | number, probe :: rest => probe.noted number :: notedFrom (number + 1) rest

def Bench.unnoted (b : Bench (StateM σ)) : Bench (StateM (σ × List HookCall)) where
  task := ⟨b.task.fixtures, fun c => ExceptT.mk (Microbench.unnoted (b.task.call c).run)⟩
  settings := b.settings
  host := ⟨Microbench.unnoted b.host.now, Microbench.unnoted b.host.usage⟩

/-- A trial whose probes have their calls written down. -/
def Conductor.noted (c : Conductor (StateM σ)) : Conductor (StateM (σ × List HookCall)) where
  toBench := c.toBench.unnoted
  probes := Probe.notedFrom 0 c.probes
  patience := c.patience

/-- A trial without its probes. -/
def Conductor.unprobed {m : Type → Type} (c : Conductor m) : Conductor m := { c with probes := [] }

/-- Computations beside which calls may have been written down, and the same without. -/
def noticing : Pairing (StateM (σ × List HookCall)) (StateM σ) where
  Rel Q y x := ∀ world calls, Q (y.run (world, calls)).1 (x.run world).1 ∧
    (y.run (world, calls)).2.1 = (x.run world).2
  pure h := fun _ _ => ⟨h, rfl⟩
  bind h hfg := fun world calls => by
    obtain ⟨hanswers, hworld⟩ := h world calls
    rw [run_bind, run_bind, ← hworld]
    exact hfg _ _ hanswers _ _

theorem Bench.pairs_unnoted (b : Bench (StateM σ)) : b.unnoted.Pairs noticing b where
  fixtures := rfl
  settings := rfl
  call _ := fun _ _ => ⟨.of_eq rfl, rfl⟩
  now := fun _ _ => ⟨rfl, rfl⟩

theorem Probe.pairs_noted (number : Nat) (probe : Probe (StateM σ)) :
    (probe.noted number).Pairs noticing probe where
  name := rfl
  before _ _ := fun _ _ => ⟨.of_eq rfl, rfl⟩
  after _ _ _ _ := fun _ _ => ⟨.of_eq rfl, rfl⟩

theorem Probe.pairs_notedFrom (number : Nat) (probes : List (Probe (StateM σ))) :
    List.Forall₂ (Probe.Pairs noticing) (Probe.notedFrom number probes) probes := by
  induction probes generalizing number with
  | nil => exact .nil
  | cons probe rest ih => exact .cons (probe.pairs_noted number) (ih _)

/-- Writing the calls of probes down changes nothing. -/
theorem Conductor.pairs_noted (c : Conductor (StateM σ)) : c.noted.Pairs noticing c where
  toPairs := c.toBench.pairs_unnoted
  probes := Probe.pairs_notedFrom 0 c.probes
  patience := rfl

namespace Conductor.Pairs

variable {m m' : Type → Type} [Monad m] [Monad m'] [LawfulMonad m] [LawfulMonad m']
  {R : Pairing m m'} {c : Conductor m} {c' : Conductor m'}

theorem handle (h : c.Pairs R c') (request : Request) (position : Lifecycle) :
    R.Rel Eq (c.handle request position) (c'.handle request position) := by
  cases request with
  | setUp => exact Pairing.map_eq _ (h.setUp position)
  | iterate => exact Pairing.map_eq _ (h.iterate position)
  | tearDown => exact Pairing.map_eq _ (h.tearDown position)

theorem attend (h : c.Pairs R c') (position : Lifecycle) (requests : List Request) :
    R.Rel Eq (c.attend position requests) (c'.attend position requests) := by
  induction requests generalizing position with
  | nil => exact R.pure rfl
  | cons request rest ih =>
    refine R.bind_eq (h.handle request position) fun a => ?_
    exact R.bind_eq (ih a.2) fun _ => R.pure rfl

end Conductor.Pairs

/-! ### What probes leave alone -/

/-- The answers of the task and of the clock depend on what a view shows of the world. -/
structure Bench.IsSeen (b : Bench (StateM σ)) (view : σ → τ) : Prop where
  call : ∀ c, InStep (fun world world' => view world = view world')
    (b.task.call c).run (b.task.call c).run
  now : InStep (fun world world' => view world = view world') b.host.now b.host.now

/-- The hooks of a probe leave what is in view alone, whatever comes of them. -/
structure Probe.IsUnseen (view : σ → τ) (probe : Probe (StateM σ)) : Prop where
  before : ∀ s p world, view ((probe.before s p).run.run world).2 = view world
  after : ∀ s p note result world,
    view ((probe.after s p note result).run.run world).2 = view world

/-- A probe whose hooks are written down and leave what is in view alone. -/
structure Probe.IsApart (view : σ → τ) (journal : σ → List HookCall) (number : Nat)
    (probe : Probe (StateM σ)) : Prop where
  before : ∀ s p world, Notes view journal
    [.before number probe.name (((probe.before s p).run.run world).1.map fun _ => ())]
    world ((probe.before s p).run.run world).2
  after : ∀ s p note result world, Notes view journal
    [.after number probe.name ((probe.after s p note result).run.run world).1]
    world ((probe.after s p note result).run.run world).2

theorem Probe.IsUnseen.isApart {view : σ → τ} {probe : Probe (StateM σ)} (h : probe.IsUnseen view)
    (number : Nat) : (probe.noted number).IsApart (view ∘ Prod.fst) Prod.snd number where
  before s p world := ⟨h.before s p world.1, rfl⟩
  after s p note result world := ⟨h.after s p note result world.1, rfl⟩

theorem Probe.forall₂_isApart {view : σ → τ} {probes : List (Probe (StateM σ))}
    (h : ∀ probe ∈ probes, probe.IsUnseen view) (number : Nat) :
    List.Forall₂ (Probe.IsApart (view ∘ Prod.fst) Prod.snd)
      (List.range' number probes.length) (Probe.notedFrom number probes) := by
  induction probes generalizing number with
  | nil => exact .nil
  | cons probe rest ih =>
    obtain ⟨hprobe, hrest⟩ := List.forall_mem_cons.1 h
    exact .cons (hprobe.isApart number) (ih hrest _)

namespace Conductor

/-! ### The hooks around an iteration -/

section

variable {view : σ → τ} {journal : σ → List HookCall} {numbers : List Nat}
  (c : Conductor (StateM σ)) (p : PhaseSettings)

/-- **The hooks before an iteration** are called in the order of attachment, also those after one
that has failed. -/
theorem askBefore_notes {probes : List (Probe (StateM σ))}
    (h : List.Forall₂ (Probe.IsApart view journal) numbers probes) (world : σ) :
    ∃ notes calls world', (c.askBefore p probes).run world =
        ((notes, calls.filterMap HookCall.probeWarning?), world') ∧
      Notes view journal calls world world' ∧
      calls.map HookCall.place = numbers.map (Hook.before, ·) ∧
      calls.flatMap HookCall.found = [] ∧
      List.Forall₂ (Probe.IsApart view journal) numbers (notes.map Prod.fst) := by
  induction h generalizing world with
  | nil => exact ⟨[], [], world, rfl, .refl world, rfl, rfl, .nil⟩
  | @cons number probe numbers probes hprobe hrest ih =>
    have hcall := hprobe.before c.settings p world
    rcases hran : (probe.before c.settings p).run.run world with ⟨outcome, world₁⟩
    rw [hran] at hcall
    obtain ⟨notes, calls, world₂, hrun, hnotes, hplaces, hfound, hnoted⟩ := ih world₁
    have hall := hcall.trans hnotes
    rw [askBefore, run_bind, hran]
    dsimp only
    rw [run_bind, hrun]
    cases outcome with
    | ok note =>
      exact ⟨(probe, note) :: notes, .before number probe.name (.ok ()) :: calls, world₂, rfl, hall,
        congrArg ((Hook.before, number) :: ·) hplaces, hfound, .cons hprobe hnoted⟩
    | error e =>
      exact ⟨(probe, none) :: notes, .before number probe.name (.error e) :: calls, world₂, rfl,
        hall, congrArg ((Hook.before, number) :: ·) hplaces, hfound, .cons hprobe hnoted⟩

/-- **The hooks after an iteration** are called in the same order, also those of probes whose hooks
before it have failed; what they have found is attached in that order. -/
theorem askAfter_notes {notes : List (Noted (StateM σ))}
    (h : List.Forall₂ (Probe.IsApart view journal) numbers (notes.map Prod.fst))
    (result : IterationResult) (world : σ) :
    ∃ calls world', (c.askAfter p result notes).run world =
        (((calls.flatMap HookCall.found).foldl IterationResult.addSecondary result,
          calls.filterMap HookCall.probeWarning?), world') ∧
      Notes view journal calls world world' ∧
      calls.map HookCall.place = numbers.map (Hook.after, ·) := by
  induction notes generalizing numbers result world with
  | nil =>
    cases h
    exact ⟨[], world, rfl, .refl world, rfl⟩
  | cons noted rest ih =>
    obtain ⟨probe, note⟩ := noted
    cases h with
    | @cons number _ numbers _ hprobe hrest =>
      have hcall := hprobe.after c.settings p note result world
      dsimp only at hcall
      rcases hran : (probe.after c.settings p note result).run.run world with ⟨outcome, world₁⟩
      rw [hran] at hcall
      rw [askAfter, run_bind, hran]
      dsimp only
      cases outcome with
      | ok found =>
        obtain ⟨calls, world₂, hrun, hnotes, hplaces⟩ :=
          ih hrest (found.foldl IterationResult.addSecondary result) world₁
        refine ⟨.after number probe.name (.ok found) :: calls, world₂, ?_, hcall.trans hnotes,
          congrArg ((Hook.after, number) :: ·) hplaces⟩
        rw [List.flatMap_cons, List.foldl_append]
        exact hrun
      | error e =>
        obtain ⟨calls, world₂, hrun, hnotes, hplaces⟩ := ih hrest result world₁
        refine ⟨.after number probe.name (.error e) :: calls, world₂, ?_, hcall.trans hnotes,
          congrArg ((Hook.after, number) :: ·) hplaces⟩
        dsimp only
        rw [run_bind, hrun]
        rfl

end

/-! ### One request -/

end Conductor

/-- From worlds that look alike both computations come to answers that are related and leave worlds
that look alike; on the left no call is written down. -/
def besides (view : σ → τ) : Pairing (StateM (σ × List HookCall)) (StateM σ) where
  Rel Q x y := ∀ world calls world', view world = view world' →
    Q (x.run (world, calls)).1 (y.run world').1 ∧ (x.run (world, calls)).2.2 = calls ∧
      view (x.run (world, calls)).2.1 = view (y.run world').2
  pure h := fun _ _ _ hview => ⟨h, rfl, hview⟩
  bind h hfg := fun world calls world' hworlds => by
    have hfirst := h world calls world' hworlds
    rw [run_bind, run_bind]
    generalize StateT.run _ (world, calls) = seen at hfirst ⊢
    obtain ⟨a, world₁, calls₁⟩ := seen
    obtain ⟨hanswers, rfl, hview⟩ := hfirst
    exact hfg _ _ hanswers _ _ _ hview

theorem Bench.pairs_besides {b : Bench (StateM σ)} {view : σ → τ} (h : b.IsSeen view) :
    b.unnoted.Pairs (besides view) b where
  fixtures := rfl
  settings := rfl
  call c := fun world calls world' hworlds => by
    obtain ⟨hanswer, hview⟩ := h.call c world world' hworlds
    exact ⟨.of_eq hanswer, rfl, hview⟩
  now := fun world calls world' hworlds => by
    obtain ⟨hanswer, hview⟩ := h.now world world' hworlds
    exact ⟨hanswer, rfl, hview⟩

/-- The calls around an iteration of the probes with these numbers: first all hooks before it, and
then, if it has gone well, all hooks after it. -/
def HookCall.Surrounds (numbers : List Nat) (well : Bool) (calls : List HookCall) : Prop :=
  ∃ first last, calls = first ++ last ∧ first.map place = numbers.map (Hook.before, ·) ∧
    last.map place = if well then numbers.map (Hook.after, ·) else []

/-- A report of an iteration around which there have been these calls: what has been found is
attached to the result in the order of the calls, and there are their warnings. -/
def Report.surrounded (r : Report) (calls : List HookCall) : Report :=
  { r with
    result := (calls.flatMap HookCall.found).foldl IterationResult.addSecondary r.result
    warnings := calls.filterMap HookCall.probeWarning? }

/-- What is given to a request with these calls of hooks. -/
def Grant.surrounded (calls : List HookCall) : Grant → Grant
  | report r => .report (r.surrounded calls)
  | given => given

/-- The answer to a request with probes, after these calls of their hooks, beside the answer without
probes. -/
structure Accompanied (s : Settings) (numbers : List Nat) (calls : List HookCall)
    (bare full : Entry) : Prop where
  /-- The same was asked of the trial at the same place. -/
  asked : full.request = bare.request ∧ full.before = bare.before
  /-- It leads to the same place. -/
  after : full.after = bare.after
  /-- It goes well or fails in the same way, and an iteration is reported with what the hooks have
  made of it. -/
  answer : full.answer = bare.answer.map (Grant.surrounded calls)
  /-- Without probes there is nothing to be warned of. -/
  unwarned : ∀ r, bare.answer = .ok (.report r) → r.warnings = []
  /-- What was measured is the same. -/
  measured : ∀ r r', bare.answer = .ok (.report r) → full.answer = .ok (.report r') →
    r'.place = r.place ∧ r'.result.primary = r.result.primary ∧
      r'.result.threads = r.result.threads ∧ r'.result.operations = r.result.operations
  /-- The hooks of all probes are called around an iteration, and for nothing else. -/
  calls : if bare.request = .iterate ∧ bare.before.admits s .iterate = true
    then HookCall.Surrounds numbers bare.answer.isOk calls else calls = []

/-- Answers to several requests with probes, after these calls of their hooks, beside the answers
without probes. -/
inductive Alongside (s : Settings) (numbers : List Nat) :
    List HookCall → List Entry → List Entry → Prop
  /-- Nothing was asked. -/
  | nil : Alongside s numbers [] [] []
  /-- A request was answered, and others after it. -/
  | cons {calls more : List HookCall} {bare full : Entry} {bares fulls : List Entry}
      (first : Accompanied s numbers calls bare full)
      (rest : Alongside s numbers more bares fulls) :
      Alongside s numbers (calls ++ more) (bare :: bares) (full :: fulls)

namespace Conductor

variable {c : Conductor (StateM σ)} {view : σ → τ}

section

variable {phase : Phase} {index : UInt32} {notes : List (Noted (StateM σ))} {before : List String}
  {world world₁ world₂ world₃ : σ}

theorem run_report_error {f : Failure}
    (hbefore : (c.askBefore (c.settings.phase phase) c.probes).run world =
      ((notes, before), world₁))
    (hran : (c.runIteration (c.settings.phase phase).length index).run.run world₁ =
      (.error f, world₂)) :
    (c.report phase index).run.run world = (.error f, world₂) := by
  unfold report
  rw [run_lift_bind, hbefore]
  exact run_error_bind hran _

theorem run_report_ok {result result' : IterationResult} {after : List String}
    (hbefore : (c.askBefore (c.settings.phase phase) c.probes).run world =
      ((notes, before), world₁))
    (hran : (c.runIteration (c.settings.phase phase).length index).run.run world₁ =
      (.ok result, world₂))
    (hafter : (c.askAfter (c.settings.phase phase) result notes).run world₂ =
      ((result', after), world₃)) :
    (c.report phase index).run.run world =
      (.ok ⟨phase, index, result', before ++ after⟩, world₃) := by
  unfold report
  rw [run_lift_bind, hbefore]
  dsimp only
  rw [run_ok_bind hran, run_lift_bind, hafter]
  rfl

end

/-- An iteration with its probes and without them. -/
theorem report_surrounded (htask : c.toBench.IsSeen view)
    (hprobes : ∀ probe ∈ c.probes, probe.IsUnseen view) (phase : Phase) (index : UInt32)
    (world world' : σ) (calls : List HookCall) (hworlds : view world = view world') :
    let bare := (c.unprobed.report phase index).run.run world'
    let full := (c.noted.report phase index).run.run (world, calls)
    ∃ more, full.1 = bare.1.map (·.surrounded more) ∧
      (∀ r, bare.1 = .ok r → r.warnings = []) ∧
      HookCall.Surrounds (List.range c.probes.length) bare.1.isOk more ∧
      full.2.2 = calls ++ more ∧ view full.2.1 = view bare.2 := by
  let p := c.settings.phase phase
  obtain ⟨notes, first, ⟨world₁, calls₁⟩, hbefore, hnotes, hplaces, hfound, hnoted⟩ :=
    c.noted.askBefore_notes p (Probe.forall₂_isApart hprobes 0) (world, calls)
  obtain rfl : calls₁ = calls ++ first := hnotes.written
  rw [← List.range_eq_range'] at hplaces hnoted
  have hpatience : c.noted.patience = c.patience := rfl
  have hiteration := (Bench.pairs_besides htask).runIteration hpatience p.length index
    world₁ (calls ++ first) world' (hnotes.unseen.trans hworlds)
  rcases hran : (c.noted.runIteration p.length index).run.run (world₁, calls ++ first) with
    ⟨answer, world₂, calls₂⟩
  rcases hbare : (c.runIteration p.length index).run.run world' with ⟨answer', world₂'⟩
  rw [hran, hbare] at hiteration
  obtain ⟨hanswers, rfl, hview⟩ := hiteration
  obtain rfl : answer = answer' := hanswers.eq
  intro bare full
  cases answer with
  | error f =>
    have hbareRun : bare = (.error f, world₂') := run_report_error rfl hbare
    have hfullRun : full = (.error f, world₂, calls ++ first) := run_report_error hbefore hran
    rw [hbareRun, hfullRun]
    refine ⟨first, rfl, ?_, ⟨first, [], (List.append_nil _).symm, hplaces, rfl⟩, rfl, hview⟩
    rintro r ⟨⟩
  | ok result =>
    obtain ⟨last, ⟨world₃, calls₃⟩, hafter, hnotes', hplaces'⟩ :=
      c.noted.askAfter_notes p hnoted result (world₂, calls ++ first)
    obtain rfl : calls₃ = calls ++ first ++ last := hnotes'.written
    have hbareRun : bare = (.ok ⟨phase, index, result, []⟩, world₂') := run_report_ok rfl hbare rfl
    have hfullRun : full = (.ok _, world₃, calls ++ first ++ last) :=
      run_report_ok hbefore hran hafter
    rw [hbareRun, hfullRun]
    refine ⟨first ++ last, ?_, ?_, ⟨first, last, rfl, hplaces, hplaces'⟩, List.append_assoc _ _ _,
      hnotes'.unseen.trans hview⟩
    · rw [← List.filterMap_append]
      unfold Except.map Report.surrounded
      dsimp only
      rw [List.flatMap_append, hfound, List.nil_append]
    · rintro r ⟨⟩
      rfl

/-- An iteration is in place where there is a next one. -/
theorem admits_iterate (c : Conductor (StateM σ)) (position : Lifecycle) :
    position.admits c.settings .iterate = (c.nextIteration? (c.afterWarmup position)).isSome := by
  cases position with
  | warmup n =>
    unfold Lifecycle.admits afterWarmup
    by_cases hover : c.settings.warmup.count ≤ n
    · have hlt : ¬ n < c.settings.warmup.count := UInt32.not_lt.2 hover
      by_cases hsome : 0 < c.settings.measurement.count <;>
        simp [nextIteration?, hover, hlt, hsome]
    · have hlt : n < c.settings.warmup.count := UInt32.not_le.1 hover
      simp [nextIteration?, hover, hlt]
  | measurement n =>
    unfold Lifecycle.admits afterWarmup nextIteration?
    by_cases hlt : n < c.settings.measurement.count <;> simp [hlt]
  | _ => rfl

/-- An iteration that is in place is run. -/
theorem run_handle_iterate {c : Conductor (StateM σ)} {position : Lifecycle} {phase : Phase}
    {index : UInt32} (hnext : c.nextIteration? (c.afterWarmup position) = some (phase, index))
    {answer : Except Failure Report} {world world' : σ}
    (h : (c.report phase index).run.run world = (answer, world')) :
    (c.handle .iterate position).run world =
      ((answer.map .report, if answer.isOk then after phase index else .failed), world') := by
  unfold handle iterate
  dsimp only
  rw [hnext, run_map]
  unfold conclude
  dsimp only
  rw [run_bind, h]
  cases answer with
  | ok a => rfl
  | error f => rfl

theorem run_attend_cons {c : Conductor (StateM σ)} {request : Request} {position next : Lifecycle}
    {answer : Except Failure Grant} {world world' : σ}
    (h : (c.handle request position).run world = ((answer, next), world'))
    (rest : List Request) :
    (c.attend position (request :: rest)).run world =
      let (entries, after) := (c.attend next rest).run world'
      (⟨request, position, answer, next⟩ :: entries, after) := by
  rw [attend, run_bind, h]
  rfl

/-- Without a next iteration nothing is run. -/
theorem handle_over {m : Type → Type} [Monad m] [LawfulMonad m] {c : Conductor m}
    {position : Lifecycle} (h : c.nextIteration? (c.afterWarmup position) = none) :
    c.handle .iterate position =
      pure (.error (c.misuse "run an iteration" (c.afterWarmup position)), .failed) := by
  unfold handle iterate
  dsimp only
  rw [h, map_pure]
  rfl

/-- What is attached to the result of an iteration leaves what was measured as it was. -/
theorem measured_surrounded (r : Report) (calls : List HookCall) :
    let r' := r.surrounded calls
    r'.place = r.place ∧ r'.result.primary = r.result.primary ∧
      r'.result.threads = r.result.threads ∧ r'.result.operations = r.result.operations := by
  unfold Report.surrounded
  rw [IterationResult.foldl_addSecondary]
  exact ⟨rfl, rfl, rfl, rfl⟩

section

variable {s : Settings} {numbers : List Nat} {position : Lifecycle}

/-- A request for which no iteration is run. -/
theorem accompanied_plain {request : Request} {a : Answer Grant}
    (hnone : ∀ r, a.1 ≠ .ok (.report r))
    (hplain : ¬(request = .iterate ∧ position.admits s .iterate = true)) :
    Accompanied s numbers [] ⟨request, position, a.1, a.2⟩ ⟨request, position, a.1, a.2⟩ where
  asked := ⟨rfl, rfl⟩
  after := rfl
  answer := by
    obtain ⟨answer, next⟩ := a
    cases answer with
    | error f => rfl
    | ok given =>
      cases given with
      | report r => exact absurd rfl (hnone r)
      | _ => rfl
  unwarned r hr := absurd hr (hnone r)
  measured r _ hr _ := absurd hr (hnone r)
  calls := by rw [if_neg hplain]

/-- A request for which an iteration is run. -/
theorem accompanied_report {calls : List HookCall} {answer : Except Failure Report}
    {next : Lifecycle} (hplace : position.admits s .iterate = true)
    (hunwarned : ∀ r, answer = .ok r → r.warnings = [])
    (hcalls : HookCall.Surrounds numbers answer.isOk calls) :
    Accompanied s numbers calls ⟨.iterate, position, answer.map .report, next⟩
      ⟨.iterate, position, (answer.map (·.surrounded calls)).map .report, next⟩ where
  asked := ⟨rfl, rfl⟩
  after := rfl
  answer := by cases answer <;> rfl
  unwarned := by
    cases answer with
    | error f => exact fun _ h => nomatch h
    | ok r =>
      rintro _ ⟨⟩
      exact hunwarned r rfl
  measured := by
    cases answer with
    | error f => exact fun _ _ h => nomatch h
    | ok r =>
      rintro _ _ ⟨⟩ ⟨⟩
      exact measured_surrounded r calls
  calls := by
    rw [if_pos ⟨rfl, hplace⟩]
    cases answer <;> exact hcalls

end

/-- A request for which no iteration is run, with probes and without them. -/
theorem handle_plain (htask : c.toBench.IsSeen view) {request : Request} {position : Lifecycle}
    (hplain : ¬(request = .iterate ∧ position.admits c.settings .iterate = true)) :
    (besides view).Rel (fun a a' => a = a' ∧ ∀ r, a'.1 ≠ .ok (.report r))
      (c.noted.handle request position) (c.unprobed.handle request position) := by
  have hpairs := Bench.pairs_besides htask
  cases request with
  | setUp =>
    have hsetUp : (besides view).Rel Eq (c.noted.setUp position) (c.unprobed.setUp position) :=
      hpairs.setUp position
    refine Pairing.map hsetUp fun a a' heq => ?_
    obtain ⟨answer, next⟩ := a'
    refine ⟨congrArg _ heq, fun r => ?_⟩
    cases answer <;> exact fun h => nomatch h
  | tearDown =>
    have htearDown : (besides view).Rel Eq (c.noted.tearDown position)
        (c.unprobed.tearDown position) := hpairs.tearDown position
    refine Pairing.map htearDown fun a a' heq => ?_
    obtain ⟨answer, next⟩ := a'
    refine ⟨congrArg _ heq, fun r => ?_⟩
    cases answer <;> exact fun h => nomatch h
  | iterate =>
    have hnone : c.nextIteration? (c.afterWarmup position) = none := by
      refine Option.not_isSome_iff_eq_none.1 fun hsome => hplain ⟨rfl, ?_⟩
      rw [admits_iterate, hsome]
    rw [handle_over (c := c.noted) hnone, handle_over (c := c.unprobed) hnone]
    exact (besides view).pure ⟨rfl, fun _ h => nomatch h⟩

/-- **One request**, with probes and without them. -/
theorem handle_accompanied (htask : c.toBench.IsSeen view)
    (hprobes : ∀ probe ∈ c.probes, probe.IsUnseen view) (request : Request) (position : Lifecycle)
    (world world' : σ) (calls : List HookCall) (hworlds : view world = view world') :
    let bare := (c.unprobed.handle request position).run world'
    let full := (c.noted.handle request position).run (world, calls)
    ∃ more, Accompanied c.settings (List.range c.probes.length) more
        ⟨request, position, bare.1.1, bare.1.2⟩ ⟨request, position, full.1.1, full.1.2⟩ ∧
      full.2.2 = calls ++ more ∧ view full.2.1 = view bare.2 := by
  intro bare full
  by_cases hplain : request = .iterate ∧ position.admits c.settings .iterate = true
  · obtain ⟨rfl, hadmits⟩ := hplain
    obtain ⟨⟨phase, index⟩, hnext⟩ :=
      Option.isSome_iff_exists.1 ((admits_iterate c position).symm.trans hadmits)
    obtain ⟨more, hanswer, hunwarned, hcalls, hwritten, hview⟩ :=
      report_surrounded htask hprobes phase index world world' calls hworlds
    rcases hbareRun : (c.unprobed.report phase index).run.run world' with ⟨answer, world₁'⟩
    rcases hfullRun : (c.noted.report phase index).run.run (world, calls) with ⟨answer', world₁⟩
    rw [hbareRun] at hanswer hunwarned hcalls hview
    rw [hfullRun] at hanswer hwritten hview
    obtain rfl : answer' = answer.map (·.surrounded more) := hanswer
    have hbare : bare = _ := run_handle_iterate (c := c.unprobed) hnext hbareRun
    have hfull : full = _ := run_handle_iterate (c := c.noted) hnext hfullRun
    have hended : (answer.map (·.surrounded more)).isOk = answer.isOk := by cases answer <;> rfl
    rw [hbare, hfull, hended]
    exact ⟨more, accompanied_report hadmits hunwarned hcalls, hwritten, hview⟩
  · obtain ⟨⟨hanswer, hnone⟩, hcalls, hview⟩ :=
      handle_plain htask hplain world calls world' hworlds
    have hfull : full.1 = bare.1 := hanswer
    rw [hfull]
    refine ⟨[], accompanied_plain hnone hplain, ?_, hview⟩
    rw [List.append_nil]
    exact hcalls

theorem attend_alongside (htask : c.toBench.IsSeen view)
    (hprobes : ∀ probe ∈ c.probes, probe.IsUnseen view) (requests : List Request) :
    ∀ (position : Lifecycle) (world world' : σ) (calls : List HookCall), view world = view world' →
    let bare := (c.unprobed.attend position requests).run world'
    let full := (c.noted.attend position requests).run (world, calls)
    ∃ more, Alongside c.settings (List.range c.probes.length) more bare.1 full.1 ∧
      full.2.2 = calls ++ more ∧ view full.2.1 = view bare.2 := by
  induction requests with
  | nil => exact fun _ _ _ calls hview => ⟨[], .nil, (List.append_nil _).symm, hview⟩
  | cons request rest ih =>
    intro position world world' calls hview
    obtain ⟨first, hfirst, hcalls, hview₁⟩ :=
      handle_accompanied htask hprobes request position world world' calls hview
    rcases hbare : (c.unprobed.handle request position).run world' with ⟨⟨answer', next'⟩, world₁'⟩
    rcases hfull : (c.noted.handle request position).run (world, calls) with
      ⟨⟨answer, next⟩, world₁, calls₁⟩
    rw [hbare, hfull] at hfirst hview₁
    rw [hfull] at hcalls
    obtain rfl : calls₁ = calls ++ first := hcalls
    -- both trials are asked on from the same place
    obtain rfl : next = next' := hfirst.after
    obtain ⟨more, hmore, hcalls', hview'⟩ := ih next world₁ world₁' (calls ++ first) hview₁
    rw [run_attend_cons hbare, run_attend_cons hfull]
    exact ⟨first ++ more, .cons hfirst hmore, hcalls'.trans (List.append_assoc _ _ _), hview'⟩

/-- **Probes do not stand in the way of any request.**  The answers of the task and of the clock
depend on a view of the world that probes leave alone, whatever their hooks come to at any
iteration.  Whatever is asked of the trial, in any order, each request goes well or fails exactly
as it does without probes and leads to the same place, and an iteration is reported with the same
phase, index and measurements.  The hooks before it are all called in the order of attachment, and
if it has gone well those after it are, whatever came of the hooks before.  What they have found is
attached to its result in that order, and those that have failed leave one warning each. -/
theorem attend_isolated (htask : c.toBench.IsSeen view)
    (hprobes : ∀ probe ∈ c.probes, probe.IsUnseen view) (position : Lifecycle)
    (requests : List Request) {world world' : σ} (hworlds : view world = view world') :
    let bare := (c.unprobed.attend position requests).run world'
    let full := (c.attend position requests).run world
    ∃ calls, (c.noted.attend position requests).run (world, []) = (full.1, full.2, calls) ∧
      Alongside c.settings (List.range c.probes.length) calls bare.1 full.1 ∧
      view full.2 = view bare.2 := by
  intro bare full
  obtain ⟨hanswer, hworld⟩ := c.pairs_noted.attend position requests world []
  obtain ⟨calls, halongside, hcalls, hview⟩ :=
    attend_alongside htask hprobes requests position world world' [] hworlds
  rw [hanswer] at halongside
  rw [hworld] at hview
  refine ⟨calls, ?_, halongside, hview⟩
  exact Prod.ext hanswer (Prod.ext hworld hcalls)

/-- A trial of the task that does nothing with two probes.  The hook of the first breaks off before
every second iteration; its hook after the iteration finds something all the same, and that of the
second probe fails. -/
def flaky : Conductor (StateM (Nat × Nat)) where
  task := ⟨.none, fun _ => pure {}⟩
  settings := .idle
  host :=
    { now := modifyGet fun (clock, asked) => (⟨clock⟩, clock + 1, asked)
      usage := pure default }
  probes :=
    [{ name := "flaky"
       before _ _ := ExceptT.mk <| modifyGet fun (clock, asked) =>
         (if asked % 2 = 0 then .error (.panicked "boom") else .ok none, clock, asked + 1)
       after _ _ _ _ := pure [⟨.scalar, .secondary, "hits", "#", .sum, []⟩] },
     { name := "late"
       before _ _ := pure none
       after _ _ _ _ := throw (.failed "no disk") }]

theorem isSeen_flaky : flaky.toBench.IsSeen Prod.fst where
  call _ := fun _ _ h => ⟨rfl, h⟩
  now := by
    rintro ⟨clock, asked⟩ ⟨clock', asked'⟩ (rfl : clock = clock')
    exact ⟨rfl, rfl⟩

theorem isUnseen_flaky : ∀ probe ∈ flaky.probes, probe.IsUnseen Prod.fst := by
  refine List.forall_mem_cons.2 ⟨⟨fun _ _ _ => rfl, fun _ _ _ _ _ => rfl⟩, ?_⟩
  exact List.forall_mem_singleton.2 ⟨fun _ _ _ => rfl, fun _ _ _ _ _ => rfl⟩

/-- Two iterations with these probes, and what there is to be warned of. -/
theorem attend_isolated_flaky :
    let requests := [.setUp, .iterate, .iterate]
    let bare := (flaky.unprobed.attend .ready requests).run (0, 0)
    let full := (flaky.attend .ready requests).run (0, 0)
    (∃ calls, (flaky.noted.attend .ready requests).run ((0, 0), []) = (full.1, full.2, calls) ∧
      Alongside .idle [0, 1] calls bare.1 full.1 ∧ full.2.1 = bare.2.1) ∧
    (full.1.map fun e => match e.answer with
      | .ok (.report r) => r.warnings
      | _ => []) =
    [[], ["flaky: before iteration: profiler panicked: boom",
        "late: after iteration: profiler failed: no disk"],
      ["late: after iteration: profiler failed: no disk"]] :=
  ⟨attend_isolated isSeen_flaky isUnseen_flaky .ready _ rfl, rfl⟩

end Conductor

end Microbench
