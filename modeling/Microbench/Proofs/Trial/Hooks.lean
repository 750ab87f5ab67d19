import Microbench.Proofs.Worlds
import Microbench.Trial.Campaign

/-!
# The hooks of monitors

A monitor has two hooks that are called around the session of a fork, and two that have a
say in the command of its worker.  Whatever comes of the former, the next monitor is called as
if nothing had happened, and what has been found, and what there is to be warned of, can
be read off from the calls.

## Main definitions

* `HookCall`, `HookCall.Bracket` — a call of a hook with what came of it, and the calls of a fork.
* `Notes` — calls that are written down and not seen by workers.
* `Monitor.IsApart` — a monitor whose hooks are called in this way.
* `Campaign.ownCommand` — the part of a command that does not come from monitors.

## Main results

* `Campaign.startMonitors_notes` — **the hooks before a session.**
* `Campaign.askMonitors_notes` — **the hooks after it.**
* `Campaign.command_notes` — the command of a worker in between.
-/

namespace Microbench

/-! ### Calls of hooks -/

/-- The two hooks of a monitor that are called around a session. -/
inductive Hook
  | before
  | after
  deriving DecidableEq

/-- A call of a hook of the monitor with this number and name, and what came of it. -/
inductive HookCall
  | before (number : Nat) (name : String) (outcome : Except ProfilerError Unit)
  | after (number : Nat) (name : String) (outcome : Except ProfilerError (List Metric))

namespace HookCall

/-- Which hook of which monitor was called. -/
def place : HookCall → Hook × Nat
  | before number _ _ => (.before, number)
  | after number _ _ => (.after, number)

/-- The monitor that has been started by the call. -/
def started? : HookCall → Option Nat
  | before number _ (.ok ()) => some number
  | _ => none

/-- What the monitor has found. -/
def found : HookCall → List Metric
  | after _ _ (.ok metrics) => metrics
  | _ => []

/-- What there is to be warned of. -/
def warning? : HookCall → Option String
  | before _ name (.error e) => some (Campaign.hookWarning name "before_trial" e)
  | after _ name (.error e) => some (Campaign.hookWarning name "after_trial" e)
  | _ => none

/-- The calls around a session of monitors with these numbers: first all of them before it and then,
if it has ended well, those that have been started after it. -/
def Bracket (numbers : List Nat) (ended : Bool) (calls : List HookCall) : Prop :=
  ∃ first last, calls = first ++ last ∧ first.map place = numbers.map (Hook.before, ·) ∧
    last.map place = if ended then (first.filterMap started?).map (Hook.after, ·) else []

/-- Without monitors there is no call. -/
theorem Bracket.eq_nil {ended : Bool} {calls : List HookCall} (h : Bracket [] ended calls) :
    calls = [] := by
  obtain ⟨first, last, rfl, hfirst, hlast⟩ := h
  obtain rfl := List.map_eq_nil_iff.1 hfirst
  cases ended <;> exact List.map_eq_nil_iff.1 hlast

end HookCall

/-! ### What is written down, and what is not seen -/

variable {σ τ : Type} {view : σ → τ} {journal : σ → List HookCall}

/-- From one world to another workers see no difference, and these calls have been written down. -/
structure Notes (view : σ → τ) (journal : σ → List HookCall) (calls : List HookCall)
    (world world' : σ) : Prop where
  unseen : view world' = view world
  written : journal world' = journal world ++ calls

namespace Notes

variable {world world₁ world₂ : σ} {calls more : List HookCall}

theorem refl (world : σ) : Notes view journal [] world world := ⟨rfl, (List.append_nil _).symm⟩

theorem trans (h : Notes view journal calls world world₁)
    (hmore : Notes view journal more world₁ world₂) :
    Notes view journal (calls ++ more) world world₂ :=
  ⟨hmore.unseen.trans h.unseen, by rw [hmore.written, h.written, List.append_assoc]⟩

end Notes

/-- A monitor whose hooks are not seen by workers, whatever comes of them.  The hooks around a
session are written down, and those for the command of a worker return. -/
structure Monitor.IsApart (view : σ → τ) (journal : σ → List HookCall) (s : Spec) (number : Nat)
    (monitor : Monitor (StateM σ)) : Prop where
  before : ∀ world, Notes view journal
    [.before number monitor.name ((monitor.before s).run.run world).1]
    world ((monitor.before s).run.run world).2
  after : ∀ fork output world, Notes view journal
    [.after number monitor.name ((monitor.after fork output).run.run world).1]
    world ((monitor.after fork output).run.run world).2
  launchPrefix : ∀ world, ∃ words world',
    (monitor.launchPrefix s).run.run world = (.ok words, world') ∧
      Notes view journal [] world world'
  launchArgs : ∀ world, ∃ words world',
    (monitor.launchArgs s).run.run world = (.ok words, world') ∧ Notes view journal [] world world'

namespace Campaign

variable {s : Spec} {numbers : List Nat} {monitors : List (Monitor (StateM σ))}

/-! ### The hooks around a session -/

/-- **The hooks before a session** are called in the order of attachment, and those whose hooks have
gone well have been started. -/
theorem startMonitors_notes (h : List.Forall₂ (Monitor.IsApart view journal s) numbers monitors)
    (world : σ) :
    ∃ started calls world', (startMonitors s monitors).run world =
        ((started, calls.filterMap HookCall.warning?), world') ∧
      Notes view journal calls world world' ∧
      calls.map HookCall.place = numbers.map (Hook.before, ·) ∧
      List.Forall₂ (Monitor.IsApart view journal s) (calls.filterMap HookCall.started?) started ∧
      calls.flatMap HookCall.found = [] := by
  induction h generalizing world with
  | nil => exact ⟨[], [], world, rfl, .refl world, rfl, .nil, rfl⟩
  | @cons number monitor numbers monitors hmonitor hrest ih =>
    have hcall := hmonitor.before world
    rcases hran : (monitor.before s).run.run world with ⟨outcome, world₁⟩
    rw [hran] at hcall
    obtain ⟨started, calls, world₂, hrun, hnotes, hplaces, hstarted, hfound⟩ := ih world₁
    have hall := hcall.trans hnotes
    rw [startMonitors, run_bind, hran]
    dsimp only
    rw [run_bind, hrun]
    cases outcome with
    | ok _ =>
      refine ⟨monitor :: started, .before number monitor.name (.ok ()) :: calls, world₂, rfl, hall,
        ?_, .cons hmonitor hstarted, hfound⟩
      exact congrArg ((Hook.before, number) :: ·) hplaces
    | error e =>
      refine ⟨started, .before number monitor.name (.error e) :: calls, world₂, rfl, hall, ?_,
        hstarted, hfound⟩
      exact congrArg ((Hook.before, number) :: ·) hplaces

/-- **The hooks after a session** are called in the same order. -/
theorem askMonitors_notes (fork : ForkResult) (output : Output)
    (h : List.Forall₂ (Monitor.IsApart view journal s) numbers monitors) (world : σ) :
    ∃ calls world', (askMonitors fork output monitors).run world =
        ((calls.flatMap HookCall.found, calls.filterMap HookCall.warning?), world') ∧
      Notes view journal calls world world' ∧
      calls.map HookCall.place = numbers.map (Hook.after, ·) := by
  induction h generalizing world with
  | nil => exact ⟨[], world, rfl, .refl world, rfl⟩
  | @cons number monitor numbers monitors hmonitor hrest ih =>
    have hcall := hmonitor.after fork output world
    rcases hran : (monitor.after fork output).run.run world with ⟨outcome, world₁⟩
    rw [hran] at hcall
    obtain ⟨calls, world₂, hrun, hnotes, hplaces⟩ := ih world₁
    have hall := hcall.trans hnotes
    rw [askMonitors, run_bind, hran]
    dsimp only
    rw [run_bind, hrun]
    cases outcome with
    | ok metrics =>
      exact ⟨.after number monitor.name (.ok metrics) :: calls, world₂, rfl, hall,
        congrArg ((Hook.after, number) :: ·) hplaces⟩
    | error e =>
      exact ⟨.after number monitor.name (.error e) :: calls, world₂, rfl, hall,
        congrArg ((Hook.after, number) :: ·) hplaces⟩

/-! ### The command of a worker -/

theorem contributions_notes (hook : Monitor (StateM σ) → ExceptT Breakdown (StateM σ) (List String))
    (h : ∀ monitor ∈ monitors, ∀ world, ∃ words world',
      (hook monitor).run.run world = (.ok words, world') ∧ Notes view journal [] world world')
    (world : σ) :
    ∃ words world', (contributions hook monitors).run.run world = (.ok words, world') ∧
      Notes view journal [] world world' := by
  induction monitors generalizing world with
  | nil => exact ⟨[], world, rfl, .refl world⟩
  | cons monitor rest ih =>
    obtain ⟨hmonitor, hrest⟩ := List.forall_mem_cons.1 h
    obtain ⟨words, world₁, hran, hnotes⟩ := hmonitor world
    obtain ⟨more, world₂, hmore, hnotes'⟩ := ih hrest world₁
    refine ⟨words ++ more, world₂, ?_, hnotes.trans hnotes'⟩
    rw [contributions, run_lift_bind, hran]
    dsimp only
    rw [run_ok_bind hmore]
    rfl

/-- What a command consists of that monitors have nothing to do with. -/
def ownCommand (c : Campaign (StateM σ)) (s : Spec) : List String :=
  s.launch.before.getD [] ++ c.workerCommand ++ s.launch.args.getD [] ++ s.launch.after.getD []

/-- The command of a worker names a program, with monitors as without. -/
theorem command_notes {c : Campaign (StateM σ)} (hnamed : c.ownCommand s ≠ [])
    (h : List.Forall₂ (Monitor.IsApart view journal s) numbers monitors) (world : σ) :
    ∃ program args world', (c.command s monitors).run.run world =
        (.ok (program :: args), world') ∧ Notes view journal [] world world' := by
  have hapart : ∀ monitor ∈ monitors, ∃ number, monitor.IsApart view journal s number := by
    intro monitor hmonitor
    obtain ⟨number, -, hnumber⟩ := exists_of_forall₂_of_mem h hmonitor
    exact ⟨number, hnumber⟩
  obtain ⟨before, world₁, hbefore, hnotes⟩ := contributions_notes (·.launchPrefix s)
    (fun monitor hmonitor => (hapart monitor hmonitor).elim fun _ h => h.launchPrefix) world
  obtain ⟨args, world₂, hargs, hnotes'⟩ := contributions_notes (·.launchArgs s)
    (fun monitor hmonitor => (hapart monitor hmonitor).elim fun _ h => h.launchArgs) world₁
  have hcommand : s.launch.before.getD [] ++ before ++ c.workerCommand ++ s.launch.args.getD [] ++
      args ++ s.launch.after.getD [] ≠ [] := by
    intro hnone
    simp only [List.append_eq_nil_iff] at hnone
    exact hnamed (by simp [ownCommand, hnone])
  obtain ⟨program, rest, hcons⟩ := List.exists_cons_of_ne_nil hcommand
  refine ⟨program, rest, world₂, ?_, hnotes.trans hnotes'⟩
  rw [command, run_ok_bind hbefore, run_ok_bind hargs, ← hcons]
  rfl

end Campaign

end Microbench
