import Microbench.Proofs.Dict
import Microbench.Proofs.Session.Likeness
import Microbench.Proofs.Trial.Hooks
import Microbench.Proofs.Trial.Pooled

/-!
# Monitors stand apart

A trial with monitors comes to what it comes to without them, whatever becomes of their
hooks, as long as workers see nothing of what the hooks do and of how they are started.
The hooks stand around the session of every measured fork: each monitor is called before it,
in the order of attachment, and those whose hooks have gone well are called after it if it
has gone well.

## Main definitions

* `Campaign.Isolated` — a campaign whose workers see nothing of its monitors.
* `Campaign.bare` — the same campaign without monitors.
* `Campaign.Brackets` — where hooks are called.
* `Campaign.Isolates` — what is promised of a trial.

## Main results

* `TrialResult.get?_poolByLabel` — what monitors have found, label by label.
* `Campaign.fork_isolated`, `Campaign.forked_isolated` — one fork, and one after the other.
* `Campaign.isolates_of_measured`, `Campaign.isolates_of_not_measured`,
  `Campaign.isolates_of_not_discarded` — the three ways in which a trial ends.
* `Campaign.trial_isolates` — **monitors neither help nor hinder a trial.**
-/

namespace Microbench

/-! ### What monitors have found -/

/-- What monitors have found under a label is pooled as iterations are. -/
theorem TrialResult.get?_poolByLabel (ms : List Metric) (label : String) :
    (poolByLabel ms).get? label = Pooling.iterations.pool (ms.filter (·.label = label)) := by
  rw [poolByLabel, Dict.get?_foldl_step (fun label =>
    Pooling.iterations.pool (ms.filter (·.label = label)))]
  · by_cases hmem : label ∈ (ms.map (·.label)).eraseDups
    · rw [if_pos hmem, Dict.get?_empty, Option.or_none]
    · have hnone : ms.filter (·.label = label) = [] := by
        refine List.filter_eq_nil_iff.2 fun m hm hlabel => hmem ?_
        rw [List.mem_eraseDups, ← of_decide_eq_true hlabel]
        exact List.mem_map_of_mem hm
      rw [if_neg hmem, hnone]
      rfl
  · intro d label m hm
    simp only [hm]
  · intro d label hm
    simp only [hm]

namespace Campaign

variable {σ τ : Type} {view : σ → τ} {journal : σ → List HookCall} {s : Spec} {numbers : List Nat}
  {monitors : List (Monitor (StateM σ))}

/-! ### Forks -/

/-- A campaign whose workers see nothing of its monitors.  How a worker is started, with which
command, makes no difference to it; what it says and does depends on what it sees; and only hooks
are written down. -/
structure Isolated (c : Campaign (StateM σ)) (s : Spec) (view : σ → τ)
    (journal : σ → List HookCall) : Prop where
  named : c.ownCommand s ≠ []
  launcher : c.launcher.Indifferent fun world world' => view world = view world'
  start : ∀ launch world, journal ((c.launcher.start launch).run world).2 = journal world
  send : ∀ w line world, journal ((c.launcher.send w line).run world).2 = journal world
  receive : ∀ limit w world, journal ((c.launcher.receive limit w).run world).2 = journal world
  finish : ∀ limit w world, journal ((c.launcher.finish limit w).run world).2 = journal world
  monitors : ∀ (number : Nat) (monitor : Monitor (StateM σ)),
    c.monitors[number]? = some monitor → monitor.IsApart view journal s number

variable {c : Campaign (StateM σ)} {settings : Settings}

/-- Workers do not change what has been written down. -/
theorem Isolated.indifferent (h : c.Isolated s view journal) (calls calls' : List HookCall) :
    c.launcher.Indifferent fun world world' =>
      view world = view world' ∧ journal world = calls ∧ journal world' = calls' where
  start program args program' args' probes :=
    (h.launcher.start program args program' args' probes).keeping (h.start _) (h.start _) _ _
  send w line := (h.launcher.send w line).keeping (h.send w line) (h.send w line) _ _
  receive limit w :=
    (h.launcher.receive limit w).keeping (h.receive limit w) (h.receive limit w) _ _
  finish limit w := (h.launcher.finish limit w).keeping (h.finish limit w) (h.finish limit w) _ _

/-- The monitors are numbered in the order of attachment. -/
theorem Isolated.forall₂ (h : c.Isolated s view journal) :
    List.Forall₂ (Monitor.IsApart view journal s) (List.range c.monitors.length) c.monitors := by
  refine List.forall₂_iff_get.2 ⟨List.length_range, fun i hi hi' => ?_⟩
  rw [List.get_eq_getElem, List.getElem_range]
  exact h.monitors i _ (List.getElem?_eq_getElem hi')

/-- The same end of a trial, but for the program that a worker could not be started with. -/
def SameEnd (e e' : Halt) : Prop :=
  e = e' ∨ ∃ label fork program program' reason,
    e = .error (.process label fork (.launch program reason)) ∧
      e' = .error (.process label fork (.launch program' reason))

/-- What a fork comes to without monitors, and what it comes to beside these calls of hooks. -/
inductive Beside (calls : List HookCall) : Except Halt Findings → Except Halt Findings → Prop
  /-- It measures the same, and what the monitors have found comes to it. -/
  | measured (fork : ForkResult) : Beside calls (.ok ⟨fork, [], []⟩)
      (.ok ⟨fork, calls.flatMap HookCall.found, calls.filterMap HookCall.warning?⟩)
  /-- It fails in the same way. -/
  | failed {e e' : Halt} (same : SameEnd e e') : Beside calls (.error e) (.error e')

/-- After its session a fork comes to the same, and the hooks are called that are left. -/
theorem concludeFork_beside {started : List (Monitor (StateM σ))} {calls : List HookCall}
    (hplaces : calls.map HookCall.place = numbers.map (Hook.before, ·))
    (hfound : calls.flatMap HookCall.found = [])
    (hstarted : List.Forall₂ (Monitor.IsApart view journal s)
      (calls.filterMap HookCall.started?) started) (index : UInt32)
    {result result' : Except SessionError (ForkResult × Output)}
    (hsame : result = result' ∨ ∃ program program' reason,
      result = .error (.process (.launch program reason)) ∧
        result' = .error (.process (.launch program' reason))) (world world' : σ) :
    let bare := (concludeFork (m := StateM σ) s index [] [] result).run world
    let watched := (concludeFork s index started (calls.filterMap HookCall.warning?)
      result').run world'
    ∃ more, bare.2 = world ∧ Notes view journal more world' watched.2 ∧
      HookCall.Bracket numbers watched.1.isOk (calls ++ more) ∧
      Beside (calls ++ more) bare.1 watched.1 := by
  have hbracket : HookCall.Bracket numbers false (calls ++ []) := ⟨calls, [], rfl, hplaces, rfl⟩
  rcases hsame with rfl | ⟨program, program', reason, rfl, rfl⟩
  · cases result with
    | ok measured =>
      obtain ⟨fork, output⟩ := measured
      obtain ⟨more, world₁, hasked, hnotes, hmore⟩ :=
        askMonitors_notes fork output hstarted world'
      have hwatched : (concludeFork s index started (calls.filterMap HookCall.warning?)
          (.ok (fork, output))).run world' =
          (.ok ⟨fork, (calls ++ more).flatMap HookCall.found,
            (calls ++ more).filterMap HookCall.warning?⟩, world₁) := by
        rw [concludeFork, run_bind, hasked, List.flatMap_append, hfound, List.filterMap_append]
        rfl
      rw [hwatched]
      exact ⟨more, rfl, hnotes, ⟨calls, more, rfl, hplaces, hmore⟩, .measured fork⟩
    | error e =>
      -- the session has failed, so no hook is left
      cases e with
      | process p => exact ⟨[], rfl, .refl world', hbracket, .failed (.inl rfl)⟩
      | reported f => exact ⟨[], rfl, .refl world', hbracket, .failed (.inl rfl)⟩
  · exact ⟨[], rfl, .refl world', hbracket, .failed (.inr ⟨_, _, _, _, _, rfl, rfl⟩)⟩

/-- **A fork comes to the same with monitors as without**, and they are called around its
session. -/
theorem fork_isolated (settings : Settings) (h : c.Isolated s view journal)
    (hmonitors : List.Forall₂ (Monitor.IsApart view journal s) numbers monitors) (index : UInt32)
    {world world' : σ} (hworlds : view world' = view world) :
    let bare := (c.fork s settings index []).run.run world
    let watched := (c.fork s settings index monitors).run.run world'
    ∃ calls, view watched.2 = view bare.2 ∧ journal watched.2 = journal world' ++ calls ∧
      HookCall.Bracket numbers watched.1.isOk calls ∧ Beside calls bare.1 watched.1 := by
  intro bare watched
  have hnone : List.Forall₂ (Monitor.IsApart view journal s) [] [] := .nil
  obtain ⟨program, args, world₁, hcommand, hnotes₁⟩ := command_notes h.named hnone world
  obtain ⟨started, calls, world₁', hstarted', hnotes, hplaces, hstarted, hfound⟩ :=
    startMonitors_notes hmonitors world'
  obtain ⟨program', args', world₂', hcommand', hnotes'⟩ := command_notes h.named hstarted world₁'
  have hbegun := hnotes.trans hnotes'
  rw [List.append_nil] at hbegun
  have hviews : view world₁ = view world₂' :=
    hnotes₁.unseen.trans (hbegun.unseen.trans hworlds).symm
  -- the worlds in which the two workers are started are alike
  obtain ⟨hleft, hsame⟩ := Supervisor.run_alike
    (h.indifferent (journal world₁) (journal world' ++ calls)) program program' args args' c.probes
    s settings index ⟨hviews, rfl, hbegun.written⟩
  rcases hsession : (Supervisor.run c.launcher (program :: args) c.probes s settings
    index).run.run world₁ with ⟨result, world₃⟩
  rcases hsession' : (Supervisor.run c.launcher (program' :: args') c.probes s settings
    index).run.run world₂' with ⟨result', world₃'⟩
  rw [hsession, hsession'] at hleft hsame
  obtain ⟨hview, -, hjournal⟩ := hleft
  have hbare : bare = (concludeFork (m := StateM σ) s index [] [] result).run world₃ :=
    run_fork rfl hcommand hsession
  have hwatched : watched =
      (concludeFork s index started (calls.filterMap HookCall.warning?) result').run world₃' :=
    run_fork hstarted' hcommand' hsession'
  obtain ⟨more, hstays, hnotes'', hbracket, hbeside⟩ := concludeFork_beside hplaces hfound hstarted
    index (hsame.imp_right fun ⟨reason, h⟩ => ⟨program, program', reason, h⟩) world₃ world₃'
  rw [hbare, hwatched]
  refine ⟨calls ++ more, ?_, ?_, hbracket, hbeside⟩
  · rw [hstays, hnotes''.unseen]
    exact hview.symm
  · rw [hnotes''.written, ← List.append_assoc]
    exact congrArg (· ++ more) hjournal

/-- A fork that is discarded calls no hook. -/
theorem journal_of_fork (settings : Settings) (h : c.Isolated s view journal) (index : UInt32)
    (world : σ) :
    journal ((c.fork s settings index []).run.run world).2 = journal world := by
  obtain ⟨calls, -, hjournal, hbracket, -⟩ :=
    fork_isolated settings h .nil index (rfl : view world = view world)
  rw [hjournal, hbracket.eq_nil, List.append_nil]

/-- What forks come to one after the other, and what they come to beside these calls of hooks. -/
structure Besides (numbers : List Nat) (calls : List (List HookCall))
    (bare watched : List Findings) : Prop where
  length_eq : calls.length = watched.length
  forks_eq : watched.map (·.fork) = bare.map (·.fork)
  brackets : ∀ fork ∈ calls, HookCall.Bracket numbers true fork
  found_eq : watched.flatMap (·.found) = calls.flatten.flatMap HookCall.found
  warnings_eq : watched.flatMap (·.warnings) = calls.flatten.filterMap HookCall.warning?

theorem Besides.length_bare {calls : List (List HookCall)} {bare watched : List Findings}
    (h : Besides numbers calls bare watched) : bare.length = watched.length := by
  simpa using (congrArg List.length h.forks_eq).symm

/-- **Forks one after the other come to the same**, each with the calls around its session. -/
theorem forked_isolated (h : c.Isolated s view journal)
    (hmonitors : List.Forall₂ (Monitor.IsApart view journal s) numbers monitors)
    {watched : List Findings} {world world' world₁' : σ} (hworlds : view world' = view world)
    (hran : c.Forked s settings monitors world' watched world₁') :
    ∃ bare world₁ calls, c.Forked s settings [] world bare world₁ ∧ view world₁' = view world₁ ∧
      journal world₁' = journal world' ++ calls.flatten ∧ Besides numbers calls bare watched := by
  induction hran with
  | none =>
    refine ⟨[], world, [], .none, hworlds, (List.append_nil _).symm, ?_⟩
    exact ⟨rfl, rfl, List.forall_mem_nil _, rfl, rfl⟩
  | @next watched found world₁' world₂' before ran ih =>
    obtain ⟨bare, world₁, calls, hforked, hview, hjournal, hbesides⟩ := ih
    have hcount := hbesides.length_bare
    obtain ⟨more, hview', hjournal', hbracket, hbeside⟩ :=
      fork_isolated settings h hmonitors (.ofNat watched.length) hview
    rcases hbare : (c.fork s settings (.ofNat watched.length) []).run.run world₁ with
      ⟨outcome, world₂⟩
    rw [ran, hbare] at hview' hbeside
    rw [ran] at hjournal' hbracket
    cases hbeside with
    | measured fork =>
      have hnext := hforked.next (hcount ▸ hbare)
      refine ⟨_, world₂, calls ++ [more], hnext, hview', ?_, ?_⟩
      · rw [hjournal', hjournal, List.flatten_append, List.flatten_singleton, List.append_assoc]
      · exact {
          length_eq := by simp [hbesides.length_eq]
          forks_eq := by simp [hbesides.forks_eq]
          brackets :=
            List.forall_mem_append.2 ⟨hbesides.brackets, List.forall_mem_singleton.2 hbracket⟩
          found_eq := by simp [hbesides.found_eq]
          warnings_eq := by simp [hbesides.warnings_eq] }

/-- Without monitors nothing is written down. -/
theorem journal_of_forked (h : c.Isolated s view journal) {findings : List Findings}
    {world world₁ : σ} (hran : c.Forked s settings [] world findings world₁) :
    journal world₁ = journal world := by
  induction hran with
  | none => rfl
  | @next done found world₁ world₂ before ran ih =>
    have hstays := journal_of_fork settings h (.ofNat done.length) world₁
    rw [ran] at hstays
    exact hstays.trans ih

/-! ### Trials -/

/-- The campaign without monitors. -/
def bare (c : Campaign (StateM σ)) : Campaign (StateM σ) := { c with monitors := [] }

theorem Forked.bare {findings : List Findings} {world world₁ : σ}
    (h : c.Forked s settings monitors world findings world₁) :
    c.bare.Forked s settings monitors world findings world₁ := by
  induction h with
  | none => exact .none
  | next before ran ih => exact ih.next ran

/-- What a trial comes to without monitors, and what it comes to with them. -/
inductive SameTrial : Except Halt TrialResult → Except Halt TrialResult → Prop
  /-- It has the same forks and the same totals. -/
  | ok {bare watched : TrialResult} (forks_eq : watched.forks = bare.forks)
      (totals_eq : watched.totals = bare.totals) : SameTrial (.ok bare) (.ok watched)
  /-- It fails in the same way. -/
  | error {e e' : Halt} (same : SameEnd e e') : SameTrial (.error e) (.error e')

/-- Where hooks are called in a trial. -/
structure Brackets (c : Campaign (StateM σ)) (s : Spec) (settings : Settings)
    (journal : σ → List HookCall) : Prop where
  /-- There is no call around a fork that is discarded. -/
  discarded : ∀ index world,
    journal ((c.fork s settings index []).run.run world).2 = journal world
  /-- Calls stand around the session of each fork that is measured. -/
  measured : ∀ index world,
    let (outcome, world') := (c.fork s settings index c.monitors).run.run world
    ∃ calls, journal world' = journal world ++ calls ∧
      HookCall.Bracket (List.range c.monitors.length) outcome.isOk calls

/-- What is promised of a trial, beside the same trial without monitors, when these are the calls of
hooks in each measured fork. -/
structure Isolates (c : Campaign (StateM σ)) (s : Spec) (settings : Settings) (view : σ → τ)
    (journal : σ → List HookCall) (world : σ) (calls : List (List HookCall)) : Prop where
  /-- Workers see nothing of the monitors. -/
  unseen : view ((c.trial s).run.run world).2 = view ((c.bare.trial s).run.run world).2
  /-- These calls are made, and no other. -/
  written : journal ((c.trial s).run.run world).2 = journal world ++ calls.flatten
  /-- The trial comes to the same. -/
  same : SameTrial ((c.bare.trial s).run.run world).1 ((c.trial s).run.run world).1
  /-- If it has a result, hooks stand around every measured fork, and what they have found and what
  there is to be warned of is in the result. -/
  succeeded : ∀ t, ((c.trial s).run.run world).1 = .ok t →
    calls.length = s.measuredForks ∧
    (∀ fork ∈ calls, HookCall.Bracket (List.range c.monitors.length) true fork) ∧
    (∀ label, t.monitored.get? label = Pooling.iterations.pool
      ((calls.flatten.flatMap HookCall.found).filter (·.label = label))) ∧
    t.warnings = calls.flatten.filterMap HookCall.warning? ++ t.forks.flatMap (·.warnings)
  /-- If it fails, it does so before any hook is called, or in a measured fork after whose session
  no hook is called. -/
  failed : ∀ e world', (c.trial s).run.run world = (.error e, world') →
    (calls = [] ∧ ∃ done world₁, c.Forked s settings [] world done world₁ ∧
      done.length < s.discardedForks ∧
      (c.fork s settings (.ofNat done.length) []).run.run world₁ = (.error e, world')) ∨
    ∃ discarded world₁ done world₂ complete last, c.Forked s settings [] world discarded world₁ ∧
      discarded.length = s.discardedForks ∧
      c.Forked s settings c.monitors world₁ done world₂ ∧ done.length < s.measuredForks ∧
      (c.fork s settings (.ofNat done.length) c.monitors).run.run world₂ = (.error e, world') ∧
      calls = complete ++ [last] ∧ complete.length = done.length ∧
      (∀ fork ∈ complete, HookCall.Bracket (List.range c.monitors.length) true fork) ∧
      HookCall.Bracket (List.range c.monitors.length) false last

section

variable {world world₁ world₂ : σ} (h : c.Isolated s view journal)
  (hvalid : c.Validated s settings) (hforks : 0 < s.measuredForks)

include h hvalid hforks

/-- A discarded fork fails, and no hook has been called. -/
theorem isolates_of_not_discarded {done : List Findings} {e : Halt}
    (hdone : c.Forked s settings [] world done world₁) (hless : done.length < s.discardedForks)
    (hfails : (c.fork s settings (.ofNat done.length) []).run.run world₁ = (.error e, world₂)) :
    c.Isolates s settings view journal world [] := by
  have hran : (c.trial s).run.run world = (.error e, world₂) :=
    (run_trial_error_iff hvalid hforks).2 (.inl ⟨done, world₁, hdone, hless, hfails⟩)
  have hbare : (c.bare.trial s).run.run world = (.error e, world₂) :=
    (run_trial_error_iff (c := c.bare) hvalid hforks).2
      (.inl ⟨done, world₁, hdone.bare, hless, hfails⟩)
  have hjournal := journal_of_fork settings h (.ofNat done.length) world₁
  rw [hfails, journal_of_forked h hdone] at hjournal
  refine { unseen := ?_, written := ?_, same := ?_, succeeded := ?_, failed := ?_ }
  · rw [hran, hbare]
  · rw [hran, List.flatten_nil, List.append_nil]
    exact hjournal
  · rw [hran, hbare]
    exact .error (.inl rfl)
  · intro t ht
    rw [hran] at ht
    cases ht
  · intro e' world' he
    cases hran.symm.trans he
    exact .inl ⟨rfl, done, world₁, hdone, hless, hfails⟩

/-- The discarded forks go well, and then the measured ones, with monitors or without. -/
theorem isolates_of_measured {discarded measured : List Findings}
    (hdiscarded : c.Forked s settings [] world discarded world₁)
    (hall : discarded.length = s.discardedForks)
    (hmeasured : c.Forked s settings c.monitors world₁ measured world₂)
    (hall' : measured.length = s.measuredForks) :
    ∃ calls, c.Isolates s settings view journal world calls := by
  have hran : (c.trial s).run.run world = (.ok (resultOf s measured), world₂) :=
    (run_trial_ok_iff hvalid hforks).2
      ⟨discarded, world₁, measured, hdiscarded, hall, hmeasured, hall', rfl⟩
  obtain ⟨bare, world₂', calls, hforked, hview, hjournal, hbesides⟩ :=
    forked_isolated h h.forall₂ rfl hmeasured
  have hcount : bare.length = s.measuredForks := hbesides.length_bare.trans hall'
  have hbare : (c.bare.trial s).run.run world = (.ok (resultOf s bare), world₂') :=
    (run_trial_ok_iff (c := c.bare) hvalid hforks).2
      ⟨discarded, world₁, bare, hdiscarded.bare, hall, hforked.bare, hcount, rfl⟩
  rw [journal_of_forked h hdiscarded] at hjournal
  refine ⟨calls, { unseen := ?_, written := ?_, same := ?_, succeeded := ?_, failed := ?_ }⟩
  · rw [hran, hbare]
    exact hview
  · rw [hran]
    exact hjournal
  · rw [hran, hbare]
    refine .ok hbesides.forks_eq ?_
    exact congrArg (fun forks : List ForkResult => Totals.ofIterations (forks.flatMap
      (·.iterations))) hbesides.forks_eq
  · intro t ht
    rw [hran] at ht
    cases ht
    refine ⟨hbesides.length_eq.trans hall', hbesides.brackets, fun label => ?_, ?_⟩
    · rw [← hbesides.found_eq]
      exact TrialResult.get?_poolByLabel _ label
    · rw [← hbesides.warnings_eq]
      rfl
  · intro e world' he
    cases hran.symm.trans he

/-- The discarded forks go well, and one of the measured ones is the first that fails. -/
theorem isolates_of_not_measured {discarded done : List Findings} {e : Halt} {world₃ : σ}
    (hdiscarded : c.Forked s settings [] world discarded world₁)
    (hall : discarded.length = s.discardedForks)
    (hdone : c.Forked s settings c.monitors world₁ done world₂)
    (hless : done.length < s.measuredForks)
    (hfails : (c.fork s settings (.ofNat done.length) c.monitors).run.run world₂ =
      (.error e, world₃)) :
    ∃ calls, c.Isolates s settings view journal world calls := by
  have hran : (c.trial s).run.run world = (.error e, world₃) :=
    (run_trial_error_iff hvalid hforks).2 (.inr
      ⟨discarded, world₁, done, world₂, hdiscarded, hall, hdone, hless, hfails⟩)
  obtain ⟨bare, world₂', complete, hforked, hview, hjournal, hbesides⟩ :=
    forked_isolated h h.forall₂ rfl hdone
  have hcount := hbesides.length_bare
  obtain ⟨last, hview', hjournal', hbracket, hbeside⟩ :=
    fork_isolated settings h h.forall₂ (.ofNat done.length) hview
  rcases hfails' : (c.fork s settings (.ofNat done.length) []).run.run world₂' with
    ⟨outcome, world₃'⟩
  rw [hfails, hfails'] at hview' hbeside
  rw [hfails] at hjournal' hbracket
  cases hbeside with
  | @failed e' _ hsame =>
    have hbare : (c.bare.trial s).run.run world = (.error e', world₃') :=
      (run_trial_error_iff (c := c.bare) hvalid hforks).2 (.inr
        ⟨discarded, world₁, bare, world₂', hdiscarded.bare, hall, hforked.bare, hcount ▸ hless,
          hcount ▸ hfails'⟩)
    refine ⟨complete ++ [last],
      { unseen := ?_, written := ?_, same := ?_, succeeded := ?_, failed := ?_ }⟩
    · rw [hran, hbare]
      exact hview'
    · rw [hran, List.flatten_append, List.flatten_singleton, ← List.append_assoc,
        ← journal_of_forked h hdiscarded, ← hjournal]
      exact hjournal'
    · rw [hran, hbare]
      exact .error hsame
    · intro t ht
      rw [hran] at ht
      cases ht
    · intro e'' world' he
      cases hran.symm.trans he
      exact .inr ⟨discarded, world₁, done, world₂, complete, last, hdiscarded, hall, hdone, hless,
        hfails, rfl, hbesides.length_eq, hbesides.brackets, hbracket⟩

end

/-- Monitors make no difference to a trial that has no worker. -/
theorem run_trial_bare
    (hnone : (¬ ∃ settings, c.Validated s settings) ∨ s.measuredForks = 0) (world : σ) :
    (c.trial s).run.run world = (c.bare.trial s).run.run world := by
  rcases hvalidate : (c.validate s).run.run world with ⟨_ | ⟨entry, settings⟩, world₁⟩
  · exact (run_error_bind hvalidate _).trans
      (run_error_bind (x := c.bare.validate s) hvalidate _).symm
  · obtain ⟨found, hfound, hsettings⟩ := validated_of_run_validate hvalidate
    have hzero : settings.forks = 0 := by
      rcases hnone with hinvalid | hunforked
      · exact absurd ⟨settings, found, hfound, hsettings⟩ hinvalid
      · exact (forks_eq_zero_iff_of_resolve hsettings).2 hunforked
    rw [trial, trial, run_ok_bind hvalidate, run_ok_bind (x := c.bare.validate s) hvalidate]
    dsimp only
    rw [if_pos hzero, if_pos hzero]
    rfl

/-- **Monitors neither help nor hinder a trial.**  Whatever becomes of their hooks, a trial comes to
the same with them as without, beside what they have found and what there is to be warned of.  They
are called around the session of every measured fork and at no other time: all of them before it, in
the order of attachment, and those whose hooks have gone well after it, if it has gone well. -/
theorem trial_isolates (c : Campaign (StateM σ)) (h : c.Isolated s view journal) :
    (∀ settings, c.Brackets s settings journal) ∧
    (∀ settings, c.Validated s settings → 0 < s.measuredForks → ∀ world, ∃ calls,
      c.Isolates s settings view journal world calls) ∧
    ((¬ ∃ settings, c.Validated s settings) ∨ s.measuredForks = 0 → ∀ world,
      (c.trial s).run.run world = (c.bare.trial s).run.run world) := by
  refine ⟨fun settings => ⟨journal_of_fork settings h, fun index world => ?_⟩, ?_, run_trial_bare⟩
  · obtain ⟨calls, -, hjournal, hbracket, -⟩ :=
      fork_isolated settings h h.forall₂ index (rfl : view world = view world)
    exact ⟨calls, hjournal, hbracket⟩
  · intro settings hvalid hforks world
    rcases hran : (c.trial s).run.run world with ⟨_ | t, world'⟩
    · next e =>
      rcases (run_trial_error_iff hvalid hforks).1 hran with
        ⟨done, world₁, hdone, hless, hfails⟩ |
        ⟨discarded, world₁, done, world₂, hdiscarded, hall, hdone, hless, hfails⟩
      · exact ⟨[], isolates_of_not_discarded h hvalid hforks hdone hless hfails⟩
      · exact isolates_of_not_measured h hvalid hforks hdiscarded hall hdone hless hfails
    · obtain ⟨discarded, world₁, measured, hdiscarded, hall, hmeasured, hall', -⟩ :=
        (run_trial_ok_iff hvalid hforks).1 hran
      exact isolates_of_measured h hvalid hforks hdiscarded hall hmeasured hall'

end Campaign

/-- A monitor with this number whose hooks always come to this. -/
def Monitor.noting (number : Nat) (name : String) (before : Except ProfilerError Unit)
    (after : Except ProfilerError (List Metric)) : Monitor (StateM (List HookCall)) where
  name := name
  launchPrefix _ := pure []
  launchArgs _ := pure [name]
  before _ := ExceptT.mk fun calls => (before, calls ++ [.before number name before])
  after _ _ := ExceptT.mk fun calls => (after, calls ++ [.after number name after])

theorem Monitor.isApart_noting (s : Spec) (number : Nat) (name : String)
    (before : Except ProfilerError Unit) (after : Except ProfilerError (List Metric)) :
    (Monitor.noting number name before after).IsApart (fun _ => ()) id s number where
  before _ := ⟨rfl, rfl⟩
  after _ _ _ := ⟨rfl, rfl⟩
  launchPrefix calls := ⟨[], calls, rfl, .refl calls⟩
  launchArgs calls := ⟨[name], calls, rfl, .refl calls⟩

namespace Campaign

/-- A campaign with good workers and two monitors, of which the first cannot be used. -/
def watched : Campaign (StateM (List HookCall)) where
  registry := .ofList [⟨⟨"idle", .averageTime, [], []⟩, fun _ => pure ⟨.none, fun _ => pure {}⟩⟩]
  host := ⟨pure ⟨0⟩, pure default⟩
  monitors := [.noting 0 "first" (.error (.unavailable "not here")) (.ok []),
    .noting 1 "second" (.ok ()) (.error (.panicked "at once"))]
  launcher := .reciting (.ofMessages [.hello protocolVersion 0 "idle",
    .iteration (.idle .warmup), .iteration (.idle .measurement), .complete 2] (some (.code 0)))
  workerCommand := ["worker"]

theorem isolated_watched : watched.Isolated thrice (fun _ => ()) id where
  named := List.cons_ne_nil _ _
  launcher := ⟨fun _ _ _ _ _ _ _ _ => ⟨rfl, rfl⟩, fun _ _ _ _ _ => ⟨rfl, rfl⟩,
    fun _ _ _ _ _ => ⟨rfl, rfl⟩, fun _ _ _ _ _ => ⟨rfl, rfl⟩⟩
  start _ _ := rfl
  send _ _ _ := rfl
  receive _ _ _ := rfl
  finish _ _ _ := rfl
  monitors number monitor hmonitor := by
    match number, hmonitor with
    | 0, hmonitor =>
      cases hmonitor
      exact Monitor.isApart_noting _ _ _ _ _
    | 1, hmonitor =>
      cases hmonitor
      exact Monitor.isApart_noting _ _ _ _ _

/-- Both forks go well though both monitors fail, and the hooks stand around each of them. -/
theorem trial_isolates_watched :
    watched.Isolated thrice (fun _ => ()) id ∧ watched.Validated thrice thriceSettings ∧
    0 < thrice.measuredForks ∧
      ∃ (t : TrialResult) (calls : List (List HookCall)),
        (watched.trial thrice).run.run [] = (.ok t, calls.flatten) ∧
        t.forks.map (·.index.toNat) = [0, 1] ∧ calls.length = 2 ∧
        ∀ fork ∈ calls, HookCall.Bracket [0, 1] true fork := by
  have hvalid : watched.Validated thrice thriceSettings := ⟨_, rfl, rfl⟩
  have hforks : 0 < thrice.measuredForks := by decide
  refine ⟨isolated_watched, hvalid, hforks, ?_⟩
  obtain ⟨calls, hcalls⟩ := (trial_isolates watched isolated_watched).2.1 _ hvalid hforks []
  -- without monitors both forks go well
  have hone : watched.bare.Forked thrice thriceSettings [] [] [diligentFindings 0] [] :=
    Forked.none.next (run_fork_thrice (c := watched.bare) (List.cons_ne_nil _ _) 0 [])
  have htwo : watched.bare.Forked thrice thriceSettings [] []
      [diligentFindings 0, diligentFindings 1] [] :=
    hone.next (run_fork_thrice (c := watched.bare) (List.cons_ne_nil _ _) 1 [])
  have hbare := (run_trial_ok_iff (c := watched.bare) hvalid hforks).2
    ⟨_, [], _, hone, rfl, htwo, rfl, rfl⟩
  have hsame := hcalls.same
  have hwritten := hcalls.written
  have hsucceeded := hcalls.succeeded
  generalize (watched.trial thrice).run.run [] = ended at hsame hwritten hsucceeded ⊢
  obtain ⟨outcome, world⟩ := ended
  rw [hbare] at hsame
  cases hsame with
  | @ok _ t hforks _ =>
    obtain ⟨hcount, hbrackets, -⟩ := hsucceeded t rfl
    obtain rfl : world = calls.flatten := hwritten
    refine ⟨t, calls, rfl, ?_, hcount, hbrackets⟩
    rw [hforks]
    rfl

end Campaign

end Microbench
