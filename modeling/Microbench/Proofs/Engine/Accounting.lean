import Microbench.Proofs.Engine.Layout
import Microbench.Proofs.Engine.Orders

/-!
# What a counted iteration accounts for

In a counted iteration every thread measures the same number of invocations, whoever waits
for whom.  So the report of it can be told in advance: how many threads and invocations
there are, and how many samples.  The samples are those of the works with which the threads
have left their measured part.  If the task reports values they are the samples, in the order of
the threads and of their invocations; otherwise every thread has one sample, or as many as are
left when sampled times are thinned out.

## Main definitions

* `IterationResult.Accounts` — what the result of a counted iteration accounts for.

## Main results

* `IterationResult.accounts_ofWorks` — what works account for.
* `Conductor.report_accounts` — **the report of a counted iteration accounts for all of it.**
-/

namespace Microbench

/-- What the result of an iteration accounts for when so many threads have measured `n` invocations
each, with these replies, and have left with these works. -/
structure IterationResult.Accounts (s : Settings) (n threads : Nat) (measured : List (List Reply))
    (works : List Work) (result : IterationResult) : Prop where
  /-- The threads are counted. -/
  threads_eq : result.threads = threads
  /-- So are the invocations. -/
  operations_eq : result.operations = n * threads
  /-- All threads have measured. -/
  everyone : measured.length = threads
  /-- They have measured what they had to. -/
  invoked : ∀ replies ∈ measured, replies.length = n
  /-- Each of them has left with a work that is known from its replies. -/
  held : List.Forall₂ (fun w replies => w.Holds s.mode replies) works measured
  /-- The samples are those of one work after the other. -/
  samples : ∃ metric, result.primary = some metric ∧
    metric.samples = works.flatMap (·.meter.samples s.mode s.unit)
  /-- If no invocation has reported a value every thread has one sample, or as many as there are
  left of sampled times. -/
  timed : (∀ replies ∈ measured, ∀ reply ∈ replies, reply.outcome = .timed) → ∀ w ∈ works,
    (s.mode ≠ .sampleTime → (w.meter.samples s.mode s.unit).length = 1) ∧
    (s.mode = .sampleTime → ∃ stride, Thinning.IsStride Meter.maxSamples n stride ∧
      (w.meter.samples s.mode s.unit).length = n / stride)
  /-- If all have reported values these are the samples. -/
  reported : ∀ values : List (List Float),
    measured.map (fun replies => replies.map (·.outcome)) =
        values.map (fun own => own.map .reported) →
      ∃ metric, result.primary = some metric ∧ metric.samples = values.flatten

/-! ### What works account for -/

theorem reportedValues_of_timed {replies : List Reply}
    (h : ∀ reply ∈ replies, reply.outcome = .timed) : reportedValues replies = [] := by
  refine List.filterMap_eq_nil_iff.2 fun reply hreply => ?_
  rw [Reply.value?, h reply hreply]

theorem reportedValues_of_reported {replies : List Reply} {values : List Float}
    (h : replies.map (·.outcome) = values.map .reported) : reportedValues replies = values := by
  induction replies generalizing values with
  | nil => rw [List.map_eq_nil_iff.1 h.symm]; rfl
  | cons reply replies ih =>
    cases values with
    | nil => cases h
    | cons value values =>
      obtain ⟨hreply, hreplies⟩ := List.cons.inj h
      dsimp only at hreply
      have hvalue : reply.value? = some value := by
        rw [Reply.value?, hreply]
      rw [reportedValues, List.filterMap_cons_some hvalue]
      exact congrArg (value :: ·) (ih hreplies)

theorem Whole.total_eq_mul {l : List Nat} {n : Nat} (h : ∀ k ∈ l, k = n) :
    total l = n * l.length := by
  induction l with
  | nil => rfl
  | cons k l ih =>
    obtain ⟨rfl, hl⟩ := List.forall_mem_cons.1 h
    rw [total, ih hl, List.length_cons, Nat.mul_succ, Nat.add_comm]

namespace IterationResult

variable {s : Settings} {works : List Work} {measured : List (List Reply)} {n : Nat}

/-- Reported values are the samples. -/
theorem samples_of_reported (hpos : 0 < n)
    (h : List.Forall₂ (fun w replies => Work.Holds s.mode replies w) works measured)
    (hn : ∀ replies ∈ measured, replies.length = n) {values : List (List Float)}
    (hvalues : measured.map (fun replies => replies.map (·.outcome)) =
      values.map fun own => own.map .reported) :
    works.flatMap (·.meter.samples s.mode s.unit) = values.flatten := by
  induction h generalizing values with
  | nil => rw [List.map_eq_nil_iff.1 hvalues.symm]; rfl
  | @cons w replies works measured hholds _ ih =>
    obtain ⟨hlength, hothers⟩ := List.forall_mem_cons.1 hn
    cases values with
    | nil => cases hvalues
    | cons own values =>
      obtain ⟨hown, hrest⟩ := List.cons.inj hvalues
      have hreported := reportedValues_of_reported hown
      have hsome : reportedValues replies ≠ [] := by
        have hsame := congrArg List.length hown
        rw [List.length_map, List.length_map, hlength] at hsame
        rw [hreported]
        exact List.ne_nil_of_length_pos (hsame ▸ hpos)
      rw [List.flatMap_cons, List.flatten_cons, hholds.samples_reported s.unit hsome, hreported,
        ih hothers hrest]

/-- **What works account for** when all threads have measured the same number of invocations. -/
theorem accounts_ofWorks (hpos : 0 < n) (hsome : measured ≠ [])
    (h : List.Forall₂ (fun w replies => Work.Holds s.mode replies w) works measured)
    (hn : ∀ replies ∈ measured, replies.length = n) :
    (ofWorks s works).Accounts s n measured.length measured works := by
  have hholds {w : Work} (hw : w ∈ works) : ∃ replies ∈ measured, w.Holds s.mode replies :=
    exists_of_forall₂_of_mem h.flip hw
  have hinvoked : works.flatMap (·.meter.samples s.mode s.unit) ≠ [] := by
    rw [Ne, Work.flatMap_samples_eq_nil h]
    intro hnone
    obtain ⟨replies, hreplies⟩ := List.exists_mem_of_ne_nil measured hsome
    have hlength := hn replies hreplies
    rw [hnone replies hreplies, List.length_nil] at hlength
    omega
  have hsamples := exists_primary_ofWorks s hinvoked
  constructor
  case threads_eq => rw [threads_ofWorks, h.length_eq]
  case operations_eq =>
    have hall : ∀ k ∈ works.map (·.meter.operations), k = n := by
      intro k hk
      obtain ⟨w, hw, rfl⟩ := List.mem_map.1 hk
      obtain ⟨replies, hreplies, hwork⟩ := hholds hw
      rw [hwork.operations, hn replies hreplies]
    rw [operations_ofWorks, Whole.total_eq_mul hall, List.length_map, h.length_eq]
  case everyone => rfl
  case invoked => exact hn
  case held => exact h
  case samples => exact hsamples
  case timed =>
    intro htimed w hw
    obtain ⟨replies, hreplies, hwork⟩ := hholds hw
    have hlength := hn replies hreplies
    have hown := hwork.length_samples s.unit (reportedValues_of_timed (htimed replies hreplies))
      (List.ne_nil_of_length_pos (hlength ▸ hpos))
    rwa [hlength] at hown
  case reported =>
    intro values hvalues
    obtain ⟨metric, hmetric, hall⟩ := hsamples
    exact ⟨metric, hmetric, hall.trans (samples_of_reported hpos h hn hvalues)⟩

end IterationResult

/-! ### The report of a counted iteration -/

namespace IterationResult.Accounts

variable {s : Settings} {n threads : Nat} {measured : List (List Reply)} {works : List Work}
  {result : IterationResult}

/-- What the probes add to a result does not matter. -/
theorem attach (h : result.Accounts s n threads measured works) (extras : List Metric) :
    (extras.foldl addSecondary result).Accounts s n threads measured works := by
  rw [foldl_addSecondary]
  exact ⟨h.threads_eq, h.operations_eq, h.everyone, h.invoked, h.held, h.samples, h.timed,
    h.reported⟩

end IterationResult.Accounts

namespace Conductor

variable {σ : Type} {c : Conductor (StateM σ)} {phase : Phase} {n : UInt64}

/-- In whatever order its threads have moved, a report of a counted iteration accounts for it. -/
theorem accounts_of_ok (hsettled : c.settings.groups ≠ [] ∧ ∀ g ∈ c.settings.groups, g.threads ≠ 0)
    (hlength : (c.settings.phase phase).length = .invocations n) (hpos : 0 < n.toNat)
    {index : UInt32} {schedule : List Nat} {world : σ} {r : Report}
    (h : ((c.reportAlong phase index schedule).run.run world).1 = .ok r) :
    r.result.Accounts c.settings n.toNat
      (Whole.total ((c.settings.activeThreads index).map UInt32.toNat))
      (c.measured phase index world schedule) (c.works phase index world schedule) := by
  obtain ⟨hholds, extras, hresult, -⟩ := works_of_report h
  obtain ⟨harvests, hbrings⟩ := brings_of_report h
  have hn : ∀ replies ∈ c.measured phase index world schedule, replies.length = n.toNat := by
    rw [hlength] at hbrings
    unfold measured
    rw [hlength]
    exact Round.length_of_mem_measured (nodup_activeSeats index) hbrings
  have hsome := List.length_pos_iff.2 (activeSeats_ne_nil hsettled.1 hsettled.2 index)
  rw [hresult, ← length_activeSeats, ← c.length_measured phase index world schedule]
  rw [← c.length_measured phase index world schedule] at hsome
  exact (IterationResult.accounts_ofWorks hpos (List.length_pos_iff.1 hsome) hholds hn).attach
    extras

/-- **The report of a counted iteration accounts for all of it.**  Of any settled trial, with
scaling or without, and whether or not its threads wait for each other: where nothing goes wrong
there is a report; the iteration is run in one of the orders in which its threads can move; and in
whatever order that is, a report has all active threads, all their invocations, and the samples
of each of them, as many as it has to have. -/
theorem report_accounts (c : Conductor (StateM σ)) {s : Spec} {d : Declaration}
    (hresolve : Settings.resolve s d = .ok c.settings) {phase : Phase} {n : UInt64}
    (hlength : (c.settings.phase phase).length = .invocations n) (index : UInt32) (world : σ) :
    let seen := (c.watched.report phase index).run.run world
    let threads := Whole.total ((c.settings.activeThreads index).map UInt32.toNat)
    (c.report phase index).run.run world = (seen.answer, seen.world) ∧
    (5 ≤ c.patience → (∀ x ∈ seen.log, x.isGood = true) → ∃ r, seen.answer = .ok r) ∧
    (∃ schedule, (c.report phase index).run.run world =
      (c.reportAlong phase index schedule).run.run world) ∧
    ∀ schedule,
      ((∀ x ∈ ((c.watched.reportAlong phase index schedule).run.run world).log, x.isGood = true) →
        ((Round.ofSeats (c.activeSeats index)).reached c.toBench (.invocations n)
          (c.opened (c.asked phase world)) schedule).isOver = true →
        ∃ r, ((c.reportAlong phase index schedule).run.run world).1 = .ok r) ∧
      ∀ r, ((c.reportAlong phase index schedule).run.run world).1 = .ok r →
        r.phase = phase ∧ r.index = index ∧ r.result.Accounts c.settings n.toNat threads
          (c.measured phase index world schedule) (c.works phase index world schedule) := by
  intro seen threads
  obtain ⟨hsome, hoccupied, hpositive⟩ := Settings.isPositive_of_resolve hresolve
  have hpos : 0 < n.toNat := by
    have hphase := hpositive phase
    rwa [hlength] at hphase
  refine ⟨?_, fun hpatience hgood => ?_, exists_reportAlong phase index world,
    fun schedule => ⟨fun hgood hover => ?_, fun r hr => ?_⟩⟩
  · exact Shows.of_tries (c.pairs_watched.report phase index) world
  · have hperforms : Performs False (c.blame 0) (c.watched.report phase index)
        (c.iterationScript (fun _ => n) (phase, index)) :=
      performs_report hpatience hlength False.elim index
    exact (hperforms.soundly world hgood).1
  · exact report_of_good hgood (hlength ▸ hover)
  · obtain ⟨hphase, hindex, -⟩ := report_of_ok hr
    exact ⟨hphase, hindex, accounts_of_ok ⟨hsome, hoccupied⟩ hlength hpos hr⟩

/-- A trial with three threads, one more of which is active in each iteration, of a task that
reports which thread has called it. -/
def ramped : Conductor (StateM Nat) where
  task :=
    { fixtures := .none
      call
        | .invoke seat => pure { outcome := .reported (Float.ofNat seat.index) }
        | _ => pure {} }
  settings := { Settings.idle with
    measurement := ⟨.measurement, 1, .invocations 2⟩
    groups := [⟨Settings.implicitGroup, 3⟩]
    scale := true }
  host := .ticking

/-- The specification of that trial. -/
def rampedSpec : Spec := { Spec.idle with
  threads := some 3
  measurement := { iterations := some 1, batch := some 2 }
  scale := some true }

/-- In its second iteration there are two threads with two invocations each. -/
theorem report_accounts_ramped :
    let schedule := [0, 0, 1, 1, 0, 0, 0, 1, 1, 1, 0, 1, 0, 0, 1, 1]
    Settings.resolve rampedSpec (TaskEntry.idle "idle").declaration = .ok ramped.settings ∧
    (ramped.settings.phase .measurement).length = .invocations 2 ∧
    (∃ r, ((ramped.report .measurement 1).run.run 0).1 = .ok r ∧
      r.result.threads = 2 ∧ r.result.operations = 4) ∧
    ∃ r metric, ((ramped.reportAlong .measurement 1 schedule).run.run 0).1 = .ok r ∧
      r.result.primary = some metric ∧ metric.samples = [0, 0, 1, 1] := by
  intro schedule
  have hresolve : Settings.resolve rampedSpec (TaskEntry.idle "idle").declaration =
      .ok ramped.settings := rfl
  have hlength : (ramped.settings.phase .measurement).length = .invocations 2 := rfl
  obtain ⟨hshows, hends, ⟨order, horder⟩, halong⟩ :=
    report_accounts ramped hresolve hlength 1 0
  have hgood : ∀ x ∈ ((ramped.watched.report .measurement 1).run.run 0).log, x.isGood = true := by
    decide +kernel
  obtain ⟨r, hr⟩ := hends (by decide) hgood
  have hanswer : ((ramped.report .measurement 1).run.run 0).1 = .ok r := by
    rw [hshows, ← hr]
  refine ⟨hresolve, hlength, ⟨r, hanswer, ?_⟩, ?_⟩
  · rw [horder] at hanswer
    obtain ⟨-, -, haccounts⟩ := (halong order).2 r hanswer
    exact ⟨haccounts.threads_eq, haccounts.operations_eq⟩
  · obtain ⟨hends', haccount⟩ := halong schedule
    obtain ⟨r', hr'⟩ := hends' (by decide +kernel) (by decide +kernel)
    obtain ⟨-, -, haccounts⟩ := haccount r' hr'
    obtain ⟨metric, hmetric, hsamples⟩ := haccounts.reported [[0, 0], [1, 1]] (by decide +kernel)
    exact ⟨r', metric, hr', hmetric, hsamples⟩

end Conductor

end Microbench
