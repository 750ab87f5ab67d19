import Microbench.Proofs.Engine.Harvest
import Microbench.Proofs.Engine.Orders
import Microbench.Proofs.Engine.Requests

/-!
# Samples that are not finite

What a task reports or records may be infinite or undefined.  It gets into a work at two
places only, and neither lets it through: an invocation that reports such a value fails, and the
iteration with it, and such a sample is dropped when it is recorded, as if it had not
been.  Whatever is made of the works afterwards only puts samples together; so there
is no such sample in a report, unless a probe has found it.

## Main definitions

* `IterationResult.IsFinite` — what the result of an iteration has of the replies to invocations.

## Main results

* `IterationResult.isFinite_ofWorks` — what works amount to is finite.
* `Conductor.iterate_finite` — **what a task reports or records gets into a report only if it is
  finite.**
-/

namespace Microbench

/-- What the result of an iteration has of the replies to its measured invocations, when the probes
have found these metrics. -/
structure IterationResult.IsFinite (measured : List (List Reply)) (extras : List Metric)
    (result : IterationResult) : Prop where
  /-- No measured invocation has reported a value that is not finite. -/
  invoked : ∀ replies ∈ measured, ∀ reply ∈ replies, reply.outcome.isFinite = true
  /-- The samples of a thread that has reported values are these values, all of them finite. -/
  reported : ∃ parts : List (List Float),
    result.primary.toList.flatMap (·.samples) = parts.flatten ∧
      List.Forall₂ (fun part replies => reportedValues replies ≠ [] →
        part = reportedValues replies ∧ ∀ value ∈ part, Binary.isFinite value = true) parts measured
  /-- Under a label stand the finite samples recorded there, unless a probe has found something. -/
  recorded : ∀ label, (∀ metric ∈ extras, metric.label ≠ label) →
    result.secondary.get? label =
      Metric.ofRecordings? label (recordedUnder label measured.flatten)
  /-- All samples that no probe has found are finite. -/
  finite : ∀ label metric, result.secondary.get? label = some metric →
    metric ∈ extras ∨ ∀ value ∈ metric.samples, Binary.isFinite value = true

/-! ### Finite samples -/

theorem finite_of_mem_reportedValues {replies : List Reply}
    (h : ∀ reply ∈ replies, reply.outcome.isFinite = true) :
    ∀ value ∈ reportedValues replies, Binary.isFinite value = true := by
  intro value hvalue
  obtain ⟨reply, hreply, hreported⟩ := List.mem_filterMap.1 hvalue
  have hfinite := h reply hreply
  unfold Reply.value? at hreported
  split at hreported
  · cases hreported
  · next v houtcome =>
    rw [houtcome] at hfinite
    exact Option.some.inj hreported ▸ hfinite

theorem Metric.finite_ofRecordings? {label : String} {replies : List Reply} {metric : Metric}
    (h : ofRecordings? label (recordedUnder label replies) = some metric) :
    ∀ value ∈ metric.samples, Binary.isFinite value = true := by
  have hsamples := samples_ofRecordings? label (recordedUnder label replies)
  rw [h] at hsamples
  intro value hvalue
  have hmem : value ∈ (recordedUnder label replies).map (·.value) := by
    rw [← hsamples]
    exact List.mem_flatMap.2 ⟨metric, List.mem_singleton_self _, hvalue⟩
  obtain ⟨x, hx, rfl⟩ := List.mem_map.1 hmem
  exact (Bool.and_eq_true_iff.1 (List.mem_filter.1 hx).2).2

namespace IterationResult

variable {s : Settings} {works : List Work} {measured : List (List Reply)}

/-- **What works amount to is finite**, whatever the probes add to it. -/
theorem isFinite_ofWorks
    (h : List.Forall₂ (fun w replies => Work.Holds s.mode replies w) works measured)
    (extras : List Metric) :
    (extras.foldl addSecondary (ofWorks s works)).IsFinite measured extras := by
  have hinvoked : ∀ replies ∈ measured, ∀ reply ∈ replies, reply.outcome.isFinite = true := by
    intro replies hreplies
    obtain ⟨w, -, hholds⟩ := exists_of_forall₂_of_mem h hreplies
    exact hholds.finite
  constructor
  case invoked => exact hinvoked
  case reported =>
    refine ⟨works.map (·.meter.samples s.mode s.unit), ?_, ?_⟩
    · rw [foldl_addSecondary, (primary_ofWorks s works).1, List.flatMap_def]
    · refine List.forall₂_map_left_iff.2 (h.imp fun w replies hholds hsome => ?_)
      rw [hholds.samples_reported s.unit hsome]
      exact ⟨rfl, finite_of_mem_reportedValues hholds.finite⟩
  case recorded =>
    intro label hlabel
    have hextras : (attachments extras).get? label = none := by
      refine Option.eq_none_iff_forall_not_mem.2 fun metric hmetric => ?_
      obtain ⟨hmem, heq⟩ := of_get?_attachments hmetric
      exact hlabel metric hmem heq
    rw [get?_attached, hextras, Option.none_or, get?_ofWorks s h]
  case finite =>
    intro label metric hmetric
    rw [get?_attached, Option.or_eq_some_iff, get?_ofWorks s h] at hmetric
    rcases hmetric with hextra | ⟨-, hrecorded⟩
    · exact .inl (of_get?_attachments hextra).1
    · exact .inr (Metric.finite_ofRecordings? hrecorded)

end IterationResult

/-! ### The next iteration -/

namespace Conductor

variable {σ : Type} {c : Conductor (StateM σ)} {position : Lifecycle} {schedule : List Nat}
  {world : σ}

/-- A report is that of the iteration that was next. -/
theorem reportAlong_of_iterateAlong {r : Report}
    (h : ((c.iterateAlong position schedule).run world).1.1 = .ok r) :
    c.nextIteration? (c.afterWarmup position) = some (r.phase, r.index) ∧
      ((c.reportAlong r.phase r.index schedule).run.run world).1 = .ok r := by
  unfold iterateAlong at h
  dsimp only at h
  split at h
  · next phase index hnext =>
    rcases hrun : (conclude (after phase index) (c.reportAlong phase index schedule)).run world
      with ⟨⟨answer, position'⟩, world'⟩
    rw [hrun] at h
    dsimp only at h
    subst h
    have hreport := congrArg Prod.fst (conclude_ok hrun).2
    obtain ⟨rfl, rfl, -⟩ := report_of_ok hreport
    exact ⟨hnext, hreport⟩
  · cases h

/-- Where there is no report the trial has failed. -/
theorem failed_of_iterateAlong {f : Failure}
    (h : ((c.iterateAlong position schedule).run world).1.1 = .error f) :
    ((c.iterateAlong position schedule).run world).1 = (.error f, .failed) := by
  unfold iterateAlong at h ⊢
  dsimp only at h ⊢
  split at h
  · next phase index hnext =>
    rcases hrun : (conclude (after phase index) (c.reportAlong phase index schedule)).run world
      with ⟨⟨answer, position'⟩, world'⟩
    rw [hrun] at h
    dsimp only at h
    subst h
    rw [conclude_error hrun]
  · cases h
    rfl

/-- **What a task reports or records gets into a report only if it is finite.**  Of any trial,
wherever it stands: the next iteration is run in one of the orders in which its threads can move.
In any of them, if there is a report, no measured invocation has reported a value that is not
finite, and of the samples that the invocations have recorded the report has those that are finite;
and if a measured invocation has reported one that is not, the trial fails. -/
theorem iterate_finite (c : Conductor (StateM σ)) (position : Lifecycle) (world : σ) :
    (∃ schedule, (c.iterate position).run world =
      (c.iterateAlong position schedule).run world) ∧
    ∀ schedule,
      let answer := ((c.iterateAlong position schedule).run world).1
      (∀ r, answer.1 = .ok r →
        c.nextIteration? (c.afterWarmup position) = some (r.phase, r.index) ∧
        ∃ extras, (∀ metric ∈ extras, c.Finds r.phase metric) ∧
          r.result.IsFinite (c.measured r.phase r.index world schedule) extras) ∧
      ∀ phase index, c.nextIteration? (c.afterWarmup position) = some (phase, index) →
        (∃ replies ∈ c.measured phase index world schedule, ∃ reply ∈ replies,
          reply.outcome.isFinite = false) → ∃ f, answer = (.error f, .failed) := by
  refine ⟨exists_iterateAlong position world, fun schedule => ?_⟩
  intro answer
  have hreport : ∀ r, answer.1 = .ok r →
      c.nextIteration? (c.afterWarmup position) = some (r.phase, r.index) ∧
      ∃ extras, (∀ metric ∈ extras, c.Finds r.phase metric) ∧
        r.result.IsFinite (c.measured r.phase r.index world schedule) extras := by
    intro r hr
    obtain ⟨hnext, hr⟩ := reportAlong_of_iterateAlong hr
    obtain ⟨hholds, extras, hresult, hfinds⟩ := works_of_report hr
    exact ⟨hnext, extras, hfinds, hresult ▸ IterationResult.isFinite_ofWorks hholds extras⟩
  refine ⟨hreport, fun phase index hnext ⟨replies, hreplies, reply, hreply, hinfinite⟩ => ?_⟩
  cases hanswer : answer.1 with
  | error f => exact ⟨f, failed_of_iterateAlong hanswer⟩
  | ok r =>
    obtain ⟨hnext', extras, -, hfinite⟩ := hreport r hanswer
    obtain ⟨rfl, rfl⟩ := Prod.mk.inj (Option.some.inj (hnext.symm.trans hnext'))
    rw [hfinite.invoked replies hreplies reply hreply] at hinfinite
    cases hinfinite

/-- A trial of a task that is sounded three times: each time it reports a value and records one. -/
def sounding (reported recorded : List Float) : Conductor (StateM Nat) where
  task :=
    { fixtures := .none
      call
        | .invoke _ => ExceptT.mk <| modifyGet fun n =>
          (.ok { outcome := .reported (reported.getD n 0)
                 recordings := [⟨"depth", recorded.getD n 0, "m", .average⟩] }, n + 1)
        | _ => pure {} }
  settings := { Settings.idle with
    warmup := ⟨.warmup, 0, .invocations 3⟩
    measurement := ⟨.measurement, 1, .invocations 3⟩ }
  host := { now := pure .zero, usage := pure default }

/-- A depth that is not finite is dropped; where it is reported the trial fails. -/
theorem iterate_finite_sounding :
    let schedule := List.replicate 10 0
    let bottomless := Float.ofBits 0x7FF0000000000000
    let lossy := sounding [1, 2, 3] [4, bottomless, 6]
    let broken := sounding [1, bottomless, 3] [4, 5, 6]
    (∃ r, ((lossy.iterateAlong (.warmup 0) schedule).run 0).1.1 = .ok r ∧
      r.result.primary.toList.flatMap (·.samples) = [1, 2, 3] ∧
      r.result.secondary.get? "depth" =
        some ⟨.scalar, .secondary, "depth", "m", .average, [4, 6]⟩) ∧
    ∃ f, ((broken.iterateAlong (.warmup 0) schedule).run 0).1 = (.error f, .failed) := by
  intro schedule bottomless lossy broken
  obtain ⟨hreports, -⟩ := (iterate_finite lossy (.warmup 0) 0).2 schedule
  obtain ⟨-, hfails⟩ := (iterate_finite broken (.warmup 0) 0).2 schedule
  refine ⟨?_, hfails .measurement 0 (by decide +kernel) (by decide +kernel)⟩
  have hok : ((lossy.iterateAlong (.warmup 0) schedule).run 0).1.1.toBool = true := by
    decide +kernel
  cases hanswer : ((lossy.iterateAlong (.warmup 0) schedule).run 0).1.1 with
  | error f =>
    rw [hanswer] at hok
    cases hok
  | ok r =>
    obtain ⟨hnext, extras, hfinds, hfinite⟩ := hreports r hanswer
    have hturn : lossy.nextIteration? (lossy.afterWarmup (.warmup 0)) = some (.measurement, 0) := by
      decide +kernel
    obtain ⟨hphase, hindex⟩ := Prod.mk.inj (Option.some.inj (hnext.symm.trans hturn))
    let replies : List Reply := [⟨.reported 1, [⟨"depth", 4, "m", .average⟩]⟩,
      ⟨.reported 2, [⟨"depth", bottomless, "m", .average⟩]⟩,
      ⟨.reported 3, [⟨"depth", 6, "m", .average⟩]⟩]
    have hmeasured : lossy.measured .measurement 0 0 schedule = [replies] := by decide +kernel
    rw [hphase, hindex, hmeasured] at hfinite
    have hbare : ∀ metric ∈ extras, metric.label ≠ "depth" := by
      intro metric hmetric
      obtain ⟨probe, hprobe, -⟩ := hfinds metric hmetric
      cases hprobe
    refine ⟨r, rfl, ?_, ?_⟩
    · obtain ⟨parts, hsamples, hparts⟩ := hfinite.reported
      obtain ⟨part, rest, hpart, hrest, rfl⟩ := List.forall₂_cons_right_iff.1 hparts
      obtain rfl := List.forall₂_nil_right_iff.1 hrest
      obtain ⟨rfl, -⟩ := hpart (by decide +kernel)
      rw [hsamples]
      decide +kernel
    · have hkept : recordedUnder "depth" replies =
          [⟨"depth", 4, "m", .average⟩, ⟨"depth", 6, "m", .average⟩] := by
        decide +kernel
      rw [hfinite.recorded "depth" hbare, List.flatten_singleton, hkept]
      rfl

end Conductor

end Microbench
