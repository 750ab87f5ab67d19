import Microbench.Proofs.Engine.Replies
import Microbench.Proofs.Stats.Attachments

/-!
# What an iteration makes of the work of its threads

The result of an iteration is a function of what its threads have measured and
recorded: the samples of the primary metric are those of the threads one after the other, and
under a label stand the finite samples that the threads have recorded there.

## Main definitions

* `IterationResult.ofWorks` — the result that works amount to.
* `Metric.ofRecordings?` — samples recorded under a label as a metric.

## Main results

* `IterationResult.primary_ofWorks`, `IterationResult.get?_ofWorks` — the primary metric of an
  iteration, and what stands under a label.
-/

namespace Microbench

/-- The result of an iteration whose threads have worked like this. -/
def IterationResult.ofWorks (s : Settings) (works : List Work) : IterationResult :=
  { IterationResult.ofThreads (works.map (·.metrics s)) with
    operations := Whole.total (works.map (·.meter.operations)) }

/-- Samples recorded under a label as a metric; the first gives unit and policy. -/
def Metric.ofRecordings? (label : String) : List Recording → Option Metric
  | [] => none
  | first :: rest =>
    some ⟨.scalar, .secondary, label, first.unit, first.policy, (first :: rest).map (·.value)⟩

namespace Metric

theorem samples_ofRecordings? (label : String) (recordings : List Recording) :
    (ofRecordings? label recordings).toList.flatMap (·.samples) = recordings.map (·.value) := by
  cases recordings with
  | nil => rfl
  | cons first rest => simp [ofRecordings?]

/-- What several threads have recorded is pooled as if one had recorded all of it. -/
theorem pool_ofRecordings? (label : String) (groups : List (List Recording)) :
    Pooling.threads.pool (groups.flatMap fun recordings =>
      (ofRecordings? label recordings).toList) = ofRecordings? label groups.flatten := by
  induction groups with
  | nil => rfl
  | cons recordings groups ih =>
    cases recordings with
    | nil => exact ih
    | cons first rest =>
      -- the first thread that has recorded something gives unit and policy
      have hshare : Pooling.threads.share = fun m : Metric => m.samples :=
        funext Pooling.share_threads
      have hothers : (groups.flatMap fun recordings =>
          (ofRecordings? label recordings).toList).flatMap (·.samples) =
            groups.flatten.map (·.value) := by
        rw [List.flatMap_assoc, List.map_flatten, List.flatMap_def]
        congr 1
        exact List.map_congr_left fun recordings _ => samples_ofRecordings? label recordings
      have hsamples := congrArg (((first :: rest).map (·.value)) ++ ·) hothers
      simpa [ofRecordings?, Pooling.pool, hshare, Pooling.policy, MetricKind.threadPolicy]
        using hsamples

end Metric

/-! ### The metrics of one thread -/

/-- Everything that is recorded is recorded beside the primary metric. -/
theorem Recorded.role_of_mem_metrics {r : Recorded} {m : Metric} (h : m ∈ r.metrics) :
    m.role = .secondary := by
  obtain ⟨entry, -, rfl⟩ := List.mem_map.1 h
  rfl

theorem Recorded.filter_metrics (r : Recorded) (label : String) :
    r.metrics.filter (Metric.isLabelled label) = (r.get? label).toList.map fun series =>
      ⟨.scalar, .secondary, label, series.unit, series.policy, series.samples.toList⟩ := by
  let entry (label : String) (series : Series) : Metric :=
    ⟨.scalar, .secondary, label, series.unit, series.policy, series.samples.toList⟩
  have hmetrics : r.metrics = (Dict.map entry r).values := by
    rw [Dict.values, Dict.map, List.map_map]
    rfl
  have hlabel : r.metrics.filter (Metric.isLabelled label) =
      r.metrics.filter (·.label = label) := by
    refine List.filter_congr fun m hm => ?_
    simp [Metric.isLabelled, role_of_mem_metrics hm]
  have hkeys : ∀ e ∈ (Dict.map entry r).toList, e.2.label = e.1 := by
    intro e he
    obtain ⟨e', -, rfl⟩ := List.mem_map.1 he
    rfl
  rw [hlabel, hmetrics, Dict.filter_values _ hkeys, Dict.get?_map]
  cases Dict.get? r label <;> rfl

namespace Work

variable {s : Settings} {w : Work}

theorem filter_isPrimary_metrics (s : Settings) (w : Work) :
    (w.metrics s).filter Metric.isPrimary = (w.meter.primary s).toList := by
  have hown : (w.meter.primary s).toList.filter Metric.isPrimary =
      (w.meter.primary s).toList := by
    refine List.filter_eq_self.2 fun m hm => ?_
    have hprimary := Option.mem_toList.1 hm
    unfold Meter.primary at hprimary
    dsimp only at hprimary
    split at hprimary
    · cases hprimary
    · cases hprimary
      rfl
  have hrecorded : w.recorded.metrics.filter Metric.isPrimary = [] := by
    refine List.filter_eq_nil_iff.2 fun m hm => ?_
    simp [Metric.isPrimary, Recorded.role_of_mem_metrics hm]
  rw [metrics, List.filter_append, hown, hrecorded, List.append_nil]

theorem samples_primary (s : Settings) (w : Work) :
    (w.meter.primary s).toList.flatMap (·.samples) = w.meter.samples s.mode s.unit := by
  unfold Meter.primary
  dsimp only
  split
  · next hempty => exact (List.isEmpty_iff.1 hempty).symm
  · exact List.flatMap_singleton _ _

theorem filter_isLabelled_metrics {mode : Mode} {replies : List Reply} (s : Settings)
    (h : w.Holds mode replies) (label : String) :
    (w.metrics s).filter (Metric.isLabelled label) =
      (Metric.ofRecordings? label (recordedUnder label replies)).toList := by
  have hown : (w.meter.primary s).toList.filter (Metric.isLabelled label) = [] := by
    refine List.filter_eq_nil_iff.2 fun m hm hlabelled => ?_
    have hprimary : m ∈ (w.metrics s).filter Metric.isPrimary := by
      rwa [filter_isPrimary_metrics]
    have hrole := of_decide_eq_true (List.mem_filter.1 hprimary).2
    simp [Metric.isLabelled, hrole] at hlabelled
  rw [metrics, List.filter_append, hown, List.nil_append, Recorded.filter_metrics, h.recorded,
    Recorded.get?_ofReplies]
  cases recordedUnder label replies with
  | nil => rfl
  | cons first rest => simp [Series.ofRecordings?, Metric.ofRecordings?]

/-- Threads have a sample if and only if one of them has invoked. -/
theorem flatMap_samples_eq_nil {mode : Mode} {works : List Work} {replies : List (List Reply)}
    (h : List.Forall₂ (fun w r => Holds mode r w) works replies) (unit : TimeUnit) :
    works.flatMap (·.meter.samples mode unit) = [] ↔ ∀ r ∈ replies, r = [] := by
  induction h with
  | nil => simp
  | cons hholds _ ih =>
    rw [List.flatMap_cons, List.append_eq_nil_iff, List.forall_mem_cons, ih,
      hholds.samples_eq_nil]

end Work

/-! ### The metrics of an iteration -/

namespace IterationResult

variable {works : List Work}

@[simp] theorem threads_ofWorks (s : Settings) (works : List Work) :
    (ofWorks s works).threads = works.length := List.length_map _

@[simp] theorem operations_ofWorks (s : Settings) (works : List Work) :
    (ofWorks s works).operations = Whole.total (works.map (·.meter.operations)) := rfl

theorem picked_ofWorks (s : Settings) (works : List Work) (pick : Metric → Bool) :
    picked pick (works.map (·.metrics s)) = works.flatMap fun w => (w.metrics s).filter pick := by
  rw [picked, List.filter_flatten, List.map_map, List.flatMap_def]
  rfl

/-- **The samples of the primary metric** are those of the threads one after the other, and there is
a primary metric where there is a sample. -/
theorem primary_ofWorks (s : Settings) (works : List Work) :
    (ofWorks s works).primary.toList.flatMap (·.samples) =
      works.flatMap (·.meter.samples s.mode s.unit) ∧
    ((ofWorks s works).primary.isSome ↔
      works.flatMap (·.meter.samples s.mode s.unit) ≠ []) := by
  have hpicked : picked Metric.isPrimary (works.map (·.metrics s)) =
      works.flatMap fun w => (w.meter.primary s).toList := by
    rw [picked_ofWorks]
    exact List.flatMap_congr fun w _ => w.filter_isPrimary_metrics s
  have hprimary : (ofWorks s works).primary =
      Pooling.threads.pool (works.flatMap fun w => (w.meter.primary s).toList) :=
    congrArg Pooling.threads.pool hpicked
  rw [hprimary]
  constructor
  · rw [Pooling.samples_pool_threads, List.flatMap_assoc]
    exact List.flatMap_congr fun w _ => w.samples_primary s
  · rw [Pooling.pool_isSome, not_iff_not, List.flatMap_eq_nil_iff, List.flatMap_eq_nil_iff]
    refine forall₂_congr fun w _ => ?_
    unfold Meter.primary
    dsimp only
    split
    · next hempty => simp [List.isEmpty_iff.1 hempty]
    · next hempty => simpa using hempty

/-- Where there is a sample there is a primary metric with it. -/
theorem exists_primary_ofWorks (s : Settings) {works : List Work}
    (h : works.flatMap (·.meter.samples s.mode s.unit) ≠ []) :
    ∃ metric, (ofWorks s works).primary = some metric ∧
      metric.samples = works.flatMap (·.meter.samples s.mode s.unit) := by
  obtain ⟨hsamples, hsome⟩ := primary_ofWorks s works
  obtain ⟨metric, hmetric⟩ := Option.isSome_iff_exists.1 (hsome.2 h)
  rw [hmetric] at hsamples
  exact ⟨metric, hmetric, (List.flatMap_singleton _ _).symm.trans hsamples⟩

/-- **Under a label** stand the finite samples that the threads have recorded there, one thread
after the other. -/
theorem get?_ofWorks {mode : Mode} {replies : List (List Reply)} (s : Settings)
    (h : List.Forall₂ (fun w r => Work.Holds mode r w) works replies) (label : String) :
    (ofWorks s works).secondary.get? label =
      Metric.ofRecordings? label (recordedUnder label replies.flatten) := by
  have hpool : (ofWorks s works).secondary.get? label =
      Pooling.threads.pool (picked (Metric.isLabelled label) (works.map (·.metrics s))) :=
    Pooling.get?_poolAll _ _ _
  have hpicked : (works.flatMap fun w => (w.metrics s).filter (Metric.isLabelled label)) =
      (replies.map (recordedUnder label)).flatMap fun recordings =>
        (Metric.ofRecordings? label recordings).toList := by
    rw [List.flatMap_map]
    induction h with
    | nil => rfl
    | cons hholds _ ih =>
      rw [List.flatMap_cons, List.flatMap_cons, ih (Pooling.get?_poolAll _ _ _),
        Work.filter_isLabelled_metrics s hholds]
  rw [hpool, picked_ofWorks, hpicked, Metric.pool_ofRecordings?, flatten_map_recordedUnder]

end IterationResult

end Microbench
