import Microbench.Proofs.Stats.Pooling

/-!
# Attached metrics

What is found beside the task is attached to the result of an iteration under its
label.  It takes the place of what the task recorded under that label, and when
the iterations are pooled it counts for what it says it is: a metric that claims
to be primary is pooled with the primary ones.  The metrics of the task are pooled as
if nothing had been attached as long as nothing attached has their label or their
role.

## Main definitions

* `attachments` — the last of the metrics attached under each label.

## Main results

* `IterationResult.foldl_addSecondary` — attaching changes nothing but what stands under labels.
* `Totals.ofIterations_attached` — **what becomes of a trial with attached metrics.**
-/

namespace Microbench

variable {α : Type}

/-- The metrics attached to an iteration, the last one of each label. -/
def attachments (extras : List (Metric α)) : Dict (Metric α) :=
  .ofList (extras.map fun m => (m.label, m))

/-- What is attached under a label was handed over with that label. -/
theorem of_get?_attachments {extras : List (Metric α)} {label : String} {m : Metric α}
    (h : (attachments extras).get? label = some m) : m ∈ extras ∧ m.label = label := by
  obtain ⟨m', hm', heq⟩ := List.mem_map.1 (Dict.mem_of_mem_ofList (Dict.mem_of_find h))
  cases heq
  exact ⟨hm', rfl⟩

namespace IterationResult

/-- Attaching changes nothing but what stands under labels. -/
theorem foldl_addSecondary (extras : List (Metric α)) (r : IterationResult α) :
    extras.foldl addSecondary r =
      { r with secondary := extras.foldl (fun d m => d.insert m.label m) r.secondary } := by
  induction extras generalizing r with
  | nil => rfl
  | cons m extras ih => exact ih _

/-- What stands under a label when metrics have been attached. -/
theorem get?_attached (extras : List (Metric α)) (r : IterationResult α) (label : String) :
    (extras.foldl addSecondary r).secondary.get? label =
      ((attachments extras).get? label).or (r.secondary.get? label) := by
  have hfold := Dict.get?_foldl_insert (extras.map fun m => (m.label, m)) r.secondary label
  rw [List.foldl_map] at hfold
  rw [foldl_addSecondary]
  exact hfold

variable [Scalar α] (run : List (List (Metric α))) (extras : List (Metric α))

/-- The primary metric is that of the task. -/
theorem primary_attached :
    (extras.foldl addSecondary (ofThreads run)).primary = (ofThreads run).primary := by
  rw [foldl_addSecondary]

/-- An iteration brings its own primary metric, and all attached ones that claim to be primary. -/
theorem filter_isPrimary_attached :
    (extras.foldl addSecondary (ofThreads run)).metrics.filter Metric.isPrimary =
      (ofThreads run).primary.toList ++ (attachments extras).values.filter Metric.isPrimary := by
  have hown : (ofThreads run).primary.toList.filter Metric.isPrimary =
      (ofThreads run).primary.toList := by
    refine List.filter_eq_self.2 fun m hm => ?_
    exact decide_eq_true (ofThreads_primary (Option.mem_toList.1 hm))
  -- what the task has recorded is not primary, so only what is attached can be
  have hothers : (extras.foldl addSecondary (ofThreads run)).secondary.values.filter
      Metric.isPrimary = (attachments extras).values.filter Metric.isPrimary := by
    refine Dict.filter_values_congr fun label => ?_
    rw [get?_attached]
    cases (attachments extras).get? label with
    | some m => rw [Option.some_or]
    | none =>
      rw [Option.none_or, Option.filter_none, Option.filter_eq_none_iff]
      intro m hm hprimary
      have hrole := (ofThreads_secondary (Dict.mem_of_find hm)).1
      rw [of_decide_eq_true hprimary] at hrole
      cases hrole
  rw [metrics, List.filter_append, hothers, primary_attached, hown]

/-- Under a label an iteration brings what is attached there, if it does not claim to be primary, or
else what the task has recorded. -/
theorem filter_isLabelled_attached (label : String) :
    (extras.foldl addSecondary (ofThreads run)).metrics.filter (Metric.isLabelled label) =
      ((((attachments extras).get? label).or ((ofThreads run).secondary.get? label)).filter
        (·.role = .secondary)).toList := by
  have hown : (ofThreads run).primary.toList.filter (Metric.isLabelled label) = [] := by
    refine List.filter_eq_nil_iff.2 fun m hm hlabelled => ?_
    have hrole := ofThreads_primary (Option.mem_toList.1 hm)
    simp [Metric.isLabelled, hrole] at hlabelled
  have hkeys : ∀ e ∈ (extras.foldl addSecondary (ofThreads run)).secondary.toList,
      e.2.label = e.1 := by
    intro e he
    have hget := Dict.get?_of_mem he
    rw [get?_attached, Option.or_eq_some_iff] at hget
    rcases hget with hattached | ⟨-, hrecorded⟩
    · exact (of_get?_attachments hattached).2
    · exact (ofThreads_secondary (Dict.mem_of_find hrecorded)).2
  have hsplit : Metric.isLabelled (α := α) label =
      fun m => decide (m.role = .secondary) && decide (m.label = label) := rfl
  rw [metrics, List.filter_append, primary_attached, hown, List.nil_append, hsplit,
    ← List.filter_filter, Dict.filter_values _ hkeys, get?_attached, Option.toList_filter]

end IterationResult

namespace Totals

variable [Scalar α]

theorem primary_ofIterations_attached (runs : List (List (List (Metric α)) × List (Metric α))) :
    (ofIterations (runs.map fun run =>
      run.2.foldl IterationResult.addSecondary (.ofThreads run.1))).primary =
      Pooling.iterations.pool (runs.flatMap fun run =>
        (IterationResult.ofThreads run.1).primary.toList ++
          (attachments run.2).values.filter Metric.isPrimary) := by
  refine congrArg Pooling.iterations.pool ?_
  rw [List.flatMap_map, Pooling.primaries, List.filter_flatMap]
  exact congrArg (fun f => runs.flatMap f)
    (funext fun run => IterationResult.filter_isPrimary_attached run.1 run.2)

theorem get?_ofIterations_attached (runs : List (List (List (Metric α)) × List (Metric α)))
    (label : String) :
    (ofIterations (runs.map fun run =>
      run.2.foldl IterationResult.addSecondary (.ofThreads run.1))).secondary.get? label =
      Pooling.iterations.pool (runs.flatMap fun run =>
        ((((attachments run.2).get? label).or
          ((IterationResult.ofThreads run.1).secondary.get? label)).filter
            (·.role = .secondary)).toList) := by
  refine (Pooling.get?_poolAll _ _ _).trans (congrArg Pooling.iterations.pool ?_)
  rw [List.flatMap_map, List.filter_flatMap]
  exact congrArg (fun f => runs.flatMap f)
    (funext fun run => IterationResult.filter_isLabelled_attached run.1 run.2 label)

/-- **What becomes of a trial with attached metrics.**  Its primary metric is pooled from those of
the iterations and from all attached ones that claim to be primary, the last one of each label.
Under a label stands what is pooled from the metrics attached there, and from what the task recorded
in the iterations in which nothing was.  So the primary metric is that of the task if no attached
metric claims to be primary, and what stands under a label is that of the task if nothing is
attached there. -/
theorem ofIterations_attached (runs : List (List (List (Metric α)) × List (Metric α))) :
    let bare := ofIterations (runs.map fun run => .ofThreads run.1)
    let attached :=
      ofIterations (runs.map fun run => run.2.foldl IterationResult.addSecondary (.ofThreads run.1))
    attached.primary = Pooling.iterations.pool (runs.flatMap fun run =>
      (IterationResult.ofThreads run.1).primary.toList ++
        (attachments run.2).values.filter Metric.isPrimary) ∧
    (∀ label, attached.secondary.get? label = Pooling.iterations.pool (runs.flatMap fun run =>
      ((((attachments run.2).get? label).or
        ((IterationResult.ofThreads run.1).secondary.get? label)).filter
          (·.role = .secondary)).toList)) ∧
    ((∀ run ∈ runs, ∀ m ∈ run.2, m.role = .secondary) → attached.primary = bare.primary) ∧
    ∀ label, (∀ run ∈ runs, ∀ m ∈ run.2, m.label ≠ label) →
      attached.secondary.get? label = bare.secondary.get? label := by
  intro bare attached
  have hbare : bare = ofIterations ((runs.map fun run => (run.1, [])).map fun run =>
      run.2.foldl IterationResult.addSecondary (.ofThreads run.1)) := by
    rw [List.map_map]
    rfl
  refine ⟨primary_ofIterations_attached runs, get?_ofIterations_attached runs, fun hroles => ?_,
    fun label hlabels => ?_⟩
  · rw [hbare, primary_ofIterations_attached, primary_ofIterations_attached, List.flatMap_map]
    refine congrArg Pooling.iterations.pool (List.flatMap_congr fun run hrun => ?_)
    have hnone : (attachments run.2).values.filter Metric.isPrimary = [] := by
      refine List.filter_eq_nil_iff.2 fun m hm hprimary => ?_
      obtain ⟨e, he, rfl⟩ := List.mem_map.1 hm
      have hrole := hroles run hrun e.2 (of_get?_attachments (Dict.get?_of_mem he)).1
      rw [of_decide_eq_true hprimary] at hrole
      cases hrole
    rw [hnone]
    rfl
  · rw [hbare, get?_ofIterations_attached, get?_ofIterations_attached, List.flatMap_map]
    refine congrArg Pooling.iterations.pool (List.flatMap_congr fun run hrun => ?_)
    have hnone : (attachments run.2).get? label = none := by
      refine Option.eq_none_iff_forall_ne_some.2 fun m hm => ?_
      obtain ⟨hmem, hlabel⟩ := of_get?_attachments hm
      exact hlabels run hrun m hmem hlabel
    rw [hnone]
    rfl

/-- An iteration with a metric of the task's own label attached to it, and with one that claims to
be primary. -/
def intrudedRuns : List (List (List Metric) × List Metric) :=
  [([[⟨.averageTime, .primary, "alpha", "ns/op", .average, [10]⟩, .scalar "hits" 3 "#" .average]],
    [⟨.scalar, .primary, "·cpu.user", "ms", .average, [1000]⟩, .scalar "hits" 70 "#" .average])]

/-- One thousand milliseconds are pooled with the ten nanoseconds of the task, and the hits of the
task are lost. -/
theorem ofIterations_attached_intruded :
    let bare := ofIterations (intrudedRuns.map fun run => .ofThreads run.1)
    let attached := ofIterations
      (intrudedRuns.map fun run => run.2.foldl IterationResult.addSecondary (.ofThreads run.1))
    bare.primary.map (·.samples) = some [10] ∧ attached.primary.map (·.samples) = some [10, 1000] ∧
      (bare.secondary.get? "hits").map (·.samples) = some [3] ∧
      (attached.secondary.get? "hits").map (·.samples) = some [70] ∧
      attached.secondary.get? "misses" = bare.secondary.get? "misses" := by
  intro bare attached
  obtain ⟨hprimary, hsecondary, -, hsame⟩ := ofIterations_attached intrudedRuns
  refine ⟨rfl, ?_, rfl, ?_, hsame "misses" (by decide)⟩
  · exact (congrArg (Option.map (·.samples)) hprimary).trans rfl
  · exact (congrArg (Option.map (·.samples)) (hsecondary "hits")).trans rfl

end Totals

end Microbench
