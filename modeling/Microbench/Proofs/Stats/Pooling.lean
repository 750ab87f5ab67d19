import Microbench.Proofs.Dict
import Microbench.Stats.Pooling

/-!
# Pooling keeps the samples

The metrics of threads become those of iterations, and these become those of a
trial.  At both levels the metrics of one label are picked out of all and made one,
so the samples of a trial are found by picking at the first level, scoring an
iteration where its samples must not be taken apart, and putting the iterations one
after the other.

## Main definitions

* `picked`, `gathered`, `scored` — what one label has in an iteration, its samples, and one sample
  for each iteration that has the label.
* `Alike` — metrics as the threads of one trial make them.
* `Pooled` — a trial's metrics hold the samples of its threads.

## Main results

* `get?_poolAll` — pooling by labels is pooling what each label has.
* `pool_pool` — pooling the metrics of one label twice.
* `Totals.ofIterations_pooled` — **pooling neither loses, doubles nor reorders samples.**
-/

namespace Microbench

variable {α : Type} [Scalar α]

/-- The metrics of an iteration that are picked, thread by thread. -/
def picked (pick : Metric α → Bool) (iteration : List (List (Metric α))) : List (Metric α) :=
  iteration.flatten.filter pick

/-- Their samples. -/
def gathered (pick : Metric α → Bool) (iteration : List (List (Metric α))) : List α :=
  (picked pick iteration).flatMap (·.samples)

/-- One sample for each iteration in which there is something to pick. -/
def scored (score : List α → α) (pick : Metric α → Bool)
    (iterations : List (List (List (Metric α)))) : List α :=
  iterations.flatMap fun iteration =>
    if picked pick iteration = [] then [] else [score (gathered pick iteration)]

/-- Whether a metric is what the benchmark is about. -/
def Metric.isPrimary (m : Metric α) : Bool := m.role = .primary

/-- Whether a metric was recorded under a label. -/
def Metric.isLabelled (label : String) (m : Metric α) : Bool :=
  m.role = .secondary && m.label = label

/-- Metrics as the threads of one trial make them: the primary ones are of one kind and label, and
the others are derived numbers, with one policy for each label. -/
structure Alike (kind : MetricKind) (label : String) (policy : String → Policy)
    (metrics : List (Metric α)) : Prop where
  /-- The primary metrics are of one kind and label. -/
  primary : ∀ m ∈ metrics, m.role = .primary → m.kind = kind ∧ m.label = label
  /-- The others are derived numbers. -/
  secondary : ∀ m ∈ metrics, m.role = .secondary → m.kind = .scalar ∧ m.policy = policy m.label

/-- The samples of a trial: those of its threads one after the other, or one for each iteration. -/
def trialSamples (policy : Policy) (pick : Metric α → Bool)
    (iterations : List (List (List (Metric α)))) : List α :=
  match policy with
  | .average => iterations.flatMap (gathered pick)
  | .sum => scored Scalar.sum pick iterations
  | .max => scored Samples.greatest pick iterations

/-- The metrics of a trial hold the samples of its threads. -/
structure Pooled (kind : MetricKind) (label : String) (policy : String → Policy)
    (iterations : List (List (List (Metric α)))) (totals : Totals α) : Prop where
  /-- There is a primary metric if a thread has one. -/
  primary_iff : totals.primary.isSome ↔ ∃ i ∈ iterations, picked Metric.isPrimary i ≠ []
  /-- It is the primary metric of the threads: throughputs add up within an iteration. -/
  primary : ∀ m, totals.primary = some m →
    m.kind = kind ∧ m.role = .primary ∧ m.label = label ∧ m.policy = .average ∧
      m.samples =
        trialSamples (if kind = .throughput then .sum else .average) Metric.isPrimary iterations
  /-- There are exactly the labels under which a thread has recorded something. -/
  labels : ∀ l, totals.secondary.contains l ↔ ∃ i ∈ iterations, picked (Metric.isLabelled l) i ≠ []
  /-- What was recorded under a label keeps the policy of the label. -/
  secondary : ∀ l m, totals.secondary.get? l = some m →
    m.kind = .scalar ∧ m.role = .secondary ∧ m.label = l ∧ m.policy = policy l ∧
      m.samples = trialSamples (policy l) (Metric.isLabelled l) iterations

/-- What a mode measures is pooled by a policy of the mode, not by its own. -/
theorem MetricKind.threadPolicy_of_ne {kind : MetricKind} (h : kind ≠ .scalar) (own : Policy) :
    kind.threadPolicy own = if kind = .throughput then .sum else .average := by
  cases kind with
  | scalar => exact absurd rfl h
  | _ => rfl

theorem MetricKind.iterationPolicy_of_ne {kind : MetricKind} (h : kind ≠ .scalar)
    (own : Policy) : kind.iterationPolicy own = .average := by
  cases kind with
  | scalar => exact absurd rfl h
  | _ => rfl

namespace Alike

omit [Scalar α]

variable {kind : MetricKind} {label l : String} {policy : String → Policy}
  {run : List (List (Metric α))}

theorem picked_isPrimary (h : ∀ thread ∈ run, Alike kind label policy thread) :
    ∀ m ∈ picked Metric.isPrimary run, m.kind = kind ∧ m.label = label ∧ m.role = .primary := by
  intro m hm
  obtain ⟨hin, hpick⟩ := List.mem_filter.1 hm
  obtain ⟨thread, hthread, hmem⟩ := List.mem_flatten.1 hin
  have hrole : m.role = .primary := of_decide_eq_true hpick
  obtain ⟨hkind, hlabel⟩ := (h thread hthread).primary m hmem hrole
  exact ⟨hkind, hlabel, hrole⟩

theorem picked_isLabelled (h : ∀ thread ∈ run, Alike kind label policy thread) :
    ∀ m ∈ picked (Metric.isLabelled l) run,
      m.kind = .scalar ∧ m.policy = policy l ∧ m.role = .secondary ∧ m.label = l := by
  intro m hm
  obtain ⟨hin, hpick⟩ := List.mem_filter.1 hm
  obtain ⟨thread, hthread, hmem⟩ := List.mem_flatten.1 hin
  obtain ⟨hrole, rfl⟩ : m.role = .secondary ∧ m.label = l := by
    simpa [Metric.isLabelled] using hpick
  obtain ⟨hkind, hpolicy⟩ := (h thread hthread).secondary m hmem hrole
  exact ⟨hkind, hpolicy, hrole, rfl⟩

end Alike

namespace Pooling

/-! ### Pooling by labels -/

omit [Scalar α] in
/-- The group of a label holds what was there and what the list has of that label. -/
theorem getD_foldl_alter (ms : List (Metric α)) (groups : Dict (List (Metric α))) (l : String) :
    ((ms.foldl (fun groups m => groups.alter m.label fun group => group.getD [] ++ [m])
      groups).get? l).getD [] = (groups.get? l).getD [] ++ ms.filter (·.label = l) := by
  induction ms generalizing groups with
  | nil => rw [List.foldl_nil, List.filter_nil, List.append_nil]
  | cons m ms ih =>
    rw [List.foldl_cons, ih, Dict.get?_alter]
    by_cases hl : l = m.label
    · rw [if_pos hl, Option.getD_some, ← hl,
        List.filter_cons_of_pos (by rw [hl]; exact decide_eq_true rfl), List.append_assoc]
      rfl
    · rw [if_neg hl, List.filter_cons_of_neg (by simpa using Ne.symm hl)]

omit [Scalar α] in
theorem getD_secondaries (ms : List (Metric α)) (l : String) :
    ((secondaries ms).get? l).getD [] = ms.filter (Metric.isLabelled l) := by
  have hfold := getD_foldl_alter (ms.filter (·.role = .secondary)) .empty l
  rw [secondaries, hfold, Dict.get?_empty, Option.getD_none, List.nil_append, List.filter_filter]
  refine List.filter_congr fun m _ => ?_
  rw [Metric.isLabelled, Bool.and_comm]

/-- **Pooling by labels is pooling what each label has.** -/
theorem get?_poolAll (level : Pooling) (ms : List (Metric α)) (l : String) :
    (level.poolAll ms).2.get? l = level.pool (ms.filter (Metric.isLabelled l)) := by
  rw [poolAll]
  dsimp only
  rw [Dict.get?_ofList_filterMap, ← getD_secondaries]
  cases (secondaries ms).get? l with
  | none => rfl
  | some group => rfl

theorem pool_isSome (level : Pooling) (ms : List (Metric α)) :
    (level.pool ms).isSome ↔ ms ≠ [] := by
  cases ms with
  | nil => simp [pool]
  | cons m ms => simp [pool]

/-- A pooled metric is of the kind, role and label of what was pooled. -/
theorem pool_some {level : Pooling} {ms : List (Metric α)} {m : Metric α}
    (h : level.pool ms = some m) :
    ∃ first ∈ ms, m = { first with
      policy := level.policy first
      samples := ms.flatMap level.share } := by
  cases ms with
  | nil => cases h
  | cons first rest => exact ⟨first, List.mem_cons_self, (Option.some.inj h).symm⟩

theorem share_threads (m : Metric α) : threads.share m = m.samples := by
  cases hpolicy : m.policy <;> simp [share]

/-- The metrics of threads are made one by putting their samples one after the other. -/
theorem samples_pool_threads (ms : List (Metric α)) :
    (threads.pool ms).toList.flatMap (·.samples) = ms.flatMap (·.samples) := by
  cases ms with
  | nil => rfl
  | cons first rest =>
    have hshare : threads.share = fun m : Metric α => m.samples := funext share_threads
    simp [pool, hshare]

/-! ### Pooling twice -/

/-- The metrics of iterations, for what is picked in them. -/
def poolEach (pick : Metric α → Bool) (iterations : List (List (List (Metric α)))) :
    List (Metric α) :=
  iterations.flatMap fun iteration => (threads.pool (picked pick iteration)).toList

/-- What an iteration brings to the trial where all that is picked has one policy. -/
theorem share_pool {policy : Policy} {pick : Metric α → Bool} {iteration : List (List (Metric α))}
    (hpolicy : ∀ m ∈ picked pick iteration, m.kind.threadPolicy m.policy = policy) :
    (threads.pool (picked pick iteration)).toList.flatMap iterations.share =
      trialSamples policy pick [iteration] := by
  cases hpool : threads.pool (picked pick iteration) with
  | none =>
    -- an iteration in which nothing is picked brings nothing, under any policy
    have hempty : picked pick iteration = [] := by
      have hnone := pool_isSome threads (picked pick iteration)
      rw [hpool] at hnone
      simpa using hnone
    cases policy <;> simp [trialSamples, scored, gathered, hempty]
  | some m =>
    obtain ⟨first, hfirst, rfl⟩ := pool_some hpool
    have hsome : picked pick iteration ≠ [] := List.ne_nil_of_mem hfirst
    have hsamples : (picked pick iteration).flatMap threads.share = gathered pick iteration :=
      congrArg (fun f => (picked pick iteration).flatMap f) (funext share_threads)
    have hown : threads.policy first = policy := hpolicy first hfirst
    rw [hown, hsamples]
    cases policy <;> simp [trialSamples, scored, share, Metric.score, hsome]

theorem trialSamples_cons (policy : Policy) (pick : Metric α → Bool)
    (first : List (List (Metric α))) (rest : List (List (List (Metric α)))) :
    trialSamples policy pick (first :: rest) =
      trialSamples policy pick [first] ++ trialSamples policy pick rest := by
  cases policy <;> simp [trialSamples, scored]

/-- **Pooling twice**: what is picked everywhere, with one policy for the threads and one for the
iterations, makes one metric with the samples of the trial. -/
theorem pool_pool (pick : Metric α → Bool) (policy last : Policy)
    {runs : List (List (List (Metric α)))}
    (hpolicy : ∀ run ∈ runs, ∀ m ∈ picked pick run, m.kind.threadPolicy m.policy = policy)
    (hlast : ∀ run ∈ runs, ∀ m ∈ picked pick run, m.kind.iterationPolicy policy = last) :
    ((iterations.pool (poolEach pick runs)).isSome ↔ ∃ run ∈ runs, picked pick run ≠ []) ∧
      ∀ m, iterations.pool (poolEach pick runs) = some m →
        (∃ run ∈ runs, ∃ first ∈ picked pick run,
          m.kind = first.kind ∧ m.role = first.role ∧ m.label = first.label) ∧
        m.policy = last ∧ m.samples = trialSamples policy pick runs := by
  constructor
  · have hmem : poolEach pick runs = [] ↔ ∀ run ∈ runs, picked pick run = [] := by
      rw [poolEach, List.flatMap_eq_nil_iff]
      refine forall₂_congr fun run _ => ?_
      have hnone := pool_isSome threads (picked pick run)
      cases hpool : threads.pool (picked pick run) with
      | none =>
        rw [hpool] at hnone
        simpa using hnone
      | some m =>
        rw [hpool] at hnone
        simpa using hnone
    rw [pool_isSome, Ne, hmem]
    simp only [Classical.not_forall, exists_prop]
  · intro m hm
    obtain ⟨made, hmade, rfl⟩ := pool_some hm
    obtain ⟨run, hrun, hin⟩ := List.mem_flatMap.1 hmade
    obtain ⟨first, hfirst, rfl⟩ := pool_some (Option.mem_toList.1 hin)
    refine ⟨⟨run, hrun, first, hfirst, rfl, rfl, rfl⟩, ?_, ?_⟩
    · have hown : threads.policy first = policy := hpolicy run hrun first hfirst
      exact (congrArg first.kind.iterationPolicy hown).trans (hlast run hrun first hfirst)
    · -- the samples come iteration by iteration
      clear hm hmade hin hfirst hrun hlast
      induction runs with
      | nil => cases policy <;> rfl
      | cons run' rest ih =>
        obtain ⟨hhead, htail⟩ := List.forall_mem_cons.1 hpolicy
        have hrest := ih htail
        dsimp only at hrest ⊢
        rw [trialSamples_cons, ← hrest, ← share_pool hhead, poolEach, List.flatMap_cons,
          List.flatMap_append]
        rfl

end Pooling

namespace IterationResult

/-- A metric beside the primary one stands under its label. -/
theorem ofThreads_secondary {run : List (List (Metric α))} {e : String × Metric α}
    (h : e ∈ (ofThreads run).secondary.toList) : e.2.role = .secondary ∧ e.2.label = e.1 := by
  have hpool : Pooling.threads.pool (picked (Metric.isLabelled e.1) run) = some e.2 := by
    rw [← Dict.get?_of_mem h]
    exact (Pooling.get?_poolAll _ _ _).symm
  obtain ⟨first, hfirst, hmade⟩ := Pooling.pool_some hpool
  have hlabelled := (List.mem_filter.1 hfirst).2
  rw [Metric.isLabelled, Bool.and_eq_true, decide_eq_true_eq, decide_eq_true_eq] at hlabelled
  rw [hmade]
  exact hlabelled

theorem ofThreads_primary {run : List (List (Metric α))} {m : Metric α}
    (h : (ofThreads run).primary = some m) : m.role = .primary := by
  obtain ⟨first, hfirst, rfl⟩ := Pooling.pool_some h
  exact of_decide_eq_true (List.mem_filter.1 hfirst).2

theorem filter_isPrimary (run : List (List (Metric α))) :
    (ofThreads run).metrics.filter Metric.isPrimary =
      (Pooling.threads.pool (picked Metric.isPrimary run)).toList := by
  have hfirst : (ofThreads run).primary.toList.filter Metric.isPrimary =
      (ofThreads run).primary.toList := by
    refine List.filter_eq_self.2 fun m hm => ?_
    exact decide_eq_true (ofThreads_primary (Option.mem_toList.1 hm))
  have hothers : (ofThreads run).secondary.values.filter Metric.isPrimary = [] := by
    refine List.filter_eq_nil_iff.2 fun m hm hprimary => ?_
    obtain ⟨e, he, rfl⟩ := List.mem_map.1 hm
    have hrole := (ofThreads_secondary he).1
    rw [of_decide_eq_true hprimary] at hrole
    cases hrole
  rw [metrics, List.filter_append, hfirst, hothers, List.append_nil]
  rfl

theorem filter_isLabelled (run : List (List (Metric α))) (l : String) :
    (ofThreads run).metrics.filter (Metric.isLabelled l) =
      (Pooling.threads.pool (picked (Metric.isLabelled l) run)).toList := by
  have hfirst : (ofThreads run).primary.toList.filter (Metric.isLabelled l) = [] := by
    refine List.filter_eq_nil_iff.2 fun m hm hlabelled => ?_
    have hrole := ofThreads_primary (Option.mem_toList.1 hm)
    simp [Metric.isLabelled, hrole] at hlabelled
  have hothers : (ofThreads run).secondary.values.filter (Metric.isLabelled l) =
      ((ofThreads run).secondary.get? l).toList := by
    rw [← Dict.filter_values _ fun e he => (ofThreads_secondary he).2]
    refine List.filter_congr fun m hm => ?_
    obtain ⟨e, he, rfl⟩ := List.mem_map.1 hm
    simp [Metric.isLabelled, (ofThreads_secondary he).1]
  rw [metrics, List.filter_append, hfirst, hothers, List.nil_append]
  exact congrArg Option.toList (Pooling.get?_poolAll _ _ _)

end IterationResult

namespace Totals

theorem primary_ofIterations (runs : List (List (List (Metric α)))) :
    (ofIterations (runs.map IterationResult.ofThreads)).primary =
      Pooling.iterations.pool (Pooling.poolEach Metric.isPrimary runs) := by
  have hall : ((runs.map IterationResult.ofThreads).flatMap IterationResult.metrics).filter
      Metric.isPrimary = Pooling.poolEach Metric.isPrimary runs := by
    rw [List.flatMap_map, List.filter_flatMap]
    exact congrArg (fun f => runs.flatMap f) (funext IterationResult.filter_isPrimary)
  exact congrArg Pooling.iterations.pool hall

theorem get?_ofIterations (runs : List (List (List (Metric α)))) (l : String) :
    (ofIterations (runs.map IterationResult.ofThreads)).secondary.get? l =
      Pooling.iterations.pool (Pooling.poolEach (Metric.isLabelled l) runs) := by
  have hall : ((runs.map IterationResult.ofThreads).flatMap IterationResult.metrics).filter
      (Metric.isLabelled l) = Pooling.poolEach (Metric.isLabelled l) runs := by
    rw [List.flatMap_map, List.filter_flatMap]
    exact congrArg (fun f => runs.flatMap f)
      (funext fun run => IterationResult.filter_isLabelled run l)
  exact (Pooling.get?_poolAll _ _ _).trans (congrArg Pooling.iterations.pool hall)

/-- **Pooling neither loses, doubles nor reorders samples.**  A trial has a primary metric if a
thread has one, and one under every label under which a thread has recorded something.  Their
samples are those of the threads, iteration by iteration and thread by thread; only a throughput, a
sum or a maximum has one sample for each iteration, made of all of that iteration. -/
theorem ofIterations_pooled (runs : List (List (List (Metric α)))) {kind : MetricKind}
    {label : String} {policy : String → Policy} (hkind : kind ≠ .scalar)
    (hruns : ∀ run ∈ runs, ∀ thread ∈ run, Alike kind label policy thread) :
    Pooled kind label policy runs (ofIterations (runs.map IterationResult.ofThreads)) := by
  have hprimary := fun run hrun => Alike.picked_isPrimary (hruns run hrun)
  have hlabelled := fun l run hrun => Alike.picked_isLabelled (l := l) (hruns run hrun)
  obtain ⟨hprimaryIff, hprimarySome⟩ := Pooling.pool_pool Metric.isPrimary
    (if kind = .throughput then .sum else .average) .average
    (fun run hrun m hm => by rw [(hprimary run hrun m hm).1, MetricKind.threadPolicy_of_ne hkind])
    (fun run hrun m hm => by
      rw [(hprimary run hrun m hm).1, MetricKind.iterationPolicy_of_ne hkind])
  have hsecondary : ∀ l, _ := fun l => Pooling.pool_pool (Metric.isLabelled l)
    (policy l) (policy l)
    (fun run hrun m hm => by
      obtain ⟨hscalar, hown, -⟩ := hlabelled l run hrun m hm
      rw [hscalar, hown]
      rfl)
    (fun run hrun m hm => by
      rw [(hlabelled l run hrun m hm).1]
      rfl)
  exact {
    primary_iff := by rw [primary_ofIterations]; exact hprimaryIff
    primary := by
      intro m hm
      rw [primary_ofIterations] at hm
      obtain ⟨⟨run, hrun, first, hfirst, hsame, hrole, hlabel⟩, hpolicy, hsamples⟩ :=
        hprimarySome m hm
      obtain ⟨hfirstKind, hfirstLabel, hfirstRole⟩ := hprimary run hrun first hfirst
      exact ⟨hsame.trans hfirstKind, hrole.trans hfirstRole, hlabel.trans hfirstLabel, hpolicy,
        hsamples⟩
    labels := by
      intro l
      rw [Dict.contains, get?_ofIterations]
      exact (hsecondary l).1
    secondary := by
      intro l m hm
      rw [get?_ofIterations] at hm
      obtain ⟨⟨run, hrun, first, hfirst, hsame, hrole, hlabel⟩, hpolicy, hsamples⟩ :=
        (hsecondary l).2 m hm
      obtain ⟨hfirstKind, -, hfirstRole, hfirstLabel⟩ := hlabelled l run hrun first hfirst
      exact ⟨hsame.trans hfirstKind, hrole.trans hfirstRole, hlabel.trans hfirstLabel, hpolicy,
        hsamples⟩ }

/-- Two iterations of which the first has two threads; one thread of each records under a label. -/
def pooledRuns : List (List (List Metric)) :=
  let rate (x : Float) : Metric := ⟨.throughput, .primary, "task", "op/s", .average, [x]⟩
  [[[rate 10, .scalar "hits" 3 "#" .sum], [rate 20]], [[rate 40, .scalar "hits" 5 "#" .sum]]]

/-- Their throughputs and what they record. -/
theorem ofIterations_pooled_rates :
    MetricKind.throughput ≠ .scalar ∧
      (∀ run ∈ pooledRuns, ∀ thread ∈ run, Alike .throughput "task" (fun _ => .sum) thread) ∧
      Pooled .throughput "task" (fun _ => .sum) pooledRuns
        (ofIterations (pooledRuns.map IterationResult.ofThreads)) := by
  have hkind : MetricKind.throughput ≠ .scalar := by decide
  have hall : ∀ run ∈ pooledRuns, ∀ thread ∈ run, ∀ m ∈ thread,
      (m.role = .primary → m.kind = .throughput ∧ m.label = "task") ∧
        (m.role = .secondary → m.kind = .scalar ∧ m.policy = .sum) := by
    decide
  have hruns : ∀ run ∈ pooledRuns, ∀ thread ∈ run,
      Alike .throughput "task" (fun _ => .sum) thread := fun run hrun thread hthread =>
    { primary := fun m hm => (hall run hrun thread hthread m hm).1
      secondary := fun m hm => (hall run hrun thread hthread m hm).2 }
  exact ⟨hkind, hruns, ofIterations_pooled pooledRuns hkind hruns⟩

end Totals

end Microbench
