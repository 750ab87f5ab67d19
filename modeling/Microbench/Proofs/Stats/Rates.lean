import Mathlib.Algebra.Order.BigOperators.Group.List
import Mathlib.Data.Rat.Floor
import Microbench.Proofs.Stats.Exact
import Microbench.Proofs.Stats.Pooling

/-!
# Throughputs of several threads

The throughputs of the threads of an iteration are to add up.  A thread has one sample if
the clock measures it, but one for each invocation if these report their own rates, and
its own score is their mean.  What is added up are all samples of all threads, so a thread
counts as often as it has samples, and the sum of the threads' own scores is what
comes out only where each of them has one.

## Main definitions

* `Metric.IsRate` — a throughput as one thread measures it.

## Main results

* `IterationResult.score_ofThreads` — the score of an iteration weighs each thread by its samples.
* `IterationResult.ofThreads_rates` — **when the throughputs of threads add up.**
-/

namespace Microbench

/-- A throughput as one thread measures it. -/
structure Metric.IsRate {α : Type} (m : Metric α) : Prop where
  /-- It counts operations per unit of time. -/
  kind : m.kind = .throughput
  /-- By itself it is as large as its samples are on average. -/
  policy : m.policy = .average
  /-- There is at least one of them. -/
  samples : m.samples ≠ []

variable {K : Type} [Field K] [LinearOrder K] [FloorSemiring K] [IsStrictOrderedRing K]

theorem Metric.IsRate.length_mul_score {m : Metric K} (h : m.IsRate) :
    m.samples.length * m.score = m.samples.sum := by
  have hscore : m.score = Samples.mean m.samples := by
    rw [Metric.score, h.policy]
  rw [hscore, Samples.length_mul_mean]

/-- Positive terms with weights of at least one have the sum of the terms only if every weight is
one. -/
theorem sum_weighted_eq_iff {α : Type} {weight : α → Nat} {value : α → K} {l : List α}
    (hweight : ∀ a ∈ l, 0 < weight a) (hvalue : ∀ a ∈ l, 0 < value a) :
    (l.map fun a => (weight a : K) * value a).sum = (l.map value).sum ↔ ∀ a ∈ l, weight a = 1 := by
  constructor
  · intro heq a ha
    by_contra hne
    have hle : ∀ b ∈ l, value b ≤ weight b * value b := by
      intro b hb
      have hone : (1 : K) ≤ weight b := Nat.one_le_cast.2 (hweight b hb)
      exact le_mul_of_one_le_left (hvalue b hb).le hone
    have hlt : value a < weight a * value a := by
      have hpos := hweight a ha
      have htwo : (1 : K) < weight a := Nat.one_lt_cast.2 (by omega)
      exact lt_mul_of_one_lt_left (hvalue a ha) htwo
    have hsum := List.sum_lt_sum value (fun b => (weight b : K) * value b) hle ⟨a, ha, hlt⟩
    exact hsum.ne' heq
  · intro hone
    refine congrArg List.sum (List.map_congr_left ?_)
    intro a ha
    rw [hone a ha, Nat.cast_one, one_mul]

namespace IterationResult

variable {run : List (List (Metric K))}

/-- The score of an iteration weighs each thread by the number of its samples. -/
theorem score_ofThreads (hrates : ∀ t ∈ picked Metric.isPrimary run, t.IsRate) {m : Metric K}
    (h : (ofThreads run).primary = some m) :
    m.score =
      ((picked Metric.isPrimary run).map fun t => (t.samples.length : K) * t.score).sum := by
  obtain ⟨first, hfirst, hm⟩ := Pooling.pool_some h
  have hpolicy : m.policy = .sum := by
    rw [hm]
    show first.kind.threadPolicy first.policy = .sum
    rw [(hrates first hfirst).kind]
    rfl
  have hsamples : m.samples = ((picked Metric.isPrimary run).map (·.samples)).flatten := by
    rw [hm, ← List.flatMap_def]
    exact congrArg (fun f => (picked Metric.isPrimary run).flatMap f)
      (funext Pooling.share_threads)
  have hown : ∀ t ∈ picked Metric.isPrimary run,
      t.samples.sum = (t.samples.length : K) * t.score := by
    intro t ht
    exact (hrates t ht).length_mul_score.symm
  rw [Metric.score, hpolicy]
  dsimp only
  rw [Scalar.sum_eq, hsamples, List.sum_flatten, List.map_map]
  exact congrArg List.sum (List.map_congr_left hown)

/-- **When the throughputs of threads add up.**  The score of an iteration weighs the own score of
each thread by the number of its samples; where the scores are positive, it is their sum exactly if
each thread has one sample. -/
theorem ofThreads_rates (run : List (List (Metric K))) (hsome : picked Metric.isPrimary run ≠ [])
    (hrates : ∀ t ∈ picked Metric.isPrimary run, t.IsRate) :
    ∃ m, (ofThreads run).primary = some m ∧
      m.score =
        ((picked Metric.isPrimary run).map fun t => (t.samples.length : K) * t.score).sum ∧
      ((∀ t ∈ picked Metric.isPrimary run, 0 < t.score) →
        (m.score = ((picked Metric.isPrimary run).map (·.score)).sum ↔
          ∀ t ∈ picked Metric.isPrimary run, t.samples.length = 1)) := by
  obtain ⟨m, hm⟩ := Option.isSome_iff_exists.1 ((Pooling.pool_isSome .threads _).2 hsome)
  have hscore := score_ofThreads hrates hm
  refine ⟨m, hm, hscore, ?_⟩
  intro hpositive
  rw [hscore]
  refine sum_weighted_eq_iff ?_ hpositive
  intro t ht
  exact List.length_pos_iff.2 (hrates t ht).samples

/-- Two threads, the first of which has reported a rate for each of two invocations. -/
def unevenRun : List (List (Metric ℚ)) :=
  let rate (xs : List ℚ) : Metric ℚ := ⟨.throughput, .primary, "task", "ops/s", .average, xs⟩
  [[rate [10, 10], .scalar "hits" 3 "#" .sum], [rate [20]]]

/-- The threads make ten and twenty operations in a second, and together forty. -/
theorem ofThreads_rates_uneven :
    (∀ t ∈ picked Metric.isPrimary unevenRun, t.IsRate) ∧
      (picked Metric.isPrimary unevenRun).map (·.score) = [10, 20] ∧
      ∃ m, (ofThreads unevenRun).primary = some m ∧ m.score = 40 := by
  have hpicked : picked Metric.isPrimary unevenRun =
      [⟨.throughput, .primary, "task", "ops/s", .average, [10, 10]⟩,
        ⟨.throughput, .primary, "task", "ops/s", .average, [20]⟩] := rfl
  have hrates : ∀ t ∈ picked Metric.isPrimary unevenRun, t.IsRate := by
    rw [hpicked]
    simp only [List.forall_mem_cons, List.not_mem_nil, false_imp_iff, implies_true, and_true]
    exact ⟨⟨rfl, rfl, List.cons_ne_nil _ _⟩, ⟨rfl, rfl, List.cons_ne_nil _ _⟩⟩
  have hscores : (picked Metric.isPrimary unevenRun).map (·.score) = [10, 20] := by
    rw [hpicked]
    simp only [List.map_cons, List.map_nil, Metric.score, Samples.mean_eq]
    norm_num
  have hsome : picked Metric.isPrimary unevenRun ≠ [] := by
    rw [hpicked]
    exact List.cons_ne_nil _ _
  obtain ⟨m, hm, hscore, -⟩ := ofThreads_rates unevenRun hsome hrates
  refine ⟨hrates, hscores, m, hm, ?_⟩
  rw [hscore, hpicked]
  simp only [List.map_cons, List.map_nil, Metric.score, Samples.mean_eq]
  norm_num

end IterationResult

end Microbench
