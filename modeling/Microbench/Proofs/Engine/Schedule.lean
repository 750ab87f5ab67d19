import Microbench.Engine.Prepare
import Microbench.Proofs.Trial.Resolution
import Microbench.Session.Supervisor

/-!
# The schedule of a trial

A trial runs its warmup iterations and then those that count, each phase counted
from zero.  As long as all of them can be counted in 32 bits, the number of finished
iterations tells where a trial is: what its next call does, which iteration that
runs, and what the number is that teardown answers with.

## Main definitions

* `schedule`, `Report.place` — the iterations of a trial in their order, and which one a report is
  of.
* `Lifecycle.reached` — where a trial is after so many iterations.

## Main results

* `getElem?_schedule` — the supervisor expects the iterations of the schedule.
* `iterate_warmup`, `iterate_reached`, `iterate_exhausted`, `tearDown_reached` — the calls at such a
  place.
* `resolve_ok` — what a specification settles.
-/

namespace Microbench

/-- The iterations of a trial in their order, each with its phase and its index. -/
def schedule (warmups measurements : Nat) : List (Phase × UInt32) :=
  (List.range warmups).map (fun i => (.warmup, .ofNat i)) ++
    (List.range measurements).map fun i => (.measurement, .ofNat i)

/-- The place of a report in the schedule. -/
def Report.place (r : Report) : Phase × UInt32 := (r.phase, r.index)

@[simp] theorem length_schedule (w m : Nat) : (schedule w m).length = w + m := by simp [schedule]

namespace Settings

/-- How many iterations a trial has. -/
def total (s : Settings) : Nat := s.warmup.count.toNat + s.measurement.count.toNat

/-- The iterations of a trial. -/
abbrev schedule (s : Settings) : List (Phase × UInt32) :=
  Microbench.schedule s.warmup.count.toNat s.measurement.count.toNat

/-- The total as it is counted. -/
theorem toNat_iterations {s : Settings} (h : s.total ≤ Whole.max32) :
    s.iterations.toNat = s.total := by
  have hmax : Whole.max32 = 4294967295 := rfl
  rw [iterations, UInt32.toNat_add, total]
  rw [total] at h
  omega

/-- The supervisor expects the iterations of the schedule. -/
theorem getElem?_schedule {s : Settings} {n : Nat} (h : n < s.total) :
    s.schedule[n]? = some (Supervisor.position s n) := by
  unfold total at h
  unfold schedule Microbench.schedule Supervisor.position
  by_cases hn : n < s.warmup.count.toNat
  · rw [if_pos hn, List.getElem?_append_left (by simpa using hn)]
    simp [hn]
  · have hrest : n - s.warmup.count.toNat < s.measurement.count.toNat := by omega
    rw [if_neg hn, List.getElem?_append_right (by simpa using hn)]
    simp [hrest]

/-- The schedule from an iteration on begins with that iteration. -/
theorem drop_schedule {s : Settings} {n : Nat} (h : n < s.total) :
    s.schedule.drop n = Supervisor.position s n :: s.schedule.drop (n + 1) := by
  obtain ⟨hlt, hposition⟩ := List.getElem?_eq_some_iff.1 (getElem?_schedule h)
  rw [List.drop_eq_getElem_cons hlt, hposition]

/-- The schedule up to an iteration and that iteration. -/
theorem take_succ_schedule {s : Settings} {n : Nat} (h : n < s.total) :
    s.schedule.take (n + 1) = s.schedule.take n ++ [Supervisor.position s n] := by
  rw [List.take_add_one, getElem?_schedule h]
  rfl

end Settings

/-! ### Where a trial is -/

/-- Where a trial is after so many iterations.  It leaves the warmup only with the first
iteration that counts. -/
def Lifecycle.reached (s : Settings) (n : Nat) : Lifecycle :=
  if n ≤ s.warmup.count.toNat then .warmup (.ofNat n)
  else .measurement (.ofNat (n - s.warmup.count.toNat))

namespace Conductor

variable {m : Type → Type} [Monad m] {c : Conductor m}

theorem reached_zero (s : Settings) : Lifecycle.reached s 0 = .warmup 0 := by
  rw [Lifecycle.reached, if_pos (Nat.zero_le _)]
  rfl

/-- One more in 32 bits. -/
theorem ofNat_succ (n : Nat) : UInt32.ofNat (n + 1) = UInt32.ofNat n + 1 := by
  rw [UInt32.ofNat_add]
  rfl

/-- Within the warmup the next iteration is one of the warmup, however many are to come. -/
theorem iterate_warmup {n : Nat} (hn : n < c.settings.warmup.count.toNat) :
    c.iterate (.reached c.settings n) =
      conclude (.reached c.settings (n + 1)) (c.report .warmup (.ofNat n)) := by
  have hstay : ¬ c.settings.warmup.count ≤ UInt32.ofNat n := by
    have hlt := c.settings.warmup.count.toNat_lt
    rw [UInt32.le_iff_toNat_le, UInt32.toNat_ofNat']
    omega
  rw [Lifecycle.reached, if_pos (by omega), Lifecycle.reached, if_pos (by omega)]
  simp only [iterate, afterWarmup, if_neg hstay, nextIteration?, after, ofNat_succ]

/-- The next iteration of a trial is the one whose turn it is, and leads to the next place. -/
theorem iterate_reached (hfits : c.settings.total ≤ Whole.max32) {n : Nat}
    (hn : n < c.settings.total) :
    c.iterate (.reached c.settings n) =
      conclude (.reached c.settings (n + 1))
        (c.report (Supervisor.position c.settings n).1 (Supervisor.position c.settings n).2) := by
  have hmax : Whole.max32 = 4294967295 := rfl
  unfold Settings.total at hfits hn
  rcases Nat.lt_trichotomy n c.settings.warmup.count.toNat with hlt | heq | hgt
  · -- within the warmup
    have hposition : Supervisor.position c.settings n = (.warmup, .ofNat n) := if_pos hlt
    rw [hposition, iterate_warmup hlt]
  · -- the warmup is used up, which this call notices
    have hposition : Supervisor.position c.settings n = (.measurement, 0) := by
      rw [Supervisor.position, if_neg (by omega), heq, Nat.sub_self]
      rfl
    have hover : c.settings.warmup.count ≤ UInt32.ofNat n := by
      rw [UInt32.le_iff_toNat_le, UInt32.toNat_ofNat']
      omega
    have hnext : (0 : UInt32) < c.settings.measurement.count := by
      rw [UInt32.lt_iff_toNat_lt, UInt32.toNat_zero]
      omega
    have hone : n + 1 - c.settings.warmup.count.toNat = 1 := by omega
    rw [hposition, Lifecycle.reached, if_pos (by omega), Lifecycle.reached, if_neg (by omega),
      hone]
    simp only [iterate, afterWarmup, if_pos hover, nextIteration?, if_pos hnext, after]
    rfl
  · -- among the iterations that count
    have hposition : Supervisor.position c.settings n =
        (.measurement, .ofNat (n - c.settings.warmup.count.toNat)) := if_neg (by omega)
    have hnext : UInt32.ofNat (n - c.settings.warmup.count.toNat) <
        c.settings.measurement.count := by
      rw [UInt32.lt_iff_toNat_lt, UInt32.toNat_ofNat']
      omega
    have hsub : n + 1 - c.settings.warmup.count.toNat =
        n - c.settings.warmup.count.toNat + 1 := by omega
    rw [hposition, Lifecycle.reached, if_neg (by omega), Lifecycle.reached, if_neg (by omega),
      hsub]
    simp only [iterate, afterWarmup, nextIteration?, if_pos hnext, after, ofNat_succ]

/-- After all iterations there is none to run. -/
theorem iterate_exhausted (hfits : c.settings.total ≤ Whole.max32) :
    ∃ f, c.iterate (.reached c.settings c.settings.total) = pure (.error f, .failed) := by
  have hmax : Whole.max32 = 4294967295 := rfl
  unfold Settings.total at hfits ⊢
  have hnone : ¬ UInt32.ofNat c.settings.measurement.count.toNat <
      c.settings.measurement.count := by
    rw [UInt32.lt_iff_toNat_lt, UInt32.toNat_ofNat']
    omega
  by_cases hzero : c.settings.measurement.count.toNat = 0
  · -- the place is still in the warmup, and leaving it leads nowhere
    have hover : c.settings.warmup.count ≤ UInt32.ofNat c.settings.warmup.count.toNat := by
      rw [UInt32.ofNat_toNat]
      exact UInt32.le_refl _
    have hstart : ¬ (0 : UInt32) < c.settings.measurement.count := by
      rw [UInt32.lt_iff_toNat_lt, UInt32.toNat_zero]
      omega
    rw [hzero, Nat.add_zero, Lifecycle.reached, if_pos (Nat.le_refl _)]
    simp only [iterate, afterWarmup, if_pos hover, nextIteration?, if_neg hstart]
    exact ⟨_, rfl⟩
  · rw [Lifecycle.reached, if_neg (by omega), Nat.add_sub_cancel_left]
    simp only [iterate, afterWarmup, nextIteration?, if_neg hnone]
    exact ⟨_, rfl⟩

/-- Teardown answers with the number of iterations that have been run. -/
theorem tearDown_reached (n : Nat) :
    c.tearDown (.reached c.settings n) =
      conclude .done (do c.fixtures .trial .teardown; return .ofNat n) := by
  have hrun : c.iterationsRun? (.reached c.settings n) = some (.ofNat n) := by
    unfold Lifecycle.reached
    split
    · rfl
    · next hgt =>
      have hsum : c.settings.warmup.count + UInt32.ofNat (n - c.settings.warmup.count.toNat) =
          UInt32.ofNat n := by
        rw [← UInt32.toNat_inj, UInt32.toNat_add, UInt32.toNat_ofNat', UInt32.toNat_ofNat']
        omega
      rw [iterationsRun?, hsum]
  rw [tearDown, hrun]

end Conductor

/-! ### What a specification settles -/

/-- How many warmup iterations a specification asks for. -/
def Spec.warmups (s : Spec) : Nat := (s.warmup.iterations.getD Settings.defaultIterations).toNat

/-- How many iterations that count a specification asks for. -/
def Spec.measurements (s : Spec) : Nat :=
  (s.measurement.iterations.getD Settings.defaultIterations).toNat

/-- A specification settles the task and the number of iterations. -/
theorem resolve_ok {s : Spec} {d : Declaration} {settings : Settings}
    (h : Settings.resolve s d = .ok settings) :
    settings.task = s.name ∧ settings.warmup.count.toNat = s.warmups ∧
      settings.measurement.count.toNat = s.measurements := by
  obtain ⟨-, rfl⟩ := Settings.resolve_eq_ok_iff.1 h
  exact ⟨rfl, rfl, rfl⟩

/-- A specification settles the iterations. -/
theorem schedule_of_resolve {s : Spec} {d : Declaration} {settings : Settings}
    (h : Settings.resolve s d = .ok settings) :
    settings.schedule = schedule s.warmups s.measurements ∧
      settings.total = s.warmups + s.measurements := by
  obtain ⟨-, hwarmup, hmeasurement⟩ := resolve_ok h
  rw [Settings.schedule, Settings.total, hwarmup, hmeasurement]
  exact ⟨rfl, rfl⟩

/-- The iterations that a specification settles, as they are counted. -/
theorem toNat_iterations_of_resolve {s : Spec} {d : Declaration} {settings : Settings}
    (h : Settings.resolve s d = .ok settings) (hcount : s.warmups + s.measurements ≤ Whole.max32) :
    settings.iterations.toNat = s.warmups + s.measurements := by
  have htotal := (schedule_of_resolve h).2
  rw [Settings.toNat_iterations (by omega), htotal]

end Microbench
