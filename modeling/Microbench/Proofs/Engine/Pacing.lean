import Mathlib.Data.Rat.Floor
import Microbench.Engine.Pace
import Microbench.Proofs.Number.Ordered
import Microbench.Proofs.Stats.Exact

/-!
# Paces limit themselves

A timed iteration looks at the clock once a batch.  A look may find any number of operations done
in any time, and neither need have grown since the look before.  Whatever the looks find, the
batches double at most, stay within bounds, and end exactly where the target is reached.

## Main definitions

* `Pace.Look` — what a look at the clock finds.
* `Pace.Course`, `Pace.course` — a pace with the last batch it gave, and how it gets on.
* `Pace.next?` — the next batch by an arithmetic that knows no negative numbers and none beyond
  64 bits.
* `Pace.Course.IsNext`, `Pace.Course.IsLimited` — which batch, and which answer, a look may get.

## Main results

* `Pace.Course.IsKept.after`, `Pace.course_isKept` — a look leaves a course in order, and so do
  all looks one after another.
* `Pace.course_isLimited` — **whatever the looks find, the batches are limited**, and no arithmetic
  goes out of its bounds.
-/

namespace Microbench.Pace

/-- What a look at the clock finds: so many operations done in so much time. -/
structure Look where
  /-- The operations done. -/
  operations : ℕ
  /-- The time taken. -/
  elapsed : Duration

/-- The difference of two spans, unless it is negative. -/
def minus? (a b : Duration) : Option Duration :=
  if b.nanos ≤ a.nanos then some (a.minus b) else none

/-- The product of two numbers, unless it needs more than 64 bits. -/
def times? (m n : ℕ) : Option ℕ := if m * n ≤ Whole.max64 then some (m * n) else none

section
variable (α : Type) [Scalar α]

/-- The next batch and the pace from then on, by an arithmetic that knows no negative numbers and
none beyond 64 bits. -/
def next? (p : Pace) (look : Look) : Option (Option ℕ × Pace) :=
  if p.target.nanos ≤ look.elapsed.nanos then some (none, p)
  else if look.operations = 0 then some (some p.batch, p)
  else do
    let doubled ← times? p.batch 2
    let remaining ← minus? p.target look.elapsed
    let perOperation : α := Scalar.ofCount look.elapsed.nanos / Scalar.ofCount look.operations
    let estimate :=
      if Scalar.less (Scalar.ofCount 0) perOperation then
        Scalar.ceilWhole (Scalar.ofCount remaining.nanos / perOperation)
      else unbounded
    let batch := max 1 (min maxBatch (min doubled estimate))
    some (some batch, { p with batch })

/-- A pace, and the last batch it has given. -/
structure Course where
  /-- The pace. -/
  pace : Pace
  /-- The last batch, one where there has been none. -/
  previous : ℕ := 1

/-- What a look is answered. -/
def Course.answer (c : Course) (look : Look) : Option ℕ :=
  (c.pace.next α look.operations look.elapsed).1

/-- The course after a look. -/
def Course.after (c : Course) (look : Look) : Course where
  pace := (c.pace.next α look.operations look.elapsed).2
  previous := (c.answer α look).getD c.previous

/-- The course to a target after looks one after another. -/
def course (target : Duration) (looks : List Look) : Course :=
  looks.foldl (Course.after α) { pace := { target } }

/-- A batch that a look on the way to a target may be answered with. -/
structure Course.IsNext (target : Duration) (c : Course) (look : Look) (b : ℕ) : Prop where
  pos : 1 ≤ b
  le_max : b ≤ 2 ^ 20
  le_double : b ≤ 2 * c.previous
  /-- As long as nothing is done, the batch stays. -/
  idle : look.operations = 0 → b = c.previous
  /-- What takes no time is doubled. -/
  instant : 0 < look.operations → look.elapsed.nanos = 0 → b = min (2 * c.previous) (2 ^ 20)
  /-- No more is done than is estimated to be left, but for a single operation. -/
  le_estimate : 0 < look.operations → b ≤ max 1 (estimate α target look.operations look.elapsed)

/-- How a look on the way to a target may be answered. -/
structure Course.IsLimited (target : Duration) (c : Course) (look : Look) : Prop where
  /-- There is no further batch exactly where the target is reached. -/
  none_iff : c.answer α look = none ↔ target.nanos ≤ look.elapsed.nanos
  /-- Every batch is within bounds. -/
  isNext : ∀ b, c.answer α look = some b → c.IsNext α target look b
  /-- No difference is negative, and no product needs more than 64 bits. -/
  next?_eq : c.pace.next? α look = some (c.pace.next α look.operations look.elapsed)

/-- The size of a batch, where the target is not yet reached. -/
def size (p : Pace) (look : Look) : ℕ :=
  if look.operations = 0 then p.batch
  else max 1 (min maxBatch (min (p.batch * 2) (estimate α p.target look.operations look.elapsed)))

end

/-- The pace is one to the target, and remembers the last batch, which is within bounds. -/
structure Course.IsKept (target : Duration) (c : Course) : Prop where
  target_eq : c.pace.target = target
  batch_eq : c.pace.batch = c.previous
  pos : 1 ≤ c.previous
  le_max : c.previous ≤ 2 ^ 20

theorem maxBatch_eq : maxBatch = 2 ^ 20 := rfl

/-! ### A look -/

section
variable {α : Type} [Scalar α] {target : Duration} {c : Course} {look : Look}

theorem size_of_idle (p : Pace) (h : look.operations = 0) : p.size α look = p.batch := if_pos h

theorem size_of_busy (p : Pace) (h : 0 < look.operations) : p.size α look =
    max 1 (min maxBatch
      (min (p.batch * 2) (estimate α p.target look.operations look.elapsed))) :=
  if_neg h.ne'

/-- A look finds the target reached or not. -/
theorem Course.look_cases (α : Type) [Scalar α] (c : Course) (look : Look) :
    (c.pace.target.nanos ≤ look.elapsed.nanos ∧ c.answer α look = none ∧ c.after α look = c) ∨
    (look.elapsed.nanos < c.pace.target.nanos ∧ c.answer α look = some (c.pace.size α look) ∧
      c.after α look = ⟨{ c.pace with batch := c.pace.size α look }, c.pace.size α look⟩) := by
  unfold Course.after Course.answer
  rcases Nat.lt_or_ge look.elapsed.nanos c.pace.target.nanos with hunder | hreached
  · rcases Nat.eq_zero_or_pos look.operations with hidle | hbusy
    · rw [next, if_neg hunder.not_ge, if_pos hidle, size_of_idle c.pace hidle]
      exact .inr ⟨hunder, rfl, rfl⟩
    · rw [next, if_neg hunder.not_ge, if_neg hbusy.ne', size_of_busy c.pace hbusy]
      exact .inr ⟨hunder, rfl, rfl⟩
  · rw [next, if_pos hreached]
    exact .inl ⟨hreached, rfl, rfl⟩

namespace Course.IsKept

theorem size_bounds (α : Type) [Scalar α] (h : c.IsKept target) (look : Look) :
    1 ≤ c.pace.size α look ∧ c.pace.size α look ≤ 2 ^ 20 ∧
      c.pace.size α look ≤ 2 * c.previous := by
  have hpos := h.pos
  have hmost := h.le_max
  have hbatch := h.batch_eq
  rcases Nat.eq_zero_or_pos look.operations with hidle | hbusy
  · rw [size_of_idle c.pace hidle]
    omega
  · rw [size_of_busy c.pace hbusy, maxBatch_eq]
    omega

/-- A look leaves the course in order. -/
theorem after (α : Type) [Scalar α] (h : c.IsKept target) (look : Look) :
    (c.after α look).IsKept target := by
  rcases c.look_cases α look with ⟨-, -, hafter⟩ | ⟨-, -, hafter⟩
  · rw [hafter]
    exact h
  · obtain ⟨hpos, hmost, -⟩ := h.size_bounds α look
    rw [hafter]
    exact ⟨h.target_eq, rfl, hpos, hmost⟩

/-- The time that remains is only asked for before the target is reached, and a batch that is
within bounds can be doubled. -/
theorem next?_eq (α : Type) [Scalar α] (h : c.IsKept target) (look : Look) :
    c.pace.next? α look = some (c.pace.next α look.operations look.elapsed) := by
  unfold next? next
  split
  · rfl
  · next hunder =>
    split
    · rfl
    · have hmost := h.le_max
      have hbatch := h.batch_eq
      have hmax : Whole.max64 = 2 ^ 64 - 1 := rfl
      have htimes : times? c.pace.batch 2 = some (c.pace.batch * 2) := if_pos (by omega)
      have hminus : minus? c.pace.target look.elapsed = some (c.pace.target.minus look.elapsed) :=
        if_pos (Nat.le_of_not_le hunder)
      rw [htimes, hminus]
      rfl

-- Floating point and exact arithmetic both take no share of nothing for something.
variable
  (hzero : ∀ n, Scalar.less (Scalar.ofCount 0 : α) (Scalar.ofCount 0 / Scalar.ofCount n) = false)
include hzero

theorem isNext_size (h : c.IsKept target) (look : Look) :
    c.IsNext α target look (c.pace.size α look) := by
  have hmost := h.le_max
  have hpos := h.pos
  have hbatch := h.batch_eq
  obtain ⟨hleast, hgreatest, hdouble⟩ := h.size_bounds α look
  refine ⟨hleast, hgreatest, hdouble, ?idle, ?instant, ?estimated⟩
  case idle =>
    intro hidle
    rw [size_of_idle c.pace hidle, hbatch]
  case instant =>
    intro hbusy hinstant
    have hestimate : estimate α c.pace.target look.operations look.elapsed = 2 ^ 64 - 1 := by
      rw [estimate, hinstant, hzero]
      rfl
    rw [size_of_busy c.pace hbusy, maxBatch_eq, hestimate]
    omega
  case estimated =>
    intro hbusy
    rw [size_of_busy c.pace hbusy, h.target_eq]
    omega

theorem isLimited (h : c.IsKept target) (look : Look) : c.IsLimited α target look := by
  refine ⟨?reached, ?batch, h.next?_eq α look⟩
  case reached =>
    rw [← h.target_eq]
    rcases c.look_cases α look with ⟨hreached, hanswer, -⟩ | ⟨hunder, hanswer, -⟩
    · simp [hanswer, hreached]
    · simp [hanswer, hunder]
  case batch =>
    intro b hb
    rcases c.look_cases α look with ⟨-, hanswer, -⟩ | ⟨-, hanswer, -⟩
    · simp [hanswer] at hb
    · obtain rfl : c.pace.size α look = b := Option.some.inj (hanswer.symm.trans hb)
      exact h.isNext_size hzero look

end Course.IsKept

/-! ### Looks one after another -/

theorem Course.isKept_start (target : Duration) : Course.IsKept target { pace := { target } } :=
  ⟨rfl, rfl, Nat.le_refl 1, Nat.one_le_two_pow⟩

theorem course_isKept (α : Type) [Scalar α] (target : Duration) (looks : List Look) :
    (course α target looks).IsKept target := by
  have hrun : ∀ c : Course, c.IsKept target → (looks.foldl (Course.after α) c).IsKept target := by
    induction looks with
    | nil =>
      intro c h
      exact h
    | cons look looks ih =>
      intro c h
      exact ih (c.after α look) (h.after α look)
  apply hrun
  exact Course.isKept_start target

end

/-! ### Exact arithmetic -/

/-- Where nothing is rounded, the estimate is the least number of operations that would, at the
speed so far, take no less than the time that remains. -/
theorem estimate_eq {K : Type} [Field K] [LinearOrder K] [IsStrictOrderedRing K] [FloorSemiring K]
    {target elapsed : Duration} {operations : ℕ} (hunder : elapsed.nanos ≤ target.nanos)
    (hbusy : 0 < operations) (helapsed : 0 < elapsed.nanos) :
    estimate K target operations elapsed =
      ⌈((target.nanos : K) - elapsed.nanos) * operations / elapsed.nanos⌉₊ := by
  have hless : Scalar.less (Scalar.ofCount 0 : K)
      (Scalar.ofCount elapsed.nanos / Scalar.ofCount operations) = true := by
    rw [Scalar.less_iff, Scalar.ofCount_eq, Nat.cast_zero]
    exact div_pos (Nat.cast_pos.2 helapsed) (Nat.cast_pos.2 hbusy)
  have hremaining : ((target.minus elapsed).nanos : K) = target.nanos - elapsed.nanos :=
    Nat.cast_sub hunder
  rw [estimate, if_pos hless, Scalar.ceilWhole_eq]
  show ⌈((target.minus elapsed).nanos : K) / (elapsed.nanos / operations)⌉₊ = _
  rw [hremaining, div_div_eq_mul_div]

/-- **Batches are limited whatever the looks find**: after any looks, each finding any number of
operations done in any time, the next look ends the iteration exactly where the target is reached,
and otherwise is answered with a batch within bounds.  Where nothing is rounded, the batch is no
greater than what remains to be done at the speed so far, rounded up. -/
theorem course_isLimited (target : Duration) (looks : List Look) (look : Look) :
    (course Float target looks).IsLimited Float target look ∧
    ∀ (K : Type) [Field K] [LinearOrder K] [IsStrictOrderedRing K] [FloorSemiring K],
      (course K target looks).IsLimited K target look ∧
      ∀ b, (course K target looks).answer K look = some b →
        0 < look.operations → 0 < look.elapsed.nanos →
        b ≤ max 1 ⌈((target.nanos : K) - look.elapsed.nanos) * look.operations /
          look.elapsed.nanos⌉₊ := by
  constructor
  · apply (course_isKept Float target looks).isLimited
    intro n
    exact decide_eq_false (Binary.not_zero_lt_zero_div n)
  · intro K _ _ _ _
    have hlimited : (course K target looks).IsLimited K target look :=
      (course_isKept K target looks).isLimited Scalar.not_zero_less_zero_div look
    refine ⟨hlimited, ?_⟩
    intro b hb hbusy helapsed
    have hunder : look.elapsed.nanos ≤ target.nanos := by
      by_contra hover
      rw [hlimited.none_iff.2 (Nat.le_of_not_le hover)] at hb
      cases hb
    rw [← estimate_eq hunder hbusy helapsed]
    exact (hlimited.isNext b hb).le_estimate hbusy

/-- Three operations have taken six nanoseconds of ten, so there is time for two more. -/
theorem course_isLimited_ten :
    (course ℚ ⟨10⟩ [⟨1, ⟨2⟩⟩]).answer ℚ ⟨3, ⟨6⟩⟩ = some 2 ∧
      2 ≤ max 1 ⌈(((10 : ℕ) : ℚ) - (6 : ℕ)) * (3 : ℕ) / (6 : ℕ)⌉₊ := by
  have hanswer : (course ℚ ⟨10⟩ [⟨1, ⟨2⟩⟩]).answer ℚ ⟨3, ⟨6⟩⟩ = some 2 := by
    decide +kernel
  refine ⟨hanswer, ?_⟩
  exact ((course_isLimited ⟨10⟩ [⟨1, ⟨2⟩⟩] ⟨3, ⟨6⟩⟩).2 ℚ).2 2 hanswer (by decide) (by decide)

end Microbench.Pace
