import Mathlib.Algebra.Group.Nat.Defs
import Microbench.Engine.Thinning

/-!
# Thinned samples are evenly spaced

After any number of invocations the samples that are kept are those of every
`s`-th invocation, where `s` is the least power of two that leaves fewer samples than
there is room for.

## Main definitions

* `Thinning.IsStride` — the least power of two that leaves few enough samples.
* `Thinning.Spaced` — what is kept after so many invocations.
* `Thinning.rounds` — so many invocations, each offered in its turn.

## Main results

* `Thinning.getElem?_everyOther` — dropping every other sample.
* `Thinning.Spaced.push`, `Thinning.Spaced.skip` — an invocation that is timed, and one that is not.
* `Thinning.Spaced.pos` — after an invocation there is a sample.
* `Thinning.rounds_evenly` — **an evenly spaced and bounded part is kept**, for every capacity and
  after every number of rounds.
-/

namespace Microbench.Thinning

variable {α : Type}

/-- The least power of two such that every so many of `n` samples are fewer than `capacity`. -/
structure IsStride (capacity n stride : Nat) : Prop where
  /-- It is a power of two. -/
  power : ∃ j, stride = 2 ^ j
  /-- The samples are few enough. -/
  few : n / stride < capacity
  /-- No lesser power of two would do. -/
  least : ∀ j, n / 2 ^ j < capacity → stride ≤ 2 ^ j

/-- What is kept after `n` invocations, the `k`-th of which has the sample `item k`. -/
structure Spaced (item : Nat → α) (n : Nat) (t : Thinning α) : Prop where
  /-- There is room for a sample after the others have been thinned out. -/
  roomy : 2 ≤ t.capacity
  /-- All invocations are counted. -/
  seen_eq : t.seen = n
  /-- The samples are as close to each other as there is room for. -/
  stride : IsStride t.capacity n t.stride
  /-- They are the samples of every so many invocations. -/
  samples_eq : t.samples.toList =
    (List.range (n / t.stride)).map fun k => item ((k + 1) * t.stride)

variable {item : Nat → α} {n : Nat} {t : Thinning α}

/-! ### Strides -/

namespace IsStride

variable {capacity stride : Nat}

theorem pos (h : IsStride capacity n stride) : 0 < stride := by
  obtain ⟨j, rfl⟩ := h.power
  exact Nat.two_pow_pos j

/-- The stride remains as long as it leaves few enough samples. -/
theorem succ (h : IsStride capacity n stride) (hfew : (n + 1) / stride < capacity) :
    IsStride capacity (n + 1) stride where
  power := h.power
  few := hfew
  least j hj := h.least j (Nat.lt_of_le_of_lt (Nat.div_le_div_right (Nat.le_succ n)) hj)

/-- It doubles when there are too many. -/
theorem double (h : IsStride capacity n stride) (hpos : 0 < capacity)
    (hmany : (n + 1) / stride = capacity) : IsStride capacity (n + 1) (stride * 2) := by
  refine ⟨?_, ?_, fun j hj => ?_⟩
  · obtain ⟨i, rfl⟩ := h.power
    exact ⟨i + 1, (Nat.pow_succ ..).symm⟩
  · rw [← Nat.div_div_eq_div_mul, hmany]
    exact Nat.div_lt_self hpos Nat.one_lt_two
  · -- a power of two that is greater is at least twice as great
    obtain ⟨i, rfl⟩ := h.power
    have hgreater : i < j := by
      refine Nat.lt_of_not_le fun hle => ?_
      have hdiv : (n + 1) / 2 ^ i ≤ (n + 1) / 2 ^ j :=
        Nat.div_le_div_left (Nat.pow_le_pow_right Nat.two_pos hle) (Nat.two_pow_pos j)
      omega
    rw [← Nat.pow_succ]
    exact Nat.pow_le_pow_right Nat.two_pos hgreater

/-- A stride leaves at least one of the samples there are. -/
theorem div_pos (h : IsStride capacity n stride) (hroomy : 2 ≤ capacity) (hn : 0 < n) :
    0 < n / stride := by
  obtain ⟨j, rfl⟩ := h.power
  cases j with
  | zero => rwa [Nat.pow_zero, Nat.div_one]
  | succ j =>
    -- half of the stride would leave too many
    have hmany : capacity ≤ n / 2 ^ j := by
      refine Nat.le_of_not_lt fun hfew => ?_
      have hleast := h.least j hfew
      rw [Nat.pow_succ] at hleast
      have hpos := Nat.two_pow_pos j
      omega
    rw [Nat.pow_succ, ← Nat.div_div_eq_div_mul]
    omega

end IsStride

/-! ### Dropping every other sample -/

theorem getElem?_everyOther (l : List α) (k : Nat) : (everyOther l)[k]? = l[2 * k + 1]? := by
  induction l using everyOther.induct generalizing k with
  | case1 => rfl
  | case2 a => rfl
  | case3 a b rest ih =>
    cases k with
    | zero => rfl
    | succ k =>
      have hindex : 2 * (k + 1) + 1 = 2 * k + 1 + 1 + 1 := by omega
      rw [everyOther, hindex, List.getElem?_cons_succ, List.getElem?_cons_succ,
        List.getElem?_cons_succ, ih]

theorem everyOther_map_range (f : Nat → α) (m : Nat) :
    everyOther ((List.range m).map f) = (List.range (m / 2)).map fun k => f (2 * k + 1) := by
  refine List.ext_getElem? fun k => ?_
  rw [getElem?_everyOther, List.getElem?_map, List.getElem?_map]
  by_cases hk : k < m / 2
  · rw [List.getElem?_range (by omega), List.getElem?_range hk]
    rfl
  · rw [List.getElem?_eq_none, List.getElem?_eq_none]
    · rfl
    · rw [List.length_range]
      omega
    · rw [List.length_range]
      omega

/-! ### Invocations -/

/-- A sample for which there is room only if others go. -/
theorem push_full {sample : α} (h : t.capacity ≤ t.samples.size + 1) :
    t.push sample = { t with
      samples := (everyOther (t.samples.push sample).toList).toArray, stride := t.stride * 2 } :=
  if_pos (by rwa [Array.size_push])

/-- A sample for which there is room. -/
theorem push_room {sample : α} (h : ¬ t.capacity ≤ t.samples.size + 1) :
    t.push sample = { t with samples := t.samples.push sample } :=
  if_neg (by rwa [Array.size_push])

theorem spaced_ofCapacity (item : Nat → α) (capacity : Nat) :
    (ofCapacity capacity).Spaced item 0 where
  roomy := Nat.le_max_right capacity 2
  seen_eq := rfl
  stride := by
    refine ⟨⟨0, rfl⟩, ?_, fun j _ => Nat.two_pow_pos j⟩
    rw [Nat.zero_div]
    exact Nat.lt_of_lt_of_le Nat.two_pos (Nat.le_max_right capacity 2)
  samples_eq := by
    rw [Nat.zero_div]
    rfl

theorem capacity_push (t : Thinning α) (sample : α) :
    (t.push sample).capacity = t.capacity := by
  unfold push
  dsimp only
  split <;> rfl

theorem snd_offer (t : Thinning α) (sample : α) :
    (t.offer sample).2 = if t.advance.1 then t.advance.2.push sample else t.advance.2 := rfl

theorem capacity_offer (t : Thinning α) (sample : α) :
    (t.offer sample).2.capacity = t.capacity := by
  rw [snd_offer]
  split
  · exact capacity_push ..
  · rfl

namespace Spaced

/-- Whether the next invocation is to be timed. -/
theorem advance_fst (h : t.Spaced item n) :
    t.advance.1 = true ↔ t.stride ∣ n + 1 := by
  rw [advance, h.seen_eq, beq_iff_eq]
  exact (Nat.dvd_iff_mod_eq_zero ..).symm

/-- An invocation that is not timed. -/
theorem skip (h : t.Spaced item n) (hskip : t.advance.1 = false) :
    t.advance.2.Spaced item (n + 1) := by
  have hdvd : ¬ t.stride ∣ n + 1 := fun hdvd => by
    rw [h.advance_fst.2 hdvd] at hskip
    cases hskip
  have hsame : (n + 1) / t.stride = n / t.stride := Nat.succ_div_of_not_dvd hdvd
  refine ⟨h.roomy, congrArg (· + 1) h.seen_eq, h.stride.succ ?_, ?_⟩
  · rw [hsame]
    exact h.stride.few
  · show t.samples.toList = (List.range ((n + 1) / t.stride)).map _
    rw [hsame]
    exact h.samples_eq

/-- An invocation that is timed. -/
theorem push (h : t.Spaced item n) (hwanted : t.advance.1 = true) :
    (t.advance.2.push (item (n + 1))).Spaced item (n + 1) := by
  have hdvd := h.advance_fst.1 hwanted
  have hmore : (n + 1) / t.stride = n / t.stride + 1 := Nat.succ_div_of_dvd hdvd
  have hlast : item ((n / t.stride + 1) * t.stride) = item (n + 1) := by
    rw [← hmore, Nat.div_mul_cancel hdvd]
  -- with the new sample, before any are dropped
  have hsamples : (t.samples.push (item (n + 1))).toList =
      (List.range ((n + 1) / t.stride)).map fun k => item ((k + 1) * t.stride) := by
    rw [Array.toList_push, h.samples_eq, hmore, List.range_succ, List.map_append,
      List.map_singleton, hlast]
  have hsize : t.samples.size + 1 = (n + 1) / t.stride := by
    rw [← Array.size_push (item (n + 1)), ← Array.length_toList, hsamples, List.length_map,
      List.length_range]
  by_cases hfull : t.capacity ≤ t.samples.size + 1
  · have hfew := h.stride.few
    have hmany : (n + 1) / t.stride = t.capacity := by omega
    have hpos : 0 < t.capacity := Nat.lt_of_lt_of_le Nat.two_pos h.roomy
    rw [push_full (t := t.advance.2) hfull]
    refine ⟨h.roomy, congrArg (· + 1) h.seen_eq, h.stride.double hpos hmany, ?_⟩
    dsimp only [advance]
    rw [hsamples, everyOther_map_range, ← Nat.div_div_eq_div_mul]
    refine List.map_congr_left fun k _ => congrArg item ?_
    rw [Nat.mul_comm t.stride 2, ← Nat.mul_assoc]
    exact congrArg (· * t.stride) (by omega)
  · rw [push_room (t := t.advance.2) hfull]
    refine ⟨h.roomy, congrArg (· + 1) h.seen_eq, h.stride.succ ?_, hsamples⟩
    rw [← hsize]
    exact Nat.lt_of_not_le hfull

/-- Only the samples of the invocations there have been matter. -/
theorem congr {item' : Nat → α} (h : t.Spaced item n) (hsame : ∀ k ≤ n, item k = item' k) :
    t.Spaced item' n := by
  refine ⟨h.roomy, h.seen_eq, h.stride, h.samples_eq.trans ?_⟩
  refine List.map_congr_left fun k hk => hsame _ ?_
  exact (Nat.le_div_iff_mul_le h.stride.pos).1 (List.mem_range.1 hk)

theorem size_eq (h : t.Spaced item n) : t.samples.size = n / t.stride := by
  rw [← Array.length_toList, h.samples_eq, List.length_map, List.length_range]

/-- After an invocation there is a sample. -/
theorem pos (h : t.Spaced item n) (hn : 0 < n) : 0 < t.samples.size := by
  rw [h.size_eq]
  exact h.stride.div_pos h.roomy hn

/-- One round: the invocation is counted, and its sample is kept if it is to be timed. -/
theorem offer (h : t.Spaced item n) : (t.offer (item (n + 1))).2.Spaced item (n + 1) := by
  rw [snd_offer]
  cases hwanted : t.advance.1 with
  | false => exact h.skip hwanted
  | true => exact h.push hwanted

end Spaced

/-! ### Rounds -/

/-- So many rounds, in the `k`-th of which an invocation with the sample `item k` is offered. -/
def rounds (item : Nat → α) (t : Thinning α) : Nat → Thinning α
  | 0 => t
  | n + 1 => ((rounds item t n).offer (item (n + 1))).2

theorem capacity_rounds (item : Nat → α) (t : Thinning α) (n : Nat) :
    (t.rounds item n).capacity = t.capacity := by
  induction n with
  | zero => rfl
  | succ n ih => exact (capacity_offer ..).trans ih

theorem spaced_rounds (item : Nat → α) (capacity n : Nat) :
    ((ofCapacity capacity).rounds item n).Spaced item n := by
  induction n with
  | zero => exact spaced_ofCapacity item capacity
  | succ n ih => exact ih.offer

/-- **An evenly spaced and bounded part is kept**: after any number of rounds the samples are those
of every `stride`-th invocation, in their order, where the stride is the least power of two that
leaves fewer of them than the capacity, which is at least two.  So there are always fewer samples
than that, and none only as long as there was no invocation. -/
theorem rounds_evenly (item : Nat → α) (capacity n : Nat) :
    ∃ stride, IsStride (max capacity 2) n stride ∧
      ((ofCapacity capacity).rounds item n).stride = stride ∧
      ((ofCapacity capacity).rounds item n).samples.toList =
        (List.range (n / stride)).map (fun k => item ((k + 1) * stride)) ∧
      ((ofCapacity capacity).rounds item n).samples.size < max capacity 2 ∧
      (((ofCapacity capacity).rounds item n).samples.size = 0 ↔ n = 0) := by
  have hspaced := spaced_rounds item capacity n
  have hcapacity : ((ofCapacity capacity).rounds item n).capacity = max capacity 2 :=
    capacity_rounds item (ofCapacity capacity) n
  have hstride := hcapacity ▸ hspaced.stride
  refine ⟨_, hstride, rfl, hspaced.samples_eq, ?_, fun hnone => ?_, fun hn => ?_⟩
  · rw [hspaced.size_eq]
    exact hstride.few
  · exact Nat.eq_zero_of_not_pos fun hpos => Nat.ne_of_gt (hspaced.pos hpos) hnone
  · rw [hspaced.size_eq, hn, Nat.zero_div]

end Microbench.Thinning
