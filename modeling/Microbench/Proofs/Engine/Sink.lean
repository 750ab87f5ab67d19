import Mathlib.Data.List.Induction
import Mathlib.Data.Nat.ModEq
import Mathlib.Logic.Function.Iterate
import Mathlib.Tactic.Ring
import Microbench.Engine.Sink

/-!
# Stores of a sink are rare but never stop

The `k` lowest bits of the generator run through all their values before one of them comes
again.  So under a mask of `k` bits exactly one of any `2 ^ k` steps is a hit, and as the
mask grows by a bit with every store, the next one comes after twice as many values at the
latest.

## Main definitions

* `Sink.turn` — a step of the generator on natural numbers, of which states are the low bits.
* `Sink.Waits` — how many values it takes until the next store, and between which bounds that is.

## Main results

* `Sink.two_pow_dvd_of_iterate_turn` — **the low bits have the full period.**
* `Sink.Waits.store`, `Sink.Waits.pass` — a value that is stored, and one that is not.
* `Sink.consumeAll_logarithmic` — **how many values are stored**: a logarithm of their number,
  whatever they are.
-/

namespace Microbench.Sink

open Function

/-! ### The generator -/

/-- A step of the generator on natural numbers; the states of a sink are their low bits. -/
def turn (x : ℕ) : ℕ := x * multiplier.toNat + increment.toNat

theorem turn_modEq {m x y : ℕ} (h : x ≡ y [MOD m]) : turn x ≡ turn y [MOD m] :=
  (h.mul_right _).add_right _

theorem iterate_turn_modEq {m x y : ℕ} (h : x ≡ y [MOD m]) (n : ℕ) :
    turn^[n] x ≡ turn^[n] y [MOD m] := by
  induction n generalizing x y with
  | zero => exact h
  | succ n ih => exact ih (turn_modEq h)

/-- Steps of which there is a power of two multiply by a number that is one in its lowest bits, and
add an odd multiple of that power. -/
theorem iterate_turn_two_pow (j : ℕ) :
    ∃ t s : ℕ, ∀ x, turn^[2 ^ j] x = (1 + 2 ^ (j + 2) * t) * x + 2 ^ j * (2 * s + 1) := by
  induction j with
  | zero =>
    -- the multiplier is one more than a multiple of four, and the increment is odd
    refine ⟨multiplier.toNat / 4, increment.toNat / 2, fun x => ?_⟩
    have hmultiplier : multiplier.toNat = 1 + 2 ^ (0 + 2) * (multiplier.toNat / 4) := rfl
    have hincrement : increment.toNat = 2 ^ 0 * (2 * (increment.toNat / 2) + 1) := rfl
    rw [← hmultiplier, ← hincrement, Nat.mul_comm]
    rfl
  | succ j ih =>
    obtain ⟨t, s, hts⟩ := ih
    refine ⟨t + 2 ^ (j + 1) * t * t, s + 2 ^ j * t * (2 * s + 1), fun x => ?_⟩
    rw [Nat.pow_succ, Nat.mul_two, iterate_add_apply, hts, hts]
    ring

/-- So many steps add their number, as far as the lowest bits go. -/
theorem iterate_turn_two_pow_mul (j m x : ℕ) :
    turn^[2 ^ j * m] x ≡ x + 2 ^ j * m [MOD 2 ^ (j + 1)] := by
  induction m with
  | zero => exact Nat.ModEq.refl x
  | succ m ih =>
    obtain ⟨t, s, hts⟩ := iterate_turn_two_pow j
    have honce (y : ℕ) : turn^[2 ^ j] y ≡ y + 2 ^ j [MOD 2 ^ (j + 1)] := by
      have hsplit : turn^[2 ^ j] y = y + 2 ^ j + 2 ^ (j + 1) * (2 * t * y + s) := by
        rw [hts]
        ring
      rw [hsplit]
      exact Nat.add_mul_mod_self_left ..
    calc turn^[2 ^ j * (m + 1)] x
        = turn^[2 ^ j] (turn^[2 ^ j * m] x) := by
          rw [← iterate_add_apply, Nat.mul_succ, Nat.add_comm]
      _ ≡ turn^[2 ^ j * m] x + 2 ^ j [MOD 2 ^ (j + 1)] := honce _
      _ ≡ x + 2 ^ j * m + 2 ^ j [MOD 2 ^ (j + 1)] := ih.add_right _
      _ = x + 2 ^ j * (m + 1) := by rw [Nat.mul_succ, Nat.add_assoc]

/-- **The low bits have the full period**: they are back only after a multiple of as many steps as
they have values. -/
theorem two_pow_dvd_of_iterate_turn {j d x : ℕ} (h : turn^[d] x ≡ x [MOD 2 ^ j]) : 2 ^ j ∣ d := by
  induction j with
  | zero => exact Nat.one_dvd d
  | succ j ih =>
    obtain ⟨m, rfl⟩ := ih (h.of_dvd (Nat.pow_dvd_pow 2 (Nat.le_succ j)))
    -- the next bit has changed with every full turn of those below it
    have hback : x + 2 ^ j * m ≡ x + 0 [MOD 2 ^ (j + 1)] :=
      (iterate_turn_two_pow_mul j m x).symm.trans h
    exact (Nat.modEq_zero_iff_dvd).1 (Nat.ModEq.add_left_cancel' x hback)

/-- When the lowest bits are zero, so is the next one after as many steps as they have values, or
after twice as many. -/
theorem exists_iterate_turn {k x : ℕ} (h : 2 ^ k ∣ x) :
    ∃ wait, 2 ^ k ≤ wait ∧ wait ≤ 2 ^ (k + 1) ∧ 2 ^ (k + 1) ∣ turn^[wait] x := by
  obtain ⟨q, rfl⟩ := h
  have hafter (m : ℕ) (heven : 2 ∣ q + m) : 2 ^ (k + 1) ∣ turn^[2 ^ k * m] (2 ^ k * q) := by
    refine (Nat.modEq_zero_iff_dvd).1 ((iterate_turn_two_pow_mul k m _).trans ?_)
    rw [← Nat.mul_add, Nat.modEq_zero_iff_dvd, Nat.pow_succ]
    exact Nat.mul_dvd_mul_left _ heven
  have hpos := Nat.two_pow_pos k
  have hdouble : 2 ^ (k + 1) = 2 ^ k * 2 := Nat.pow_succ 2 k
  rcases Nat.even_or_odd' q with ⟨r, rfl | rfl⟩
  · exact ⟨2 ^ k * 2, by omega, by omega, hafter 2 (by omega)⟩
  · exact ⟨2 ^ k * 1, by omega, by omega, hafter 1 (by omega)⟩

/-! ### One value -/

variable {s : Sink}

/-- States are the low bits of what the generator does to natural numbers. -/
theorem toNat_next (s : Sink) : s.next.toNat ≡ turn s.state.toNat [MOD 2 ^ 64] := by
  rw [next, UInt64.toNat_add, UInt64.toNat_mul]
  exact (Nat.mod_modEq _ _).trans ((Nat.mod_modEq _ _).add_right _)

/-- What the low bits of the state are after the next step. -/
theorem turn_state {k : ℕ} (hk : k ≤ 64) (s : Sink) (m : ℕ) :
    2 ^ k ∣ turn^[m] s.next.toNat ↔ 2 ^ k ∣ turn^[m + 1] s.state.toNat := by
  have hlow : turn^[m] s.next.toNat ≡ turn^[m + 1] s.state.toNat [MOD 2 ^ k] :=
    iterate_turn_modEq ((toNat_next s).of_dvd (Nat.pow_dvd_pow 2 hk)) m
  exact hlow.dvd_iff (Nat.dvd_refl _)

theorem tick_of_hit (h : s.next &&& s.mask = 0) :
    s.tick = (true,
      { s with state := s.next, mask := (s.mask <<< 1) ||| 1, stores := s.stores + 1 }) :=
  if_pos h

theorem tick_of_miss (h : s.next &&& s.mask ≠ 0) : s.tick = (false, { s with state := s.next }) :=
  if_neg h

theorem consume_of_tick {stored : Bool} {t : Sink} (h : s.tick = (stored, t)) (value : Consumed) :
    s.consume value = if stored then t.keep value else t := by
  rw [consume, h]

/-- A value that is stored. -/
theorem consume_of_hit (h : s.next &&& s.mask = 0) (value : Consumed) :
    (s.consume value).state = s.next ∧ (s.consume value).mask = (s.mask <<< 1) ||| 1 ∧
      (s.consume value).stores = s.stores + 1 := by
  rw [consume_of_tick (tick_of_hit h), if_pos rfl]
  cases value <;> exact ⟨rfl, rfl, rfl⟩

/-- A value that is not stored. -/
theorem consume_of_miss (h : s.next &&& s.mask ≠ 0) (value : Consumed) :
    s.consume value = { s with state := s.next } := by
  rw [consume_of_tick (tick_of_miss h), if_neg Bool.false_ne_true]

/-- Sinks that count alike, whatever values they keep. -/
structure CountsAs (s s' : Sink) : Prop where
  state_eq : s.state = s'.state
  mask_eq : s.mask = s'.mask
  stores_eq : s.stores = s'.stores

/-- What a value is makes no difference to the counting. -/
theorem CountsAs.consume {s' : Sink} (h : s.CountsAs s') (value value' : Consumed) :
    (s.consume value).CountsAs (s'.consume value') := by
  have hnext : s.next = s'.next := by rw [next, next, h.state_eq]
  by_cases hhit : s.next &&& s.mask = 0
  · have hhit' : s'.next &&& s'.mask = 0 := by rwa [← hnext, ← h.mask_eq]
    obtain ⟨hstate, hmask, hstores⟩ := consume_of_hit hhit value
    obtain ⟨hstate', hmask', hstores'⟩ := consume_of_hit hhit' value'
    exact ⟨by rw [hstate, hstate', hnext], by rw [hmask, hmask', h.mask_eq],
      by rw [hstores, hstores', h.stores_eq]⟩
  · have hmiss' : s'.next &&& s'.mask ≠ 0 := by rwa [← hnext, ← h.mask_eq]
    rw [consume_of_miss hhit, consume_of_miss hmiss']
    exact ⟨hnext, h.mask_eq, h.stores_eq⟩

theorem consumeAll_append (s : Sink) (values more : List Consumed) :
    s.consumeAll (values ++ more) = (s.consumeAll values).consumeAll more := by
  rw [consumeAll, List.foldl_append, consumeAll, consumeAll]

theorem consumeAll_cons (s : Sink) (value : Consumed) (rest : List Consumed) :
    s.consumeAll (value :: rest) = (s.consume value).consumeAll rest := by
  rw [consumeAll, List.foldl_cons, consumeAll]

theorem consumeAll_nil (s : Sink) : s.consumeAll [] = s := rfl

theorem CountsAs.consumeAll {s' : Sink} (h : s.CountsAs s') {values values' : List Consumed}
    (hlength : values.length = values'.length) :
    (s.consumeAll values).CountsAs (s'.consumeAll values') := by
  induction values generalizing s s' values' with
  | nil =>
    rw [List.length_eq_zero_iff.1 hlength.symm]
    exact h
  | cons value rest ih =>
    cases values' with
    | nil => cases hlength
    | cons value' rest' =>
      rw [consumeAll_cons, consumeAll_cons]
      exact ih (h.consume value value') (Nat.succ.inj hlength)

theorem stores_le_consume (s : Sink) (value : Consumed) :
    s.stores ≤ (s.consume value).stores := by
  by_cases hhit : s.next &&& s.mask = 0
  · rw [(consume_of_hit hhit value).2.2]
    exact Nat.le_succ _
  · rw [consume_of_miss hhit]

theorem stores_le_consumeAll (s : Sink) (values : List Consumed) :
    s.stores ≤ (s.consumeAll values).stores := by
  induction values generalizing s with
  | nil => exact Nat.le_refl _
  | cons value rest ih =>
    rw [consumeAll_cons]
    exact Nat.le_trans (stores_le_consume s value) (ih _)

/-- Under a mask of the `k` lowest bits a step is a hit if they are all zero. -/
theorem and_mask_eq_zero_iff {k : ℕ} {x mask : UInt64} (h : mask.toNat = 2 ^ k - 1) :
    x &&& mask = 0 ↔ 2 ^ k ∣ x.toNat := by
  rw [← UInt64.toNat_inj, UInt64.toNat_and, h, Nat.and_two_pow_sub_one_eq_mod, UInt64.toNat_zero]
  exact (Nat.dvd_iff_mod_eq_zero ..).symm

/-- The mask grows by one bit. -/
theorem toNat_grown_mask {k : ℕ} {mask : UInt64} (h : mask.toNat = 2 ^ k - 1) (hk : k < 64) :
    ((mask <<< 1) ||| 1).toNat = 2 ^ (k + 1) - 1 := by
  have hlt : 2 ^ k ≤ 2 ^ 63 := Nat.pow_le_pow_right Nat.two_pos (by omega)
  have hpos := Nat.two_pow_pos k
  have hshift : (mask <<< 1).toNat = 2 ^ 1 * (2 ^ k - 1) := by
    rw [UInt64.toNat_shiftLeft, h, UInt64.toNat_one, Nat.shiftLeft_eq,
      Nat.mod_eq_of_lt (Nat.one_lt_ofNat), Nat.mul_comm]
    exact Nat.mod_eq_of_lt (by omega)
  rw [UInt64.toNat_or, hshift, UInt64.toNat_one,
    ← Nat.two_pow_add_eq_or_of_lt Nat.one_lt_two, Nat.pow_succ]
  omega

/-! ### Waiting for the next store -/

/-- How long a sink that has been handed `n` values waits for the next store, and between which
bounds the stores and that wait are. -/
structure Waits (n wait : ℕ) (s : Sink) : Prop where
  /-- The mask has a bit more than there were stores. -/
  mask_eq : s.mask.toNat = 2 ^ (s.stores + 1) - 1
  /-- The wait is not over. -/
  pos : 0 < wait
  /-- It takes no longer than the bits under the mask need for all their values. -/
  le : wait ≤ 2 ^ (s.stores + 1)
  /-- At its end the bits under the mask are zero. -/
  due : 2 ^ (s.stores + 1) ∣ turn^[wait] s.state.toNat
  /-- For `k` stores there were at least `2 ^ k - 1` values. -/
  rare : 2 ^ s.stores ≤ n + 1
  /-- So it will be with the next one. -/
  early : 2 ^ (s.stores + 1) ≤ n + wait + 1
  /-- That one comes with the value `2 ^ (k + 2) - 2` at the latest. -/
  late : n + wait + 2 ≤ 2 ^ (s.stores + 2)

/-- Before the first value. -/
theorem waits_ofSeed (seed : UInt64) : ∃ wait, (ofSeed seed).Waits 0 wait := by
  obtain ⟨wait, hfrom, hto, hdue⟩ := exists_iterate_turn (k := 0) (Nat.one_dvd seed.toNat)
  have hone : 1 ≤ wait := hfrom
  have htwo : wait ≤ 2 := hto
  refine ⟨wait, rfl, hone, htwo, hdue, Nat.le_refl 1, ?_, ?_⟩
  · show 2 ≤ 0 + wait + 1
    omega
  · show 0 + wait + 2 ≤ 4
    omega

namespace Waits

variable {n wait : ℕ}

/-- The value for which the sink has waited is stored, and it starts to wait again. -/
theorem store (h : s.Waits n 1) (hsmall : s.stores < 63) (value : Consumed) :
    (s.consume value).stores = s.stores + 1 ∧
      ∃ wait, (s.consume value).Waits (n + 1) wait := by
  have hdue : 2 ^ (s.stores + 1) ∣ turn^[0] s.next.toNat := (turn_state (by omega) s 0).2 h.due
  rw [iterate_zero, id] at hdue
  have hhit : s.next &&& s.mask = 0 := (and_mask_eq_zero_iff h.mask_eq).2 hdue
  obtain ⟨hstate, hmask, hstores⟩ := consume_of_hit hhit value
  obtain ⟨wait, hfrom, hto, hagain⟩ := exists_iterate_turn hdue
  have hearly := h.early
  have hlate := h.late
  have hpos := Nat.two_pow_pos (s.stores + 1)
  have hdouble : 2 ^ (s.stores + 2) = 2 ^ (s.stores + 1) * 2 := Nat.pow_succ ..
  have hquadruple : 2 ^ (s.stores + 1 + 2) = 2 ^ (s.stores + 2) * 2 := Nat.pow_succ ..
  refine ⟨hstores, wait, ?_, by omega, ?_, ?_, ?_, ?_, ?_⟩
  · rw [hmask, hstores]
    exact toNat_grown_mask h.mask_eq (by omega)
  all_goals rw [hstores]
  · exact hto
  · rwa [hstate]
  all_goals omega

/-- No value is stored before that, and the wait is one value shorter. -/
theorem pass (h : s.Waits n (wait + 2)) (hsmall : s.stores < 63) (value : Consumed) :
    (s.consume value).stores = s.stores ∧ (s.consume value).Waits (n + 1) (wait + 1) := by
  have hdue : 2 ^ (s.stores + 1) ∣ turn^[wait + 1] s.next.toNat :=
    (turn_state (by omega) s (wait + 1)).2 h.due
  have hle := h.le
  have hmiss : s.next &&& s.mask ≠ 0 := fun hhit => by
    -- the low bits would be zero twice within fewer steps than they have values
    have hzero := (and_mask_eq_zero_iff h.mask_eq).1 hhit
    have hback : turn^[wait + 1] s.next.toNat ≡ s.next.toNat [MOD 2 ^ (s.stores + 1)] :=
      ((Nat.modEq_zero_iff_dvd).2 hdue).trans ((Nat.modEq_zero_iff_dvd).2 hzero).symm
    have hperiod := Nat.le_of_dvd (Nat.succ_pos wait) (two_pow_dvd_of_iterate_turn hback)
    omega
  have hrare := h.rare
  have hearly := h.early
  have hlate := h.late
  rw [consume_of_miss hmiss]
  refine ⟨rfl, h.mask_eq, Nat.succ_pos wait, ?_, hdue, ?_, ?_, ?_⟩
  all_goals dsimp only
  all_goals omega

/-- Either way the sink goes on waiting. -/
theorem consume (h : s.Waits n wait) (hsmall : s.stores < 63) (value : Consumed) :
    ∃ wait, (s.consume value).Waits (n + 1) wait := by
  match wait, h with
  | 0, h => exact absurd h.pos (Nat.lt_irrefl 0)
  | 1, h => exact (h.store hsmall value).2
  | _ + 2, h => exact ⟨_, (h.pass hsmall value).2⟩

/-- **The next store comes** when the wait is over, whatever the values are. -/
theorem comes (h : s.Waits n wait) (hsmall : s.stores < 63) {values : List Consumed}
    (hlong : wait ≤ values.length) : s.stores < (s.consumeAll values).stores := by
  induction values generalizing s n wait with
  | nil => exact absurd (Nat.lt_of_lt_of_le h.pos hlong) (Nat.lt_irrefl 0)
  | cons value rest ih =>
    match wait, h with
    | 0, h => exact absurd h.pos (Nat.lt_irrefl 0)
    | 1, h =>
      rw [consumeAll_cons]
      calc s.stores < (s.consume value).stores := by
            rw [(h.store hsmall value).1]
            exact Nat.lt_succ_self _
        _ ≤ ((s.consume value).consumeAll rest).stores := stores_le_consumeAll _ rest
    | wait + 2, h =>
      obtain ⟨hstores, hwaits⟩ := h.pass hsmall value
      rw [consumeAll_cons, ← hstores]
      exact ih hwaits (hstores ▸ hsmall) (Nat.le_of_succ_le_succ hlong)

theorem stores_lt (h : s.Waits n wait) (hfew : n < 2 ^ 63 - 1) : s.stores < 63 := by
  refine (Nat.pow_lt_pow_iff_right Nat.one_lt_two).1 (Nat.lt_of_le_of_lt h.rare ?_)
  omega

end Waits

/-! ### Many values -/

theorem waits_consumeAll (seed : UInt64) {values : List Consumed}
    (hfew : values.length < 2 ^ 63 - 1) :
    ∃ wait, ((ofSeed seed).consumeAll values).Waits values.length wait := by
  induction values using List.reverseRecOn with
  | nil => exact waits_ofSeed seed
  | append_singleton values value ih =>
    rw [List.length_append, List.length_singleton] at hfew ⊢
    obtain ⟨wait, hwaits⟩ := ih (by omega)
    rw [consumeAll_append, consumeAll_cons, consumeAll_nil]
    exact hwaits.consume (hwaits.stores_lt (by omega)) value

/-- **How many values are stored** is the logarithm of how many there are, within a factor of four
before it is taken: stores become rare but never stop, since after `k` of them another one comes
with the next `2 ^ (k + 1)` values.  Only the seed and the number of the values matter, and not what
they are. -/
theorem consumeAll_logarithmic (seed : UInt64) (values : List Consumed)
    (hfew : values.length < 2 ^ 63 - 1) :
    let k := ((ofSeed seed).consumeAll values).stores
    2 ^ k ≤ values.length + 1 ∧ values.length + 2 < 2 ^ (k + 2) ∧
      (∀ more : List Consumed, 2 ^ (k + 1) ≤ more.length →
        k < ((ofSeed seed).consumeAll (values ++ more)).stores) ∧
      ∀ others : List Consumed, others.length = values.length →
        ((ofSeed seed).consumeAll others).stores = k := by
  intro k
  obtain ⟨wait, hwaits⟩ := waits_consumeAll seed hfew
  have hsmall := hwaits.stores_lt hfew
  have hpos := hwaits.pos
  have hlate : values.length + wait + 2 ≤ 2 ^ (k + 2) := hwaits.late
  refine ⟨hwaits.rare, by omega, fun more hmore => ?_, fun others hlength => ?_⟩
  · rw [consumeAll_append]
    exact hwaits.comes hsmall (Nat.le_trans hwaits.le hmore)
  · exact (CountsAs.consumeAll ⟨rfl, rfl, rfl⟩ hlength).stores_eq

/-- Four values of all kinds with the seed 42. -/
theorem consumeAll_logarithmic_mixed :
    let values : List Consumed := [.word 7, .float 2.5, .truth true, .other]
    values.length < 2 ^ 63 - 1 ∧
      let k := ((ofSeed 42).consumeAll values).stores
      k = 1 ∧ 2 ^ k ≤ values.length + 1 ∧ values.length + 2 < 2 ^ (k + 2) ∧
        (∀ more : List Consumed, 2 ^ (k + 1) ≤ more.length →
          k < ((ofSeed 42).consumeAll (values ++ more)).stores) ∧
        ∀ others : List Consumed, others.length = values.length →
          ((ofSeed 42).consumeAll others).stores = k :=
  ⟨by decide, by decide +kernel, consumeAll_logarithmic 42 _ (by decide)⟩

end Microbench.Sink
