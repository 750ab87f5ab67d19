import Mathlib
import Microbench.Proofs.Number.Ordered

/-!
# Quotients of counts

A count below `2 ^ 53` is a floating point number as it is, and the quotient of two counts is
rounded to the nearest number there is.  Rounding may make two quotients equal, but it never
turns them around: of two counts divided by a third, the smaller one has no greater quotient.

Exponent `e` and mantissa `m` of a normal number make up the whole number `e * 2 ^ 52 + m`, which
grows with the number.  It is also the number that rounding keeps in order: a mantissa that is
rounded up to `2 ^ 53` is halved and its exponent grows by one, and the whole number is the same
as before.

## Main definitions

* `Binary.IsNormal` — a positive number with all digits in its mantissa.
* `Binary.roundedQuotient`, `Binary.quotientLevel` — what becomes of the mantissas in a division.

## Main results

* `Binary.IsNormal.le_iff` — normal numbers are ordered as their whole numbers are.
* `Binary.isNormal_ofNat` — a count is a normal number.
* `Binary.IsNormal.div_le_div`, `Binary.ofNat_div_le_ofNat_div` — **division keeps the order.**
-/

namespace Microbench.Binary

open Float.Model (UnpackedFloat Format totalExponent)
open Float.Model.UnpackedFloat

/-- The number is `m * 2 ^ e`, and its mantissa has all of the 53 binary digits. -/
structure IsNormal (x : Float) (m : ℕ) (e : ℤ) : Prop where
  parts : ∃ hm, x.toModel.unpack = .finite .positive m e hm
  least : 2 ^ 52 ≤ m
  most : m < 2 ^ 53

variable {x y z : Float} {m m' : ℕ} {e e' : ℤ}

theorem IsNormal.isNaN_eq (h : IsNormal x m e) : x.isNaN = false := by
  obtain ⟨hm, hparts⟩ := h.parts
  show x.toModel.unpack.isNaN = false
  rw [hparts]
  rfl

theorem IsNormal.place_eq (h : IsNormal x m e) : place x = toLex (1, toLex (e, (m : ℤ))) := by
  obtain ⟨hm, hparts⟩ := h.parts
  rw [place, hparts]
  rfl

theorem IsNormal.le_iff (hx : IsNormal x m e) (hy : IsNormal y m' e') :
    x ≤ y ↔ e * 2 ^ 52 + m ≤ e' * 2 ^ 52 + m' := by
  rw [le_iff_place hx.isNaN_eq hy.isNaN_eq, hx.place_eq, hy.place_eq]
  simp only [Prod.Lex.toLex_le_toLex, lt_self_iff_false, false_or, true_and]
  have := hx.least
  have := hx.most
  have := hy.least
  have := hy.most
  omega

theorem log2_eq (hleast : 2 ^ 52 ≤ m) (hmost : m < 2 ^ 53) : m.log2 = 52 :=
  (Nat.log2_eq_iff (by omega)).2 ⟨hleast, hmost⟩

/-! ### Storing a number -/

/-- The first digit of a mantissa is not stored, since it is known. -/
theorem toNat_append_fraction (hleast : 2 ^ 52 ≤ m) (hmost : m < 2 ^ 53) :
    (1#1 ++ BitVec.ofNat 52 m).toNat = m := by
  rw [BitVec.toNat_append, ← Nat.shiftLeft_add_eq_or_of_lt (BitVec.ofNat 52 m).isLt,
    BitVec.toNat_ofNat]
  show 2 ^ 52 + m % 2 ^ 52 = m
  omega

theorem ofNat_ne_ofNat {k l : ℕ} (hk : k < 2 ^ 11) (hl : l < 2 ^ 11) (h : k ≠ l) :
    BitVec.ofNat 11 k ≠ BitVec.ofNat 11 l := by
  intro heq
  have hnat := congrArg BitVec.toNat heq
  rw [BitVec.toNat_ofNat, BitVec.toNat_ofNat, Nat.mod_eq_of_lt hk, Nat.mod_eq_of_lt hl] at hnat
  exact h hnat

theorem isNormal_pack (hleast : 2 ^ 52 ≤ m) (hmost : m < 2 ^ 53) (hlow : -1074 ≤ e)
    (hhigh : e ≤ 971) (hm : 0 < m) :
    IsNormal (.ofModel (.pack (.finite .positive m e hm))) m e := by
  refine ⟨⟨hm, ?_⟩, hleast, hmost⟩
  show UnpackedFloat.unpack Format.binary64 (UnpackedFloat.pack Format.binary64 _) = _
  have hfield : (e + Format.binary64.exponentBias +
      Format.binary64.mantissaBitsWithoutImplicit).toNat = (e + 1075).toNat := by
    show (e + (1023 : ℕ) + (52 : ℕ)).toNat = _
    omega
  -- The exponents at the two ends stand for zero and for infinity, and this one is at neither.
  have htop : BitVec.ofNat 11 (e + 1075).toNat ≠ -1#11 :=
    ofNat_ne_ofNat (l := 2047) (by omega) (by omega) (by omega)
  have hbottom : BitVec.ofNat 11 (e + 1075).toNat ≠ 0#11 :=
    ofNat_ne_ofNat (l := 0) (by omega) (by omega) (by omega)
  rw [UnpackedFloat.pack]
  simp only [log2_eq hleast hmost, hfield]
  rw [if_neg (by omega), if_pos (by rfl), UnpackedFloat.unpack]
  simp only [unpackMantissa_packComponents, unpackExponent_packComponents,
    unpackSign_packComponents, Sign.ofBitVec_toBitVec]
  rw [if_neg htop, if_neg hbottom]
  congr 1
  · exact toNat_append_fraction hleast hmost
  · rw [BitVec.toNat_ofNat, Nat.mod_eq_of_lt (by omega)]
    show ((e + 1075).toNat : ℤ) - ((1023 : ℕ) + (52 : ℕ)) = e
    omega

/-! ### Rounding a mantissa -/

/-- A mantissa loses the digits that it has too many. -/
theorem shiftToTargetExponent_eq {k : ℕ} (hlog : m.log2 = 52 + k) (hlow : -1074 ≤ e)
    (acc : Accuracy) :
    shiftToTargetExponent Format.binary64 m e acc =
      (ExtendedMantissa.ofMantissaAndAccuracy m acc >>> k, e + k) := by
  have htarget : Format.binary64.targetExponent (totalExponent m e) =
      max ((m.log2 : ℤ) + 1 + e - 53) (-1074) := rfl
  have hshift : (Format.binary64.targetExponent (totalExponent m e) - e).toNat = k := by omega
  rw [shiftToTargetExponent, shiftToExponent, hshift]

theorem shiftToTargetExponent_self (hleast : 2 ^ 52 ≤ m) (hmost : m < 2 ^ 53) (hlow : -1074 ≤ e) :
    shiftToTargetExponent Format.binary64 m e .exact = (⟨m, false, false⟩, e) := by
  have hlog : m.log2 = 52 + 0 := log2_eq hleast hmost
  rw [shiftToTargetExponent_eq hlog hlow, Int.natCast_zero, Int.add_zero]
  rfl

theorem shiftToTargetExponent_two_pow (hlow : -1074 ≤ e) :
    shiftToTargetExponent Format.binary64 (2 ^ 53) e .exact = (⟨2 ^ 52, false, false⟩, e + 1) := by
  have hlog : (2 ^ 53).log2 = 52 + 1 := Nat.log2_two_pow
  rw [shiftToTargetExponent_eq hlog hlow]
  rfl

theorem roundWithAccuracy_eq {acc : Accuracy} {em em' : ExtendedMantissa} {r : ℕ} {e₁ e₂ : ℤ}
    (hdrop : shiftToTargetExponent Format.binary64 m e acc = (em, e₁))
    (hr : em.roundedMantissa = r)
    (hcarry : shiftToTargetExponent Format.binary64 r e₁ .exact = (em', e₂))
    (hpos : 0 < em'.mantissa) :
    roundWithAccuracy Format.binary64 .positive m e acc =
      .finite .positive em'.mantissa e₂ hpos := by
  rw [roundWithAccuracy]
  simp only [hdrop, hr, hcarry, hpos.ne', ↓reduceDIte]

/-- Rounding a mantissa that has `k` digits too many makes a normal number of it, also where the
mantissa is rounded up to `2 ^ 53`. -/
theorem isNormal_round {k r : ℕ} {acc : Accuracy} (hlog : m.log2 = 52 + k)
    (hr : (ExtendedMantissa.ofMantissaAndAccuracy m acc >>> k).roundedMantissa = r)
    (hleast : 2 ^ 52 ≤ r) (hmost : r ≤ 2 ^ 53) (hlow : -1074 ≤ e) (hhigh : e + k ≤ 970) :
    ∃ m₁ e₁,
      IsNormal (.ofModel (.pack (roundWithAccuracy Format.binary64 .positive m e acc))) m₁ e₁ ∧
        e₁ * 2 ^ 52 + m₁ = (e + k) * 2 ^ 52 + r := by
  have hdrop := shiftToTargetExponent_eq hlog hlow acc
  rcases hmost.lt_or_eq with hlt | rfl
  · have hpos : 0 < r := by omega
    rw [roundWithAccuracy_eq hdrop hr (shiftToTargetExponent_self hleast hlt (by omega)) hpos]
    exact ⟨r, e + k, isNormal_pack hleast hlt (by omega) (by omega) _, rfl⟩
  · rw [roundWithAccuracy_eq hdrop hr (shiftToTargetExponent_two_pow (by omega)) (by decide)]
    refine ⟨2 ^ 52, e + k + 1, ?_, by omega⟩
    exact isNormal_pack (Nat.le_refl _) (by decide) (by omega) (by omega) _

theorem shiftRight_exact (m k : ℕ) :
    (⟨m * 2 ^ k, false, false⟩ : ExtendedMantissa) >>> k = ⟨m, false, false⟩ := by
  induction k generalizing m with
  | zero =>
    rw [Nat.pow_zero, Nat.mul_one]
    rfl
  | succ k ih =>
    show ((⟨m * 2 ^ (k + 1), false, false⟩ : ExtendedMantissa) >>> k).shiftRightOne = _
    rw [Nat.pow_succ', ← Nat.mul_assoc, ih]
    simp [ExtendedMantissa.shiftRightOne]

theorem log2_mul_two_pow (hleast : 2 ^ 52 ≤ m) (hmost : m < 2 ^ 53) (k : ℕ) :
    (m * 2 ^ k).log2 = 52 + k := by
  have hpos := Nat.two_pow_pos k
  rw [Nat.log2_eq_iff (Nat.mul_ne_zero (by omega) hpos.ne'), Nat.add_right_comm, Nat.pow_add,
    Nat.pow_add]
  exact ⟨Nat.mul_le_mul_right _ hleast, Nat.mul_lt_mul_of_pos_right hmost hpos⟩

/-- A mantissa that fits but for zeros at its end is not rounded. -/
theorem isNormal_round_exact {k q : ℕ} (hq : q = m * 2 ^ k) (he : e + k = e') (hleast : 2 ^ 52 ≤ m)
    (hmost : m < 2 ^ 53) (hlow : -1074 ≤ e) (hhigh : e' ≤ 970) :
    IsNormal (.ofModel (.pack (roundWithAccuracy Format.binary64 .positive q e .exact))) m e' := by
  have hlog : q.log2 = 52 + k := hq ▸ log2_mul_two_pow hleast hmost k
  have hr : (ExtendedMantissa.ofMantissaAndAccuracy q .exact >>> k).roundedMantissa = m :=
    hq ▸ congrArg ExtendedMantissa.roundedMantissa (shiftRight_exact m k)
  obtain ⟨m₁, e₁, hnormal, hsame⟩ := isNormal_round hlog hr hleast hmost.le hlow (he ▸ hhigh)
  have := hnormal.least
  have := hnormal.most
  obtain ⟨rfl, rfl⟩ : m₁ = m ∧ e₁ = e' := by omega
  exact hnormal

/-! ### Counts -/

theorem shifted_bounds {n : ℕ} (hpos : 0 < n) (hn : n < 2 ^ 53) :
    2 ^ 52 ≤ n * 2 ^ (52 - n.log2) ∧ n * 2 ^ (52 - n.log2) < 2 ^ 53 := by
  have hlog : n.log2 < 53 := (Nat.log2_lt hpos.ne').2 hn
  have hlow : 2 ^ 52 = 2 ^ n.log2 * 2 ^ (52 - n.log2) := by
    rw [← Nat.pow_add]
    congr 1
    omega
  have hhigh : 2 ^ 53 = 2 ^ (n.log2 + 1) * 2 ^ (52 - n.log2) := by
    rw [← Nat.pow_add]
    congr 1
    omega
  rw [hlow, hhigh]
  exact ⟨Nat.mul_le_mul_right _ (Nat.log2_self_le hpos.ne'),
    Nat.mul_lt_mul_of_pos_right Nat.lt_log2_self (Nat.two_pow_pos _)⟩

theorem isNormal_toFloat {n : ℕ} (hpos : 0 < n) (hn : n < 2 ^ 53) :
    IsNormal n.toUInt64.toFloat (n * 2 ^ (52 - n.log2)) (n.log2 - 52) := by
  obtain ⟨hleast, hmost⟩ := shifted_bounds hpos hn
  have hlog : n.log2 < 53 := (Nat.log2_lt hpos.ne').2 hn
  have hword : n.toUInt64.toNat = n := UInt64.toNat_ofNat_of_lt (hn.trans (by decide))
  have hround : ofUInt64 Format.binary64 n.toUInt64 =
      UnpackedFloat.round Format.binary64 .positive n 0 := by
    rw [ofUInt64, hword, ofNat, ofInt, UnpackedFloat.normalize, Int.compare_eq_gt.2 (by omega)]
    rfl
  have htarget : Format.binary64.targetExponent (totalExponent n 0) = n.log2 - 52 := by
    show max ((n.log2 : ℤ) + 1 + 0 - 53) (-1074) = _
    omega
  have hshift : decreaseExponent n 0 (n.log2 - 52) =
      (n * 2 ^ (52 - n.log2), (n.log2 : ℤ) - 52) := by
    have hamount : ((0 : ℤ) - (n.log2 - 52)).toNat = 52 - n.log2 := by omega
    rw [decreaseExponent, hamount, Nat.shiftLeft_eq]
    apply Prod.ext
    · rfl
    · show (0 : ℤ) - (52 - n.log2 : ℕ) = _
      omega
  show IsNormal (.ofModel (.pack (ofUInt64 Format.binary64 n.toUInt64))) _ _
  rw [hround, UnpackedFloat.round, htarget, hshift]
  exact isNormal_round_exact (k := 0) (Nat.mul_one _).symm (Int.add_zero _) hleast hmost (by omega)
    (by omega)

theorem unpack_one : (Float.ofBits 0x3FF0000000000000).toModel.unpack =
    .finite .positive (2 ^ 52) (-52) (by decide) := rfl

theorem IsNormal.mul_one (h : IsNormal x m e) (hlow : -1000 ≤ e) (hhigh : e ≤ 900) :
    IsNormal (x * Float.ofBits 0x3FF0000000000000) m e := by
  obtain ⟨hm, hparts⟩ := h.parts
  show IsNormal (.ofModel (.pack (UnpackedFloat.mul Format.binary64 _ _))) _ _
  rw [hparts, unpack_one]
  exact isNormal_round_exact (k := 52) rfl (by omega) h.least h.most (by omega) (by omega)

theorem isNormal_ofNat {n : ℕ} (hpos : 0 < n) (hn : n < 2 ^ 53) :
    IsNormal (Float.ofNat n) (n * 2 ^ (52 - n.log2)) (n.log2 - 52) := by
  have hlog : n.log2 < 53 := (Nat.log2_lt hpos.ne').2 hn
  -- A count is read as a decimal number without a fraction, that is as a multiple of one.
  have hread : Float.ofNat n = n.toUInt64.toFloat * Float.ofBits 0x3FF0000000000000 := by
    show Float.ofScientific n false 0 = _
    rw [Float.ofScientific, dif_pos ⟨hn, by decide⟩]
    rfl
  rw [hread]
  exact (isNormal_toFloat hpos hn).mul_one (by omega) (by omega)

theorem ofNat_le_ofNat {k n : ℕ} (hk : 0 < k) (hn : n < 2 ^ 53) (h : k ≤ n) :
    Float.ofNat k ≤ Float.ofNat n := by
  have hk' := isNormal_ofNat hk (h.trans_lt hn)
  have hn' := isNormal_ofNat (hk.trans_le h) hn
  rw [hk'.le_iff hn']
  have := hk'.most
  have := hn'.least
  have hlog : k.log2 ≤ n.log2 := by
    rw [Nat.le_log2 (hk.trans_le h).ne']
    exact (Nat.log2_self_le hk.ne').trans h
  rcases hlog.lt_or_eq with hlt | heq
  · omega
  · rw [heq]
    have := Nat.mul_le_mul_right (2 ^ (52 - n.log2)) h
    omega

/-! ### Quotients of mantissas -/

/-- The whole number nearest to a quotient, and of two that are as near the even one. -/
def roundedQuotient (n d : ℕ) : ℕ :=
  (accuracyOfFraction (n % d) d).roundToNearestEven (n / d)

theorem roundedMantissa_ofMantissaAndAccuracy (q : ℕ) (acc : Accuracy) :
    (ExtendedMantissa.ofMantissaAndAccuracy q acc).roundedMantissa = acc.roundToNearestEven q := by
  rcases acc with _ | o
  · rfl
  · cases o <;> rfl

section
variable {n n' k d : ℕ} (hd : 0 < d)
include hd

theorem roundedQuotient_eq (n : ℕ) : roundedQuotient n d = n / d +
    if 2 * (n % d) < d then 0 else if 2 * (n % d) = d then n / d % 2 else 1 := by
  rw [roundedQuotient, accuracyOfFraction]
  split
  · next hrest =>
    rw [hrest, Nat.mul_zero, if_pos hd]
    rfl
  · rcases Nat.lt_trichotomy (2 * (n % d)) d with h | h | h
    · rw [Nat.compare_eq_lt.2 h, if_pos h]
      rfl
    · rw [Nat.compare_eq_eq.2 h, if_neg h.not_lt, if_pos h]
      rfl
    · rw [Nat.compare_eq_gt.2 h, if_neg h.not_gt, if_neg h.ne']
      rfl

theorem roundedQuotient_mono (h : n ≤ n') : roundedQuotient n d ≤ roundedQuotient n' d := by
  rw [roundedQuotient_eq hd n, roundedQuotient_eq hd n']
  rcases (Nat.div_le_div_right h : n / d ≤ n' / d).lt_or_eq with hlt | heq
  · split_ifs <;> omega
  · have hrest : n % d ≤ n' % d := by
      have := Nat.div_add_mod n d
      have := Nat.div_add_mod n' d
      rw [heq] at *
      omega
    rw [heq]
    split_ifs <;> omega

theorem roundedQuotient_mul (n : ℕ) : roundedQuotient (n * d) d = n := by
  rw [roundedQuotient, Nat.mul_mod_left, Nat.mul_div_cancel _ hd]
  rfl

theorem le_roundedQuotient (h : k * d ≤ n) : k ≤ roundedQuotient n d := by
  rw [← roundedQuotient_mul hd k]
  exact roundedQuotient_mono hd h

theorem roundedQuotient_le (h : n ≤ k * d) : roundedQuotient n d ≤ k := by
  rw [← roundedQuotient_mul hd k]
  exact roundedQuotient_mono hd h

end

theorem shiftRightOne_accuracyOfFraction (q r d : ℕ) :
    (ExtendedMantissa.ofMantissaAndAccuracy q (accuracyOfFraction r d)).shiftRightOne =
      ⟨q / 2, q % 2 != 0, r != 0⟩ := by
  rw [accuracyOfFraction]
  split
  · next hr =>
    rw [hr]
    rfl
  · next hr =>
    rw [bne_iff_ne.2 hr]
    cases compare (2 * r) d <;> rfl

/-- A quotient that has a digit too many is rounded by this digit and by what is left over, and
so as if the dividend had been halved. -/
theorem roundedMantissa_shiftRightOne {d : ℕ} (hd : 0 < d) (n : ℕ) :
    (ExtendedMantissa.ofMantissaAndAccuracy (2 * n / d)
      (accuracyOfFraction (2 * n % d) d)).shiftRightOne.roundedMantissa = roundedQuotient n d := by
  have hquotient : 2 * n / d = 2 * (n / d) + 2 * (n % d) / d := by
    conv_lhs => rw [← Nat.div_add_mod n d, Nat.mul_add, Nat.mul_left_comm, Nat.mul_add_div hd]
  have hrest : 2 * n % d = 2 * (n % d) % d := by
    conv_lhs => rw [← Nat.div_add_mod n d, Nat.mul_add, Nat.mul_left_comm, Nat.mul_add_mod]
  have hlt := Nat.mod_lt n hd
  rw [roundedQuotient_eq hd n, hquotient, hrest, shiftRightOne_accuracyOfFraction]
  rcases Nat.lt_or_ge (2 * (n % d)) d with hbelow | habove
  · rw [if_pos hbelow, Nat.div_eq_of_lt hbelow, Nat.mod_eq_of_lt hbelow, Nat.add_zero,
      Nat.mul_div_cancel_left _ (by decide), Nat.mul_mod_right]
    cases 2 * (n % d) != 0 <;> rfl
  · have hone : 2 * (n % d) / d = 1 := Nat.div_eq_of_lt_le (by omega) (by omega)
    have hover : 2 * (n % d) % d = 2 * (n % d) - d := by
      rw [Nat.mod_eq_sub_mod habove, Nat.mod_eq_of_lt (by omega)]
    have hodd : (2 * (n / d) + 1) % 2 = 1 := by omega
    have hhalf : (2 * (n / d) + 1) / 2 = n / d := by omega
    rw [hone, hover, hodd, hhalf, if_neg habove.not_gt]
    split
    · next hhalfway =>
      rw [hhalfway, Nat.sub_self]
      rfl
    · have hmore : 2 * (n % d) - d != 0 := bne_iff_ne.2 (by omega)
      rw [hmore]
      rfl

/-- What the quotient of two mantissas adds to the whole number of a quotient, which grows by
`2 ^ 52` with the exponent: only if the first mantissa is the smaller one, the quotient needs a
digit more. -/
def quotientLevel (m d : ℕ) : ℕ :=
  if m < d then roundedQuotient (m * 2 ^ 53) d else 2 ^ 52 + roundedQuotient (m * 2 ^ 52) d

theorem quotientLevel_mono {d : ℕ} (hd : 0 < d) (h : m ≤ m') :
    quotientLevel m d ≤ quotientLevel m' d := by
  unfold quotientLevel
  split
  · split
    · exact roundedQuotient_mono hd (Nat.mul_le_mul_right _ h)
    · have := roundedQuotient_le (k := 2 ^ 53) (n := m * 2 ^ 53) hd (by omega)
      have := le_roundedQuotient (k := 2 ^ 52) (n := m' * 2 ^ 52) hd (by omega)
      omega
  · have := roundedQuotient_mono hd (Nat.mul_le_mul_right (2 ^ 52) h)
    rw [if_neg (by omega)]
    omega

/-- A number with the next exponent is not below, whatever the mantissas are. -/
theorem quotientLevel_le_add {d : ℕ} (hmost : m < 2 ^ 53) (hleast' : 2 ^ 52 ≤ m')
    (hleast : 2 ^ 52 ≤ d) (hd : d < 2 ^ 53) :
    quotientLevel m d ≤ 2 ^ 52 + quotientLevel m' d := by
  have hpos : 0 < d := by omega
  have hlow : 2 ^ 52 ≤ quotientLevel m' d := by
    unfold quotientLevel
    split
    · exact le_roundedQuotient hpos (by omega)
    · exact Nat.le_add_right _ _
  rcases Nat.lt_or_ge m d with hlt | hge
  · rw [quotientLevel, if_pos hlt]
    have := roundedQuotient_le (k := 2 ^ 53) (n := m * 2 ^ 53) hpos (by omega)
    omega
  · rw [quotientLevel, if_neg hge.not_gt]
    refine Nat.add_le_add_left ?_ _
    unfold quotientLevel
    split
    · exact roundedQuotient_mono hpos (by omega)
    · have := roundedQuotient_le (k := 2 ^ 53) (n := m * 2 ^ 52) hpos (by omega)
      have := le_roundedQuotient (k := 2 ^ 52) (n := m' * 2 ^ 52) hpos (by omega)
      omega

/-! ### Quotients -/

theorem IsNormal.div_eq (hx : IsNormal x m e) (hy : IsNormal y m' e') (hlow : -1000 ≤ e - e') :
    x / y = .ofModel (.pack (roundWithAccuracy Format.binary64 .positive (m * 2 ^ 53 / m')
      (e - e' - 53) (accuracyOfFraction (m * 2 ^ 53 % m') m'))) := by
  obtain ⟨hm, hparts⟩ := hx.parts
  obtain ⟨hm', hparts'⟩ := hy.parts
  have hlog := log2_eq hx.least hx.most
  have hlog' := log2_eq hy.least hy.most
  have htarget : Format.binary64.targetExponent (totalExponent m e - totalExponent m' e') =
      e - e' - 53 := by
    show max ((m.log2 + 1 + e - (m'.log2 + 1 + e') - 53 : ℤ)) (-1074) = _
    omega
  have hmin : min (e - e') (e - e' - 53) = e - e' - 53 := by omega
  have hshift : (e - e' - (e - e' - 53)).toNat = 53 := by omega
  have hcore : divCore Format.binary64 m e m' e' =
      (m * 2 ^ 53 / m', e - e' - 53, accuracyOfFraction (m * 2 ^ 53 % m') m') := by
    rw [divCore, htarget, hmin, hshift, Nat.shiftLeft_eq]
  show Float.ofModel (.pack (UnpackedFloat.div Format.binary64 _ _)) = _
  rw [hparts, hparts', UnpackedFloat.div, hcore]
  rfl

/-- The quotient of normal numbers is a normal number. -/
theorem IsNormal.div (hx : IsNormal x m e) (hy : IsNormal y m' e') (hlow : -1000 ≤ e - e')
    (hhigh : e - e' ≤ 900) :
    ∃ m₁ e₁, IsNormal (x / y) m₁ e₁ ∧
      e₁ * 2 ^ 52 + m₁ = (e - e' - 53) * 2 ^ 52 + quotientLevel m m' := by
  have := hx.least
  have := hx.most
  have := hy.least
  have := hy.most
  have hm' : 0 < m' := by omega
  rw [hx.div_eq hy hlow, quotientLevel]
  split
  · next hlt =>
    have hleast : 2 ^ 52 ≤ m * 2 ^ 53 / m' := (Nat.le_div_iff_mul_le hm').2 (by omega)
    have hmost : m * 2 ^ 53 / m' < 2 ^ 53 := (Nat.div_lt_iff_lt_mul hm').2 (by omega)
    have hr : (ExtendedMantissa.ofMantissaAndAccuracy (m * 2 ^ 53 / m')
        (accuracyOfFraction (m * 2 ^ 53 % m') m') >>> 0).roundedMantissa =
          roundedQuotient (m * 2 ^ 53) m' := roundedMantissa_ofMantissaAndAccuracy _ _
    have hround := isNormal_round (k := 0) (e := e - e' - 53) (log2_eq hleast hmost) hr
      (le_roundedQuotient hm' (by omega)) (roundedQuotient_le hm' (by omega)) (by omega) (by omega)
    rwa [Int.natCast_zero, Int.add_zero] at hround
  · next hge =>
    have hleast : 2 ^ 53 ≤ m * 2 ^ 53 / m' := (Nat.le_div_iff_mul_le hm').2 (by omega)
    have hmost : m * 2 ^ 53 / m' < 2 ^ 54 := (Nat.div_lt_iff_lt_mul hm').2 (by omega)
    have hlog : (m * 2 ^ 53 / m').log2 = 52 + 1 := (Nat.log2_eq_iff (by omega)).2 ⟨hleast, hmost⟩
    have hr : (ExtendedMantissa.ofMantissaAndAccuracy (m * 2 ^ 53 / m')
        (accuracyOfFraction (m * 2 ^ 53 % m') m') >>> 1).roundedMantissa =
          roundedQuotient (m * 2 ^ 52) m' := by
      have hdouble : m * 2 ^ 53 = 2 * (m * 2 ^ 52) := by omega
      rw [hdouble]
      exact roundedMantissa_shiftRightOne hm' (m * 2 ^ 52)
    obtain ⟨m₁, e₁, hnormal, hlevel⟩ := isNormal_round (e := e - e' - 53) hlog hr
      (le_roundedQuotient hm' (by omega)) (roundedQuotient_le hm' (by omega)) (by omega) (by omega)
    exact ⟨m₁, e₁, hnormal, by omega⟩

theorem IsNormal.div_le_div {d : ℕ} {f : ℤ} (hx : IsNormal x m e) (hy : IsNormal y m' e')
    (hz : IsNormal z d f) (h : x ≤ y) (hlow : -1000 ≤ e - f) (hhigh : e' - f ≤ 900) :
    x / z ≤ y / z := by
  rw [hx.le_iff hy] at h
  have := hx.most
  have := hy.least
  have hexp : e ≤ e' := by
    have := hx.least
    have := hy.most
    omega
  obtain ⟨m₁, e₁, hnormal, hlevel⟩ := hx.div hz hlow (by omega)
  obtain ⟨m₂, e₂, hnormal', hlevel'⟩ := hy.div hz (by omega) hhigh
  rw [hnormal.le_iff hnormal', hlevel, hlevel']
  rcases hexp.lt_or_eq with hlt | rfl
  · have := quotientLevel_le_add hx.most hy.least hz.least hz.most
    omega
  · have : quotientLevel m d ≤ quotientLevel m' d := by
      have := hz.least
      apply quotientLevel_mono
      · omega
      · omega
    omega

/-- Of two counts divided by a third, the smaller one has no greater quotient. -/
theorem ofNat_div_le_ofNat_div {k n d : ℕ} (hk : 0 < k) (hn : n < 2 ^ 53) (hd : 0 < d)
    (hd' : d < 2 ^ 53) (h : k ≤ n) :
    Float.ofNat k / Float.ofNat d ≤ Float.ofNat n / Float.ofNat d := by
  have hlog : n.log2 < 53 := (Nat.log2_lt (hk.trans_le h).ne').2 hn
  have hlog' : d.log2 < 53 := (Nat.log2_lt hd.ne').2 hd'
  exact (isNormal_ofNat hk (h.trans_lt hn)).div_le_div (isNormal_ofNat (hk.trans_le h) hn)
    (isNormal_ofNat hd hd') (ofNat_le_ofNat hk hn h) (by omega) (by omega)

end Microbench.Binary
