import Microbench.Number.Whole

/-!
# Whole numbers read back

The decimal text of a natural number is read as that number when it is within the
range asked for, and refused as too large when it is not.

## Main results

* `readDigits_eq`, `readDigits_ten` — reading digits onto a number, in closed form.
* `readNat_toDigits` — the reader on the digits of a number.
* `read32_text`, `read64_text` — numbers of 32 and of 64 bits read back.
-/

namespace Microbench.Whole

/-- A decimal digit has the value of its place among the digits. -/
theorem digit?_ten {c : Char} (h : c.isDigit = true) : digit? 10 c = some (c.toNat - 48) := by
  have hc : 48 ≤ c.toNat ∧ c.toNat ≤ 57 := by
    simpa [Char.isDigit, UInt32.le_iff_toNat_le] using h
  have hlt : c.toNat - 48 < 10 := by omega
  simp [digit?, hc, hlt]

/-- More digits never make a number smaller. -/
theorem le_foldl_digits {base : Nat} (hbase : 0 < base) (value : Char → Nat) (cs : List Char)
    (acc : Nat) : acc ≤ cs.foldl (fun n c => n * base + value c) acc := by
  induction cs generalizing acc with
  | nil => exact Nat.le_refl acc
  | cons c cs ih =>
    calc acc ≤ acc * base := Nat.le_mul_of_pos_right acc hbase
      _ ≤ acc * base + value c := Nat.le_add_right _ _
      _ ≤ _ := ih _

/-- Reading digits onto a number gives the number they make, if it stays in range. -/
theorem readDigits_eq {base limit : Nat} {o : Error} {cs : List Char} {acc : Nat}
    (hbase : 0 < base) (value : Char → Nat) (hcs : ∀ c ∈ cs, digit? base c = some (value c))
    (hacc : acc ≤ limit) :
    readDigits base limit o acc cs =
      if cs.foldl (fun n c => n * base + value c) acc ≤ limit then
        .ok (cs.foldl (fun n c => n * base + value c) acc)
      else .error o := by
  induction cs generalizing acc with
  | nil => simp [readDigits, hacc]
  | cons c cs ih =>
    obtain ⟨hc, hcs⟩ := List.forall_mem_cons.1 hcs
    rw [readDigits, hc, List.foldl_cons]
    dsimp only
    split
    · next hlt =>
      -- once out of range, further digits cannot bring the number back
      have hle := le_foldl_digits hbase value cs (acc * base + value c)
      rw [if_neg (by omega)]
    · next hle => rw [ih hcs (by omega)]

/-- Reading decimal digits onto a number gives the number they make, if it stays in range. -/
theorem readDigits_ten {limit : Nat} {o : Error} {cs : List Char} {acc : Nat}
    (hcs : ∀ c ∈ cs, c.isDigit = true) (hacc : acc ≤ limit) :
    readDigits 10 limit o acc cs =
      if Nat.ofDigitChars 10 cs acc ≤ limit then .ok (Nat.ofDigitChars 10 cs acc)
      else .error o := by
  have hvalue : Nat.ofDigitChars 10 cs acc =
      cs.foldl (fun n c => n * 10 + (c.toNat - 48)) acc := by
    simp only [Nat.ofDigitChars, Nat.mul_comm]
    rfl
  rw [hvalue]
  exact readDigits_eq (by decide) _ (fun c hc => digit?_ten (hcs c hc)) hacc

/-- The digits of a number are decimal digits. -/
theorem isDigit_of_mem_digits {n : Nat} {c : Char} (h : c ∈ Nat.toDigits 10 n) :
    c.isDigit = true :=
  Nat.isDigit_of_mem_toDigits (by decide) (by decide) h

/-- The reader on the digits of a number. -/
theorem readNat_toDigits (limit n : Nat) :
    readNat 10 limit (Nat.toDigits 10 n) =
      if n ≤ limit then .ok n else .error .tooLarge := by
  have hread : readDigits 10 limit .tooLarge 0 (Nat.toDigits 10 n) =
      if n ≤ limit then .ok n else .error .tooLarge := by
    rw [readDigits_ten (fun _ => isDigit_of_mem_digits) (Nat.zero_le _),
      Nat.ofDigitChars_ten_toDigits]
  rw [← hread]
  -- no digit is a sign, so the reader takes all of them
  cases hds : Nat.toDigits 10 n with
  | nil => exact absurd hds Nat.toDigits_ne_nil
  | cons c cs =>
    have hc : c.isDigit = true := isDigit_of_mem_digits (n := n) (by simp [hds])
    have hplus : c ≠ '+' := by rintro rfl; exact absurd hc (by decide)
    have hminus : c ≠ '-' := by rintro rfl; exact absurd hc (by decide)
    unfold readNat
    split <;> simp_all

/-- A number of 32 bits reads back. -/
theorem read32_text (n : UInt32) : read32 (text n.toNat) = .ok n := by
  have hn : n.toNat ≤ max32 := by
    have := n.toNat_lt
    simp only [max32]
    omega
  simp [read32, text, readNat_toDigits, hn, Except.map]

/-- A number of 64 bits reads back. -/
theorem read64_text (n : UInt64) : read64 (text n.toNat) = .ok n.toNat := by
  have hn : n.toNat ≤ max64 := by
    have := n.toNat_lt
    simp only [max64]
    omega
  simp [read64, text, readNat_toDigits, hn]

end Microbench.Whole
