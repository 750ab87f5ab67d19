import Microbench.Duration.Exact
import Microbench.Proofs.Number.Digits
import Microbench.Proofs.Text.Blank

/-!
# Exact durations read back

The exact text of a duration is read as that duration when its nanoseconds fit 64
bits, and is refused when they do not.

## Main results

* `exact_eq` — the exact text is a whole number of a unit.
* `parseExact_exact` — **the reader on exact texts.**
-/

namespace Microbench.Duration

/-- The exact text is a whole number of a unit that the reader knows. -/
theorem exact_eq (d : Duration) :
    ∃ n suffix scale, d.exact = Whole.text n ++ suffix ∧ unitNanos? suffix = some scale ∧
      n * scale = d.nanos := by
  unfold exact
  split
  · next suffix scale h =>
    have hmem := List.mem_of_find?_eq_some h
    have hp := List.find?_some h
    simp only [Bool.and_eq_true, decide_eq_true_eq] at hp
    refine ⟨_, suffix, scale, rfl, ?_, Nat.div_mul_cancel (Nat.dvd_of_mod_eq_zero hp.2)⟩
    simp only [exactUnits, List.mem_cons, List.not_mem_nil, or_false, Prod.mk.injEq] at hmem
    rcases hmem with ⟨rfl, rfl⟩ | ⟨rfl, rfl⟩ | ⟨rfl, rfl⟩ | ⟨rfl, rfl⟩ <;> rfl
  · exact ⟨_, "ns", 1, rfl, rfl, Nat.mul_one _⟩

/-- A unit has a length, and neither digits nor blanks occur in its word. -/
theorem unit_letters {suffix : String} {scale : Nat} (h : unitNanos? suffix = some scale) :
    0 < scale ∧ ∀ c ∈ suffix.toList, isDigit c = false ∧ Text.isBlank c = false := by
  have hall : 0 < scale ∧ suffix.toList.all (fun c => !isDigit c && !Text.isBlank c) = true := by
    unfold unitNanos? at h
    split at h <;> cases h
    all_goals decide
  refine ⟨hall.1, fun c hc => ?_⟩
  simpa using List.all_eq_true.1 hall.2 c hc

/-- The digits of a number are digits of a duration, and no blanks. -/
theorem digits_of_number {n : Nat} {c : Char} (h : c ∈ Nat.toDigits 10 n) :
    isDigit c = true ∧ Text.isBlank c = false := by
  have hc : 48 ≤ c.toNat ∧ c.toNat ≤ 57 := by
    simpa [Char.isDigit, UInt32.le_iff_toNat_le] using Whole.isDigit_of_mem_digits h
  constructor
  · simp [isDigit, hc]
  · simp only [Text.isBlank, Bool.or_eq_false_iff, Bool.and_eq_false_iff, decide_eq_false_iff_not,
      beq_eq_false_iff_ne]
    omega

/-- Digits before a word that starts with none are taken, and the word is left. -/
theorem takeWhile_digits {ds word : List Char} (hds : ∀ c ∈ ds, isDigit c = true)
    (hword : ∀ c ∈ word, isDigit c = false) :
    (ds ++ word).takeWhile isDigit = ds ∧ (ds ++ word).dropWhile isDigit = word := by
  have hnone : word.takeWhile isDigit = [] ∧ word.dropWhile isDigit = word := by
    cases word with
    | nil => exact ⟨rfl, rfl⟩
    | cons c word => simp [hword c List.mem_cons_self]
  constructor
  · rw [List.takeWhile_append_of_pos hds, hnone.1, List.append_nil]
  · rw [List.dropWhile_append_of_pos hds, hnone.2]

/-- **The exact text of a duration is read as that duration if its nanoseconds fit 64 bits, and
is refused otherwise.** -/
theorem parseExact_exact (d : Duration) :
    parseExact d.exact = if d.nanos ≤ maxNanos then some d else none := by
  obtain ⟨n, suffix, scale, htext, hscale, hnanos⟩ := exact_eq d
  obtain ⟨hpos, hletters⟩ := unit_letters hscale
  have hcs : d.exact.toList = Nat.toDigits 10 n ++ suffix.toList := by
    simp [htext, Whole.text]
  have htrim : Text.trim d.exact.toList = Nat.toDigits 10 n ++ suffix.toList := by
    rw [hcs]
    refine Text.trim_of_no_blank fun c hc => ?_
    rcases List.mem_append.1 hc with hc | hc
    · exact (digits_of_number hc).2
    · exact (hletters c hc).2
  obtain ⟨htake, hdrop⟩ := takeWhile_digits (fun _ h => (digits_of_number (n := n) h).1)
    fun c hc => (hletters c hc).1
  rw [parseExact]
  simp only [htrim, htake, hdrop, String.ofList_toList, hscale, Whole.readNat_toDigits]
  by_cases hn : n ≤ Whole.max64
  · simp [hn, Except.toOption, hnanos]
  · -- a count beyond 64 bits makes a duration beyond 64 bits in every unit
    have hbig : ¬ d.nanos ≤ maxNanos := by
      have := Nat.le_mul_of_pos_right n hpos
      simp only [maxNanos]
      omega
    simp [hn, Except.toOption, hbig]

end Microbench.Duration
