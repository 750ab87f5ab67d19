import Mathlib.Data.List.Basic
import Microbench.Proofs.Number.Digits
import Microbench.Proofs.Text.Blank

/-!
# Numbers in base sixteen read back

The hexadecimal text of a natural number, with zeros in front or without, and with letters of
either case, is read as that number when it is within the range asked for.

## Main definitions

* `hexText` — the text.

## Main results

* `readNat_hexText` — **the number is read back.**
-/

namespace Microbench.Whole

variable {n zeros limit : Nat} {upper : Bool} {c : Char}

/-- A digit in base sixteen. -/
def hexDigit (upper : Bool) (d : Nat) : Char :=
  if upper then d.digitChar.toUpper else d.digitChar

/-- A number in base sixteen with so many zeros in front. -/
def hexText (upper : Bool) (zeros n : Nat) : List Char :=
  List.replicate zeros (hexDigit upper 0) ++
    (Nat.toDigits 16 n).map fun c => if upper then c.toUpper else c

/-- The digits of a number in base sixteen as numbers. -/
theorem exists_hexDigits (n : Nat) :
    ∃ ds : List Nat, ds ≠ [] ∧ (∀ d ∈ ds, d < 16) ∧ Nat.toDigits 16 n = ds.map Nat.digitChar ∧
      ds.foldl (fun n d => n * 16 + d) 0 = n := by
  induction n using Nat.strongRecOn with
  | ind n ih =>
    rcases Nat.lt_or_ge n 16 with hlt | hge
    · refine ⟨[n], by simp, by simpa using hlt, ?_, by simp⟩
      rw [Nat.toDigits_of_lt_base hlt, List.map_singleton]
    · obtain ⟨ds, -, hds, htext, hvalue⟩ := ih (n / 16) (by omega)
      refine ⟨ds ++ [n % 16], by simp, ?_, ?_, ?_⟩
      · rw [List.forall_mem_append, List.forall_mem_singleton]
        exact ⟨hds, Nat.mod_lt n (by decide)⟩
      · rw [Nat.toDigits_of_base_le (by decide) hge, htext, List.map_append, List.map_singleton]
      · rw [List.foldl_append, hvalue, List.foldl_cons, List.foldl_nil]
        omega

theorem hexText_eq (upper : Bool) (zeros n : Nat) :
    ∃ ds : List Nat, ds ≠ [] ∧ (∀ d ∈ ds, d < 16) ∧
      hexText upper zeros n = ds.map (hexDigit upper) ∧ ds.foldl (fun n d => n * 16 + d) 0 = n := by
  obtain ⟨ds, hne, hds, htext, hvalue⟩ := exists_hexDigits n
  refine ⟨List.replicate zeros 0 ++ ds, by simp [hne], ?_, ?_, ?_⟩
  · rw [List.forall_mem_append]
    refine ⟨fun d hd => ?_, hds⟩
    rw [List.eq_of_mem_replicate hd]
    decide
  · rw [hexText, htext, List.map_append, List.map_replicate, List.map_map]
    rfl
  · have hzeros : (List.replicate zeros 0).foldl (fun n d => n * 16 + d) 0 = 0 := by
      induction zeros with
      | zero => rfl
      | succ zeros ih => rw [List.replicate_succ, List.foldl_cons, ih]
    rw [List.foldl_append, hzeros, hvalue]

theorem digit?_hexDigit :
    ∀ (upper : Bool) (d : Fin 16), digit? 16 (hexDigit upper d) = some d.1 := by
  decide

/-- What a character of the text of a number is not. -/
theorem hexDigit_plain : ∀ (upper : Bool) (d : Fin 16), hexDigit upper d ≠ '+' ∧
    hexDigit upper d ≠ '-' ∧ hexDigit upper d ≠ 'x' ∧ Text.isBlank (hexDigit upper d) = false := by
  decide

theorem plain_of_mem_hexText (h : c ∈ hexText upper zeros n) :
    c ≠ '+' ∧ c ≠ '-' ∧ c ≠ 'x' ∧ Text.isBlank c = false := by
  obtain ⟨ds, -, hds, htext, -⟩ := hexText_eq upper zeros n
  rw [htext, List.mem_map] at h
  obtain ⟨d, hd, rfl⟩ := h
  exact hexDigit_plain upper ⟨d, hds d hd⟩

theorem hexText_ne_nil : hexText upper zeros n ≠ [] := by
  obtain ⟨ds, hne, -, htext, -⟩ := hexText_eq upper zeros n
  rw [htext]
  exact fun h => hne (List.map_eq_nil_iff.1 h)

theorem word_hexText : Text.Word (hexText upper zeros n) :=
  fun _ hc => (plain_of_mem_hexText hc).2.2.2

theorem readDigits_hexText (upper : Bool) (zeros : Nat) (h : n ≤ limit) :
    readDigits 16 limit .tooLarge 0 (hexText upper zeros n) = .ok n := by
  obtain ⟨ds, -, hds, htext, hvalue⟩ := hexText_eq upper zeros n
  have hdigit : ∀ d ∈ ds, digit? 16 (hexDigit upper d) = some d :=
    fun d hd => digit?_hexDigit upper ⟨d, hds d hd⟩
  have hread : ∀ c ∈ ds.map (hexDigit upper), digit? 16 c = some ((digit? 16 c).getD 0) := by
    intro c hc
    obtain ⟨d, hd, rfl⟩ := List.mem_map.1 hc
    rw [hdigit d hd, Option.getD_some]
  have hsum : (ds.map (hexDigit upper)).foldl (fun n c => n * 16 + (digit? 16 c).getD 0) 0 = n := by
    rw [List.foldl_map, ← hvalue]
    refine List.foldl_ext _ _ _ fun m d hd => ?_
    rw [hdigit d hd, Option.getD_some]
  rw [htext, readDigits_eq (by decide) _ hread (Nat.zero_le _), hsum, if_pos h]

/-- **A number in base sixteen is read back.** -/
theorem readNat_hexText (h : n ≤ limit) :
    readNat 16 limit (hexText upper zeros n) = .ok n := by
  have hplain : ∀ c ∈ hexText upper zeros n, c ≠ '+' ∧ c ≠ '-' :=
    fun c hc => ⟨(plain_of_mem_hexText hc).1, (plain_of_mem_hexText hc).2.1⟩
  have hne : hexText upper zeros n ≠ [] := hexText_ne_nil
  rw [← readDigits_hexText upper zeros h]
  -- no digit is a sign, so the reader takes all of them
  cases htext : hexText upper zeros n with
  | nil => exact absurd htext hne
  | cons c cs =>
    obtain ⟨hplus, hminus⟩ := hplain c (htext ▸ List.mem_cons_self)
    unfold readNat
    split <;> simp_all

end Microbench.Whole
