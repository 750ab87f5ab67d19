import Mathlib.Data.List.TakeWhile
import Microbench.Number.Decimal
import Microbench.Proofs.Text.Blank

/-!
# No blanks in decimal numbers

## Main results

* `word_of_read` — a text that is read as a number holds no blank.
-/

namespace Microbench.Decimal

open Text (Word isBlank)

variable {cs : List Char} {c : Char}

theorem isBlank_of_isDigit (h : isDigit c = true) : isBlank c = false := by
  simp only [isDigit, Bool.and_eq_true, decide_eq_true_eq] at h
  simp only [isBlank, Bool.or_eq_false_iff, Bool.and_eq_false_iff, decide_eq_false_iff_not,
    beq_eq_false_iff_ne]
  omega

theorem word_takeWhile_isDigit (cs : List Char) : Word (cs.takeWhile isDigit) :=
  fun _ hc => isBlank_of_isDigit (List.mem_takeWhile_imp hc)

theorem word_of_all_isDigit (h : cs.all isDigit = true) : Word cs :=
  fun c hc => isBlank_of_isDigit (List.all_eq_true.1 h c hc)

theorem toLower_of_isBlank (h : isBlank c = true) : c.toLower = c := by
  have hupper : ¬ (65 ≤ c.toNat ∧ c.toNat ≤ 90) := by
    simp only [isBlank, Bool.or_eq_true, Bool.and_eq_true, decide_eq_true_eq, beq_iff_eq] at h
    omega
  exact dif_neg hupper

/-- Blanks have no other case, so they are found in the word too. -/
theorem word_of_lower {word : String} (hword : Word word.toList)
    (h : String.ofList (cs.map Char.toLower) = word) : Word cs := by
  intro c hc
  rw [← Bool.not_eq_true]
  intro hblank
  have hmem : c ∈ word.toList := by
    rw [← h, String.toList_ofList]
    exact List.mem_map.2 ⟨c, hc, toLower_of_isBlank hblank⟩
  rw [hword c hmem] at hblank
  cases hblank

theorem word_of_takeSign (h : Word (takeSign cs).2) : Word cs := by
  unfold takeSign at h
  split at h
  · exact List.forall_mem_cons.2 ⟨by decide, h⟩
  · exact List.forall_mem_cons.2 ⟨by decide, h⟩
  · exact h

theorem word_of_readPower {power : Int} (h : readPower cs = some power) : Word cs := by
  cases cs with
  | nil => exact nofun
  | cons c cs =>
    rw [readPower] at h
    split at h
    · next hletter =>
      split at h
      next negative digits hsign =>
      split at h
      · next hdigits =>
        refine List.forall_mem_cons.2 ⟨?_, word_of_takeSign ?_⟩
        · obtain rfl | rfl := hletter <;> decide
        · rw [hsign]
          exact word_of_all_isDigit hdigits.2
      · cases h
    · cases h

theorem word_of_takeFraction (h : Word (takeFraction cs).2) : Word cs := by
  unfold takeFraction at h
  split at h
  · next cs =>
    refine List.forall_mem_cons.2 ⟨by decide, ?_⟩
    rw [← List.takeWhile_append_dropWhile (p := isDigit) (l := cs)]
    exact (word_takeWhile_isDigit cs).append h
  · exact h

theorem word_of_readUnsigned {x : Float} (h : readUnsigned cs = some x) : Word cs := by
  unfold readUnsigned at h
  dsimp only at h
  split at h
  · next hword =>
    obtain hword | hword := hword
    · exact word_of_lower (by decide) hword
    · exact word_of_lower (by decide) hword
  · split at h
    · next hword => exact word_of_lower (by decide) hword
    · split at h
      · cases h
      · obtain ⟨power, hpower, -⟩ := Option.map_eq_some_iff.1 h
        rw [← List.takeWhile_append_dropWhile (p := isDigit) (l := cs)]
        exact (word_takeWhile_isDigit cs).append (word_of_takeFraction (word_of_readPower hpower))

/-- A text that is read as a number holds no blank. -/
theorem word_of_read {x : Float} (h : read cs = .ok x) : Word cs := by
  unfold read at h
  split at h
  · cases h
  · dsimp only at h
    split at h
    · next y hy => exact word_of_takeSign (word_of_readUnsigned hy)
    · cases h

end Microbench.Decimal
