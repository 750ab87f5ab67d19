/-!
# Blank characters

The characters that count as blank wherever text is trimmed or cut into words:
the Unicode property `White_Space`.

## Main definitions

* `isBlank` — the property.
* `trim`, `trimStart`, `trimEnd` — drop the blanks around a text.
* `cutBlank` — the first word of a text and what follows the blank after it.
-/

namespace Microbench.Text

/-- The characters with the Unicode property `White_Space`. -/
def isBlank (c : Char) : Bool :=
  let n := c.toNat
  (9 ≤ n && n ≤ 13) || n == 32 || n == 0x85 || n == 0xa0 || n == 0x1680 ||
    (0x2000 ≤ n && n ≤ 0x200a) || n == 0x2028 || n == 0x2029 || n == 0x202f ||
    n == 0x205f || n == 0x3000

/-- Drop the blanks at the start. -/
def trimStart (cs : List Char) : List Char := cs.dropWhile isBlank

/-- Drop the blanks at the end. -/
def trimEnd (cs : List Char) : List Char := (cs.reverse.dropWhile isBlank).reverse

/-- Drop the blanks at both ends. -/
def trim (cs : List Char) : List Char := trimEnd (trimStart cs)

/-- Cut at the first blank, which belongs to neither part; `none` when there is none. -/
def cutBlank : List Char → Option (List Char × List Char)
  | [] => none
  | c :: cs =>
    if isBlank c then some ([], cs)
    else (cutBlank cs).map fun (word, rest) => (c :: word, rest)

/-- A text without the blanks around it. -/
def trimmed (s : String) : String := String.ofList (trim s.toList)

/-- A text that does not start with a blank keeps its start. -/
theorem trimStart_cons_of_not_blank {c : Char} {cs : List Char} (h : isBlank c = false) :
    trimStart (c :: cs) = c :: cs := by
  simp [trimStart, h]

/-- Cutting loses nothing but the blank cut at, and the word before it holds none. -/
theorem cutBlank_eq_some {cs word rest : List Char} (h : cutBlank cs = some (word, rest)) :
    (∃ b, isBlank b = true ∧ cs = word ++ b :: rest) ∧ ∀ c ∈ word, isBlank c = false := by
  induction cs generalizing word with
  | nil => simp [cutBlank] at h
  | cons c cs ih =>
    unfold cutBlank at h
    by_cases hc : isBlank c = true
    · simp [hc] at h
      obtain ⟨rfl, rfl⟩ := h
      exact ⟨⟨c, hc, rfl⟩, by simp⟩
    · simp only [hc, Bool.false_eq_true, ↓reduceIte, Option.map_eq_some_iff] at h
      obtain ⟨⟨w, r⟩, hw, he⟩ := h
      obtain ⟨rfl, rfl⟩ : c :: w = word ∧ r = rest := by simpa using he
      obtain ⟨⟨b, hb, hcs⟩, hword⟩ := ih hw
      refine ⟨⟨b, hb, by simp [hcs]⟩, ?_⟩
      intro x hx
      rcases List.mem_cons.1 hx with rfl | hx
      · simpa using hc
      · exact hword x hx

end Microbench.Text
