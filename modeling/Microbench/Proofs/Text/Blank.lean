import Mathlib.Data.List.Basic
import Microbench.Text.Blank

/-!
# Texts with and without blanks

## Main definitions

* `Text.Blank`, `Text.Word` — a text of blanks only, and one without any.
* `Text.Gap` — what stands between two columns.
* `Text.Tight` — a text without a blank at either end.

## Main results

* `trim_padded` — trimming takes the blanks around a text away, and no more.
* `trim_of_no_blank` — it leaves a text without blanks alone.
* `cutBlank_gap` — the first word of a text, and the text after the gap behind it.
-/

namespace Microbench.Text

variable {cs word blanks rest before after : List Char} {c : Char}

/-- A text of blanks only. -/
def Blank (cs : List Char) : Prop := ∀ c ∈ cs, isBlank c = true

theorem blank_nil : Blank [] := nofun

/-- A text without a blank. -/
def Word (cs : List Char) : Prop := ∀ c ∈ cs, isBlank c = false

instance : DecidablePred Blank := fun cs => List.decidableBAll _ cs
instance : DecidablePred Word := fun cs => List.decidableBAll _ cs

/-- What stands between two columns: at least one blank, and nothing else. -/
structure Gap where
  chars : List Char
  ne_nil : chars ≠ []
  blank : Blank chars

/-- One space. -/
def Gap.space : Gap := ⟨[' '], by decide, by decide⟩

/-- A text with no blank at its start and none at its end. -/
structure Tight (cs : List Char) : Prop where
  head : ∀ c ∈ cs.head?, isBlank c = false
  last : ∀ c ∈ cs.getLast?, isBlank c = false

theorem tight_iff (cs : List Char) : Tight cs ↔
    (∀ c ∈ cs.head?, isBlank c = false) ∧ ∀ c ∈ cs.getLast?, isBlank c = false :=
  ⟨fun h => ⟨h.head, h.last⟩, fun ⟨head, last⟩ => ⟨head, last⟩⟩

instance : DecidablePred Tight := fun cs =>
  have : Decidable (∀ c ∈ cs.head?, isBlank c = false) := Option.decidableForallMem _
  have : Decidable (∀ c ∈ cs.getLast?, isBlank c = false) := Option.decidableForallMem _
  decidable_of_iff' _ (tight_iff cs)

theorem Word.tight (h : Word cs) : Tight cs where
  head c hc := h c (List.mem_of_mem_head? hc)
  last c hc := h c (List.mem_of_mem_getLast? hc)

theorem tight_nil : Tight [] := ⟨nofun, nofun⟩

theorem tight_concat (hhead : ∀ d ∈ (cs ++ [c]).head?, isBlank d = false)
    (hlast : isBlank c = false) : Tight (cs ++ [c]) where
  head := hhead
  last d hd := by
    rw [List.getLast?_concat] at hd
    exact Option.some.inj hd ▸ hlast

/-- A text starts with its first word. -/
theorem Word.head_append (hword : Word word) (hne : word ≠ []) :
    ∀ c ∈ (word ++ rest).head?, isBlank c = false := by
  rw [List.head?_append_of_ne_nil _ hne]
  exact hword.tight.head

theorem Word.append (hbefore : Word before) (hafter : Word after) : Word (before ++ after) :=
  List.forall_mem_append.2 ⟨hbefore, hafter⟩

/-! ### Trimming -/

theorem trimStart_of_head (h : ∀ c ∈ cs.head?, isBlank c = false) : trimStart cs = cs := by
  cases cs with
  | nil => rfl
  | cons c cs => exact trimStart_cons_of_not_blank (h c rfl)

theorem trimStart_append (hblanks : Blank blanks) (h : ∀ c ∈ rest.head?, isBlank c = false) :
    trimStart (blanks ++ rest) = rest := by
  rw [trimStart, List.dropWhile_append_of_pos hblanks]
  exact trimStart_of_head h

theorem trimEnd_eq (cs : List Char) : trimEnd cs = (trimStart cs.reverse).reverse := rfl

theorem trimEnd_append (hblanks : Blank blanks) (h : ∀ c ∈ cs.getLast?, isBlank c = false) :
    trimEnd (cs ++ blanks) = cs := by
  have hreverse : Blank blanks.reverse := fun c hc => hblanks c (List.mem_reverse.1 hc)
  rw [trimEnd_eq, List.reverse_append, trimStart_append hreverse (by rwa [List.head?_reverse]),
    List.reverse_reverse]

/-- Trimming takes the blanks around a text away, and no more. -/
theorem trim_padded (hbefore : Blank before) (hafter : Blank after) (h : Tight cs) :
    trim (before ++ cs ++ after) = cs := by
  cases cs with
  | nil =>
    have hblank : Blank (before ++ after) := List.forall_mem_append.2 ⟨hbefore, hafter⟩
    have hstart : trimStart (before ++ after ++ []) = [] := trimStart_append hblank nofun
    rw [List.append_nil] at hstart ⊢
    rw [trim, hstart]
    rfl
  | cons c cs =>
    have hstart : trimStart (before ++ (c :: cs ++ after)) = c :: cs ++ after :=
      trimStart_append hbefore h.head
    rw [trim, List.append_assoc, hstart]
    exact trimEnd_append hafter h.last

theorem trim_append (hbefore : Blank before) (h : Tight cs) : trim (before ++ cs) = cs := by
  have hpadded : trim (before ++ cs ++ []) = cs := trim_padded hbefore blank_nil h
  rwa [List.append_nil] at hpadded

/-- Trimming leaves a text without blanks alone. -/
theorem trim_of_no_blank (h : ∀ c ∈ cs, isBlank c = false) : trim cs = cs :=
  trim_append blank_nil (Word.tight h)

theorem trim_append_blank (h : Tight cs) (hafter : Blank after) : trim (cs ++ after) = cs := by
  have hpadded : trim ([] ++ cs ++ after) = cs := trim_padded blank_nil hafter h
  rwa [List.nil_append] at hpadded

/-! ### Cutting -/

theorem cutBlank_append (hword : Word word) (hc : isBlank c = true) (rest : List Char) :
    cutBlank (word ++ c :: rest) = some (word, rest) := by
  induction word with
  | nil => rw [List.nil_append, cutBlank, if_pos hc]
  | cons w word ih =>
    obtain ⟨hw, hword⟩ := List.forall_mem_cons.1 hword
    rw [List.cons_append, cutBlank, if_neg (Bool.not_eq_true _ ▸ hw), ih hword, Option.map_some]

/-- The first word of a text is cut off at the first blank of the gap behind it. -/
theorem cutBlank_gap (hword : Word word) (gap : Gap) (rest : List Char) :
    ∃ more, Blank more ∧ cutBlank (word ++ (gap.chars ++ rest)) = some (word, more ++ rest) := by
  obtain ⟨_ | ⟨c, more⟩, hne, hgap⟩ := gap
  · exact absurd rfl hne
  · obtain ⟨hc, hmore⟩ := List.forall_mem_cons.1 hgap
    exact ⟨more, hmore, cutBlank_append hword hc (more ++ rest)⟩

/-- The next word after some blanks. -/
theorem cutBlank_trimStart (hblanks : Blank blanks) (hword : Word word) (hne : word ≠ [])
    (gap : Gap) (rest : List Char) :
    ∃ more, Blank more ∧ cutBlank (trimStart (blanks ++ (word ++ (gap.chars ++ rest)))) =
      some (word, more ++ rest) := by
  rw [trimStart_append hblanks (hword.head_append hne)]
  exact cutBlank_gap hword gap rest

end Microbench.Text
