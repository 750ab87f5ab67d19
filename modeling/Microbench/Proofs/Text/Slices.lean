import Mathlib.Data.String.Basic

/-!
# Parts of texts between positions

A position in a text is a number of bytes.  It is of use only if it is within the text and not
inside of a character, and a part of a text lies between two of them that are in order.

## Main definitions

* `Text.slice?` — the part between two positions.

## Main results

* `Text.slice?_eq_some_iff` — there is such a part exactly if the text can be cut there.
-/

namespace Microbench.Text

open String (utf8Len)

variable {cs part : List Char} {start stop : Nat}

/-- The part of a text between two positions, counted in bytes: none if they are out of order, if
one of them is out of range, or if one of them is inside of a character. -/
def slice? (cs : List Char) (start stop : Nat) : Option (List Char) :=
  let s := String.ofList cs
  if start ≤ stop ∧ String.Pos.Raw.isValid s ⟨start⟩ ∧ String.Pos.Raw.isValid s ⟨stop⟩ then
    some (String.Pos.Raw.extract s ⟨start⟩ ⟨stop⟩).toList
  else none

theorem isValid_utf8Len (before after : List Char) :
    String.Pos.Raw.isValid (String.ofList (before ++ after)) ⟨utf8Len before⟩ = true := by
  refine String.Pos.Raw.isValid_eq_true_iff.2 (String.Pos.Raw.isValid_iff_exists_append.2 ?_)
  refine ⟨String.ofList before, String.ofList after, String.ofList_append, ?_⟩
  rw [String.rawEndPos_ofList]

theorem slice?_append (before part after : List Char) :
    slice? (before ++ part ++ after) (utf8Len before) (utf8Len before + utf8Len part) =
      some part := by
  have hstart := isValid_utf8Len before (part ++ after)
  have hstop := isValid_utf8Len (before ++ part) after
  rw [← List.append_assoc] at hstart
  rw [String.utf8Len_append] at hstop
  rw [slice?, if_pos ⟨Nat.le_add_right _ _, hstart, hstop⟩, String.extract_of_valid,
    String.toList_ofList]

theorem exists_of_isValid (h : String.Pos.Raw.isValid (String.ofList cs) ⟨start⟩ = true) :
    ∃ before after, cs = before ++ after ∧ start = utf8Len before := by
  obtain ⟨before, after, hs, hstart⟩ :=
    String.Pos.Raw.isValid_iff_exists_append.1 (String.Pos.Raw.isValid_eq_true_iff.1 h)
  refine ⟨before.toList, after.toList, ?_, ?_⟩
  · rw [← String.toList_append, ← hs, String.toList_ofList]
  · rw [String.utf8Len_toList]
    exact congrArg String.Pos.Raw.byteIdx hstart

/-- Of two starts of a text the one with fewer bytes is the start of the other. -/
theorem prefix_of_utf8Len_le {a b : List Char} (ha : a <+: cs) (hb : b <+: cs)
    (h : utf8Len a ≤ utf8Len b) : a <+: b := by
  obtain hab | ⟨more, rfl⟩ := List.prefix_or_prefix_of_prefix ha hb
  · exact hab
  · have hmore : utf8Len more = 0 := by
      rw [String.utf8Len_append] at h
      omega
    obtain rfl := String.utf8Len_eq_zero.1 hmore
    exact (List.append_nil b).symm ▸ List.prefix_rfl

/-- There is such a part exactly if the text can be cut at both positions. -/
theorem slice?_eq_some_iff : slice? cs start stop = some part ↔
    ∃ before after, cs = before ++ part ++ after ∧ start = utf8Len before ∧
      stop = utf8Len before + utf8Len part := by
  constructor
  · intro h
    have hvalid : start ≤ stop ∧ String.Pos.Raw.isValid (String.ofList cs) ⟨start⟩ ∧
        String.Pos.Raw.isValid (String.ofList cs) ⟨stop⟩ := by
      by_contra hvalid
      rw [slice?, if_neg hvalid] at h
      cases h
    obtain ⟨before, rest, hbefore, rfl⟩ := exists_of_isValid hvalid.2.1
    obtain ⟨front, after, hfront, rfl⟩ := exists_of_isValid hvalid.2.2
    have hprefix : before <+: front :=
      prefix_of_utf8Len_le ⟨rest, hbefore.symm⟩ ⟨after, hfront.symm⟩ hvalid.1
    obtain ⟨found, rfl⟩ := hprefix
    rw [String.utf8Len_append] at h ⊢
    rw [hfront, slice?_append] at h
    obtain rfl := Option.some.inj h
    exact ⟨before, after, hfront, rfl, rfl⟩
  · rintro ⟨before, after, rfl, rfl, rfl⟩
    exact slice?_append before part after

end Microbench.Text
