import Mathlib.Data.List.Basic
import Microbench.Text.Lines

/-!
# Lines put together

A captured text is cut into its lines, and lines without line feeds can be put together again.
No line of a captured text holds a line feed: so whatever is chosen of such lines, in whatever
order, is what some captured text is cut into.

## Main definitions

* `Text.OneLine` — a text without a line feed.
* `Text.unlines` — lines put together.

## Main results

* `Text.lines_unlines` — lines that are put together are found again.
* `Text.oneLine_of_mem_lines` — a line holds no line feed.
-/

namespace ByteArray

/-- The bytes from a position on, put before the others. -/
theorem toList_loop_eq (bytes : ByteArray) (i : Nat) (read : List UInt8) :
    toList.loop bytes i read = read.reverse ++ bytes.data.toList.drop i := by
  fun_induction toList.loop bytes i read with
  | case1 i read h ih =>
    have hi : i < bytes.data.toList.length := h
    rw [ih, List.drop_eq_getElem_cons hi, List.reverse_cons, List.append_assoc,
      List.singleton_append]
    congr 2
    exact getElem!_pos bytes.data i h
  | case2 i read h =>
    have hi : bytes.data.toList.length ≤ i := Nat.le_of_not_lt h
    rw [List.drop_eq_nil_of_le hi, List.append_nil]

theorem toList_eq (bytes : ByteArray) : bytes.toList = bytes.data.toList := by
  rw [toList, toList_loop_eq, List.reverse_nil, List.nil_append, List.drop_zero]

end ByteArray

namespace Microbench.Text

open ByteSource (newline carriageReturn)

/-- The bytes of a text. -/
def bytesOf (s : String) : List UInt8 := s.toByteArray.data.toList

/-- Whether a text can stand in one line. -/
def OneLine (s : String) : Prop := newline ∉ bytesOf s

/-- Lines put together, each ended by a carriage return and a line feed. -/
def unlines (texts : List String) : ByteArray :=
  ⟨(texts.flatMap fun s => bytesOf s ++ [carriageReturn, newline]).toArray⟩

/-! ### Put together and cut again -/

/-- The first line ends at the first line feed. -/
theorem lineBytes_append {bytes : List UInt8} (h : newline ∉ bytes) (rest : List UInt8) :
    lineBytes (bytes ++ newline :: rest) = (bytes ++ [newline]) :: lineBytes rest := by
  induction bytes with
  | nil => rw [List.nil_append, lineBytes, if_pos rfl, List.nil_append]
  | cons b bytes ih =>
    rw [List.mem_cons, not_or] at h
    obtain ⟨hb, hbytes⟩ := h
    rw [List.cons_append, lineBytes, if_neg (Ne.symm hb), ih hbytes, List.cons_append]

@[simp] theorem chomp_ended (bytes : List UInt8) :
    chomp (bytes ++ [carriageReturn, newline]) = bytes := by
  simp [chomp]

@[simp] theorem fromUTF8?_bytesOf (s : String) :
    String.fromUTF8? ⟨(bytesOf s).toArray⟩ = some s :=
  dif_pos s.isValidUTF8

/-- Lines that are put together are found again. -/
theorem lines_unlines {texts : List String} (h : ∀ s ∈ texts, OneLine s) :
    lines (unlines texts) = texts := by
  rw [lines, ByteArray.toList_eq, unlines]
  induction texts with
  | nil => rfl
  | cons s texts ih =>
    obtain ⟨hs, htexts⟩ := List.forall_mem_cons.1 h
    have hline : newline ∉ bytesOf s ++ [carriageReturn] := by
      simpa [OneLine, newline, carriageReturn] using hs
    have hcut := lineBytes_append hline
      (texts.flatMap fun s => bytesOf s ++ [carriageReturn, newline])
    rw [List.append_assoc, List.append_assoc, List.singleton_append, List.singleton_append] at hcut
    rw [List.flatMap_cons, List.append_assoc, List.cons_append, List.singleton_append, hcut,
      textsOf, chomp_ended, fromUTF8?_bytesOf]
    exact congrArg (s :: ·) (ih htexts)

/-! ### No line feed in a line -/

/-- A line feed is the last byte of a line or there is none. -/
theorem newline_notMem_of_mem_lineBytes {bytes line : List UInt8} (h : line ∈ lineBytes bytes) :
    newline ∉ line.dropLast := by
  induction bytes generalizing line with
  | nil => exact absurd h List.not_mem_nil
  | cons b bytes ih =>
    rw [lineBytes] at h
    split at h
    · obtain rfl | h := List.mem_cons.1 h
      · exact List.not_mem_nil
      · exact ih h
    · next hb =>
      split at h
      · rw [List.mem_singleton.1 h]
        exact List.not_mem_nil
      · next first rest hrest =>
        obtain rfl | h := List.mem_cons.1 h
        · have hfirst := ih (hrest ▸ List.mem_cons_self)
          cases first with
          | nil => exact List.not_mem_nil
          | cons c first =>
            rw [List.dropLast_cons_cons, List.mem_cons, not_or]
            exact ⟨Ne.symm hb, hfirst⟩
        · exact ih (hrest ▸ List.mem_cons_of_mem _ h)

theorem chomp_of_newline (body : List UInt8) : chomp (body ++ [newline]) <+: body := by
  obtain rfl | ⟨front, c, rfl⟩ := body.eq_nil_or_concat'
  · exact List.prefix_rfl
  · by_cases hc : c = carriageReturn <;> simp [chomp, hc]

theorem chomp_of_ne {b : UInt8} (h : b ≠ newline) (body : List UInt8) :
    chomp (body ++ [b]) = body ++ [b] := by
  simp [chomp, h]

/-- The end of a line is cut off with its line feed. -/
theorem newline_notMem_chomp {line : List UInt8} (h : newline ∉ line.dropLast) :
    newline ∉ chomp line := by
  obtain rfl | ⟨body, b, rfl⟩ := line.eq_nil_or_concat'
  · exact List.not_mem_nil
  · rw [List.dropLast_concat] at h
    by_cases hb : b = newline
    · rw [hb]
      exact fun hmem => h ((chomp_of_newline body).subset hmem)
    · rw [chomp_of_ne hb, List.mem_append, List.mem_singleton, not_or]
      exact ⟨h, Ne.symm hb⟩

theorem exists_of_mem_textsOf {rows : List (List UInt8)} {s : String} (h : s ∈ textsOf rows) :
    ∃ row ∈ rows, bytesOf s = chomp row := by
  induction rows with
  | nil => exact absurd h List.not_mem_nil
  | cons row rows ih =>
    rw [textsOf] at h
    split at h
    · next first hfirst =>
      obtain rfl | h := List.mem_cons.1 h
      · unfold String.fromUTF8? at hfirst
        split at hfirst
        · obtain rfl := Option.some.inj hfirst
          exact ⟨row, List.mem_cons_self, rfl⟩
        · exact absurd hfirst nofun
      · obtain ⟨found, hfound, hs⟩ := ih h
        exact ⟨found, List.mem_cons_of_mem _ hfound, hs⟩
    · exact absurd h List.not_mem_nil

/-- A line holds no line feed. -/
theorem oneLine_of_mem_lines {bytes : ByteArray} {s : String} (h : s ∈ lines bytes) :
    OneLine s := by
  obtain ⟨row, hrow, hs⟩ := exists_of_mem_textsOf h
  rw [OneLine, hs]
  exact newline_notMem_chomp (newline_notMem_of_mem_lineBytes hrow)

end Microbench.Text
